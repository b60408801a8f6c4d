import ScriptChart.Json.Strings
import ScriptChart.Label.Keys
import ScriptChart.Label.Report
import ScriptChart.Phrase.Lookup
import ScriptChart.Phrase.Wording

/-!
# Values as text

What an input slot shows: a text, the name of a message, or the block that sits in the slot, whose
own fields and inputs are shown within its phrase.

A block that was already expanded for the same label is not expanded again, and expansions nest no
deeper than a fixed limit. Either way fixed words are shown and the fault is reported.

## Main definitions

* `Resolver`: the target that ids refer to, and the dictionary.
* `Resolver.field`, `Resolver.input`, `Resolver.reference`: the text of a field, of an input, and
  of a block in an input slot.
* `Resolver.procedure?`: the wording of a custom procedure with its slots filled.
-/

namespace ScriptChart.Label

open ScriptChart.Phrase ScriptChart.Project

/-- Where ids and phrases are looked up. -/
structure Resolver where
  target : Target
  dictionary : Dictionary

/-- How deep expansions may nest. -/
def expansionLimit : Nat := 128

/-- How a block in an input slot is shown. -/
abbrev ReferenceText := String → Block → Rendering String

/-- The argument ids that a mutation lists, none if it does not list any properly. -/
def argumentIds (mutation : Mutation) : List String :=
  (mutation.argumentids.bind Json.stringsOfText?).getD []

/-- The wording of a procedure with one text after the other in its slots, which are asked for as
the slots are met. Slots beyond the last argument stay as written. -/
def fillSlots (argument : String → Rendering String) :
    List Part → List String → Rendering (List Char)
  | [], _ => return []
  | .plain c :: parts, ids => return c :: (← fillSlots argument parts ids)
  | .slot kind :: parts, [] => return '%' :: kind :: (← fillSlots argument parts [])
  | .slot _ :: parts, id :: ids => do
    let text ← argument id
    return text.toList ++ (← fillSlots argument parts ids)

namespace Resolver

variable (r : Resolver)

/-- The name of a message: the one that the target has for its id, else the one it was given. -/
def broadcast (given : String) : Option String → Report String
  | none => return given
  | some id =>
    match r.target.broadcasts.get? id with
    | some name => return name
    | none => do
      Report.fault (.missingBroadcast r.target.name id given)
      return given

/-- The fields that hold a message. -/
def broadcastFields : List String := ["BROADCAST_OPTION", "BROADCAST_INPUT"]

/-- The text of a field: the name of a message, or the phrase of a menu value, or what it holds. -/
def field (opcode name : String) (value : FieldValue) : Report String :=
  if broadcastFields.contains name then r.broadcast value.display value.id
  else return (r.dictionary.menuValue? opcode value.display).getD value.display

/-- The texts of a block's fields, without the empty ones. -/
def fields (block : Block) : Report (List String) := do
  let texts ← block.fields.entries.mapM fun entry => r.field block.opcode entry.1 entry.2
  return texts.filter fun text => !text.isEmpty

/-- The text of an input, given how a block in it is shown. -/
def inputVia (reference : ReferenceText) : InputValue → Rendering String
  | .literal text => return text
  | .nested inner => inputVia reference inner
  | .broadcast name id => liftM (r.broadcast name id)
  | .block id =>
    match r.target.block? id with
    | some block => reference id block
    | none => do
      liftM (Report.fault (.missingBlock r.target.name id))
      return id

/-- The wording of the custom procedure that a block calls, with its slots filled. -/
def procedureVia (reference : ReferenceText) (block : Block) : Rendering (Option String) :=
  match block.mutation with
  | some ⟨some wording, argumentids⟩ => do
    let argument := fun id =>
      match block.inputs.get? id with
      | some value => r.inputVia reference value
      | none => return ""
    let text ← fillSlots argument (cutWording wording.toList)
      (argumentIds ⟨some wording, argumentids⟩)
    return some (String.ofList text)
  | _ => return none

/-- The texts of some inputs of a block, without the empty ones. -/
def operandsVia (reference : ReferenceText) (block : Block) (keys : List String) :
    Rendering (List String) := do
  let texts ← (keys.filterMap block.inputs.get?).mapM (r.inputVia reference)
  return texts.filter fun text => !text.isEmpty

/-- The keys of a block's inputs in the order in which they are shown within a value. -/
def valueKeys (block : Block) : List String :=
  if Text.beginsWith "operator" block.opcode then operatorKeys block else statementKeys block

/-- A block in an input slot without its phrase: its action, followed by its operands. -/
def bareValue (opcode : String) (params : List String) : String :=
  " ".intercalate (Phrase.action opcode :: params)

/-- The text of a block in an input slot. A block that consists of one field is shown as that
field, a procedure call by its wording, and any other block by its phrase. -/
def expandVia (reference : ReferenceText) (block : Block) : Rendering String := do
  let fields ← liftM (r.fields block)
  match block.inputs.isEmpty && block.fields.size == 1, fields with
  -- a menu shows what was chosen from it
  | true, [value] => return value
  | _, _ =>
    match ← r.procedureVia reference block with
    | some label => return label
    | none =>
      let operands ← r.operandsVia reference block (valueKeys block)
      let params := fields ++ operands
      return (r.dictionary.render? block.opcode params).getD (bareValue block.opcode params)

/-- The text of a block in an input slot within which a number of expansions may be nested. -/
def referenceWithin : Nat → ReferenceText
  | 0, id, _ => do
    liftM (Report.fault (.depthLimit r.target.name id))
    return r.dictionary.synthetic .runaway
  | levels + 1, id, block => do
    if (← get).expanded.contains id then
      liftM (Report.fault (.circularReference r.target.name id))
      return r.dictionary.synthetic .circularReference
    else
      -- what is expanded below shares the trail and one level less
      modify fun trail => trail.enter id
      let text ← r.expandVia (referenceWithin levels) block
      modify Trail.leave
      return text

/-- The text of a block in an input slot. -/
def reference : ReferenceText := fun id block => do
  r.referenceWithin (expansionLimit - (← get).depth) id block

/-- The text of an input. -/
def input (value : InputValue) : Rendering String := r.inputVia r.reference value

/-- The wording of the custom procedure that a block calls, with its slots filled. -/
def procedure? (block : Block) : Rendering (Option String) := r.procedureVia r.reference block

end Resolver

end ScriptChart.Label
