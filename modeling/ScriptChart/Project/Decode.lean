import ScriptChart.Json.Strings
import ScriptChart.Project.Slot

/-!
# Reading a program

A program is written as JSON. Programs, targets, blocks and mutations are objects with known
members; any member may be missing. A program, a target or a mutation may also be written as an
array of its members in their fixed order. Members of other names are passed over: in a program
and a target without being read at all.

Blocks are first read as values. An entry that is not an object is a reporter that lies loose on
the canvas and is dropped. If one of the other entries is not a block, nothing is read.

## Main definitions

* `Block.ofValue?`: a block as it is written.
* `decodeBlocks?`: the blocks of a target.
* `Program.ofTree?`, `Program.ofBytes?`: a program as it is written.
-/

namespace ScriptChart.Project

open ScriptChart.Json (Literal Tree Value)

/-! ### The members of a record -/

/-- What is written for each of the known members of a record: by name in an object, by place in
an array, which may be shorter but not longer. -/
def membersOfValue? (names : List String) : Value → Option (List (Option Value))
  | .object members => some (names.map fun name => members.lookup name)
  | .array items =>
    if items.length ≤ names.length then
      some (items.map some ++ List.replicate (names.length - items.length) none)
    else none
  | _ => none

/-- What is written for each of the known members of a record whose members are not yet read. No
known member may be written twice. -/
def membersOfTree? (names : List String) : Tree → Option (List (Option Tree))
  | .object members => do
    let named ← members.mapM fun member => do return ((← Literal.text? member.1), member.2)
    -- the other members are not read, whatever they hold
    let known := named.filter fun member => names.contains member.1
    if (known.map Prod.fst).Nodup then some (names.map fun name => known.lookup name) else none
  | .array items =>
    if items.length ≤ names.length then
      some (items.map some ++ List.replicate (names.length - items.length) none)
    else none
  | .scalar _ => none

/-- A member that has a default when it is missing. -/
def orDefault {α β : Type} (read : α → Option β) (default : β) : Option α → Option β
  | none => some default
  | some written => read written

/-- A text. -/
def text? : Value → Option String
  | .string text => some text
  | _ => none

/-- A truth value. -/
def truth? : Value → Option Bool
  | .bool value => some value
  | _ => none

/-- A text, or null for no text. -/
def optionalText? : Value → Option (Option String)
  | .null => some none
  | .string text => some (some text)
  | _ => none

/-- The members of an object, converted one by one. -/
def table {α : Type} (convert : Value → α) : Value → Option (OrderedMap α)
  | .object members =>
    some ((OrderedMap.ofList members).filterMap fun value => some (convert value))
  | _ => none

/-! ### Blocks -/

/-- A mutation as it is written, or null for no mutation. -/
def Mutation.ofValue? (value : Value) : Option (Option Mutation) :=
  match value with
  | .null => some none
  | written =>
    match membersOfValue? ["proccode", "argumentids"] written with
    | some [proccode, argumentids] => do
      let proccode ← orDefault optionalText? none proccode
      let argumentids ← orDefault optionalText? none argumentids
      return some ⟨proccode, argumentids⟩
    | _ => none

/-- The names of a block's members. -/
def Block.memberNames : List String :=
  ["opcode", "next", "parent", "topLevel", "fields", "inputs", "mutation"]

/-- A block as it is written. -/
def Block.ofValue? (value : Value) : Option Block :=
  match membersOfValue? Block.memberNames value with
  | some [opcode, next, parent, topLevel, fields, inputs, mutation] => do
    let opcode ← orDefault text? "" opcode
    let next ← orDefault optionalText? none next
    let parent ← orDefault optionalText? none parent
    let topLevel ← orDefault truth? false topLevel
    let fields ← orDefault (table FieldValue.ofValue) ∅ fields
    let inputs ← orDefault (table InputValue.ofValue) ∅ inputs
    let mutation ← orDefault Mutation.ofValue? none mutation
    return { opcode, next, parent, topLevel, fields, inputs, mutation }
  | _ => none

/-- Whether a value is an object. -/
def isObject : Value → Bool
  | .object _ => true
  | _ => false

/-- The blocks of a target: every entry that is an object, or nothing if one of them is no
block. -/
def decodeBlocks? (written : OrderedMap Value) : Option (OrderedMap Block) :=
  (written.filterMap fun value => if isObject value then some value else none).mapM? Block.ofValue?

/-! ### Targets and programs -/

/-- The containers around a value within the blocks of a target: the program, its targets, the
target and its blocks. -/
def blockNesting : Nat := 4

/-- The blocks of a target as they are written. -/
def blocksOfTree? : Tree → Option (OrderedMap Block)
  | .object members => do
    let read ← members.mapM fun member => do
      let name ← Literal.text? member.1
      let value ← Value.ofTree? (Json.depthLimit - blockNesting) member.2
      return (name, value)
    decodeBlocks? (OrderedMap.ofList read)
  | _ => none

/-- A truth value that is written as a tree. -/
def truthOfTree? : Tree → Option Bool
  | .scalar (.bool value) => some value
  | _ => none

/-- A target as it is written. -/
def Target.ofTree? (tree : Tree) : Option Target :=
  match membersOfTree? ["name", "isStage", "blocks", "broadcasts"] tree with
  | some [name, isStage, blocks, broadcasts] => do
    let name ← orDefault Tree.string? "" name
    let isStage ← orDefault truthOfTree? false isStage
    let blocks ← orDefault blocksOfTree? ∅ blocks
    let broadcasts ← orDefault Tree.stringTable? ∅ broadcasts
    return { name, isStage, blocks, broadcasts }
  | _ => none

/-- The targets of a program as they are written. -/
def targetsOfTree? : Tree → Option (List Target)
  | .array items => items.mapM Target.ofTree?
  | _ => none

/-- A program as it is written. -/
def Program.ofTree? (tree : Tree) : Option Program :=
  match membersOfTree? ["targets"] tree with
  | some [targets] => (orDefault targetsOfTree? [] targets).map Program.mk
  | _ => none

/-- The program that the bytes of a text describe. -/
def Program.ofBytes? (bytes : List UInt8) : Option Program :=
  (Tree.ofBytes? bytes).bind Program.ofTree?

end ScriptChart.Project
