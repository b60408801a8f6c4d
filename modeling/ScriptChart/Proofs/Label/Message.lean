import ScriptChart.Proofs.Label.Depth
import ScriptChart.Proofs.Label.Report
import ScriptChart.Proofs.Project.Slot

/-!
# The ways in which a message is given

A message is given by a name and an id. They are written in a field of a block, in a primitive that
stands in an input slot by itself or wrapped, or in the only field of a block that sits in the slot,
as a menu does. Whichever way is taken, the target is asked for the name under which it knows the
id, and only when it does not know the id the name that was given is shown and a fault is reported.
A dictionary is not asked, even when the name looks like the value of a menu.

## Main definitions

* `messageField`, `messagePrimitive`: a name and an id as they are written.
* `GivesMessage`: the values that give a message in an input slot.

## Main results

* `Resolver.freshly_input_menu`: a menu of messages in an input slot.
* `message_alike`: all ways of giving a message are shown alike.
-/

namespace ScriptChart.Label

open ScriptChart.Json (Value)
open ScriptChart.Phrase ScriptChart.Project

/-- A message as the value of a field. -/
def messageField (given id : String) : Value := .array [.string given, .string id]

/-- A message as a primitive: its code, its name and its id. -/
def messagePrimitive (given id : String) : Value :=
  .array [.number (.int broadcastCode), .string given, .string id]

/-- A block consists of a field that holds a message. -/
structure IsMessageMenu (given id : String) (block : Block) : Prop where
  inputs : block.inputs = ∅
  fields : ∃ key ∈ Resolver.broadcastFields,
    block.fields.entries = [(key, .ofValue (messageField given id))]

/-- A value gives a message in an input slot of a target: as a primitive, as one that is wrapped, or
by a block that consists of a field for it. -/
inductive GivesMessage (target : Target) (given id : String) : Value → Prop
  | bare : GivesMessage target given id (messagePrimitive given id)
  | wrapped {code : Int} (wraps : Wraps code) :
      GivesMessage target given id (.array [.number (.int code), messagePrimitive given id])
  | menu {written : Value} {menu : String} {block : Block} (refers : IsReference menu written)
      (present : target.block? menu = some block) (alone : IsMessageMenu given id block) :
      GivesMessage target given id written

namespace Resolver

variable {r : Resolver} {given id : String}

/-- A field for messages shows the message that it holds. -/
theorem field_messageField {key : String} (holds : key ∈ broadcastFields) (opcode : String) :
    r.field opcode key (.ofValue (messageField given id)) = r.broadcast given (some id) :=
  if_pos (List.contains_iff_mem.mpr holds)

theorem freshly_input_broadcast (given : String) (id : Option String) :
    (r.input (.broadcast given id)).freshly = r.broadcast given id := by
  ext1 <;> simp [Rendering.freshly, input, inputVia]

/-- The only field of a menu of messages shows the message, unless its name is empty. -/
theorem fields_of_isMessageMenu {block : Block} (alone : IsMessageMenu given id block)
    (named : (r.broadcast given (some id)).value ≠ "") :
    r.fields block = (fun text => [text]) <$> r.broadcast given (some id) := by
  obtain ⟨key, holds, single⟩ := alone.fields
  have kept : (r.broadcast given (some id)).value.isEmpty = false := by simpa using named
  ext1 <;> simp [fields, single, field_messageField holds, kept]

/-- A menu of messages in an input slot shows the message, unless its name is empty. -/
theorem freshly_input_menu {menu : String} {block : Block}
    (present : r.target.block? menu = some block) (alone : IsMessageMenu given id block)
    (named : (r.broadcast given (some id)).value ≠ "") :
    (r.input (.block menu)).freshly = r.broadcast given (some id) := by
  have entered : (r.input (.block menu)).run .start =
      (r.referenceWithin (127 + 1) menu block).run .start := by
    simp only [input, inputVia, present]
    rfl
  have lone : (block.inputs.isEmpty && block.fields.size == 1) = true := by
    obtain ⟨key, -, single⟩ := alone.fields
    rw [alone.inputs, OrderedMap.size, single]
    rfl
  have shown : ∀ reference, r.expandVia reference block = liftM (r.broadcast given (some id)) := by
    intro reference
    rw [expandVia, fields_of_isMessageMenu alone named, lone]
    simp
  rw [Rendering.freshly, entered, r.run_referenceWithin_succ List.not_mem_nil, shown]
  ext1 <;> simp

/-- Every value that gives a message in an input slot shows it, unless its name is empty. -/
theorem freshly_input_of_givesMessage {written : Value}
    (gives : GivesMessage r.target given id written)
    (named : (r.broadcast given (some id)).value ≠ "") :
    (r.input (.ofValue written)).freshly = r.broadcast given (some id) := by
  cases gives with
  | bare =>
    rw [messagePrimitive, InputValue.ofValue_of_isMessage (.coded ⟨_, rfl⟩)]
    exact freshly_input_broadcast given (some id)
  | wrapped wraps =>
    rw [messagePrimitive, InputValue.ofValue_of_isWrapped (.wrapped wraps),
      InputValue.ofPrimitive_of_begins ⟨_, rfl⟩]
    exact freshly_input_broadcast given (some id)
  | menu refers present alone =>
    rw [InputValue.ofValue_of_isReference refers]
    exact freshly_input_menu present alone named

end Resolver

/-- All ways of giving a message are shown alike, with the same faults and with any dictionary, when
the name that is shown is not empty: a field for messages, whatever the block, and every value that
gives the message in an input slot, on a new trail. The name that the target has for the id is shown
when it has one. Otherwise the name that was given is shown, and the only fault is that the message
is missing. -/
theorem message_alike (target : Target) {given id : String}
    (named : (target.broadcasts.get? id).getD given ≠ "") :
    ∃ shown : Report String,
      (∀ name, target.broadcasts.get? id = some name → shown = ⟨name, []⟩) ∧
      (target.broadcasts.get? id = none →
        shown = ⟨given, [.missingBroadcast target.name id given]⟩) ∧
      ∀ dictionary : Dictionary,
        (∀ opcode, ∀ key ∈ Resolver.broadcastFields,
          (Resolver.mk target dictionary).field opcode key (.ofValue (messageField given id)) =
            shown) ∧
        ∀ written, GivesMessage target given id written →
          ((Resolver.mk target dictionary).input (.ofValue written)).freshly = shown := by
  -- a dictionary is not asked for a message, so any one will do
  let asked : Report String := (Resolver.mk target (.ofList [])).broadcast given (some id)
  have registered : ∀ name, target.broadcasts.get? id = some name → asked = ⟨name, []⟩ := by
    intro name known
    simp only [asked, Resolver.broadcast, known]
    rfl
  have unregistered : target.broadcasts.get? id = none →
      asked = ⟨given, [.missingBroadcast target.name id given]⟩ := by
    intro unknown
    simp only [asked, Resolver.broadcast, unknown]
    rfl
  have nonempty : asked.value ≠ "" := by
    cases known : target.broadcasts.get? id with
    | some name => simpa [registered name known, known] using named
    | none => simpa [unregistered known, known] using named
  refine ⟨asked, registered, unregistered, fun dictionary => ⟨fun opcode key holds => ?_,
    fun written gives => ?_⟩⟩
  · exact Resolver.field_messageField holds opcode
  · exact Resolver.freshly_input_of_givesMessage gives nonempty

/-- A menu of messages that holds a message with the name of a menu value. -/
def edgeMenu : Block :=
  { opcode := "event_broadcast_menu"
    fields := .ofList [("BROADCAST_OPTION", .ofValue (messageField "_edge_" "gone"))] }

/-- A target with the menu, which knows another message only. -/
def edgeTarget : Target :=
  { name := "Cat"
    blocks := .ofList [("menu", edgeMenu)]
    broadcasts := .ofList [("go", "start")] }

/-- The name is shown as it was given, although the dictionary has a phrase for it, and the message
that is known is shown by its registered name. -/
theorem message_alike_edgeTarget :
    Dictionary.english.menuValue? edgeMenu.opcode "_edge_" = some "edge" ∧
      ((edgeTarget.broadcasts.get? "gone").getD "_edge_" ≠ "" ∧
        ((Resolver.mk edgeTarget .english).input (.ofValue (.string "menu"))).freshly =
          ⟨"_edge_", [.missingBroadcast "Cat" "gone" "_edge_"]⟩) ∧
      (edgeTarget.broadcasts.get? "go").getD "old" ≠ "" ∧
        ((Resolver.mk edgeTarget .english).input (.ofValue (messagePrimitive "old" "go"))).freshly =
          ⟨"start", []⟩ := by
  have missing : (edgeTarget.broadcasts.get? "gone").getD "_edge_" ≠ "" := by decide +kernel
  have known : (edgeTarget.broadcasts.get? "go").getD "old" ≠ "" := by decide +kernel
  have present : edgeTarget.block? "menu" = some edgeMenu := rfl
  have alone : IsMessageMenu "_edge_" "gone" edgeMenu :=
    ⟨rfl, "BROADCAST_OPTION", by decide, rfl⟩
  refine ⟨by decide +kernel, ⟨missing, ?_⟩, known, ?_⟩
  · obtain ⟨shown, -, unregistered, alike⟩ := message_alike edgeTarget missing
    rw [(alike .english).2 _ (.menu .plain present alone), unregistered rfl]
    rfl
  · obtain ⟨shown, registered, -, alike⟩ := message_alike edgeTarget known
    rw [(alike .english).2 _ .bare, registered _ rfl]

end ScriptChart.Label
