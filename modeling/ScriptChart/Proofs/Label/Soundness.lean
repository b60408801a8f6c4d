import ScriptChart.Label.Statement
import ScriptChart.Proofs.Label.Closed

/-!
# Faults that labels report

What is reported while a label is put together is true of the target that ids refer to. A block or a
message is called missing only where it was looked up and not found, and a value is cut only at a
block that was looked up and found: a reference is expanded for a block of the target, and the
references within it are those that its inputs name.

## Main definitions

* `Diagnostic.HoldsOf`: a fault tells the truth about a target.
* `Report.Only`, `ReportsOnly`: all faults of a report, or of a rendering, have a property.

## Main results

* `reportsOnly_reference`, `reportsOnly_input`: values report what holds of the target.
* `only_nodeLabel`: labels report what holds of the target.
-/

namespace ScriptChart

open ScriptChart.Project

/-- A fault tells the truth about a target: it bears the target's name, what it calls missing is not
there, and the block at which something was cut is there. -/
def Diagnostic.HoldsOf (target : Target) : Diagnostic → Prop
  | .missingBlock name id => name = target.name ∧ id ∉ target.blocks.names
  | .missingBroadcast name id _ => name = target.name ∧ id ∉ target.broadcasts.names
  | .circularReference name id => name = target.name ∧ id ∈ target.blocks.names
  | .depthLimit name id => name = target.name ∧ id ∈ target.blocks.names

namespace Diagnostic

variable {target : Target} {id : String}

theorem HoldsOf.target_eq {fault : Diagnostic} (holds : fault.HoldsOf target) :
    fault.target = target.name := by
  cases fault <;> exact holds.1

theorem holdsOf_missingBlock (absent : target.hasBlock id = false) :
    HoldsOf target (.missingBlock target.name id) := by
  refine ⟨rfl, fun inside => ?_⟩
  rw [← OrderedMap.contains_iff_mem_names] at inside
  exact Bool.false_ne_true (absent.symm.trans inside)

theorem holdsOf_missingBroadcast (absent : target.broadcasts.get? id = none) (given : String) :
    HoldsOf target (.missingBroadcast target.name id given) := by
  refine ⟨rfl, fun inside => ?_⟩
  rw [← OrderedMap.contains_iff_mem_names, OrderedMap.contains, absent] at inside
  exact Bool.false_ne_true inside

theorem holdsOf_circularReference (present : target.hasBlock id = true) :
    HoldsOf target (.circularReference target.name id) :=
  ⟨rfl, (OrderedMap.contains_iff_mem_names _ _).mp present⟩

theorem holdsOf_depthLimit (present : target.hasBlock id = true) :
    HoldsOf target (.depthLimit target.name id) :=
  ⟨rfl, (OrderedMap.contains_iff_mem_names _ _).mp present⟩

end Diagnostic

namespace Label

open ScriptChart.Phrase

section

variable {α β : Type} {holds : Diagnostic → Prop}

/-- All faults of a report have a property. -/
def Report.Only (holds : Diagnostic → Prop) (report : Report α) : Prop :=
  ∀ fault ∈ report.diagnostics, holds fault

/-- All that a rendering reports has a property, whichever trail it begins with. -/
def ReportsOnly (holds : Diagnostic → Prop) (rendering : Rendering α) : Prop :=
  ∀ trail, (rendering.run trail).Only holds

/-! ### Rules for reports -/

namespace Report.Only

theorem pure (value : α) : Only holds (Pure.pure value) :=
  fun _ inside => absurd inside List.not_mem_nil

theorem fault {diagnostic : Diagnostic} (told : holds diagnostic) :
    Only holds (Report.fault diagnostic) := by
  intro other inside
  rw [List.mem_singleton.mp inside]
  exact told

theorem bind {report : Report α} {next : α → Report β} (only : report.Only holds)
    (later : ∀ value, (next value).Only holds) : (report >>= next).Only holds := by
  intro fault inside
  rw [diagnostics_bind, List.mem_append] at inside
  rcases inside with inside | inside
  · exact only fault inside
  · exact later _ fault inside

theorem map {report : Report α} (only : report.Only holds) (change : α → β) :
    (change <$> report).Only holds := by
  unfold Only
  rw [diagnostics_map]
  exact only

theorem mapM {items : List α} {report : α → Report β}
    (each : ∀ item ∈ items, (report item).Only holds) : (items.mapM report).Only holds := by
  intro fault inside
  rw [diagnostics_mapM, List.mem_flatMap] at inside
  obtain ⟨item, chosen, inside⟩ := inside
  exact each item chosen fault inside

end Report.Only

/-! ### Rules for renderings -/

namespace ReportsOnly

theorem pure (value : α) : ReportsOnly holds (Pure.pure value) :=
  fun trail => .pure (value, trail)

theorem bind {first : Rendering α} {next : α → Rendering β} (only : ReportsOnly holds first)
    (later : ∀ value, ReportsOnly holds (next value)) : ReportsOnly holds (first >>= next) := by
  intro trail
  rw [StateT.run_bind]
  exact (only trail).bind fun result => later result.1 result.2

theorem liftM {report : Report α} (only : report.Only holds) :
    ReportsOnly holds (MonadLiftT.monadLift report : Rendering α) :=
  fun trail => only.bind fun value => .pure (value, trail)

theorem get : ReportsOnly holds (MonadState.get : Rendering Trail) :=
  fun trail => .pure (trail, trail)

theorem modify (change : Trail → Trail) : ReportsOnly holds (modify change : Rendering Unit) :=
  fun trail => .pure ((), change trail)

theorem freshly {rendering : Rendering α} (only : ReportsOnly holds rendering) :
    rendering.freshly.Only holds :=
  (only .start).map Prod.fst

end ReportsOnly

end

namespace Resolver

variable (r : Resolver)

/-! ### Fields -/

section

variable {holds : Diagnostic → Prop}
  (told : ∀ id given, r.target.broadcasts.get? id = none →
    holds (.missingBroadcast r.target.name id given))
include told

/-- A message is called missing where the target has no name for it, and nothing else is
reported. -/
theorem only_broadcast (given : String) (id : Option String) :
    (r.broadcast given id).Only holds := by
  cases id with
  | none => exact .pure given
  | some id =>
    simp only [broadcast]
    cases found : r.target.broadcasts.get? id with
    | some name => exact .pure name
    | none => exact .bind (.fault (told id given found)) fun _ => .pure given

theorem only_field (opcode name : String) (value : FieldValue) :
    (r.field opcode name value).Only holds := by
  unfold field
  split
  · exact r.only_broadcast told value.display value.id
  · exact .pure _

theorem only_fields (block : Block) : (r.fields block).Only holds :=
  .bind (.mapM fun entry _ => r.only_field told block.opcode entry.1 entry.2) fun _ => .pure _

end

/-! ### Inputs and references -/

theorem holdsOf_missing (id given : String) (absent : r.target.broadcasts.get? id = none) :
    (Diagnostic.missingBroadcast r.target.name id given).HoldsOf r.target :=
  Diagnostic.holdsOf_missingBroadcast absent given

/-- What is rendered for a target, except for references, reports what holds of the target. -/
theorem closed_reportsOnly :
    r.Closed fun rendering => ReportsOnly (Diagnostic.HoldsOf r.target) rendering where
  pure := .pure
  bind := .bind
  fields block := .liftM (r.only_fields r.holdsOf_missing block)
  broadcast given id := .liftM (r.only_broadcast r.holdsOf_missing given id)
  missing absent := .liftM (.fault (Diagnostic.holdsOf_missingBlock absent))

/-- A value is cut at a block of the target, however deep references may nest. -/
theorem reportsOnly_referenceWithin (levels : Nat) (id : String) (block : Block)
    (present : r.target.hasBlock id = true) :
    ReportsOnly (Diagnostic.HoldsOf r.target) (r.referenceWithin levels id block) := by
  -- induction on the levels: what an expansion refers to has one level less
  induction levels generalizing id block with
  | zero => exact .bind (.liftM (.fault (Diagnostic.holdsOf_depthLimit present))) fun _ => .pure _
  | succ levels ih =>
    unfold referenceWithin
    refine .bind .get fun trail => ?_
    split
    · have told := Diagnostic.holdsOf_circularReference present
      exact .bind (.liftM (.fault told)) fun _ => .pure _
    · refine .bind (.modify _) fun _ => ?_
      refine .bind (r.closed_reportsOnly.expandVia ih block) fun _ => ?_
      exact .bind (.modify _) fun _ => .pure _

/-- What a block in an input slot reports holds of the target. -/
theorem reportsOnly_reference (id : String) (block : Block)
    (present : r.target.hasBlock id = true) :
    ReportsOnly (Diagnostic.HoldsOf r.target) (r.reference id block) :=
  .bind .get fun _ => r.reportsOnly_referenceWithin _ id block present

/-- What an input reports holds of the target. -/
theorem reportsOnly_input (value : InputValue) :
    ReportsOnly (Diagnostic.HoldsOf r.target) (r.input value) :=
  r.closed_reportsOnly.inputVia r.reportsOnly_reference value

/-! ### Labels -/

theorem only_parameters (block : Block) :
    (r.parameters block).Only (Diagnostic.HoldsOf r.target) := by
  refine .bind (r.only_fields r.holdsOf_missing block) fun fields => ?_
  refine .bind (.mapM fun value _ => (r.reportsOnly_input value).freshly) fun inputs => ?_
  exact .pure _

theorem only_statement (block : Block) :
    (r.statement block).Only (Diagnostic.HoldsOf r.target) := by
  have procedure : (r.procedure? block).freshly.Only (Diagnostic.HoldsOf r.target) :=
    (r.closed_reportsOnly.procedureVia r.reportsOnly_reference block).freshly
  refine .bind procedure fun label => ?_
  cases label with
  | some label => exact .pure label
  | none => exact .bind (r.only_parameters block) fun _ => .pure _

theorem only_condition (block : Block) :
    (r.condition block).Only (Diagnostic.HoldsOf r.target) := by
  unfold condition
  split
  · exact (r.reportsOnly_input _).freshly
  · exact .pure ""

/-- What a label reports holds of the target. -/
theorem only_nodeLabel (block : Block) :
    (r.nodeLabel block).Only (Diagnostic.HoldsOf r.target) := by
  unfold nodeLabel
  split
  · exact (r.only_condition block).map _
  · exact r.only_statement block

end Resolver

end Label

end ScriptChart
