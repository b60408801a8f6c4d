import ScriptChart.Label.Statement
import ScriptChart.Proofs.Project.Mention
import ScriptChart.Proofs.Project.Replace

/-!
# Labels in targets that look alike

A label is put together from a block's own fields and inputs and from the blocks that its inputs
name, and so on. Of a block it shows the opcode, the fields, the procedure call and the inputs in an
order. So labels are the same in two targets in which this is the same of all blocks that they come
upon, and so are the faults reported with them.

## Main definitions

* `ShownAlike`: two blocks cannot be told apart in an input slot.
* `ShownAlikeOn`: two targets hold blocks that cannot be told apart under some ids, which lead to no
  other ids.

## Main results

* `referenceWithin_congr`, `input_congr`: values are shown alike in targets that look alike.
* `nodeLabel_congr`: so are the labels of blocks.
-/

namespace ScriptChart

theorem OrderedMap.isEmpty_congr {α : Type} {first second : OrderedMap α}
    (same : second.get? = first.get?) : second.isEmpty = first.isEmpty := by
  have empty : ∀ m : OrderedMap α, m.isEmpty = true ↔ ∀ name, m.get? name = none := by
    intro m
    simp only [isEmpty, List.isEmpty_iff, List.eq_nil_iff_forall_not_mem, Prod.forall,
      ← get?_eq_some_iff, Option.eq_none_iff_forall_ne_some, ne_eq]
  rw [Bool.eq_iff_iff, empty, empty, same]

namespace Label

open ScriptChart.Phrase ScriptChart.Project

theorem mapM_congr {m : Type → Type} [Monad m] [LawfulMonad m] {α β : Type} {items : List α}
    {text text' : α → m β} (each : ∀ item ∈ items, text' item = text item) :
    items.mapM text' = items.mapM text := by
  induction items with
  | nil => rfl
  | cons item rest ih =>
    rw [List.mapM_cons, List.mapM_cons, each item List.mem_cons_self,
      ih fun other inside => each other (List.mem_cons_of_mem item inside)]

/-- Two blocks cannot be told apart in an input slot: they have the same opcode, fields and
procedure call, and the same inputs, which are shown in the same order. -/
structure ShownAlike (block other : Block) : Prop where
  opcode : other.opcode = block.opcode
  fields : other.fields = block.fields
  mutation : other.mutation = block.mutation
  input? : other.inputs.get? = block.inputs.get?
  valueKeys : Resolver.valueKeys other = Resolver.valueKeys block

theorem ShownAlike.refl (block : Block) : ShownAlike block block := ⟨rfl, rfl, rfl, rfl, rfl⟩

/-- The inputs of a block name known ids only. -/
def InputsWithin (known : String → Prop) (block : Block) : Prop :=
  ∀ {name value}, block.inputs.get? name = some value → ∀ id, value.Names id → known id

/-- Two targets of one name and with the same messages hold blocks that cannot be told apart under
the ids that are known, and the inputs of these blocks name known ids only. -/
structure ShownAlikeOn (known : String → Prop) (target other : Target) : Prop where
  name : other.name = target.name
  broadcasts : other.broadcasts = target.broadcasts
  block? : ∀ {id}, known id → Option.Rel ShownAlike (target.block? id) (other.block? id)
  closed : ∀ {id} {block : Block}, known id → target.block? id = some block →
    InputsWithin known block

theorem rel_refl (found : Option Block) : Option.Rel ShownAlike found found := by
  cases found with
  | none => exact .none
  | some block => exact .some (.refl block)

theorem ShownAlikeOn.refl (target : Target) : ShownAlikeOn (fun _ => True) target target :=
  ⟨rfl, rfl, fun _ => rel_refl _, fun _ _ _ _ _ _ _ => trivial⟩

/-- Targets that agree look alike. -/
theorem shownAlikeOn_of_agreesOn {known : String → Prop} {target other : Target}
    (agree : target.AgreesOn known other) : ShownAlikeOn known target other where
  name := agree.name
  broadcasts := agree.broadcasts
  block? inside := agree.block? inside ▸ rel_refl _
  closed inside present _ _ held _ names := agree.closed inside present (.input held names)

/-- A target looks as before when a block takes the place of one that it cannot be told apart
from. -/
theorem shownAlikeOn_withBlock {target : Target} {id : String} {block other : Block}
    (present : target.block? id = some block) (same : ShownAlike block other) :
    ShownAlikeOn (fun _ => True) target (target.withBlock id other) where
  name := rfl
  broadcasts := rfl
  block? {asked} _ := by
    rw [Target.block?_withBlock]
    split
    · next here =>
      rw [here, present]
      exact .some same
    · exact rel_refl _
  closed _ _ _ _ _ _ _ := trivial

namespace Resolver

variable {known : String → Prop} {target other : Target} (alike : ShownAlikeOn known target other)
  (dictionary : Dictionary)
include alike

/-! ### Fields -/

theorem broadcast_congr (given : String) (id : Option String) :
    (Resolver.mk other dictionary).broadcast given id =
      (Resolver.mk target dictionary).broadcast given id := by
  cases id with
  | none => rfl
  | some id => simp only [broadcast, alike.name, alike.broadcasts]

theorem fields_congr {block block' : Block} (same : ShownAlike block block') :
    (Resolver.mk other dictionary).fields block' =
      (Resolver.mk target dictionary).fields block := by
  simp only [fields, field, broadcast_congr alike dictionary, same.opcode, same.fields]

/-! ### Inputs and references -/

section

variable {reference reference' : ReferenceText}
  (each : ∀ id block block', ShownAlike block block' → InputsWithin known block →
    reference' id block' = reference id block)
include each

theorem inputVia_congr {value : InputValue} (inside : ∀ id, value.Names id → known id) :
    (Resolver.mk other dictionary).inputVia reference' value =
      (Resolver.mk target dictionary).inputVia reference value := by
  induction value with
  | literal text => rfl
  | nested inner ih => exact ih inside
  | broadcast name id => rw [inputVia, inputVia, broadcast_congr alike]
  | block id =>
    have here := inside id rfl
    have found := alike.block? here
    simp only [inputVia, alike.name]
    cases present : target.block? id with
    | none =>
      cases present' : other.block? id with
      | none => rfl
      | some block' => rw [present, present'] at found; cases found
    | some block =>
      cases present' : other.block? id with
      | none => rw [present, present'] at found; cases found
      | some block' =>
        rw [present, present'] at found
        cases found with
        | some same => exact each id block block' same (alike.closed here present)

variable {block block' : Block} (same : ShownAlike block block') (inside : InputsWithin known block)
include same inside

theorem procedureVia_congr :
    (Resolver.mk other dictionary).procedureVia reference' block' =
      (Resolver.mk target dictionary).procedureVia reference block := by
  unfold procedureVia
  rw [same.mutation, same.input?]
  split
  · refine congrArg (· >>= _) (congrArg (fun argument => fillSlots argument _ _) ?_)
    funext name
    cases held : block.inputs.get? name with
    | none => rfl
    | some value => exact inputVia_congr alike dictionary each (inside held)
  · rfl

theorem operandsVia_congr (keys : List String) :
    (Resolver.mk other dictionary).operandsVia reference' block' keys =
      (Resolver.mk target dictionary).operandsVia reference block keys := by
  unfold operandsVia
  rw [same.input?, mapM_congr]
  intro value chosen
  obtain ⟨name, -, held⟩ := List.mem_filterMap.mp chosen
  exact inputVia_congr alike dictionary each (inside held)

theorem expandVia_congr :
    (Resolver.mk other dictionary).expandVia reference' block' =
      (Resolver.mk target dictionary).expandVia reference block := by
  simp only [expandVia, fields_congr alike dictionary same,
    procedureVia_congr alike dictionary each same inside,
    operandsVia_congr alike dictionary each same inside, same.opcode, same.fields, same.valueKeys,
    OrderedMap.isEmpty_congr same.input?]

end

/-- The blocks in input slots are shown alike, however deep references may nest. -/
theorem referenceWithin_congr (levels : Nat) (id : String) (block block' : Block)
    (same : ShownAlike block block') (inside : InputsWithin known block) :
    (Resolver.mk other dictionary).referenceWithin levels id block' =
      (Resolver.mk target dictionary).referenceWithin levels id block := by
  -- induction on the levels: what an expansion refers to is named by an input of its block
  induction levels generalizing id block block' with
  | zero => simp only [referenceWithin, alike.name]
  | succ levels ih =>
    simp only [referenceWithin, alike.name, expandVia_congr alike dictionary ih same inside]

theorem reference_congr (id : String) (block block' : Block) (same : ShownAlike block block')
    (inside : InputsWithin known block) :
    (Resolver.mk other dictionary).reference id block' =
      (Resolver.mk target dictionary).reference id block := by
  unfold reference
  congr 1
  funext trail
  exact referenceWithin_congr alike dictionary _ id block block' same inside

/-! ### Labels -/

theorem input_congr {value : InputValue} (inside : ∀ id, value.Names id → known id) :
    (Resolver.mk other dictionary).input value = (Resolver.mk target dictionary).input value :=
  inputVia_congr alike dictionary (reference_congr alike dictionary) inside

section

variable {block block' : Block} (same : ShownAlike block block') (inside : InputsWithin known block)
include same inside

theorem condition_congr :
    (Resolver.mk other dictionary).condition block' =
      (Resolver.mk target dictionary).condition block := by
  unfold condition
  rw [same.input?]
  cases held : block.inputs.get? "CONDITION" with
  | none => rfl
  | some value => simp only [input_congr alike dictionary (inside held)]

variable (keys : statementKeys block' = statementKeys block)
include keys

theorem parameters_congr :
    (Resolver.mk other dictionary).parameters block' =
      (Resolver.mk target dictionary).parameters block := by
  have inputs : ∀ keys : List String,
      (keys.filterMap block.inputs.get?).mapM
          (fun value => ((Resolver.mk other dictionary).input value).freshly) =
        (keys.filterMap block.inputs.get?).mapM
          fun value => ((Resolver.mk target dictionary).input value).freshly := by
    intro keys
    apply mapM_congr
    intro value chosen
    obtain ⟨name, -, held⟩ := List.mem_filterMap.mp chosen
    rw [input_congr alike dictionary (inside held)]
  simp only [parameters, fields_congr alike dictionary same, keys, same.input?, inputs]

theorem statement_congr :
    (Resolver.mk other dictionary).statement block' =
      (Resolver.mk target dictionary).statement block := by
  have procedures : (Resolver.mk other dictionary).procedure? block' =
      (Resolver.mk target dictionary).procedure? block :=
    procedureVia_congr alike dictionary (reference_congr alike dictionary) same inside
  simp only [statement, procedures, parameters_congr alike dictionary same inside keys,
    same.opcode]

/-- The label of a block whose inputs name known ids only is the same in targets that look alike,
with the same faults. -/
theorem nodeLabel_congr :
    (Resolver.mk other dictionary).nodeLabel block' =
      (Resolver.mk target dictionary).nodeLabel block := by
  have phrases : (Resolver.mk other dictionary).conditionPhrase? block' =
      (Resolver.mk target dictionary).conditionPhrase? block := by
    simp only [conditionPhrase?, Block.control?, same.opcode]
  simp only [nodeLabel, phrases, condition_congr alike dictionary same inside,
    statement_congr alike dictionary same inside keys]

end

end Resolver

end Label

end ScriptChart
