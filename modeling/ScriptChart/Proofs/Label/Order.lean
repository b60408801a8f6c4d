import Mathlib.Data.String.Basic
import ScriptChart.Proofs.Label.Frame
import ScriptChart.Proofs.Label.Slots
import ScriptChart.Proofs.Project.Replace

/-!
# The order in which inputs are written

The inputs of an operator are shown in an order that their names tell, and so are the coordinates of
a motion, when nothing else is shown beside them. So it does not matter in which order these inputs
are written. All other statements show their inputs as they are written. Either way every input is
shown, once.

## Main definitions

* `Resolver.Replaces`: a target is read as it is, or with another block in the place of one of its
  own.

## Main results

* `sorted_eq_of_perm`, `operatorKeys_eq_of_perm`: sorted names, and the order of operands, do not
  depend on how they are written.
* `Resolver.value_parameters`: a statement has one parameter for each of its inputs that is no
  branch.
* `Resolver.input_order`: when the order of inputs does not matter, and that no input is lost.
-/

namespace ScriptChart

/-- The entries under all names, in whichever order, are all entries. -/
theorem OrderedMap.entries_perm {α : Type} (m : OrderedMap α) {names : List String}
    (all : names.Perm m.names) :
    (names.filterMap fun name => (m.get? name).map (name, ·)).Perm m.entries := by
  have held : m.names.filterMap (fun name => (m.get? name).map (name, ·)) = m.entries := by
    rw [OrderedMap.names, List.filterMap_map]
    calc m.entries.filterMap _ = m.entries.filterMap some := by
          refine List.filterMap_congr fun entry inside => ?_
          simp [(m.get?_eq_some_iff entry.1 entry.2).mpr inside]
      _ = m.entries := List.filterMap_some
  rw [← held]
  exact all.filterMap _

namespace Label

open ScriptChart.Phrase ScriptChart.Project

/-! ### Sorted names -/

theorem pairwise_insertSorted (name : String) {names : List String}
    (ordered : names.Pairwise (· ≤ ·)) : (insertSorted name names).Pairwise (· ≤ ·) := by
  induction names with
  | nil => exact List.pairwise_singleton _ _
  | cons other rest ih =>
    obtain ⟨least, later⟩ := List.pairwise_cons.mp ordered
    unfold insertSorted
    split
    · next before =>
      refine List.pairwise_cons.mpr ⟨fun asked inside => ?_, ordered⟩
      obtain rfl | inside := List.mem_cons.mp inside
      · exact before.le
      · exact before.le.trans (least asked inside)
    · next after =>
      refine List.pairwise_cons.mpr ⟨fun asked inside => ?_, ih later⟩
      obtain rfl | inside := List.mem_cons.mp ((insertSorted_perm name rest).subset inside)
      · exact not_lt.mp after
      · exact least asked inside

theorem pairwise_sorted (names : List String) : (sorted names).Pairwise (· ≤ ·) := by
  induction names with
  | nil => exact .nil
  | cons name rest ih => exact pairwise_insertSorted name ih

/-- Sorted names do not depend on the order in which they were given. -/
theorem sorted_eq_of_perm {names names' : List String} (same : names.Perm names') :
    sorted names = sorted names' :=
  ((sorted_perm names).trans (same.trans (sorted_perm names').symm)).eq_of_pairwise
    (fun _ _ _ _ => le_antisymm) (pairwise_sorted names) (pairwise_sorted names')

/-! ### The order in which inputs are shown -/

theorem filter_contains_eq_of_perm {front present present' : List String}
    (same : present.Perm present') :
    front.filter (present.contains ·) = front.filter (present'.contains ·) := by
  refine List.filter_congr fun name _ => ?_
  rw [Bool.eq_iff_iff, List.contains_iff_mem, List.contains_iff_mem]
  exact same.mem_iff

/-- The operands of an operator are shown in one order, in whichever order they are written. -/
theorem operatorKeys_eq_of_perm {block other : Block}
    (same : other.inputs.names.Perm block.inputs.names) :
    operatorKeys other = operatorKeys block := by
  unfold operatorKeys preferring
  rw [filter_contains_eq_of_perm same, sorted_eq_of_perm (same.filter _)]

/-- Inputs that come first in a statement are shown in one order when there are no others. -/
theorem statementKeys_eq_of_perm {block other : Block} (opcode : other.opcode = block.opcode)
    (same : other.inputs.names.Perm block.inputs.names)
    (leading : ∀ key ∈ block.inputs.names, key ∈ leadingKeys block.opcode) :
    statementKeys other = statementKeys block := by
  have nothing : ∀ names : List String, (∀ key ∈ names, key ∈ leadingKeys block.opcode) →
      names.filter (fun name => !(leadingKeys block.opcode).contains name) = [] := by
    intro names inside
    simpa using inside
  unfold statementKeys preferring
  rw [opcode, filter_contains_eq_of_perm same, nothing _ leading,
    nothing _ fun key inside => leading key (same.subset inside)]

theorem nodup_operatorKeys (block : Block) : (operatorKeys block).Nodup :=
  (operatorKeys_perm block).nodup_iff.mpr block.inputs.nodup_names

theorem nodup_statementKeys (block : Block) : (statementKeys block).Nodup :=
  (statementKeys_perm block).nodup_iff.mpr block.inputs.nodup_names

/-! ### Blocks whose inputs are written in another order -/

/-- A block whose inputs are written in another order cannot be told apart from it when it is an
operator, or when its inputs are shown in the same order. -/
theorem shownAlike_of_perm {block : Block} {inputs : OrderedMap InputValue}
    (same : inputs.entries.Perm block.inputs.entries)
    (keys : Text.beginsWith "operator" block.opcode = true ∨
      statementKeys { block with inputs := inputs } = statementKeys block) :
    ShownAlike block { block with inputs := inputs } where
  opcode := rfl
  fields := rfl
  mutation := rfl
  input? := funext fun _ => OrderedMap.get?_congr fun _ => same.mem_iff
  valueKeys := by
    have operands : operatorKeys { block with inputs := inputs } = operatorKeys block :=
      operatorKeys_eq_of_perm (same.map _)
    unfold Resolver.valueKeys
    split
    · exact operands
    · next other => exact keys.resolve_left other

namespace Resolver

variable (r : Resolver)

/-- A target is read with a block in the place of the one with its id. -/
def withBlock (id : String) (block : Block) : Resolver :=
  { r with target := r.target.withBlock id block }

/-- A target is read as it is, or with another block in the place of one of its own. -/
inductive Replaces (block other : Block) : Resolver → Prop
  | kept : Replaces block other r
  | placed {id : String} (present : r.target.block? id = some block) :
      Replaces block other (r.withBlock id other)

variable {r}

/-- A target looks as before when a block takes the place of one that it cannot be told apart
from. -/
theorem Replaces.exists_target {r' : Resolver} {block other : Block}
    (replaces : r.Replaces block other r') (same : ShownAlike block other) :
    ∃ target, r' = ⟨target, r.dictionary⟩ ∧ ShownAlikeOn (fun _ => True) r.target target := by
  cases replaces with
  | kept => exact ⟨r.target, rfl, .refl r.target⟩
  | @placed id present =>
    exact ⟨r.target.withBlock id other, rfl, shownAlikeOn_withBlock present same⟩

end Resolver

/-! ### Parameters -/

/-- Whether an input is a branch, which is drawn and not shown. -/
def isBranch (name : String) : Bool := name == substack || name == substack2

/-- The inputs of a statement that are shown, in order. -/
def shownInputs (block : Block) : List (String × InputValue) :=
  ((statementKeys block).filterMap fun key => (block.inputs.get? key).map (key, ·)).filter
    fun input => !isBranch input.1

/-- The inputs of a statement that are shown are those that are no branch. -/
theorem shownInputs_perm (block : Block) :
    (shownInputs block).Perm (block.inputs.entries.filter fun input => !isBranch input.1) :=
  (block.inputs.entries_perm (statementKeys_perm block)).filter _

theorem map_snd_shownInputs (block : Block) :
    (shownInputs block).map Prod.snd =
      ((statementKeys block).filter fun key => !isBranch key).filterMap block.inputs.get? := by
  rw [shownInputs, List.filterMap_filter, List.filter_filterMap, List.map_filterMap]
  refine List.filterMap_congr fun key _ => ?_
  cases block.inputs.get? key with
  | none => simp
  | some value => cases drawn : isBranch key <;> simp [drawn, Option.filter]

namespace Resolver

variable (r : Resolver)

/-- The parameters of a statement are the texts of its fields, as far as they are not empty, and the
text of each input that is no branch. -/
theorem value_parameters (block : Block) :
    (r.parameters block).value =
      ((block.fields.entries.map fun entry => (r.field block.opcode entry.1 entry.2).value).filter
          fun text => !text.isEmpty) ++
        (shownInputs block).map fun input => (r.input input.2).freshly.value := by
  have keys : r.parameters block = (do
      let fields ← r.fields block
      let inputs ← ((shownInputs block).map Prod.snd).mapM fun value => (r.input value).freshly
      return fields ++ inputs) := by
    rw [map_snd_shownInputs]
    rfl
  simp [keys, fields]

/-- When the order in which inputs are written does not matter. The operands of an operator are all
of its inputs, and so are what a statement shows; each of them is listed once. In whichever order
the inputs of an operator are written, it is shown alike, with the same faults and the same trail,
and so are all values that it is a part of. So is the statement of a motion that has inputs for
coordinates only, and for the time that it takes. The parameters of any statement are the texts of
its fields, as far as they are not empty, and the text of each input that is no branch. -/
theorem input_order (block : Block) :
    (operatorKeys block).Nodup ∧
    (∀ key, key ∈ operatorKeys block ↔ block.inputs.contains key = true) ∧
    (statementKeys block).Nodup ∧
    (∀ key, key ∈ statementKeys block ↔ block.inputs.contains key = true) ∧
    (∀ inputs : OrderedMap InputValue, inputs.entries.Perm block.inputs.entries →
      ∀ r', r.Replaces block { block with inputs := inputs } r' →
        (Text.beginsWith "operator" block.opcode = true →
          (∀ id, r'.reference id { block with inputs := inputs } = r.reference id block) ∧
            ∀ value, r'.input value = r.input value) ∧
        (block.opcode = "motion_gotoxy" ∧ (∀ key ∈ block.inputs.names, key ∈ ["X", "Y"]) ∨
            block.opcode = "motion_glidesecstoxy" ∧
              (∀ key ∈ block.inputs.names, key ∈ ["SECS", "X", "Y"]) →
          r'.statement { block with inputs := inputs } = r.statement block)) ∧
    ∃ shown : List (String × InputValue),
      shown.Perm (block.inputs.entries.filter fun input =>
        !(input.1 == substack || input.1 == substack2)) ∧
      (r.parameters block).value =
        ((block.fields.entries.map fun entry => (r.field block.opcode entry.1 entry.2).value).filter
            fun text => !text.isEmpty) ++
          shown.map fun input => (r.input input.2).freshly.value := by
  have listed : ∀ {keys : List String}, keys.Perm block.inputs.names →
      ∀ key, key ∈ keys ↔ block.inputs.contains key = true := by
    intro keys all key
    rw [all.mem_iff, block.inputs.contains_iff_mem_names]
  refine ⟨nodup_operatorKeys block, listed (operatorKeys_perm block), nodup_statementKeys block,
    listed (statementKeys_perm block), ?_, shownInputs block, shownInputs_perm block,
    r.value_parameters block⟩
  intro inputs same r' replaces
  -- in whichever order they are written, the block cannot be told apart, wherever it stands
  have everywhere : InputsWithin (fun _ => True) block := fun _ _ _ => trivial
  constructor
  · intro operator
    have shown := shownAlike_of_perm same (.inl operator)
    obtain ⟨target, rfl, alike⟩ := replaces.exists_target shown
    exact ⟨fun id => reference_congr alike _ id block _ shown everywhere,
      fun value => input_congr alike _ fun _ _ => trivial⟩
  · intro motion
    have leading : ∀ key ∈ block.inputs.names, key ∈ leadingKeys block.opcode := by
      obtain ⟨opcode, leading⟩ | ⟨opcode, leading⟩ := motion
      · rwa [opcode]
      · rwa [opcode]
    have keys : statementKeys { block with inputs := inputs } = statementKeys block :=
      statementKeys_eq_of_perm rfl (same.map _) leading
    have shown := shownAlike_of_perm same (.inr keys)
    obtain ⟨target, rfl, alike⟩ := replaces.exists_target shown
    exact statement_congr alike _ shown everywhere keys

end Resolver

/-- The inputs of a comparison, the second one first. -/
def swappedInputs (first second : String) : OrderedMap InputValue :=
  .ofList [("OPERAND2", .nested (.literal second)), ("OPERAND1", .nested (.literal first))]

/-- A motion to a place, given by two coordinates. -/
def motionBlock (first second : String × String) : Block where
  opcode := "motion_gotoxy"
  inputs := .ofList [(first.1, .nested (.literal first.2)), (second.1, .nested (.literal second.2))]

/-- A comparison with its inputs swapped, in the place of the one in the target, is shown as before,
and so is a motion. -/
theorem input_order_equals_motion :
    (swappedInputs "a" "b").entries.Perm (equalsBlock "a" "b").inputs.entries ∧
      (equalsResolver "a" "b").Replaces (equalsBlock "a" "b")
        { equalsBlock "a" "b" with inputs := swappedInputs "a" "b" }
        ((equalsResolver "a" "b").withBlock "equals"
          { equalsBlock "a" "b" with inputs := swappedInputs "a" "b" }) ∧
      (((equalsResolver "a" "b").withBlock "equals"
        { equalsBlock "a" "b" with inputs := swappedInputs "a" "b" }).reference "equals"
          { equalsBlock "a" "b" with inputs := swappedInputs "a" "b" }).freshly.value = "a = b" ∧
      (equalsResolver "a" "b").statement (motionBlock ("Y", "2") ("X", "1")) =
        (equalsResolver "a" "b").statement (motionBlock ("X", "1") ("Y", "2")) := by
  have swapped : (swappedInputs "a" "b").entries.Perm (equalsBlock "a" "b").inputs.entries :=
    .swap _ _ _
  have replaces : (equalsResolver "a" "b").Replaces (equalsBlock "a" "b")
      { equalsBlock "a" "b" with inputs := swappedInputs "a" "b" }
      ((equalsResolver "a" "b").withBlock "equals"
        { equalsBlock "a" "b" with inputs := swappedInputs "a" "b" }) := .placed rfl
  have shown := (((equalsResolver "a" "b").input_order (equalsBlock "a" "b")).2.2.2.2.1 _ swapped _
    replaces).1 (by decide)
  have moved := (((equalsResolver "a" "b").input_order
    (motionBlock ("X", "1") ("Y", "2"))).2.2.2.2.1
      (motionBlock ("Y", "2") ("X", "1")).inputs (.swap _ _ _) _ .kept).2
      (.inl ⟨rfl, by decide⟩)
  refine ⟨swapped, replaces, ?_, moved⟩
  rw [shown.1]
  decide +kernel

end Label

end ScriptChart
