import Std.Data.String.ToNat
import ScriptChart.Chart.Naming
import ScriptChart.Proofs.Digest.SafeId
import ScriptChart.Proofs.Flow.Links

/-!
# Reading ids back

The id of a node can be read back: the number of its script ends at the next underscore, the safe
id of its block has a fixed length, and what is left tells the role. So the nodes of one target have
different ids unless the digests of two block ids collide, and none of them is the id of the root or
of a target.

## Main definitions

* `CollisionFree`: the safe ids of the blocks of a target are different.

## Main results

* `nodeId_scriptStem_inj`: what equal ids of nodes have in common.
* `nodeId_inj`: without collisions, nodes with equal ids are equal.
-/

namespace ScriptChart.Chart

open ScriptChart.Digest ScriptChart.Flow ScriptChart.Project

/-- Whether different blocks of a target have different safe ids. -/
def CollisionFree (target : Target) : Prop :=
  ∀ id ∈ target.blocks.names, ∀ other ∈ target.blocks.names, safeId id = safeId other → id = other

instance (target : Target) : Decidable (CollisionFree target) :=
  inferInstanceAs (Decidable (∀ id ∈ target.blocks.names, ∀ other ∈ target.blocks.names,
    safeId id = safeId other → id = other))

theorem CollisionFree.mono {target target' : Target} (distinct : CollisionFree target')
    (fewer : target.blocks.names ⊆ target'.blocks.names) : CollisionFree target :=
  fun id inside other inside' => distinct id (fewer inside) other (fewer inside')

theorem CollisionFree.eq {target : Target} (distinct : CollisionFree target) {id other : String}
    (present : target.hasBlock id = true) (present' : target.hasBlock other = true)
    (same : safeId id = safeId other) : id = other :=
  distinct id ((target.blocks.contains_iff_mem_names id).mp present) other
    ((target.blocks.contains_iff_mem_names other).mp present') same

theorem suffix_injective {role role' : Role} (same : role.suffix = role'.suffix) :
    role = role' := by
  cases role <;> cases role' <;> simp [Role.suffix] at same ⊢

@[simp]
theorem toList_targetId (name : String) :
    (targetId name).toList = 'T' :: (safeId name).toList := by
  simp [targetId]

@[simp]
theorem toList_nodeId (stem : String) (node : Node) :
    (nodeId stem node).toList =
      stem.toList ++ '_' :: ((safeId node.owner).toList ++ node.role.suffix.toList) := by
  simp [nodeId]

theorem toList_scriptStem (name : String) {scripts : Nat} (several : 1 < scripts) (index : Nat) :
    (scriptStem name scripts index).toList =
      (targetId name).toList ++ '_' :: (toString index).toList := by
  simp [scriptStem, several]

theorem scriptStem_of_le (name : String) {scripts : Nat} (single : scripts ≤ 1) (index : Nat) :
    scriptStem name scripts index = targetId name := by
  simp [scriptStem, Nat.not_lt.mpr single]

theorem underscore_not_mem_toString (number : Nat) : '_' ∉ (toString number).toList := by
  intro inside
  rw [Nat.toString_eq_repr, Nat.toList_repr] at inside
  exact absurd (Nat.isDigit_of_mem_toDigits (by decide) (by decide) inside) (by decide)

/-- Where a separator first stands in a list is determined by the list. -/
theorem eq_of_append_cons_eq {α : Type} {separator : α} {before before' after after' : List α}
    (absent : separator ∉ before) (absent' : separator ∉ before')
    (same : before ++ separator :: after = before' ++ separator :: after') :
    before = before' ∧ after = after' := by
  -- as long as neither list has come to the separator, both begin with the same element
  induction before generalizing before' with
  | nil =>
    cases before' with
    | nil => exact ⟨rfl, (List.cons.inj same).2⟩
    | cons first rest => exact absurd ((List.cons.inj same).1 ▸ List.mem_cons_self) absent'
  | cons first rest ih =>
    cases before' with
    | nil => exact absurd ((List.cons.inj same).1 ▸ List.mem_cons_self) absent
    | cons first' rest' =>
      obtain ⟨rfl, tails⟩ := List.cons.inj same
      obtain ⟨rfl, rfl⟩ := ih (fun inside => absent (List.mem_cons_of_mem _ inside))
        (fun inside => absent' (List.mem_cons_of_mem _ inside)) tails
      exact ⟨rfl, rfl⟩

/-- Where a separator last stands in a list is determined by the list. -/
theorem eq_of_append_cons_eq_of_last {α : Type} {separator : α}
    {before before' after after' : List α} (absent : separator ∉ after)
    (absent' : separator ∉ after')
    (same : before ++ separator :: after = before' ++ separator :: after') :
    before = before' ∧ after = after' := by
  -- read from the end it is where the separator first stands
  have turned := congrArg List.reverse same
  simp only [List.reverse_append, List.reverse_cons, List.append_assoc, List.singleton_append]
    at turned
  obtain ⟨later, earlier⟩ := eq_of_append_cons_eq (mt List.mem_reverse.mp absent)
    (mt List.mem_reverse.mp absent') turned
  exact ⟨List.reverse_injective earlier, List.reverse_injective later⟩

/-- After the same stem, equal ids stand for the same safe id and role. -/
theorem eq_of_nodeId_eq {stem : String} {node node' : Node}
    (same : nodeId stem node = nodeId stem node') :
    safeId node.owner = safeId node'.owner ∧ node.role = node'.role := by
  have letters := congrArg String.toList same
  rw [toList_nodeId, toList_nodeId, List.append_cancel_left_eq, List.cons.injEq] at letters
  have lengths : (safeId node.owner).toList.length = (safeId node'.owner).toList.length := by
    rw [length_toList_safeId, length_toList_safeId]
  -- safe ids have one length, so they end at the same place
  obtain ⟨digits, rest⟩ := List.append_inj letters.2 lengths
  exact ⟨String.toList_inj.mp digits, suffix_injective (String.toList_inj.mp rest)⟩

/-- Equal ids of nodes of one target are in the same script and stand for the same safe id and
role. -/
theorem nodeId_scriptStem_inj {name : String} {scripts index index' : Nat} {node node' : Node}
    (inside : index < scripts) (inside' : index' < scripts)
    (same : nodeId (scriptStem name scripts index) node =
      nodeId (scriptStem name scripts index') node') :
    index = index' ∧ safeId node.owner = safeId node'.owner ∧ node.role = node'.role := by
  rcases Nat.lt_or_ge 1 scripts with several | single
  · -- the number of the script ends at the next underscore
    have letters := congrArg String.toList same
    rw [toList_nodeId, toList_nodeId, toList_scriptStem name several,
      toList_scriptStem name several, List.append_assoc, List.append_assoc, List.cons_append,
      List.cons_append, List.append_cancel_left_eq, List.cons.injEq] at letters
    have numbers := (eq_of_append_cons_eq (underscore_not_mem_toString index)
      (underscore_not_mem_toString index') letters.2).1
    obtain rfl : index = index' := Nat.repr_injective (String.toList_inj.mp numbers)
    exact ⟨rfl, eq_of_nodeId_eq same⟩
  · -- a single script has no number
    obtain rfl : index = index' := by omega
    exact ⟨rfl, eq_of_nodeId_eq same⟩

/-- Without collisions, nodes of blocks of one target with equal ids are the same nodes of the same
script. -/
theorem nodeId_inj {target : Target} (distinct : CollisionFree target) {name : String}
    {scripts index index' : Nat} {node node' : Node}
    (inside : index < scripts) (inside' : index' < scripts)
    (present : target.hasBlock node.owner = true) (present' : target.hasBlock node'.owner = true)
    (same : nodeId (scriptStem name scripts index) node =
      nodeId (scriptStem name scripts index') node') :
    index = index' ∧ node = node' := by
  obtain ⟨number, ids, roles⟩ := nodeId_scriptStem_inj inside inside' same
  exact ⟨number, Node.ext (distinct.eq present present' ids) roles⟩

theorem underscore_not_mem_safeId (id : String) : '_' ∉ (safeId id).toList := by
  intro inside
  exact absurd (mem_hexDigits_of_mem_safeId inside) (by decide)

/-- The suffix of every role but that of blocks has a last underscore, and what stands after it
tells the ends of endless loops. -/
theorem exists_last_of_suffix {role : Role} (other : role ≠ .block) :
    ∃ before last, role.suffix.toList = before ++ '_' :: last ∧ '_' ∉ last ∧
      (last = "continue".toList → role = .again) := by
  cases role with
  | block => contradiction
  | again => exact ⟨[], "continue".toList, rfl, by decide, fun _ => rfl⟩
  | conditionEnd => exact ⟨"_cond".toList, "end".toList, rfl, by decide, by decide⟩
  | loopEnd => exact ⟨"_loop".toList, "end".toList, rfl, by decide, by decide⟩
  | runaway => exact ⟨[], "loop".toList, rfl, by decide, by decide⟩
  | blockLeaf => exact ⟨[], "end".toList, rfl, by decide, by decide⟩
  | conditionLeaf => exact ⟨"_cond_end".toList, "end".toList, rfl, by decide, by decide⟩
  | loopLeaf => exact ⟨"_loop_end".toList, "end".toList, rfl, by decide, by decide⟩

theorem role_eq_again_of_nodeId_eq {stem source : String} {node : Node}
    (same : nodeId stem node = source ++ Role.again.suffix) : node.role = .again := by
  have letters : source.toList ++ '_' :: "continue".toList =
      stem.toList ++ '_' :: ((safeId node.owner).toList ++ node.role.suffix.toList) := by
    rw [← toList_nodeId, same, String.toList_append]
    rfl
  by_cases plain : node.role = .block
  · -- a safe id is too long for the last word of such a suffix
    rw [plain, show Role.block.suffix.toList = [] from rfl, List.append_nil] at letters
    obtain ⟨-, last⟩ := eq_of_append_cons_eq_of_last (by decide)
      (underscore_not_mem_safeId node.owner) letters
    have lengths := congrArg List.length last
    rw [length_toList_safeId] at lengths
    contradiction
  · obtain ⟨before, last, whole, absent, told⟩ := exists_last_of_suffix plain
    rw [whole, ← List.append_assoc, ← List.cons_append, ← List.append_assoc] at letters
    exact told (eq_of_append_cons_eq_of_last (by decide) absent letters).2.symm

/-- Only the id of the node in which the body of an endless loop ends has the suffix of such a node,
and it stands after the id of the loop. -/
theorem eq_of_nodeId_eq_append_again {stem source : String} {node : Node}
    (same : nodeId stem node = source ++ Role.again.suffix) :
    node = ⟨node.owner, .again⟩ ∧ source = nodeId stem (.ofBlock node.owner) := by
  have role := role_eq_again_of_nodeId_eq same
  refine ⟨Node.ext rfl role, String.toList_inj.mp ?_⟩
  have letters := congrArg String.toList same
  rw [toList_nodeId, role, String.toList_append, ← List.cons_append, ← List.append_assoc,
    List.append_cancel_right_eq] at letters
  rw [← letters, toList_nodeId]
  simp [Node.ofBlock, Role.suffix]

theorem targetId_ne_append_again (name source : String) :
    targetId name ≠ source ++ Role.again.suffix := by
  intro same
  have letters := congrArg String.toList same
  have inside : '_' ∈ (targetId name).toList := by
    rw [letters, String.toList_append]
    exact List.mem_append_right _ List.mem_cons_self
  rw [toList_targetId, List.mem_cons] at inside
  obtain first | inside := inside
  · exact absurd first (by decide)
  · exact underscore_not_mem_safeId name inside

theorem rootId_ne_append_again (source : String) : rootId ≠ source ++ Role.again.suffix := by
  intro same
  have inside : '_' ∈ rootId.toList := by
    rw [same, String.toList_append]
    exact List.mem_append_right _ List.mem_cons_self
  exact absurd inside (by decide)

theorem collisionFree_sampleTarget : CollisionFree sampleTarget := by decide +kernel

theorem length_targetId (name : String) : (targetId name).toList.length = 33 := by
  rw [toList_targetId, List.length_cons, length_toList_safeId]

theorem length_nodeId_ge (name : String) (scripts index : Nat) (node : Node) :
    66 ≤ (nodeId (scriptStem name scripts index) node).toList.length := by
  have stem : 33 ≤ (scriptStem name scripts index).toList.length := by
    rcases Nat.lt_or_ge 1 scripts with several | single
    · rw [toList_scriptStem name several, List.length_append, length_targetId]
      omega
    · exact scriptStem_of_le name single index ▸ Nat.le_of_eq (length_targetId name).symm
  rw [toList_nodeId, List.length_append, List.length_cons, List.length_append,
    length_toList_safeId]
  omega

theorem nodeId_ne_targetId (name other : String) (scripts index : Nat) (node : Node) :
    nodeId (scriptStem name scripts index) node ≠ targetId other := by
  intro same
  have long := length_nodeId_ge name scripts index node
  rw [same, length_targetId] at long
  omega

theorem nodeId_ne_rootId (name : String) (scripts index : Nat) (node : Node) :
    nodeId (scriptStem name scripts index) node ≠ rootId := by
  intro same
  have long := length_nodeId_ge name scripts index node
  rw [same] at long
  exact absurd long (by decide)

end ScriptChart.Chart
