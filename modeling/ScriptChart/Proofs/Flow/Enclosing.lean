import ScriptChart.Proofs.Flow.Progress

/-!
# Looking upwards in a well-linked target

In a well-linked target the ancestors of a block are the blocks on the way to it, the nearest
first. Those that lead on by `next` offer nothing, and the first other one is the innermost
construct around the block, so looking upwards finds the node in which that construct ends: the
same node that the walk carries along as its continuation.

## Main results

* `enclosing?_eq`: looking upwards finds the end of the innermost construct.
-/

namespace ScriptChart.Flow

open ScriptChart.Project

/-- The construct that ends in a node, if there is one, was recorded with this node. -/
def Recorded (ends : Ends) (join : Option Node) : Prop :=
  ∀ node ∈ join, ends.lookup node.owner = some node

theorem recorded_none (ends : Ends) : Recorded ends none := by
  simp [Recorded]

section

variable {target : Target} {ends : Ends} {start child id : String} {block : Block}

/-- A predecessor in the same chain has nothing to offer. -/
theorem offer?_of_next (leads : block.next = some child) :
    offer? target ends start child (id, block) = none := by
  simp [offer?, leads]

/-- A recorded construct around a block offers the node in which it ends. -/
theorem offer?_of_recorded {kind : ControlKind} {node : Node} (apart : block.next ≠ some child)
    (control : block.control? = some kind) (found : ends.lookup id = some node) :
    offer? target ends start child (id, block) = some node := by
  simp [offer?, apart, control, found]

end

/-- Coming up from a block on a way, the first offer is the end of the innermost construct around
that block. -/
theorem firstOffer?_ancestorsFrom {target : Target} (linked : WellLinked target) {entry : String}
    (root : IsRoot target entry) {ends : Ends} {start id : String} {length : Nat}
    {join : Option Node} {block : Block} (reached : Reached target entry none id length join)
    (present : target.block? id = some block) (recorded : Recorded ends join) {count : Nat}
    (enough : length ≤ count) {met : List String} (below : ∀ other ∈ met, Leads target id other) :
    firstOffer? target ends start id (ancestorsFrom target count met block.parent) = join := by
  -- induction on the way down to the block, which is the way up of the search read backwards
  induction reached generalizing block count met with
  | start =>
    obtain ⟨first, found, orphan⟩ := root
    obtain rfl := Option.some.inj (present.symm.trans found)
    rw [orphan]
    cases count <;> rfl
  | @follow above length join ancestor link next before found followed leads ih =>
    have follows : Follows target above link next := ⟨ancestor, found, followed, leads⟩
    obtain ⟨count, rfl⟩ : ∃ less, count = less + 1 := ⟨count - 1, by omega⟩
    have parent : block.parent = some above := linked.parent_eq found leads present
    -- nothing that the block leads to is above it
    have unmet : met.contains above = false := by
      rw [List.contains_eq_mem, decide_eq_false_iff_not]
      exact fun inside => linked.not_leads_of_follows root before follows (below above inside)
    simp only [parent, ancestorsFrom, unmet, Bool.false_eq_true, if_false, found, firstOffer?]
    by_cases chained : link = .next
    · -- the search goes on above a predecessor, and so does the construct
      subst chained
      rw [offer?_of_next (named?_of_destination? leads), Option.none_or]
      apply ih found recorded (by omega)
      intro other inside
      obtain rfl | inside := List.mem_cons.mp inside
      · exact .refl
      · exact follows.leads.trans (below other inside)
    · -- the ancestor is the construct, and its end is recorded
      obtain ⟨kind, control, along⟩ := joinAlong_of_ne_next above followed chained join
      have apart : ancestor.next ≠ some next := by
        intro same
        have leads' : destination? target ancestor .next = some next := by
          simp [destination?, named?, same, hasBlock_of_destination? leads]
        exact chained (linked.link_eq found leads leads')
      rw [along] at recorded ⊢
      rw [offer?_of_recorded apart control (recorded _ rfl), Option.some_or]

/-- Looking upwards from a block finds the end of the innermost construct around it. -/
theorem enclosing?_eq {target : Target} (linked : WellLinked target) {entry : String}
    (root : IsRoot target entry) {ends : Ends} {id : String} {length : Nat}
    {join : Option Node} (reached : Reached target entry none id length join)
    (recorded : Recorded ends join) : enclosing? target ends id = join := by
  obtain ⟨block, present⟩ := exists_block_of_hasBlock (reached.hasBlock root.hasBlock)
  have enough : length ≤ target.blocks.size := Nat.le_of_lt (linked.count_lt_size root reached)
  simp only [enclosing?, ancestors, present, Option.bind_some]
  apply firstOffer?_ancestorsFrom linked root reached present recorded enough
  intro other met
  rw [List.mem_singleton.mp met]
  exact .refl

end ScriptChart.Flow
