import Mathlib.Logic.Function.Iterate
import ScriptChart.Flow.Ancestors
import ScriptChart.Proofs.Flow.Links

/-!
# Looking upwards without a bound

A search upwards looks at one ancestor after the other and remembers those that it has met. Nothing
else bounds it, and links to parents may run in circles. But all blocks that were met are different
blocks of the target, so a search looks no further than there are blocks. Hence the bound on the
number of ancestors cuts nothing off, and any larger one would give the same ancestors.

## Main definitions

* `Climb`, `Climb.look`: how far a search has come, and what one more look does.
* `Climb.Meets`: the blocks that were met are different blocks of the target.

## Main results

* `Climb.look_iterate_start`: a search ends, with what the ancestors offer.
* `ancestorsFrom_add`: a larger bound gives the same ancestors.
-/

namespace ScriptChart.Flow

open ScriptChart.Project

/-- How far a search upwards has come. -/
inductive Climb where
  /-- Some blocks were met, the search comes from a child, and it has yet to look at what is above
  the child. -/
  | under (met : List String) (child : String) (above : Option String)
  /-- The search is over, and it has found a node or nothing. -/
  | ended (found : Option Node)
deriving DecidableEq, Repr

namespace Climb

/-- The search from a block on. -/
def start (target : Target) (id : String) : Climb :=
  .under [id] id ((target.block? id).bind fun block => block.parent)

/-- Looks at the next ancestor. The search is over when there is none, when it was met before or is
not there, and when it offers something. -/
def look (target : Target) (ends : Ends) (origin : String) : Climb → Climb
  | .ended found => .ended found
  | .under _ _ none => .ended none
  | .under met child (some id) =>
    if met.contains id then .ended none
    else
      match target.block? id with
      | none => .ended none
      | some block =>
        match offer? target ends origin child (id, block) with
        | some node => .ended (some node)
        | none => .under (id :: met) id block.parent

/-- The blocks that were met are different blocks of the target. -/
structure Meets (target : Target) (met : List String) : Prop where
  nodup : met.Nodup
  subset : met ⊆ target.blocks.names

section

variable {target : Target} {met : List String} {id : String} {block : Block}

theorem Meets.length_le (meets : Meets target met) : met.length ≤ target.blocks.size := by
  have bound := (List.subperm_of_subset meets.nodup meets.subset).length_le
  rwa [OrderedMap.names, List.length_map] at bound

theorem mem_names_of_block? (present : target.block? id = some block) :
    id ∈ target.blocks.names :=
  (OrderedMap.contains_iff_mem_names _ _).mp (hasBlock_of_block? present)

theorem meets_single (present : target.block? id = some block) : Meets target [id] :=
  ⟨List.pairwise_singleton _ id,
    List.cons_subset.mpr ⟨mem_names_of_block? present, List.nil_subset _⟩⟩

theorem Meets.cons (meets : Meets target met) (unmet : met.contains id = false)
    (present : target.block? id = some block) : Meets target (id :: met) where
  nodup := List.nodup_cons.mpr ⟨by simpa using unmet, meets.nodup⟩
  subset := List.cons_subset.mpr ⟨mem_names_of_block? present, meets.subset⟩

/-- A search that may look as often as there are unmet blocks, and once more, finds what the
ancestors offer. -/
theorem look_iterate_under (meets : Meets target met) {count : Nat}
    (enough : target.blocks.size < met.length + count) (ends : Ends) (origin child : String)
    (above : Option String) :
    (look target ends origin)^[count + 1] (.under met child above) =
      .ended (firstOffer? target ends origin child (ancestorsFrom target count met above)) := by
  have still : ∀ count found, (look target ends origin)^[count] (.ended found) = .ended found :=
    fun count found => Function.iterate_fixed rfl count
  -- induction on the number of looks: each of them meets another block
  induction count generalizing met child above with
  | zero =>
    have bound := meets.length_le
    omega
  | succ count ih =>
    rw [Function.iterate_succ_apply]
    cases above with
    | none => exact still _ _
    | some id =>
      cases unmet : met.contains id with
      | true =>
        simp only [look, ancestorsFrom, unmet, if_true, firstOffer?]
        exact still _ _
      | false =>
        cases present : target.block? id with
        | none =>
          simp only [look, ancestorsFrom, unmet, Bool.false_eq_true, if_false, present,
            firstOffer?]
          exact still _ _
        | some block =>
          simp only [look, ancestorsFrom, unmet, Bool.false_eq_true, if_false, present,
            firstOffer?]
          cases offer? target ends origin child (id, block) with
          | some node => exact still _ _
          | none =>
            have more : target.blocks.size < (id :: met).length + count := by
              rw [List.length_cons]
              omega
            exact ih (meets.cons unmet present) more id block.parent

end

/-- A search upwards ends after looking at no more ancestors than there are blocks, and once more,
with what the ancestors offer. -/
theorem look_iterate_start (target : Target) (ends : Ends) (id : String) :
    (look target ends id)^[target.blocks.size + 1] (start target id) =
      .ended (enclosing? target ends id) := by
  unfold start enclosing? ancestors
  cases present : target.block? id with
  | none =>
    -- nothing is above a block that is not there
    have nothing : ancestorsFrom target target.blocks.size [id] none = [] := by
      cases target.blocks.size <;> rfl
    rw [Function.iterate_succ_apply, Option.bind_none, nothing]
    exact Function.iterate_fixed rfl _
  | some block =>
    refine look_iterate_under (meets_single present) ?_ ends id id block.parent
    rw [List.length_singleton]
    omega

end Climb

open Climb in
/-- A larger bound gives no more ancestors when the bound is that of the unmet blocks. -/
theorem ancestorsFrom_add {target : Target} {met : List String} (meets : Meets target met)
    {count : Nat} (enough : target.blocks.size < met.length + count) (more : Nat)
    (above : Option String) :
    ancestorsFrom target (count + more) met above = ancestorsFrom target count met above := by
  induction count generalizing met above with
  | zero =>
    have bound := meets.length_le
    omega
  | succ count ih =>
    rw [Nat.succ_add]
    cases above with
    | none => rfl
    | some id =>
      cases unmet : met.contains id with
      | true => simp only [ancestorsFrom, unmet, if_true]
      | false =>
        cases present : target.block? id with
        | none => simp only [ancestorsFrom, unmet, present]
        | some block =>
          have more' : target.blocks.size < (id :: met).length + count := by
            rw [List.length_cons]
            omega
          simp only [ancestorsFrom, unmet, Bool.false_eq_true, if_false, present,
            ih (meets.cons unmet present) more' block.parent]

/-- Any bound from the number of blocks on gives the ancestors of a block. -/
theorem ancestors_eq {target : Target} {count : Nat} (enough : target.blocks.size ≤ count)
    (id : String) :
    ancestors target id =
      ancestorsFrom target count [id] ((target.block? id).bind fun block => block.parent) := by
  obtain ⟨more, rfl⟩ := Nat.exists_eq_add_of_le enough
  unfold ancestors
  cases present : target.block? id with
  | none =>
    rw [Option.bind_none]
    cases target.blocks.size + more <;> cases target.blocks.size <;> rfl
  | some block =>
    refine (ancestorsFrom_add (Climb.meets_single present) ?_ more _).symm
    rw [List.length_singleton]
    omega

end ScriptChart.Flow
