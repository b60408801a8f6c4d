import ScriptChart.Proofs.Flow.Step
import ScriptChart.Proofs.Flow.Tour

/-!
# The steps of a script

Every step of a script in a well-linked target belongs to a block that the script reaches, and it
is one of the steps that are drawn for this block on its own. So what is asked of the steps that
belong to one block can be asked of the block alone.

## Main results

* `exists_reached_of_mem_scriptSteps`: every step belongs to a block that the script reaches.
* `filter_scriptSteps_perm`: the steps that belong to a block are those drawn for it.
-/

namespace ScriptChart.Flow

open ScriptChart.Project

/-- The steps that are drawn for a block belong to it. -/
theorem owner_of_mem_steps {target : Target} {stop : Stop} {step : Step}
    (inside : step ∈ stop.steps target) : step.owner = stop.id := by
  unfold Stop.steps at inside
  split at inside
  · simp at inside
  · simp only [List.mem_cons, List.not_mem_nil, or_false] at inside
    rcases inside with rfl | rfl <;> rfl
  · obtain rfl | inside := List.mem_cons.mp inside
    · rfl
    · exact (isBeside_plan target stop.id _ stop.join step inside).1

/-- Of lists that are strung together, one with a key of its own holds what no other one has. -/
theorem flatMap_eq_of_nodup_map {α β γ : Type} {key : α → β} {items : List α} {item : α}
    {values : α → List γ} (distinct : (items.map key).Nodup) (inside : item ∈ items)
    (others : ∀ other ∈ items, key other ≠ key item → values other = []) :
    items.flatMap values = values item := by
  induction items with
  | nil => simp at inside
  | cons first rest ih =>
    rw [List.map_cons, List.nodup_cons] at distinct
    rw [List.flatMap_cons]
    obtain rfl | inside := List.mem_cons.mp inside
    · -- the key does not occur again
      have nothing : rest.flatMap values = [] := by
        apply List.flatMap_eq_nil_iff.mpr
        intro other later
        exact others other (List.mem_cons_of_mem item later)
          fun same => distinct.1 (same ▸ List.mem_map_of_mem later)
      rw [nothing, List.append_nil]
    · have apart : key first ≠ key item :=
        fun same => distinct.1 (same ▸ List.mem_map_of_mem inside)
      rw [others first List.mem_cons_self apart, List.nil_append]
      exact ih distinct.2 inside fun other later =>
        others other (List.mem_cons_of_mem first later)

section

variable {target : Target} (linked : WellLinked target) {entry : String}
  (root : IsRoot target entry)
include linked root

/-- Every step of a script belongs to a block that the script reaches and is drawn for it. -/
theorem exists_reached_of_mem_scriptSteps {step : Step} (inside : step ∈ scriptSteps target entry) :
    ∃ count join, count ≤ linkLimit ∧ Reached target entry none step.owner count join ∧
      step ∈ Stop.steps target ⟨step.owner, linkLimit - count, join⟩ := by
  have drawn := (scriptSteps_perm linked root).mem_iff.mp inside
  obtain ⟨⟨id, links, join⟩, come, inside⟩ := List.mem_flatMap.mp drawn
  obtain ⟨count, total, reached⟩ := mem_stops.mp come
  obtain rfl : links = linkLimit - count := Nat.eq_sub_of_add_eq total
  rw [owner_of_mem_steps inside]
  exact ⟨count, join, Nat.le.intro (Nat.add_comm count _ ▸ total), reached, inside⟩

/-- The steps of a script that belong to a block are those that are drawn for it. -/
theorem filter_scriptSteps_perm {asked : Step → Bool} {id : String} {count : Nat}
    {join : Option Node} (owned : ∀ step, asked step = true → step.owner = id)
    (reached : Reached target entry none id count join) (within : count ≤ linkLimit) :
    ((scriptSteps target entry).filter asked).Perm
      ((Stop.steps target ⟨id, linkLimit - count, join⟩).filter asked) := by
  apply ((scriptSteps_perm linked root).filter asked).trans
  have come : (⟨id, linkLimit - count, join⟩ : Stop) ∈ stops target linkLimit entry none :=
    mem_stops.mpr ⟨count, Nat.sub_add_cancel within, reached⟩
  -- no other stop is at this block, and the steps of a stop belong to its block
  rw [List.filter_flatMap, flatMap_eq_of_nodup_map (nodup_stops linked root .start linkLimit) come]
  intro other _ apart
  apply List.filter_eq_nil_iff.mpr
  intro step inside
  exact fun is => apart ((owner_of_mem_steps inside).symm.trans (owned step is))

/-- A block that a script does not reach has no steps. -/
theorem filter_scriptSteps_eq_nil {asked : Step → Bool} {id : String}
    (owned : ∀ step, asked step = true → step.owner = id)
    (beyond : ∀ count join, Reached target entry none id count join → linkLimit < count) :
    (scriptSteps target entry).filter asked = [] := by
  apply List.filter_eq_nil_iff.mpr
  intro step inside is
  obtain ⟨count, join, within, reached, -⟩ := exists_reached_of_mem_scriptSteps linked root inside
  rw [owned step is] at reached
  exact absurd (beyond count join reached) (by omega)

end

end ScriptChart.Flow
