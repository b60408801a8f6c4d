import ScriptChart.Proofs.Flow.Agreement

/-!
# No way on to the same construct

A search upwards never finds the construct from which it started. On a walk the same holds of the
continuation, since a construct is not drawn again within its own branches. So no edge leads from
the end of a construct to itself, whatever the links of the target are.

## Main results

* `Call.visited_of_made`: the construct around a call was visited before the call.
* `Call.ne_of_meets_rejoin`: a construct does not go on at its own end.
* `Drawn.ne_of_joinRole`: no edge leads from the end of a construct to itself.
-/

namespace ScriptChart.Flow

open ScriptChart.Project

namespace Call

variable {target : Target} {call next : Call} {part : Part} {progress : Progress}

/-- When a call comes to a part of its plan, its own block was visited, and all that was visited
before. -/
theorem Meets.visited_subset (meets : call.Meets target part progress) :
    call.id :: call.progress.visited ⊆ progress.visited := by
  obtain @⟨block, more, before, after, _, draws, left, planned⟩ := meets
  have keeps := kept_visited_subset target
  have within : before ⊆ plan target call.id block call.continuation :=
    planned ▸ List.subset_append_left _ _
  exact @Kept.runParts target _ keeps (walk target more) call.id before
    (fun done inside => keeps.run_of_mem_plan draws.present (keeps.walk more) (within inside))
    (call.progress.visit call.id)

/-- The construct whose end is the continuation of a call was visited before the call. -/
theorem visited_of_made {entry : String} (made : Made target (.ofEntry entry) call) :
    ∀ join ∈ call.continuation, join.owner ∈ call.progress.visited := by
  induction made with
  | refl => simp [ofEntry]
  | @tail call next _ makes ih =>
    obtain ⟨left, visits, meets⟩ := makes
    obtain ⟨block, more, draws, -, planned⟩ := meets.mem_plan
    obtain ⟨link, followed, -, along⟩ := exists_link_of_walk_mem_plan planned
    have visited := meets.visited_subset
    intro join ends
    rw [along] at ends
    by_cases chained : link = .next
    · -- along a chain the continuation stays
      subst chained
      exact visited (List.mem_cons_of_mem _ (ih join ends))
    · -- a branch ends in the construct that the call has drawn
      obtain ⟨kind, -, opened⟩ :=
        joinAlong_of_ne_next call.id followed chained call.continuation
      obtain rfl := Option.some.inj (opened.symm.trans ends)
      exact visited List.mem_cons_self

/-- Where a call asks for the way on, neither answer is the end of its own construct. -/
theorem ne_of_meets_rejoin {entry : String} (made : Made target (.ofEntry entry) call)
    {join place : Node} {continuation : Option Node}
    (meets : call.Meets target (.rejoin join continuation) progress)
    (way : (enclosing? target progress.ends join.owner).or continuation = some place) :
    join ≠ place := by
  obtain ⟨block, more, draws, -, planned⟩ := meets.mem_plan
  obtain ⟨⟨kind, -, -, rfl⟩, -, rfl⟩ := exists_kind_of_rejoin_mem_plan planned
  rintro rfl
  obtain upwards | ⟨-, around⟩ := Option.or_eq_some_iff.mp way
  · have right := (meets.kept_ends (settled_of_made made).right).1
    obtain ⟨id, -, -, other, -, -, found⟩ | ⟨id, other, -, same⟩ := cases_of_enclosing? upwards
    · -- a record tells the construct that it belongs to
      obtain ⟨_, _, -, -, same⟩ := right id _ found
      exact other (congrArg Node.owner same).symm
    · exact other (congrArg Node.owner same).symm
  · -- a construct is drawn only if it was not visited
    exact draws.fresh (visited_of_made made _ around)

end Call

/-- No edge leads from the end of a construct to itself, whatever the links of the target are. -/
theorem Drawn.ne_of_joinRole {target : Target} {entry : String} {start finish : Node}
    (drawn : Drawn target entry start finish) {kind : ControlKind}
    (role : start.role = joinRole kind) : start ≠ finish := by
  have apart : ∀ id : String, start ≠ .ofBlock id := fun id same =>
    joinRole_ne_block kind (role.symm.trans (congrArg Node.role same))
  obtain ⟨step, walked, ends⟩ := drawn
  obtain ⟨call, made, takes⟩ := Call.mem_scriptSteps_iff.mp walked
  cases takes with
  | block | opening => simp [Step.ends?] at ends
  | cut =>
    obtain ⟨rfl, rfl⟩ := Prod.mk.inj (Option.some.inj ends)
    exact absurd rfl (apart call.id)
  | emit meets =>
    obtain ⟨block, more, draws, left, inside⟩ := meets.mem_plan
    obtain planned | ⟨_, -, opens⟩ := planned_of_mem_plan inside
    · cases planned with
      | missing => simp [Step.ends?] at ends
      | edge | branch | leaf =>
        -- such an edge leaves the block
        obtain ⟨rfl, rfl⟩ := Prod.mk.inj (Option.some.inj ends)
        exact absurd rfl (apart call.id)
      | back | onward =>
        obtain ⟨rfl, rfl⟩ := Prod.mk.inj (Option.some.inj ends)
        exact apart _
    · contradiction
  | @rejoin join continuation progress meets =>
    obtain ⟨rfl, rfl⟩ := Prod.mk.inj (Option.some.inj ends)
    cases way : (enclosing? target progress.ends join.owner).or continuation with
    | some place => exact Call.ne_of_meets_rejoin made meets way
    | none =>
      intro same
      have roles := congrArg Node.role same
      rw [role, Option.getD_none, Node.leaf, role] at roles
      cases kind <;> simp [joinRole, Role.leaf] at roles

end ScriptChart.Flow
