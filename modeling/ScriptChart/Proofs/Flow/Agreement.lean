import ScriptChart.Proofs.Flow.Outgoing

/-!
# Two ways on from a construct

Where control goes on after a construct without a block below it is known twice. The walk carries a
continuation along, which it passed down from the construct around; and a search looks upwards along
the parents, with the ends of constructs that the walk has recorded by then. In a well-linked target
both give the same answer whenever it is asked for: there is no way on, or it is one node.

The argument follows the calls of a walk. A construct records its end before it does anything else,
records stay, and so the continuation of a call is recorded when the call is made. The search then
finds it, since the ancestors of a block are the blocks on the way to it.

## Main definitions

* `Call.Settled`: all records are right, and the continuation is one of them.

## Main results

* `Call.settled_of_made`: the calls of a script are settled.
* `Call.enclosing?_eq_continuation`: looking upwards finds the continuation.
* `agreement_scriptSteps`: the two ways on agree throughout a script.
-/

namespace ScriptChart.Flow

open ScriptChart.Project

namespace Call

/-- All records are right, and the continuation is the end of a construct that was recorded. -/
structure Settled (target : Target) (call : Call) : Prop where
  right : RightEnds target call.progress.ends
  recorded : Recorded call.progress.ends call.continuation

variable {target : Target} {call next : Call} {part : Part} {progress : Progress}

/-- The parts of a block's plan keep what is recorded. -/
theorem kept_ends_runParts {id : String} {block : Block} {continuation : Option Node}
    (present : target.block? id = some block) {parts : List Part}
    (planned : parts ⊆ plan target id block continuation) (more : Nat) {before : Progress}
    (right : RightEnds target before.ends) :
    let after := (runParts target (walk target more) parts before).progress
    RightEnds target after.ends ∧ ∀ other node, before.ends.lookup other = some node →
      after.ends.lookup other = some node := by
  have keeps := kept_ends target
  have each : ∀ done ∈ parts, ∀ progress : Progress, RightEnds target progress.ends → _ :=
    fun done inside => keeps.run_of_mem_plan present (keeps.walk more) (planned inside)
  exact @Kept.runParts target _ keeps _ id _ each before right

/-- Until a call comes to a part of its plan, records are right and stay. -/
theorem Meets.kept_ends (meets : call.Meets target part progress)
    (right : RightEnds target call.progress.ends) :
    RightEnds target progress.ends ∧ ∀ other node, call.progress.ends.lookup other = some node →
      progress.ends.lookup other = some node := by
  obtain @⟨block, more, before, after, _, draws, left, planned⟩ := meets
  exact kept_ends_runParts draws.present (planned ▸ List.subset_append_left _ _) more right

/-- The end of a construct is recorded when a call comes to any part behind the opening. -/
theorem Meets.lookup_ends_self (meets : call.Meets target part progress)
    (right : RightEnds target call.progress.ends) {block : Block} {kind : ControlKind}
    (draws : call.Draws target block) (control : block.control? = some kind)
    (opened : ∀ node, part ≠ .opening node) :
    progress.ends.lookup call.id = some ⟨call.id, joinRole kind⟩ := by
  obtain @⟨block', more, before, after, _, draws', left, planned⟩ := meets
  obtain rfl := Option.some.inj (draws.present.symm.trans draws'.present)
  have whole : plan target call.id block call.continuation =
      .opening ⟨call.id, joinRole kind⟩ ::
        constructParts target call.id block kind ⟨call.id, joinRole kind⟩ call.continuation := by
    simp [plan, control]
  cases before with
  | nil =>
    -- the opening is the first part, and it is another one than this
    rw [whole, List.nil_append, List.cons.injEq] at planned
    exact absurd planned.1.symm (opened _)
  | cons first rest =>
    have within : rest ⊆ plan target call.id block call.continuation :=
      fun done inside =>
        planned ▸ List.mem_append_left _ (List.mem_cons_of_mem first inside)
    rw [whole, List.cons_append, List.cons.injEq] at planned
    obtain ⟨rfl, -⟩ := planned
    -- the opening records the end, and the parts behind it keep the record
    exact (kept_ends_runParts draws.present within more
      (right.cons draws.present control)).2 call.id _ List.lookup_cons_self

/-- A call that is made by a settled one is settled. -/
theorem Settled.of_makes (settled : call.Settled target) (makes : call.Makes target next) :
    next.Settled target := by
  obtain ⟨left, visits, meets⟩ := makes
  have ⟨right, keeps⟩ := meets.kept_ends settled.right
  refine ⟨right, ?_⟩
  obtain ⟨block, more, draws, -, planned⟩ := meets.mem_plan
  obtain ⟨link, followed, -, along⟩ := exists_link_of_walk_mem_plan planned
  rw [along]
  by_cases chained : link = .next
  · -- a chain goes on with the continuation of the call
    subst chained
    exact fun node is => keeps _ node (settled.recorded node is)
  · -- a branch continues in the end of the construct, which was opened before
    obtain ⟨kind, control, inner⟩ := joinAlong_of_ne_next call.id followed chained call.continuation
    rw [inner]
    rintro node ⟨⟩
    exact meets.lookup_ends_self settled.right draws control (by simp)

theorem settled_of_made {entry : String} (made : Made target (.ofEntry entry) call) :
    call.Settled target := by
  induction made with
  | refl => exact ⟨rightEnds_nil target, recorded_none _⟩
  | tail _ makes ih => exact ih.of_makes makes

/-- In a well-linked target, looking upwards at any time finds the continuation of the call. -/
theorem enclosing?_eq_continuation (linked : WellLinked target) {entry : String}
    (root : IsRoot target entry) (made : Made target (.ofEntry entry) call)
    (meets : call.Meets target part progress) :
    enclosing? target progress.ends call.id = call.continuation := by
  have settled := settled_of_made made
  have keeps := (meets.kept_ends settled.right).2
  have recorded : Recorded progress.ends call.continuation :=
    fun node is => keeps _ node (settled.recorded node is)
  obtain ⟨count, reached⟩ := made.exists_reached
  exact enclosing?_eq linked root reached recorded

/-- A call that draws a construct without a block below it asks for the way on, unless control never
leaves the construct or no link is left to follow. -/
theorem exists_meets_rejoin {block : Block} {kind : ControlKind} {more : Nat}
    (draws : call.Draws target block) (left : call.links = more + 1)
    (control : block.control? = some kind) (ends : kind ≠ .forever)
    (last : destination? target block .next = none) :
    ∃ progress,
      call.Meets target (.rejoin ⟨call.id, joinRole kind⟩ call.continuation) progress := by
  apply exists_meets_of_mem_plan draws left
  have asks : .rejoin ⟨call.id, joinRole kind⟩ call.continuation ∈
      rejoinParts target call.id block ⟨call.id, joinRole kind⟩ call.continuation := by
    simp [rejoinParts, linkParts, last]
  cases kind with
  | forever => exact absurd rfl ends
  | ifThen | ifElse | repeatTimes | repeatUntil =>
    simp only [plan, control]
    exact List.mem_cons_of_mem _ (List.mem_append_right _ asks)

end Call

/-- In a well-linked target the two ways on from a construct agree. Whenever a call of a script asks
for the way on, which is when it has drawn a construct that control leaves and no block stands
below, looking upwards with the ends recorded by then finds exactly the continuation of the call:
both are absent, or they are the same node. So of all steps of a script in which the way on is asked
for, the two answers are equal. -/
theorem agreement_scriptSteps {target : Target} (linked : WellLinked target) {entry : String}
    (script : entry ∈ target.entryPoints) :
    (∀ {call join continuation progress}, Call.Made target (.ofEntry entry) call →
      call.Meets target (.rejoin join continuation) progress →
        join.owner = call.id ∧ continuation = call.continuation ∧
          enclosing? target progress.ends join.owner = continuation) ∧
    (∀ {call block kind more}, Call.Made target (.ofEntry entry) call →
      call.Draws target block → call.links = more + 1 → block.control? = some kind →
        kind ≠ .forever → destination? target block .next = none →
          ∃ progress, call.Meets target (.rejoin ⟨call.id, joinRole kind⟩ call.continuation)
            progress) ∧
    ∀ source enclosing continuation,
      .rejoin source enclosing continuation ∈ scriptSteps target entry →
        enclosing = continuation := by
  have root := isRoot_of_mem_entryPoints script
  have agree : ∀ {call join continuation progress}, Call.Made target (.ofEntry entry) call →
      call.Meets target (.rejoin join continuation) progress →
        join.owner = call.id ∧ continuation = call.continuation ∧
          enclosing? target progress.ends join.owner = continuation := by
    intro call join continuation progress made meets
    obtain ⟨block, more, -, -, planned⟩ := meets.mem_plan
    obtain ⟨⟨kind, -, -, rfl⟩, -, rfl⟩ := exists_kind_of_rejoin_mem_plan planned
    exact ⟨rfl, rfl, Call.enclosing?_eq_continuation linked root made meets⟩
  refine ⟨agree, fun _ draws left control ends last => ?_, ?_⟩
  · exact Call.exists_meets_rejoin draws left control ends last
  · intro source enclosing continuation inside
    obtain ⟨call, made, takes⟩ := Call.mem_scriptSteps_iff.mp inside
    cases takes with
    | emit meets =>
      -- such a step is no part that is known beforehand
      obtain ⟨block, more, -, -, planned⟩ := meets.mem_plan
      obtain planned | ⟨kind, -, opens⟩ := planned_of_mem_plan planned
      · cases planned
      · exact absurd opens (by simp)
    | rejoin meets => exact (agree made meets).2.2

/-- In the sample, the conditional within the endless loop goes on to the end of the loop, and the
repetition below which a block is missing goes on nowhere. -/
theorem rejoin_sampleTarget :
    "flag" ∈ sampleTarget.entryPoints ∧ "key" ∈ sampleTarget.entryPoints ∧
      .rejoin ⟨"check", .conditionEnd⟩ (some ⟨"loop", .again⟩) (some ⟨"loop", .again⟩) ∈
        scriptSteps sampleTarget "flag" ∧
      .rejoin ⟨"often", .loopEnd⟩ none none ∈ scriptSteps sampleTarget "key" ∧
      ∀ entry, entry = "flag" ∨ entry = "key" → ∀ source enclosing continuation,
        .rejoin source enclosing continuation ∈ scriptSteps sampleTarget entry →
          enclosing = continuation := by
  refine ⟨by decide, by decide, by decide +kernel, by decide +kernel, ?_⟩
  rintro entry (rfl | rfl)
  · exact (agreement_scriptSteps wellLinked_sampleTarget (by decide)).2.2
  · exact (agreement_scriptSteps wellLinked_sampleTarget (by decide)).2.2

end ScriptChart.Flow
