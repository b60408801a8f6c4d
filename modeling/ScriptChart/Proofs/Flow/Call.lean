import ScriptChart.Proofs.Flow.Progress
import ScriptChart.Proofs.Flow.Step

/-!
# The calls of a walk

Where the plan of a block walks on, another walk is called, with the progress that was made by then.
The calls that are made from a first one are the moments of a walk. Every step of a walk is taken by
one of its calls for a part of the plan of one block, so what is asked of the steps of a walk comes
down to plans, whatever the links of the target are; and what holds of the first call and passes on
to the calls that a call makes holds throughout the walk.

In particular a walk has drawn whatever it relies on: the blocks that were visited, the ends of
constructs that were recorded, and the continuation.

## Main definitions

* `Call`: what a walk is asked for.
* `Call.Draws`, `Call.Meets`: the block that a call draws, and the parts of its plan that it comes
  to.
* `Call.Makes`, `Call.Made`: the calls that a call makes, at once or by and by.
* `Call.Takes`: the steps that a call takes itself.
* `Call.Backed`: what a call relies on is drawn.

## Main results

* `Call.mem_steps_iff`: the steps of a walk are those that its calls take.
* `Call.backed_of_made`: what the calls of a script rely on is drawn by the script.
-/

namespace ScriptChart.Flow

open ScriptChart.Project Relation

/-- What a walk is asked for: to go on from a block with a continuation along no more than a number
of links, when some progress was made. -/
structure Call where
  links : Nat
  id : String
  continuation : Option Node
  progress : Progress

/-- A step of several parts is a step of one of them, which is done with the progress made by the
parts before it. -/
theorem mem_runParts_iff {target : Target} {walker : Walker} {parts : List Part}
    {progress : Progress} {step : Step} :
    step ∈ (runParts target walker parts progress).steps ↔
      ∃ before part after, parts = before ++ part :: after ∧
        step ∈ (part.run target walker
          (runParts target walker before progress).progress).steps := by
  constructor
  · intro inside
    induction parts generalizing progress with
    | nil => simp [runParts] at inside
    | cons part rest ih =>
      rw [runParts, Outcome.steps_andThen, List.mem_append] at inside
      obtain first | later := inside
      · exact ⟨[], part, rest, rfl, first⟩
      · obtain ⟨before, other, after, rfl, taken⟩ := ih later
        exact ⟨part :: before, other, after, rfl, taken⟩
  · rintro ⟨before, part, after, rfl, taken⟩
    rw [runParts_append, Outcome.steps_andThen, runParts, Outcome.steps_andThen]
    exact List.mem_append_right _ (List.mem_append_left _ taken)

namespace Call

/-- The call with which the walk of a script begins. -/
def ofEntry (entry : String) : Call := ⟨linkLimit, entry, none, .start⟩

/-- What comes of a call. -/
def outcome (target : Target) (call : Call) : Outcome :=
  walk target call.links call.id call.continuation call.progress

/-- A call draws a block that is there and was not visited. -/
structure Draws (target : Target) (call : Call) (block : Block) : Prop where
  fresh : call.id ∉ call.progress.visited
  present : target.block? call.id = some block

/-- A call comes to a part of the plan of the block that it draws, with the progress made by
then. -/
inductive Meets (target : Target) (call : Call) : Part → Progress → Prop
  | intro {block : Block} {more : Nat} {before after : List Part} {part : Part}
      (draws : call.Draws target block) (left : call.links = more + 1)
      (planned : plan target call.id block call.continuation = before ++ part :: after) :
      Meets target call part
        (runParts target (walk target more) before (call.progress.visit call.id)).progress

/-- A call makes another one where its plan walks on. -/
def Makes (target : Target) (call next : Call) : Prop :=
  call.links = next.links + 1 ∧
    ∃ visits, call.Meets target (.walk visits next.id next.continuation) next.progress

/-- The calls that are made by and by. -/
def Made (target : Target) : Call → Call → Prop := ReflTransGen (Makes target)

/-- The steps that a call takes itself, and not by a call that it makes. -/
inductive Takes (target : Target) (call : Call) : Step → Prop
  | block {block : Block} (draws : call.Draws target block) :
      Takes target call (.block call.id call.links)
  | cut {block : Block} (draws : call.Draws target block) (last : call.links = 0) :
      Takes target call (.cut call.id)
  | emit {step : Step} {progress : Progress} (meets : call.Meets target (.emit step) progress) :
      Takes target call step
  | opening {join : Node} {progress : Progress}
      (meets : call.Meets target (.opening join) progress) : Takes target call (.join join)
  | rejoin {join : Node} {continuation : Option Node} {progress : Progress}
      (meets : call.Meets target (.rejoin join continuation) progress) :
      Takes target call
        (.rejoin join (enclosing? target progress.ends join.owner) continuation)

section

variable {target : Target} {call next : Call} {block : Block}

theorem outcome_of_passed
    (passed : call.id ∈ call.progress.visited ∨ target.block? call.id = none) :
    call.outcome target = .emit [] call.progress :=
  walk_of_passed target call.id passed

theorem outcome_of_links_eq_zero (draws : call.Draws target block) (last : call.links = 0) :
    call.outcome target =
      .emit [.block call.id 0, .cut call.id] (call.progress.visit call.id) := by
  rw [outcome, last, walk_zero target call.id draws.fresh draws.present]

theorem outcome_of_links_eq_succ (draws : call.Draws target block) {more : Nat}
    (left : call.links = more + 1) :
    call.outcome target =
      (runParts target (walk target more) (plan target call.id block call.continuation)
        (call.progress.visit call.id)).after [.block call.id (more + 1)] := by
  rw [outcome, left, walk_eq_runParts target call.id draws.fresh draws.present]

variable (target call) in
/-- A call draws a block or passes over it. -/
theorem passed_or_draws :
    (call.id ∈ call.progress.visited ∨ target.block? call.id = none) ∨
      ∃ block, call.Draws target block := by
  refine (passed_or_fresh target call.id call.progress).imp_right ?_
  rintro ⟨block, fresh, present⟩
  exact ⟨block, fresh, present⟩

theorem Meets.mem_plan {part : Part} {progress : Progress}
    (meets : call.Meets target part progress) :
    ∃ block more, call.Draws target block ∧ call.links = more + 1 ∧
      part ∈ plan target call.id block call.continuation := by
  obtain ⟨draws, left, planned⟩ := meets
  exact ⟨_, _, draws, left, planned ▸ List.mem_append_cons_self⟩

theorem exists_meets_of_mem_plan (draws : call.Draws target block) {more : Nat}
    (left : call.links = more + 1) {part : Part}
    (inside : part ∈ plan target call.id block call.continuation) :
    ∃ progress, call.Meets target part progress := by
  obtain ⟨before, after, planned⟩ := List.append_of_mem inside
  exact ⟨_, .intro draws left planned⟩

/-- A call goes on along every followed link that leads to a block. -/
theorem exists_makes (draws : call.Draws target block) {more : Nat} (left : call.links = more + 1)
    {link : Link} {first : String} (followed : link ∈ followedLinks block)
    (leads : destination? target block link = some first) :
    ∃ progress, call.Makes target
      ⟨more, first, joinAlong call.id block link call.continuation, progress⟩ := by
  obtain ⟨visits, inside⟩ := exists_walk_mem_plan followed leads call.continuation
  obtain ⟨progress, meets⟩ := exists_meets_of_mem_plan draws left inside
  exact ⟨progress, left, visits, meets⟩

/-! ### The steps of calls -/

theorem mem_steps_of_meets {part : Part} {progress : Progress} {step : Step}
    (meets : call.Meets target part progress)
    (taken : ∀ more, call.links = more + 1 →
      step ∈ (part.run target (walk target more) progress).steps) :
    step ∈ (call.outcome target).steps := by
  obtain ⟨draws, left, planned⟩ := meets
  rw [outcome_of_links_eq_succ draws left, Outcome.steps_after]
  exact List.mem_append_right _ (mem_runParts_iff.mpr ⟨_, _, _, planned, taken _ left⟩)

theorem Takes.mem_steps {step : Step} (takes : call.Takes target step) :
    step ∈ (call.outcome target).steps := by
  cases takes with
  | block draws =>
    cases left : call.links with
    | zero => simp [outcome_of_links_eq_zero draws left]
    | succ more => simp [outcome_of_links_eq_succ draws left]
  | cut draws last => simp [outcome_of_links_eq_zero draws last]
  | emit meets | opening meets | rejoin meets =>
    exact mem_steps_of_meets meets fun _ _ => List.mem_singleton_self _

/-- A call has the steps of the calls that it makes. -/
theorem Makes.steps_subset (makes : call.Makes target next) :
    (next.outcome target).steps ⊆ (call.outcome target).steps := by
  obtain ⟨left, visits, meets⟩ := makes
  intro step inside
  apply mem_steps_of_meets meets
  intro more left'
  obtain rfl : next.links = more := Nat.succ.inj (left.symm.trans left')
  -- forgetting what was visited changes no step
  cases visits <;> exact inside

theorem Made.steps_subset (made : Made target call next) :
    (next.outcome target).steps ⊆ (call.outcome target).steps := by
  induction made with
  | refl => exact List.Subset.refl _
  | tail _ makes ih => exact List.Subset.trans makes.steps_subset ih

theorem exists_made_of_mem_steps {step : Step} (inside : step ∈ (call.outcome target).steps) :
    ∃ other, Made target call other ∧ other.Takes target step := by
  -- induction on the links that may still be followed, which the calls that are made have less of
  induction links : call.links generalizing call with
  | zero =>
    obtain passed | ⟨block, draws⟩ := passed_or_draws target call
    · simp [outcome_of_passed passed] at inside
    · rw [outcome_of_links_eq_zero draws links] at inside
      simp only [Outcome.steps_emit, List.mem_cons, List.not_mem_nil, or_false] at inside
      obtain rfl | rfl := inside
      · exact ⟨call, .refl, links ▸ .block draws⟩
      · exact ⟨call, .refl, .cut draws links⟩
  | succ more ih =>
    obtain passed | ⟨block, draws⟩ := passed_or_draws target call
    · simp [outcome_of_passed passed] at inside
    · rw [outcome_of_links_eq_succ draws links, Outcome.steps_after, List.singleton_append,
        List.mem_cons] at inside
      obtain rfl | inside := inside
      · exact ⟨call, .refl, links ▸ .block draws⟩
      · obtain ⟨before, part, after, planned, taken⟩ := mem_runParts_iff.mp inside
        have meets := Meets.intro draws links planned
        cases part with
        | emit other =>
          obtain rfl := List.mem_singleton.mp taken
          exact ⟨call, .refl, .emit meets⟩
        | opening join =>
          obtain rfl := List.mem_singleton.mp taken
          exact ⟨call, .refl, .opening meets⟩
        | rejoin join continuation =>
          obtain rfl := List.mem_singleton.mp taken
          exact ⟨call, .refl, .rejoin meets⟩
        | walk visits first continuation =>
          let next : Call := ⟨more, first, continuation,
            (runParts target (walk target more) before (call.progress.visit call.id)).progress⟩
          have walked : step ∈ (next.outcome target).steps := by
            cases visits <;> exact taken
          obtain ⟨other, made, takes⟩ := ih walked rfl
          exact ⟨other, .head ⟨links, visits, meets⟩ made, takes⟩

/-- The steps of a call are those that it takes and those that the calls take that it makes by and
by. -/
theorem mem_steps_iff {step : Step} :
    step ∈ (call.outcome target).steps ↔
      ∃ other, Made target call other ∧ other.Takes target step := by
  constructor
  · exact exists_made_of_mem_steps
  · rintro ⟨other, made, takes⟩
    exact made.steps_subset takes.mem_steps

theorem mem_scriptSteps_iff {entry : String} {step : Step} :
    step ∈ scriptSteps target entry ↔
      ∃ other, Made target (.ofEntry entry) other ∧ other.Takes target step :=
  @mem_steps_iff target (.ofEntry entry) step

/-- The steps that a call takes belong to the block that it draws. -/
theorem Takes.exists_draws {step : Step} (takes : call.Takes target step) :
    step.owner = call.id ∧ ∃ block, call.Draws target block := by
  cases takes with
  | block draws | cut draws _ => exact ⟨rfl, _, draws⟩
  | emit meets =>
    obtain ⟨block, more, draws, left, planned⟩ := meets.mem_plan
    have settled : step ∈ (plan target call.id block call.continuation).flatMap Part.settled :=
      List.mem_flatMap.mpr ⟨_, planned, List.mem_singleton_self step⟩
    exact ⟨(isBeside_plan target call.id block call.continuation step settled).1, block, draws⟩
  | opening meets =>
    obtain ⟨block, more, draws, left, planned⟩ := meets.mem_plan
    obtain ⟨kind, -, rfl⟩ := exists_kind_of_opening_mem_plan planned
    exact ⟨rfl, block, draws⟩
  | rejoin meets =>
    obtain ⟨block, more, draws, left, planned⟩ := meets.mem_plan
    obtain ⟨⟨kind, -, -, rfl⟩, -, -⟩ := exists_kind_of_rejoin_mem_plan planned
    exact ⟨rfl, block, draws⟩

/-- Every step of a script belongs to a block of the target. -/
theorem hasBlock_owner {entry : String} {step : Step} (inside : step ∈ scriptSteps target entry) :
    target.hasBlock step.owner = true := by
  obtain ⟨other, -, takes⟩ := mem_scriptSteps_iff.mp inside
  obtain ⟨own, block, draws⟩ := takes.exists_draws
  rw [own]
  exact hasBlock_of_block? draws.present

/-- A missing block is noticed at a block with a link that dangles. -/
theorem exists_dangling_of_missing {entry owner name : String} {link : Link}
    (inside : .missing owner link name ∈ scriptSteps target entry) :
    ∃ block, target.block? owner = some block ∧ dangling? target block link = some name := by
  obtain ⟨other, -, takes⟩ := mem_scriptSteps_iff.mp inside
  cases takes with
  | emit meets =>
    obtain ⟨block, more, draws, left, planned⟩ := meets.mem_plan
    obtain ⟨rfl, dangles⟩ := dangling?_of_missing_mem_plan planned
    exact ⟨block, draws.present, dangles⟩

/-- The opening of a construct is a step of the call that draws its block. -/
theorem takes_join (draws : call.Draws target block) {more : Nat} (left : call.links = more + 1)
    {kind : ControlKind} (control : block.control? = some kind) :
    call.Takes target (.join ⟨call.id, joinRole kind⟩) := by
  have inside : .opening ⟨call.id, joinRole kind⟩ ∈
      plan target call.id block call.continuation := by
    simp [plan, control]
  obtain ⟨progress, meets⟩ := exists_meets_of_mem_plan draws left inside
  exact .opening meets

end

end Call

/-! ### What a call relies on -/

/-- Everything that was visited or recorded is drawn by some steps. -/
structure Progress.IsDrawn (steps : List Step) (progress : Progress) : Prop where
  visited : ∀ id ∈ progress.visited, ∃ links, .block id links ∈ steps
  ends : ∀ record ∈ progress.ends, .join record.2 ∈ steps

theorem isDrawn_start (steps : List Step) : Progress.start.IsDrawn steps :=
  ⟨by simp [Progress.start], by simp [Progress.start]⟩

section

variable {target : Target} {steps : List Step} {progress : Progress}

theorem Progress.IsDrawn.visit {id : String} {links : Nat} (drawn : progress.IsDrawn steps)
    (inside : .block id links ∈ steps) : (progress.visit id).IsDrawn steps := by
  refine ⟨fun other visited => ?_, drawn.ends⟩
  obtain rfl | visited := List.mem_cons.mp visited
  · exact ⟨links, inside⟩
  · exact drawn.visited other visited

theorem Progress.IsDrawn.record {join : Node} (drawn : progress.IsDrawn steps)
    (inside : .join join ∈ steps) : (progress.record join).IsDrawn steps := by
  refine ⟨drawn.visited, fun record recorded => ?_⟩
  obtain rfl | recorded := List.mem_cons.mp recorded
  · exact inside
  · exact drawn.ends record recorded

/-- When walks draw what they visit and record, so do the parts of a plan. -/
theorem isDrawn_runParts {walker : Walker}
    (walks : ∀ first continuation progress, progress.IsDrawn steps →
      (walker first continuation progress).steps ⊆ steps →
        (walker first continuation progress).progress.IsDrawn steps)
    {parts : List Part} (drawn : progress.IsDrawn steps)
    (within : (runParts target walker parts progress).steps ⊆ steps) :
    (runParts target walker parts progress).progress.IsDrawn steps := by
  induction parts generalizing progress with
  | nil => exact drawn
  | cons part rest ih =>
    rw [runParts, Outcome.steps_andThen, List.append_subset] at within
    refine ih ?_ within.2
    cases part with
    | emit step | rejoin join continuation => exact drawn
    | opening join => exact drawn.record (within.1 (List.mem_singleton_self _))
    | walk visits first continuation =>
      cases visits with
      | shared => exact walks first continuation progress drawn within.1
      | forked => exact ⟨drawn.visited, (walks first continuation progress drawn within.1).ends⟩

/-- A walk draws what it visits and records. -/
theorem isDrawn_walk {links : Nat} {id : String} {continuation : Option Node}
    (drawn : progress.IsDrawn steps)
    (within : (walk target links id continuation progress).steps ⊆ steps) :
    (walk target links id continuation progress).progress.IsDrawn steps := by
  induction links generalizing id continuation progress with
  | zero =>
    obtain passed | ⟨block, fresh, present⟩ := passed_or_fresh target id progress
    · rw [walk_of_passed target id passed]
      exact drawn
    · rw [walk_zero target id fresh present] at within ⊢
      exact drawn.visit (within List.mem_cons_self)
  | succ links ih =>
    obtain passed | ⟨block, fresh, present⟩ := passed_or_fresh target id progress
    · rw [walk_of_passed target id passed]
      exact drawn
    · rw [walk_eq_runParts target id fresh present] at within ⊢
      rw [Outcome.steps_after, List.append_subset] at within
      exact isDrawn_runParts (fun _ _ _ => ih) (drawn.visit (within.1 List.mem_cons_self)) within.2

end

namespace Call

/-- What a call relies on is drawn by some steps: what was visited and recorded before it, and the
node in which the innermost construct around it ends. -/
structure Backed (steps : List Step) (call : Call) : Prop where
  drawn : call.progress.IsDrawn steps
  continuation : ∀ join ∈ call.continuation, .join join ∈ steps

variable {target : Target} {call next : Call} {steps : List Step}

/-- What was visited and recorded when a call comes to a part of its plan is drawn. -/
theorem Backed.isDrawn_of_meets (backed : call.Backed steps)
    (within : (call.outcome target).steps ⊆ steps) {part : Part} {progress : Progress}
    (meets : call.Meets target part progress) : progress.IsDrawn steps := by
  obtain @⟨block, more, before, after, _, draws, left, planned⟩ := meets
  have first : .block call.id call.links ∈ steps := within (Takes.block draws).mem_steps
  rw [outcome_of_links_eq_succ draws left, Outcome.steps_after, List.append_subset, planned,
    runParts_append, Outcome.steps_andThen, List.append_subset] at within
  exact isDrawn_runParts (fun _ _ _ => isDrawn_walk) (backed.drawn.visit first) within.2.1

/-- What a call relies on that another one makes is drawn when this holds of the other one. -/
theorem Backed.of_makes (backed : call.Backed steps)
    (within : (call.outcome target).steps ⊆ steps) (makes : call.Makes target next) :
    next.Backed steps := by
  obtain ⟨left, visits, meets⟩ := makes
  refine ⟨backed.isDrawn_of_meets within meets, fun join ends => ?_⟩
  obtain ⟨block, more, draws, left, inside⟩ := meets.mem_plan
  obtain ⟨link, followed, -, along⟩ := exists_link_of_walk_mem_plan inside
  -- a chain goes on with the continuation, and a branch ends in the construct just opened
  by_cases chained : link = .next
  · subst chained
    rw [along] at ends
    exact backed.continuation join ends
  · obtain ⟨kind, control, opened⟩ :=
      joinAlong_of_ne_next call.id followed chained call.continuation
    rw [along, opened] at ends
    obtain rfl := Option.some.inj ends
    exact within (takes_join draws left control).mem_steps

/-- What the calls of a script rely on is drawn by the script. -/
theorem backed_of_made {entry : String} (made : Made target (.ofEntry entry) call) :
    call.Backed (scriptSteps target entry) := by
  induction made with
  | refl => exact ⟨isDrawn_start _, by simp [ofEntry]⟩
  | tail made makes ih => exact ih.of_makes (Made.steps_subset made) makes

end Call

end ScriptChart.Flow
