import ScriptChart.Proofs.Flow.Repetition

/-!
# Dangling links

A walk notices a dangling link for the block that it starts at, each time that it follows the links
of this block, and never else. What is noticed on a walk is the same as what the links of its blocks
lack, counted with repetitions.

## Main definitions

* `Step.isMissing`: a step notices a dangling link.
* `gaps`: the dangling links of the block that a step draws.

## Main results

* `filter_isMissing_plan`: a plan notices the dangling links of its block, in order.
* `filter_isMissing_scriptSteps`: what is noticed by a script.
-/

namespace ScriptChart.Flow

open ScriptChart.Project

/-- Whether a step notices a dangling link. -/
def Step.isMissing : Step → Bool
  | .missing _ _ _ => true
  | _ => false

/-- The dangling links of the block that a step draws, when links may still be followed from
there. -/
def gaps (target : Target) : Step → List Step
  | .block id (_ + 1) =>
    match target.block? id with
    | some block => (followedLinks block).flatMap (noticeDangling target id block)
    | none => []
  | _ => []

section

variable {target : Target} {id : String} {block : Block} {continuation : Option Node}

/-- A link that leads somewhere does not dangle. -/
theorem noticeDangling_of_destination? {link : Link} {next : String}
    (leads : destination? target block link = some next) :
    noticeDangling target id block link = [] := by
  obtain ⟨named, there⟩ := Option.filter_eq_some_iff.mp leads
  simp [noticeDangling, dangling?, named, Option.filter_some, there]

theorem filter_isMissing_noticeDangling (link : Link) :
    (noticeDangling target id block link).filter Step.isMissing =
      noticeDangling target id block link := by
  simp [noticeDangling, Step.isMissing]

/-! ### What a plan notices -/

/-- The parts for a link notice it when it dangles. -/
theorem filter_isMissing_linkParts {link : Link} {visits : Visits} {enter : Node → Step}
    {other : Option Node} {absent : List Part} (enters : ∀ place, (enter place).isMissing = false)
    (silent : (absent.flatMap Part.settled).filter Step.isMissing = []) :
    ((linkParts target id block link visits enter other absent).flatMap Part.settled).filter
        Step.isMissing =
      noticeDangling target id block link := by
  unfold linkParts
  cases leads : destination? target block link with
  | some first =>
    simp [Part.settled, enters, noticeDangling_of_destination? leads]
  | none =>
    have noticed : (danglingParts target id block link).flatMap Part.settled =
        noticeDangling target id block link := by
      simp [danglingParts, List.flatMap_map, Part.settled]
    rw [List.flatMap_append, List.filter_append, noticed, silent, List.append_nil]
    exact filter_isMissing_noticeDangling link

theorem filter_isMissing_branchParts (visits : Visits) (link : Link) (answer : Answer)
    (join : Node) :
    ((branchParts target id block visits link answer join).flatMap Part.settled).filter
        Step.isMissing =
      noticeDangling target id block link :=
  filter_isMissing_linkParts (fun _ => rfl) rfl

theorem filter_isMissing_rejoinParts (join : Node) :
    ((rejoinParts target id block join continuation).flatMap Part.settled).filter Step.isMissing =
      noticeDangling target id block .next :=
  filter_isMissing_linkParts (fun _ => rfl) rfl

theorem filter_isMissing_bodyParts (join : Node) :
    ((bodyParts target id block join).flatMap Part.settled).filter Step.isMissing =
      noticeDangling target id block .substack :=
  filter_isMissing_linkParts (fun _ => rfl) rfl

theorem filter_isMissing_plainParts :
    ((plainParts target id block continuation).flatMap Part.settled).filter Step.isMissing =
      noticeDangling target id block .next := by
  refine filter_isMissing_linkParts (fun _ => rfl) ?_
  split
  · rfl
  · cases continuation <;> rfl

/-- A plan notices the followed links of its block that dangle, in order. -/
theorem filter_isMissing_plan :
    ((plan target id block continuation).flatMap Part.settled).filter Step.isMissing =
      (followedLinks block).flatMap (noticeDangling target id block) := by
  unfold plan followedLinks
  cases block.control? with
  | none => simp [filter_isMissing_plainParts]
  | some kind =>
    cases kind <;>
      simp [constructParts, filter_isMissing_branchParts, filter_isMissing_rejoinParts,
        filter_isMissing_bodyParts, Part.settled, Step.isMissing]

/-! ### What a walk notices -/

theorem gaps_of_isBeside {step : Step} (beside : step.IsBeside id) : gaps target step = [] := by
  cases step with
  | block other links => exact absurd rfl (beside.2 (.ofBlock other) rfl).1
  | _ => rfl

/-- A walker notices what the blocks that it draws lack. -/
def NoticesGaps (target : Target) (walker : Walker) : Prop :=
  ∀ first continuation progress,
    ((walker first continuation progress).steps.filter Step.isMissing).Perm
      ((walker first continuation progress).steps.flatMap (gaps target))

variable {walker : Walker}

/-- A part of a plan notices a link of its own block, or what a walk notices. -/
theorem filter_isMissing_run (walks : NoticesGaps target walker) {part : Part}
    (inside : part ∈ plan target id block continuation) (progress : Progress) :
    ((part.run target walker progress).steps.filter Step.isMissing).Perm
      (part.settled.filter Step.isMissing ++
        (part.run target walker progress).steps.flatMap (gaps target)) := by
  cases part with
  | walk visits first other =>
    cases visits with
    | shared | forked => exact walks first other progress
  | emit step | opening join | rejoin join other =>
    -- no other part draws a block
    obtain ⟨_, _, _, same⟩ | ⟨-, beside⟩ := isBeside_run walker inside progress
    · cases same
    · rw [List.flatMap_eq_nil_iff.mpr fun step taken => gaps_of_isBeside (beside step taken),
        List.append_nil]
      exact .refl _

/-- The parts of a plan notice the links of its block and what walks notice. -/
theorem filter_isMissing_runParts (walks : NoticesGaps target walker) {parts : List Part}
    (inside : parts ⊆ plan target id block continuation) (progress : Progress) :
    ((runParts target walker parts progress).steps.filter Step.isMissing).Perm
      ((parts.flatMap Part.settled).filter Step.isMissing ++
        (runParts target walker parts progress).steps.flatMap (gaps target)) := by
  induction parts generalizing progress with
  | nil => exact .refl _
  | cons part rest ih =>
    obtain ⟨first, others⟩ := List.cons_subset.mp inside
    have one := filter_isMissing_run walks first progress
    have more := ih others (part.run target walker progress).progress
    simp only [runParts, Outcome.steps_andThen, List.filter_append, List.flatMap_append,
      List.flatMap_cons]
    -- the links of the block are noticed between its walks, and are moved to the front
    refine (one.append more).trans ?_
    simp only [List.append_assoc]
    exact (List.perm_append_comm_assoc _ _ _).append_left _

/-- A walk notices what the blocks that it draws lack. -/
theorem noticesGaps_walk (target : Target) (links : Nat) :
    NoticesGaps target (walk target links) := by
  -- induction on the links that may still be followed
  induction links with
  | zero =>
    intro id continuation progress
    obtain passed | ⟨block, fresh, present⟩ := passed_or_fresh target id progress
    · rw [walk_of_passed target id passed]
      exact .refl _
    · rw [walk_zero target id fresh present]
      exact .refl _
  | succ links ih =>
    intro id continuation progress
    obtain passed | ⟨block, fresh, present⟩ := passed_or_fresh target id progress
    · rw [walk_of_passed target id passed]
      exact .refl _
    · have noticed := filter_isMissing_runParts ih
        (List.Subset.refl (plan target id block continuation)) (progress.visit id)
      rw [filter_isMissing_plan] at noticed
      rw [walk_eq_runParts target id fresh present]
      simpa [gaps, present, Step.isMissing] using noticed

/-- What is noticed by a script is what the blocks lack that it draws and goes on from, counted with
repetitions. -/
theorem filter_isMissing_scriptSteps (target : Target) (entry : String) :
    ((scriptSteps target entry).filter Step.isMissing).Perm
      ((scriptSteps target entry).flatMap (gaps target)) :=
  noticesGaps_walk target linkLimit entry none .start

end

end ScriptChart.Flow
