import Mathlib.Logic.Function.Iterate
import ScriptChart.Proofs.Flow.Climb
import ScriptChart.Proofs.Flow.Plan

/-!
# Walking without a bound

A walk may follow a number of links that is fixed beforehand, so it comes to an end whatever the
links of a target are. Here a script is walked by a machine that knows no such number. It keeps a
stack of tasks and does the topmost one: a call counts how deep it is, and its only guard is that a
block below a certain depth is cut. Searches upwards are done one look at a time, with no other
guard than the ancestors that were met.

The machine stops all the same, with the steps of the script. So the number of links that a walk may
follow is the depth at which the machine cuts a walk, and neither takes anything away from a search.

## Main definitions

* `Task`, `Task.work`: what is left to do, and what is done of it at once.
* `Machine`, `Machine.tick`, `Machine.run`: a stack of tasks, and doing the topmost one over and
  over.
* `Machine.Does`: after some ticks a number of tasks has come to an outcome.
* `Task.Shallow`: no call is deeper than the limit, and no part of a plan cuts a walk.

## Main results

* `Machine.does_call`: a call comes to the outcome of the walk.
* `Machine.exists_run_eq`: the machine stops, with the steps of the script.
* `Machine.Occurs.shallow`: at no time is a call deeper than the limit.
* `Machine.Occurs.cut_of_tick`: only a call at the limit cuts the walk.
* `Machine.exists_tick_iterate_of_search`: how far a search looks.
-/

namespace ScriptChart.Flow

open ScriptChart.Project

/-- Below this depth no link is followed. -/
def depthLimit : Nat := 500

/-- What is left to do on a walk. -/
inductive Task where
  /-- To go on from a block with a continuation, so many links away from the entry. -/
  | call (depth : Nat) (id : String) (continuation : Option Node)
  /-- To do a part of the plan of a block at a depth. -/
  | piece (depth : Nat) (part : Part)
  /-- To go on with a search upwards for the way on from the node in which a construct ends. -/
  | search (climb : Climb) (join : Node) (continuation : Option Node)
  /-- To forget what a branch has visited. -/
  | restore (visited : List String)

namespace Task

/-- What a call does at once: it passes over its block, or it draws it, and then either cuts the
walk or leaves the parts of the plan to do. -/
def workCall (target : Target) (depth : Nat) (id : String) (continuation : Option Node)
    (progress : Progress) : Outcome × List Task :=
  if progress.visited.contains id then (.emit [] progress, [])
  else
    match target.block? id with
    | none => (.emit [] progress, [])
    | some block =>
      if depthLimit < depth then
        (.emit [.block id (linkLimit - depth), .cut id] (progress.visit id), [])
      else
        (.emit [.block id (linkLimit - depth)] (progress.visit id),
          (plan target id block continuation).map (.piece depth))

/-- What a part of a plan does at once. -/
def workPart (target : Target) (depth : Nat) : Part → Progress → Outcome × List Task
  | .emit step, progress => (.emit [step] progress, [])
  | .opening join, progress => (.emit [.join join] (progress.record join), [])
  | .rejoin join continuation, progress =>
    (.emit [] progress, [.search (.start target join.owner) join continuation])
  | .walk .shared first continuation, progress =>
    (.emit [] progress, [.call (depth + 1) first continuation])
  | .walk .forked first continuation, progress =>
    (.emit [] progress, [.call (depth + 1) first continuation, .restore progress.visited])

/-- What is done of a task at once, and the tasks that it leaves. -/
def work (target : Target) (progress : Progress) : Task → Outcome × List Task
  | .call depth id continuation => workCall target depth id continuation progress
  | .piece depth part => workPart target depth part progress
  | .search (.ended found) join continuation =>
    (.emit [.rejoin join found continuation] progress, [])
  | .search climb join continuation =>
    (.emit [] progress, [.search (climb.look target progress.ends join.owner) join continuation])
  | .restore visited => (.emit [] { progress with visited := visited }, [])

/-- What a call does that draws its block. -/
theorem work_call {target : Target} {progress : Progress} {id : String} {block : Block}
    (fresh : id ∉ progress.visited) (present : target.block? id = some block) (depth : Nat)
    (continuation : Option Node) :
    work target progress (.call depth id continuation) =
      if depthLimit < depth then
        (.emit [.block id (linkLimit - depth), .cut id] (progress.visit id), [])
      else
        (.emit [.block id (linkLimit - depth)] (progress.visit id),
          (plan target id block continuation).map (.piece depth)) := by
  simp [work, workCall, fresh, present]

theorem work_call_of_passed {target : Target} {progress : Progress} {id : String}
    (passed : id ∈ progress.visited ∨ target.block? id = none) (depth : Nat)
    (continuation : Option Node) :
    work target progress (.call depth id continuation) = (.emit [] progress, []) := by
  rcases passed with visited | absent
  · simp [work, workCall, visited]
  · simp [work, workCall, absent]

end Task

/-- A stack of tasks, with what was done so far. -/
structure Machine where
  tasks : List Task
  progress : Progress
  steps : List Step

namespace Machine

/-- The machine before a script is walked. -/
def start (entry : String) : Machine := ⟨[.call 0 entry none], .start, []⟩

/-- Does the topmost task. A machine without tasks has stopped. -/
def tick (target : Target) (machine : Machine) : Machine :=
  match machine.tasks with
  | [] => machine
  | task :: rest =>
    let work := task.work target machine.progress
    ⟨work.2 ++ rest, work.1.progress, machine.steps ++ work.1.steps⟩

/-- The machine for a script after a number of ticks. -/
def run (target : Target) (entry : String) (count : Nat) : Machine :=
  (tick target)^[count] (start entry)

theorem run_succ (target : Target) (entry : String) (count : Nat) :
    run target entry (count + 1) = (run target entry count).tick target :=
  Function.iterate_succ_apply' _ _ _

/-- The machine is that for a script at some time. -/
def Occurs (target : Target) (entry : String) (machine : Machine) : Prop :=
  ∃ count, run target entry count = machine

@[simp]
theorem tick_cons (target : Target) (task : Task) (rest : List Task) (progress : Progress)
    (steps : List Step) :
    tick target ⟨task :: rest, progress, steps⟩ =
      ⟨(task.work target progress).2 ++ rest, (task.work target progress).1.progress,
        steps ++ (task.work target progress).1.steps⟩ := rfl

/-! ### The machine comes to the outcome of the walk -/

/-- From some progress, and whatever is left to do afterwards, a number of tasks comes to an
outcome. -/
def Does (target : Target) (tasks : List Task) (progress : Progress) (outcome : Outcome) : Prop :=
  ∀ rest steps, ∃ count, (tick target)^[count] ⟨tasks ++ rest, progress, steps⟩ =
    ⟨rest, outcome.progress, steps ++ outcome.steps⟩

section

variable {target : Target} {tasks : List Task} {progress : Progress} {outcome : Outcome}

theorem does_nil (progress : Progress) : Does target [] progress (.emit [] progress) :=
  fun _ steps => ⟨0, by simp⟩

theorem Does.append {more : List Task} {next : Progress → Outcome}
    (first : Does target tasks progress outcome)
    (second : Does target more outcome.progress (next outcome.progress)) :
    Does target (tasks ++ more) progress (outcome.andThen next) := by
  intro rest steps
  obtain ⟨count, reached⟩ := first (more ++ rest) steps
  obtain ⟨count', reached'⟩ := second rest (steps ++ outcome.steps)
  refine ⟨count' + count, ?_⟩
  rw [Function.iterate_add_apply, List.append_assoc, reached, reached']
  simp

/-- A task is done when the tasks are done that it leaves. -/
theorem does_single {task : Task} {later : Outcome}
    (work : task.work target progress = (outcome, tasks))
    (left : Does target tasks outcome.progress later) :
    Does target [task] progress (later.after outcome.steps) := by
  intro rest steps
  obtain ⟨count, reached⟩ := left rest (steps ++ outcome.steps)
  refine ⟨count + 1, ?_⟩
  rw [Function.iterate_succ_apply, List.singleton_append, tick_cons, work, reached]
  simp

/-- A task that leaves no tasks. -/
theorem does_single_of_tasks_eq_nil {task : Task}
    (work : task.work target progress = (outcome, [])) :
    Does target [task] progress outcome := by
  have done := does_single work (does_nil outcome.progress)
  simpa [Outcome.after, Outcome.emit] using done

/-- A task that is only exchanged for others. -/
theorem does_single_of_exchange {task : Task}
    (work : task.work target progress = (.emit [] progress, tasks))
    (left : Does target tasks progress outcome) : Does target [task] progress outcome :=
  does_single work left

/-- A search that is over after some looks is over after no more ticks, and nothing else has
changed. -/
theorem exists_tick_iterate_search {climb : Climb} {join : Node} {continuation found : Option Node}
    {looks : Nat}
    (ends : (Climb.look target progress.ends join.owner)^[looks] climb = .ended found)
    (rest : List Task) (steps : List Step) :
    ∃ count ≤ looks,
      (tick target)^[count] ⟨.search climb join continuation :: rest, progress, steps⟩ =
        ⟨.search (.ended found) join continuation :: rest, progress, steps⟩ := by
  induction looks generalizing climb with
  | zero => exact ⟨0, Nat.le_refl 0, by rw [← ends]; rfl⟩
  | succ looks ih =>
    rw [Function.iterate_succ_apply] at ends
    cases climb with
    | ended other =>
      have still : (Climb.look target progress.ends join.owner)^[looks] (.ended other) =
          .ended other :=
        Function.iterate_fixed rfl looks
      obtain rfl := Climb.ended.inj (still.symm.trans ends)
      exact ⟨0, Nat.zero_le _, rfl⟩
    | under met child above =>
      obtain ⟨count, within, reached⟩ := ih ends
      refine ⟨count + 1, Nat.succ_le_succ within, ?_⟩
      rw [Function.iterate_succ_apply, tick_cons]
      simpa [Task.work] using reached

theorem does_search {climb : Climb} {join : Node} {continuation found : Option Node} {looks : Nat}
    (ends : (Climb.look target progress.ends join.owner)^[looks] climb = .ended found) :
    Does target [.search climb join continuation] progress
      (.emit [.rejoin join found continuation] progress) := by
  intro rest steps
  obtain ⟨count, -, reached⟩ := exists_tick_iterate_search ends rest steps
  exact ⟨count + 1, by
    rw [Function.iterate_succ_apply', List.singleton_append, reached]
    rfl⟩

section

variable {depth : Nat} {walker : Walker}
  (calls : ∀ first continuation progress, Does target [.call (depth + 1) first continuation]
    progress (walker first continuation progress))
include calls

theorem does_part (part : Part) (progress : Progress) :
    Does target [.piece depth part] progress (part.run target walker progress) := by
  cases part with
  | emit step => exact does_single_of_tasks_eq_nil rfl
  | opening join => exact does_single_of_tasks_eq_nil rfl
  | rejoin join continuation =>
    exact does_single_of_exchange rfl
      (does_search (Climb.look_iterate_start target progress.ends join.owner))
  | walk visits first continuation =>
    cases visits with
    | shared => exact does_single_of_exchange rfl (calls first continuation progress)
    | forked =>
      have restores : ∀ later : Progress, Does target [.restore progress.visited] later
          (.emit [] { later with visited := progress.visited }) :=
        fun later => does_single_of_tasks_eq_nil rfl
      have forgets : (walker first continuation progress).forgetVisits progress =
          (walker first continuation progress).andThen fun later =>
            .emit [] { later with visited := progress.visited } := by
        simp [Outcome.andThen, Outcome.after, Outcome.emit, Outcome.forgetVisits]
      have done : Does target ([.call (depth + 1) first continuation] ++
          [.restore progress.visited]) progress
            ((walker first continuation progress).forgetVisits progress) := by
        rw [forgets]
        exact (calls first continuation progress).append (restores _)
      exact does_single_of_exchange rfl done

theorem does_parts (parts : List Part) (progress : Progress) :
    Does target (parts.map (.piece depth)) progress (runParts target walker parts progress) := by
  induction parts generalizing progress with
  | nil => exact does_nil progress
  | cons part rest ih => exact (does_part calls part progress).append (ih _)

end

/-- A call comes to the outcome of a walk along as many links as are left at its depth. -/
theorem does_call {links depth : Nat} (left : depth + links = linkLimit) (id : String)
    (continuation : Option Node) (progress : Progress) :
    Does target [.call depth id continuation] progress
      (walk target links id continuation progress) := by
  have remaining : linkLimit - depth = links := by omega
  -- induction on the links that are left, which the calls that a call makes have less of
  induction links generalizing depth id continuation progress with
  | zero =>
    have deep : depthLimit < depth := by
      rw [depthLimit]
      rw [linkLimit] at left
      omega
    obtain passed | ⟨block, fresh, present⟩ := passed_or_fresh target id progress
    · rw [walk_of_passed target id passed]
      exact does_single_of_tasks_eq_nil (Task.work_call_of_passed passed depth continuation)
    · rw [walk_zero target id fresh present]
      apply does_single_of_tasks_eq_nil
      rw [Task.work_call fresh present, if_pos deep, remaining]
  | succ links ih =>
    have shallow : ¬ depthLimit < depth := by
      rw [depthLimit]
      rw [linkLimit] at left
      omega
    obtain passed | ⟨block, fresh, present⟩ := passed_or_fresh target id progress
    · rw [walk_of_passed target id passed]
      exact does_single_of_tasks_eq_nil (Task.work_call_of_passed passed depth continuation)
    · have work := Task.work_call fresh present depth continuation
      rw [if_neg shallow, remaining] at work
      have calls : ∀ first continuation progress,
          Does target [.call (depth + 1) first continuation] progress
            (walk target links first continuation progress) := fun first continuation progress =>
        ih (by omega) first continuation progress (by omega)
      rw [walk_eq_runParts target id fresh present]
      exact does_single work (does_parts calls _ _)

end

/-- The machine stops, with the steps of the script. -/
theorem exists_run_eq (target : Target) (entry : String) :
    ∃ count, (run target entry count).tasks = [] ∧
      (run target entry count).steps = scriptSteps target entry := by
  have done : Does target [.call 0 entry none] .start (walk target linkLimit entry none .start) :=
    does_call (Nat.zero_add linkLimit) entry none .start
  obtain ⟨count, reached⟩ := done [] []
  rw [List.append_nil] at reached
  exact ⟨count, congrArg Machine.tasks reached, congrArg Machine.steps reached⟩

end Machine

/-! ### No call is deeper than the limit -/

/-- A plan does not cut the walk. -/
theorem cut_not_mem_plan {target : Target} {id other : String} {block : Block}
    {continuation : Option Node} : .emit (.cut other) ∉ plan target id block continuation := by
  intro inside
  obtain planned | ⟨kind, -, opens⟩ := planned_of_mem_plan inside
  · cases planned
  · contradiction

namespace Task

/-- No call is deeper than the limit. A part of a plan is only left to do where links may still be
followed, and does not cut the walk itself. -/
def Shallow : Task → Prop
  | .call depth _ _ => depth ≤ linkLimit
  | .piece depth part => depth ≤ depthLimit ∧ ∀ id, part ≠ .emit (.cut id)
  | .search _ _ _ | .restore _ => True

variable {target : Target} {progress : Progress} {task next : Task}

theorem shallow_of_mem_workPart {depth : Nat} {part : Part} (within : depth ≤ depthLimit)
    (inside : next ∈ (workPart target depth part progress).2) : next.Shallow := by
  have deeper : depth + 1 ≤ linkLimit := Nat.succ_le_succ within
  cases part with
  | emit step | opening join => contradiction
  | rejoin join continuation =>
    obtain rfl := List.mem_singleton.mp inside
    trivial
  | walk visits first continuation =>
    cases visits with
    | shared =>
      obtain rfl := List.mem_singleton.mp inside
      exact deeper
    | forked =>
      obtain rfl | inside := List.mem_cons.mp inside
      · exact deeper
      · obtain rfl := List.mem_singleton.mp inside
        trivial

/-- The tasks that a task leaves are as shallow. -/
theorem shallow_of_mem_work (shallow : task.Shallow)
    (inside : next ∈ (task.work target progress).2) : next.Shallow := by
  cases task with
  | call depth id continuation =>
    obtain passed | ⟨block, fresh, present⟩ := passed_or_fresh target id progress
    · rw [work_call_of_passed passed] at inside
      contradiction
    · rw [work_call fresh present] at inside
      split at inside
      · contradiction
      · next above =>
        obtain ⟨part, planned, rfl⟩ := List.mem_map.mp inside
        refine ⟨Nat.le_of_not_lt above, fun other is => ?_⟩
        exact cut_not_mem_plan (is ▸ planned)
  | piece depth part => exact shallow_of_mem_workPart shallow.1 inside
  | search climb join continuation =>
    cases climb with
    | ended found => contradiction
    | under met child above =>
      obtain rfl := List.mem_singleton.mp inside
      trivial
  | restore visited => contradiction

/-- Only a call at the limit cuts the walk, at the block that it draws. -/
theorem cut_of_mem_work (shallow : task.Shallow) {id : String}
    (cuts : .cut id ∈ (task.work target progress).1.steps) :
    ∃ continuation, task = .call linkLimit id continuation ∧ id ∉ progress.visited ∧
      target.hasBlock id = true := by
  cases task with
  | call depth other continuation =>
    obtain passed | ⟨block, fresh, present⟩ := passed_or_fresh target other progress
    · rw [work_call_of_passed passed] at cuts
      contradiction
    · rw [work_call fresh present] at cuts
      split at cuts
      · next below =>
        obtain rfl : depth = linkLimit := Nat.le_antisymm shallow below
        obtain rfl : id = other := by simpa using cuts
        exact ⟨continuation, rfl, fresh, hasBlock_of_block? present⟩
      · simp at cuts
  | piece depth part =>
    cases part with
    | emit step =>
      obtain rfl := List.mem_singleton.mp cuts
      exact absurd rfl (shallow.2 id)
    | opening join => simp [work, workPart] at cuts
    | rejoin join continuation => simp [work, workPart] at cuts
    | walk visits first continuation => cases visits <;> simp [work, workPart] at cuts
  | search climb join continuation => cases climb <;> simp [work] at cuts
  | restore visited => simp [work] at cuts

end Task

namespace Machine

variable {target : Target} {entry : String} {machine : Machine}

/-- At no time is a call deeper than the limit. -/
theorem Occurs.shallow (occurs : machine.Occurs target entry) :
    ∀ task ∈ machine.tasks, task.Shallow := by
  obtain ⟨count, rfl⟩ := occurs
  induction count with
  | zero =>
    intro task inside
    obtain rfl := List.mem_singleton.mp inside
    exact Nat.zero_le _
  | succ count ih =>
    intro task inside
    rw [run_succ, tick] at inside
    cases tasks : (run target entry count).tasks with
    | nil =>
      rw [tasks] at inside
      exact ih task inside
    | cons first rest =>
      rw [tasks] at inside ih
      obtain left | later := List.mem_append.mp inside
      · exact Task.shallow_of_mem_work (ih first List.mem_cons_self) left
      · exact ih task (List.mem_cons_of_mem first later)

/-- A tick cuts the walk only at a call at the limit, at the block that it draws. -/
theorem Occurs.cut_of_tick (occurs : machine.Occurs target entry) {taken : List Step}
    (more : (machine.tick target).steps = machine.steps ++ taken) {id : String}
    (cuts : .cut id ∈ taken) :
    ∃ continuation rest, machine.tasks = .call linkLimit id continuation :: rest ∧
      id ∉ machine.progress.visited ∧ target.hasBlock id = true := by
  have shallow := occurs.shallow
  unfold tick at more
  cases tasks : machine.tasks with
  | nil =>
    obtain rfl : taken = [] := by simpa [tasks] using more
    contradiction
  | cons task rest =>
    simp only [tasks, List.append_cancel_left_eq] at more
    obtain ⟨continuation, rfl, drawn⟩ :=
      Task.cut_of_mem_work (shallow task (tasks ▸ List.mem_cons_self)) (more ▸ cuts)
    exact ⟨continuation, rest, rfl, drawn⟩

/-- A call that draws a block at the limit cuts the walk and leaves nothing to do. -/
theorem tick_of_cut {id : String} {continuation : Option Node} {rest : List Task} {block : Block}
    (tasks : machine.tasks = .call linkLimit id continuation :: rest)
    (fresh : id ∉ machine.progress.visited) (present : target.block? id = some block) :
    machine.tick target =
      ⟨rest, machine.progress.visit id, machine.steps ++ [.block id 0, .cut id]⟩ := by
  have work := Task.work_call fresh present linkLimit continuation
  rw [if_pos (show depthLimit < linkLimit by decide)] at work
  simp [tick, tasks, work]

/-- Any other call that draws a block leaves its plan to do. -/
theorem tick_of_draw {depth : Nat} (above : depth ≤ depthLimit) {id : String}
    {continuation : Option Node} {rest : List Task} {block : Block}
    (tasks : machine.tasks = .call depth id continuation :: rest)
    (fresh : id ∉ machine.progress.visited) (present : target.block? id = some block) :
    machine.tick target =
      ⟨(plan target id block continuation).map (.piece depth) ++ rest,
        machine.progress.visit id, machine.steps ++ [.block id (linkLimit - depth)]⟩ := by
  have work := Task.work_call fresh present depth continuation
  rw [if_neg (Nat.not_lt.mpr above)] at work
  simp [tick, tasks, work]

/-- A search upwards is over after looks at no more ancestors than there are blocks, and once
more. -/
theorem exists_tick_iterate_of_search {join : Node} {continuation : Option Node} {rest : List Task}
    (tasks : machine.tasks = .search (.start target join.owner) join continuation :: rest) :
    ∃ looks ≤ target.blocks.size + 1, (tick target)^[looks] machine =
      ⟨.search (.ended (enclosing? target machine.progress.ends join.owner)) join continuation ::
        rest, machine.progress, machine.steps⟩ := by
  obtain ⟨_, progress, steps⟩ := machine
  obtain rfl := tasks
  exact exists_tick_iterate_search (Climb.look_iterate_start target progress.ends join.owner) rest
    steps

end Machine

end ScriptChart.Flow
