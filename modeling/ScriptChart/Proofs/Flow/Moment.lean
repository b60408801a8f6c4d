import ScriptChart.Proofs.Flow.Declared
import ScriptChart.Proofs.Flow.Machine

/-!
# The moments of a walk

The machine for a script does a task at once. But on a walk a block is marked as visited before its
node is drawn, and the end of a construct is recorded after its node is drawn. Here a task is done
by single actions, each of which changes what is drawn or what is known and not both. Between any
two actions there is a moment of the walk.

The actions of a task lead from one tick of the machine to the next, and every call that a walk
makes becomes the topmost task. So the moments are those of the walk.

## Main definitions

* `Action`, `Outcome.perform`: the single changes on a walk.
* `Task.actions`: the actions of a task.
* `Moment`: what is drawn and known between two actions, and the actions of the task that are left.

## Main results

* `Moment.performAll_left`: the actions of a task lead from one tick to the next.
* `Machine.exists_occurs_of_made`: every call of a walk has its moment.
* `Moment.steps_isPrefix`: what is drawn by a moment are the first steps of the script.
-/

namespace ScriptChart.Flow

open ScriptChart.Project

/-- A single change on a walk, of what is drawn or of what is known. -/
inductive Action where
  | visit (id : String)
  | draw (step : Step)
  | record (node : Node)
  /-- To know of no other visits than those before a branch. -/
  | forget (visited : List String)
deriving DecidableEq

namespace Outcome

/-- What is drawn and known after an action. -/
def perform (now : Outcome) : Action → Outcome
  | .visit id => { now with progress := now.progress.visit id }
  | .draw step => { now with steps := now.steps ++ [step] }
  | .record node => { now with progress := now.progress.record node }
  | .forget visited => { now with progress := { now.progress with visited := visited } }

/-- What is drawn and known after several actions. -/
def performAll (now : Outcome) (actions : List Action) : Outcome := actions.foldl perform now

theorem steps_isPrefix_perform (now : Outcome) (action : Action) :
    now.steps <+: (now.perform action).steps := by
  cases action with
  | draw step => exact List.prefix_append _ _
  | visit id | record node | forget visited => exact List.prefix_rfl

theorem steps_isPrefix_performAll (now : Outcome) (actions : List Action) :
    now.steps <+: (now.performAll actions).steps := by
  induction actions generalizing now with
  | nil => exact List.prefix_rfl
  | cons action later ih =>
    exact (now.steps_isPrefix_perform action).trans (ih (now.perform action))

end Outcome

/-! ### The actions of a task -/

namespace Task

/-- The actions of a call. It marks its block before it draws it. -/
def callActions (target : Target) (depth : Nat) (id : String) (progress : Progress) :
    List Action :=
  if progress.visited.contains id then []
  else
    match target.block? id with
    | none => []
    | some _ =>
      .visit id :: .draw (.block id (linkLimit - depth)) ::
        if depthLimit < depth then [.draw (.cut id)] else []

/-- The actions of a task, one after the other. -/
def actions (target : Target) (progress : Progress) : Task → List Action
  | .call depth id _ => callActions target depth id progress
  | .piece _ (.emit step) => [.draw step]
  | .piece _ (.opening join) => [.draw (.join join), .record join]
  | .piece _ (.rejoin _ _) | .piece _ (.walk _ _ _) => []
  | .search (.ended found) join continuation => [.draw (.rejoin join found continuation)]
  | .search (.under _ _ _) _ _ => []
  | .restore visited => [.forget visited]

section

variable {target : Target} {progress : Progress} {id : String}

theorem actions_call {block : Block} (fresh : id ∉ progress.visited)
    (present : target.block? id = some block) (depth : Nat) (continuation : Option Node) :
    actions target progress (.call depth id continuation) =
      .visit id :: .draw (.block id (linkLimit - depth)) ::
        if depthLimit < depth then [.draw (.cut id)] else [] := by
  simp [actions, callActions, fresh, present]

theorem actions_call_of_passed (passed : id ∈ progress.visited ∨ target.block? id = none)
    (depth : Nat) (continuation : Option Node) :
    actions target progress (.call depth id continuation) = [] := by
  rcases passed with visited | absent
  · simp [actions, callActions, visited]
  · simp [actions, callActions, absent]

variable (target progress) in
/-- The actions of a task do what is done of it at once. -/
theorem performAll_actions (steps : List Step) (task : Task) :
    Outcome.performAll ⟨steps, progress⟩ (task.actions target progress) =
      (task.work target progress).1.after steps := by
  cases task with
  | call depth id continuation =>
    obtain passed | ⟨block, fresh, present⟩ := passed_or_fresh target id progress
    · rw [actions_call_of_passed passed, work_call_of_passed passed]
      simp [Outcome.performAll, Outcome.emit, Outcome.after]
    · rw [actions_call fresh present, work_call fresh present]
      split <;> simp [Outcome.performAll, Outcome.perform, Outcome.emit, Outcome.after]
  | piece depth part =>
    cases part with
    | emit step | opening join => rfl
    | rejoin join continuation => simp [actions, work, workPart, Outcome.performAll,
        Outcome.emit, Outcome.after]
    | walk visits first continuation =>
      cases visits <;>
        simp [actions, work, workPart, Outcome.performAll, Outcome.emit, Outcome.after]
  | search climb join continuation =>
    cases climb with
    | ended found => rfl
    | under met child above =>
      simp [actions, work, Outcome.performAll, Outcome.emit, Outcome.after]
  | restore visited =>
    simp [actions, work, Outcome.performAll, Outcome.perform, Outcome.emit, Outcome.after]

end

end Task

/-! ### Moments -/

/-- The actions of the topmost task. -/
def Machine.actions (target : Target) (machine : Machine) : List Action :=
  match machine.tasks with
  | [] => []
  | task :: _ => task.actions target machine.progress

/-- The actions of the topmost task lead to the next tick. -/
theorem Machine.performAll_actions (target : Target) (machine : Machine) :
    Outcome.performAll ⟨machine.steps, machine.progress⟩ (machine.actions target) =
      ⟨(machine.tick target).steps, (machine.tick target).progress⟩ := by
  obtain ⟨tasks, progress, steps⟩ := machine
  cases tasks with
  | nil => rfl
  | cons task rest => exact Task.performAll_actions target progress steps task

/-- A moment on the walk of a script: the machine has begun its topmost task and has some actions of
it left to do. -/
inductive Moment (target : Target) (entry : String) (machine : Machine) :
    List Action → Outcome → Prop
  | begin (occurs : machine.Occurs target entry) :
      Moment target entry machine (machine.actions target) ⟨machine.steps, machine.progress⟩
  | act {action : Action} {left : List Action} {now : Outcome}
      (before : Moment target entry machine (action :: left) now) :
      Moment target entry machine left (now.perform action)

namespace Moment

variable {target : Target} {entry : String} {machine : Machine} {left : List Action}
  {now : Outcome}

theorem occurs (moment : Moment target entry machine left now) : machine.Occurs target entry := by
  induction moment with
  | begin occurs => exact occurs
  | act _ ih => exact ih

theorem left_isSuffix (moment : Moment target entry machine left now) :
    left <:+ machine.actions target := by
  induction moment with
  | begin _ => exact List.suffix_rfl
  | @act action left now _ ih => exact (List.suffix_cons action left).trans ih

/-- The actions that are left lead to the next tick. -/
theorem performAll_left (moment : Moment target entry machine left now) :
    now.performAll left = ⟨(machine.tick target).steps, (machine.tick target).progress⟩ := by
  induction moment with
  | begin _ => exact machine.performAll_actions target
  | act _ ih => exact ih

end Moment

namespace Machine

variable {target : Target} {entry : String} {machine : Machine}

theorem run_add (target : Target) (entry : String) (count more : Nat) :
    run target entry (count + more) = (tick target)^[more] (run target entry count) := by
  rw [run, run, ← Function.iterate_add_apply, Nat.add_comm]

theorem Occurs.iterate (occurs : machine.Occurs target entry) (count : Nat) :
    ((tick target)^[count] machine).Occurs target entry := by
  obtain ⟨earlier, rfl⟩ := occurs
  exact ⟨earlier + count, run_add target entry earlier count⟩

theorem Occurs.tick (occurs : machine.Occurs target entry) :
    (machine.tick target).Occurs target entry := occurs.iterate 1

theorem steps_isPrefix_tick (target : Target) (machine : Machine) :
    machine.steps <+: (machine.tick target).steps := by
  obtain ⟨tasks, progress, steps⟩ := machine
  cases tasks with
  | nil => exact List.prefix_rfl
  | cons task rest => exact List.prefix_append _ _

theorem steps_isPrefix_iterate (target : Target) (machine : Machine) (count : Nat) :
    machine.steps <+: ((Machine.tick target)^[count] machine).steps := by
  induction count with
  | zero => exact List.prefix_rfl
  | succ count ih =>
    rw [Function.iterate_succ_apply']
    exact ih.trans (steps_isPrefix_tick target _)

/-- What is drawn at any time are the first steps of the script. -/
theorem Occurs.steps_isPrefix (occurs : machine.Occurs target entry) :
    machine.steps <+: scriptSteps target entry := by
  obtain ⟨count, rfl⟩ := occurs
  obtain ⟨last, stopped, whole⟩ := exists_run_eq target entry
  -- after the machine has stopped, nothing more is drawn
  have still : Machine.tick target (run target entry last) = run target entry last := by
    simp [Machine.tick, stopped]
  have onward := steps_isPrefix_iterate target (run target entry count) last
  rwa [← run_add, Nat.add_comm, run_add, Function.iterate_fixed still, whole] at onward

/-! ### Every call has its moment -/

/-- When a call is the topmost task, each part of its plan that the walk comes to becomes the
topmost task, with what is known by then. -/
theorem Occurs.exists_of_meets (occurs : machine.Occurs target entry) {call : Call} {depth : Nat}
    {rest : List Task} (tasks : machine.tasks = .call depth call.id call.continuation :: rest)
    (known : machine.progress = call.progress) (links : depth + call.links = linkLimit)
    {part : Part} {progress : Progress} (meets : call.Meets target part progress) :
    ∃ (later : Machine) (rest : List Task), later.Occurs target entry ∧
      later.tasks = .piece depth part :: rest ∧ later.progress = progress := by
  obtain @⟨block, more, before, after, _, draws, left, planned⟩ := meets
  have above : depth ≤ depthLimit := by
    rw [depthLimit]
    rw [left, linkLimit] at links
    omega
  have drawn := tick_of_draw above tasks (known ▸ draws.fresh) draws.present
  have calls : ∀ first continuation progress, Does target [.call (depth + 1) first continuation]
      progress (walk target more first continuation progress) :=
    does_call (by omega)
  have begun : machine.tick target =
      ⟨before.map (.piece depth) ++ .piece depth part :: (after.map (.piece depth) ++ rest),
        call.progress.visit call.id, machine.steps ++ [.block call.id (linkLimit - depth)]⟩ := by
    simpa [known, planned] using drawn
  obtain ⟨count, reached⟩ := does_parts calls before (call.progress.visit call.id)
    (.piece depth part :: (after.map (.piece depth) ++ rest))
    (machine.steps ++ [.block call.id (linkLimit - depth)])
  -- the parts before this one are done, and what they have left is done too
  rw [← begun] at reached
  refine ⟨_, after.map (.piece depth) ++ rest, occurs.tick.iterate count, ?_⟩
  rw [reached]
  exact ⟨rfl, rfl⟩

/-- Every call of a walk becomes the topmost task, with what is known when it is made. -/
theorem exists_occurs_of_made {call : Call} (made : Call.Made target (.ofEntry entry) call) :
    ∃ (machine : Machine) (depth : Nat) (rest : List Task), machine.Occurs target entry ∧
      depth + call.links = linkLimit ∧
        machine.tasks = .call depth call.id call.continuation :: rest ∧
          machine.progress = call.progress := by
  induction made with
  | refl => exact ⟨start entry, 0, [], ⟨0, rfl⟩, Nat.zero_add _, rfl, rfl⟩
  | @tail call next _ makes ih =>
    obtain ⟨machine, depth, rest, occurs, links, tasks, known⟩ := ih
    obtain ⟨left, visits, meets⟩ := makes
    obtain ⟨⟨_, progress, steps⟩, rest, there, rfl, rfl⟩ :=
      occurs.exists_of_meets tasks known links meets
    have deeper : depth + 1 + next.links = linkLimit := by omega
    cases visits with
    | shared => exact ⟨_, depth + 1, rest, there.tick, deeper, rfl, rfl⟩
    | forked =>
      exact ⟨_, depth + 1, .restore next.progress.visited :: rest, there.tick, deeper, rfl, rfl⟩

end Machine

theorem Moment.steps_isPrefix {target : Target} {entry : String} {machine : Machine}
    {left : List Action} {now : Outcome} (moment : Moment target entry machine left now) :
    now.steps <+: scriptSteps target entry := by
  have toward := now.steps_isPrefix_performAll left
  rw [moment.performAll_left] at toward
  exact toward.trans moment.occurs.tick.steps_isPrefix

end ScriptChart.Flow
