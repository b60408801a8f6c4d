import ScriptChart.Proofs.Flow.Moment

/-!
# Visited means declared

Whatever the links of a target are, at every moment of a walk the blocks that were visited are
declared, a block excepted that the topmost call draws with its next action. The blocks that were
visited when a branch was forked are declared without exception. And the end of a construct is
recorded under its block and is the node of this block in which such a construct ends, and both are
declared.

A single action keeps this if it is warranted: a block is drawn right after it is marked, and what
is recorded or taken back is declared by then. The actions of a task are warranted by what is
declared when the task is left to do.

## Main definitions

* `IsRightEnd`, `IsDeclaredEnd`: a record is the node in which its construct ends, and is declared.
* `Warranted`: the actions after which what is known is still declared.
* `Outcome.Backed`, `Task.Backed`, `Machine.Backed`: what is known, and what is left to do, is
  backed by what is drawn.

## Main results

* `Outcome.Backed.perform`, `Outcome.Backed.performAll`: what an action keeps, and so what several
  actions keep.
* `Machine.Occurs.backed`, `Moment.backed`: what is known at any time, and at any moment.
* `Moment.exists_call`: only a call draws a block.
-/

namespace ScriptChart.Flow

open ScriptChart.Project

/-! ### Declarations stay -/

theorem IsDeclared.mono {steps more : List Step} {node : Node} (declared : IsDeclared steps node)
    (within : steps <+: more) : IsDeclared more node := by
  obtain ⟨step, inside, declares⟩ := declared
  exact ⟨step, within.subset inside, declares⟩

theorem isDeclared_concat {step : Step} {node : Node} (declares : step.declared? = some node)
    (steps : List Step) : IsDeclared (steps ++ [step]) node :=
  ⟨step, List.mem_concat_self, declares⟩

/-! ### What is known -/

/-- A record is the node in which the construct that it belongs to ends. -/
def IsRightEnd (target : Target) (record : String × Node) : Prop :=
  ∃ block kind, target.block? record.1 = some block ∧ block.control? = some kind ∧
    record.2 = ⟨record.1, joinRole kind⟩

/-- A record is the node in which its construct ends, and both nodes of the construct are
declared. -/
structure IsDeclaredEnd (target : Target) (steps : List Step) (record : String × Node) : Prop where
  right : IsRightEnd target record
  block : IsDeclared steps (.ofBlock record.1)
  finish : IsDeclared steps record.2

theorem IsDeclaredEnd.mono {target : Target} {steps more : List Step} {record : String × Node}
    (declared : IsDeclaredEnd target steps record) (within : steps <+: more) :
    IsDeclaredEnd target more record :=
  ⟨declared.right, declared.block.mono within, declared.finish.mono within⟩

/-- The next action is to draw the block with an id. -/
def DrawsNext (id : String) (left : List Action) : Prop :=
  ∃ links later, left = .draw (.block id links) :: later

/-- What was visited and recorded is declared, a block excepted that is drawn next. -/
structure Outcome.Backed (target : Target) (left : List Action) (now : Outcome) : Prop where
  visited : ∀ id ∈ now.progress.visited,
    IsDeclared now.steps (.ofBlock id) ∨ DrawsNext id left
  ends : ∀ record ∈ now.progress.ends, IsDeclaredEnd target now.steps record

/-- The actions after some steps by which what is known stays declared. A block is drawn right after
it is marked, and what is recorded or taken back is declared. -/
inductive Warranted (target : Target) : List Step → List Action → Prop
  | nil {steps : List Step} : Warranted target steps []
  | visit {steps : List Step} {id : String} {links : Nat} {later : List Action}
      (onward : Warranted target steps (.draw (.block id links) :: later)) :
      Warranted target steps (.visit id :: .draw (.block id links) :: later)
  | draw {steps : List Step} {step : Step} {later : List Action}
      (onward : Warranted target (steps ++ [step]) later) :
      Warranted target steps (.draw step :: later)
  | record {steps : List Step} {join : Node} {later : List Action}
      (declared : IsDeclaredEnd target steps (join.owner, join))
      (onward : Warranted target steps later) : Warranted target steps (.record join :: later)
  | forget {steps : List Step} {visited : List String} {later : List Action}
      (declared : ∀ id ∈ visited, IsDeclared steps (.ofBlock id))
      (onward : Warranted target steps later) : Warranted target steps (.forget visited :: later)

namespace Outcome.Backed

variable {target : Target} {action : Action} {left : List Action} {now : Outcome}

/-- When no action is left, all that was visited is declared. -/
theorem isDeclared_of_mem_visited (backed : now.Backed target []) {id : String}
    (inside : id ∈ now.progress.visited) : IsDeclared now.steps (.ofBlock id) := by
  obtain declared | ⟨links, later, same⟩ := backed.visited id inside
  · exact declared
  · contradiction

theorem of_nil (backed : now.Backed target []) (left : List Action) : now.Backed target left where
  visited _ inside := .inl (backed.isDeclared_of_mem_visited inside)
  ends := backed.ends

/-- A warranted action keeps what is known declared, and those after it warranted. -/
theorem perform (backed : now.Backed target (action :: left))
    (warranted : Warranted target now.steps (action :: left)) :
    (now.perform action).Backed target left ∧
      Warranted target (now.perform action).steps left := by
  cases warranted with
  | @visit _ id links later onward =>
    refine ⟨⟨fun other inside => ?_, backed.ends⟩, onward⟩
    obtain rfl | inside := List.mem_cons.mp inside
    · -- the block that is marked is drawn next, and is the exception from now on
      exact .inr ⟨links, later, rfl⟩
    · obtain declared | ⟨links', later', same⟩ := backed.visited other inside
      · exact .inl declared
      · simp at same
  | @draw _ step _ onward =>
    have within : now.steps <+: now.steps ++ [step] := List.prefix_append _ _
    refine ⟨⟨fun other inside => .inl ?_, fun record recorded => ?_⟩, onward⟩
    · obtain declared | ⟨links, later, same⟩ := backed.visited other inside
      · exact declared.mono within
      · -- the block that was excepted is now drawn
        obtain ⟨rfl, -⟩ : step = .block other links ∧ left = later := by simpa using same
        exact isDeclared_concat rfl now.steps
    · exact (backed.ends record recorded).mono within
  | @record _ join _ declared onward =>
    refine ⟨⟨fun other inside => .inl ?_, fun record recorded => ?_⟩, onward⟩
    · -- a block is not drawn next when a record is made next
      obtain declared | ⟨links, later, same⟩ := backed.visited other inside
      · exact declared
      · simp at same
    · obtain rfl | recorded := List.mem_cons.mp recorded
      · exact declared
      · exact backed.ends record recorded
  | forget declared onward =>
    exact ⟨⟨fun other inside => .inl (declared other inside), backed.ends⟩, onward⟩

/-- Warranted actions leave all that is known declared. -/
theorem performAll (backed : now.Backed target left) (warranted : Warranted target now.steps left) :
    (now.performAll left).Backed target [] := by
  induction left generalizing now with
  | nil => exact backed
  | cons action later ih =>
    obtain ⟨backed', warranted'⟩ := backed.perform warranted
    exact ih backed' warranted'

end Outcome.Backed

/-! ### What is left to do -/

namespace Task

/-- What warrants the actions of a task is declared: the block of a construct that is opened, and
the blocks that were visited when a branch was forked. No part of a plan draws a block itself. -/
def Backed (target : Target) (steps : List Step) : Task → Prop
  | .piece _ (.emit step) => ∀ id links, step ≠ .block id links
  | .piece _ (.opening join) =>
    IsRightEnd target (join.owner, join) ∧ IsDeclared steps (.ofBlock join.owner)
  | .restore visited => ∀ id ∈ visited, IsDeclared steps (.ofBlock id)
  | _ => True

variable {target : Target} {steps more : List Step} {progress : Progress} {task next : Task}

theorem Backed.mono (backed : task.Backed target steps) (within : steps <+: more) :
    task.Backed target more := by
  cases task with
  | piece depth part =>
    cases part with
    | emit step => exact backed
    | opening join => exact ⟨backed.1, backed.2.mono within⟩
    | rejoin join continuation | walk visits first continuation => trivial
  | restore visited => exact fun id inside => (backed id inside).mono within
  | call depth id continuation | search climb join continuation => trivial

/-- The actions of a task are warranted by what is declared. -/
theorem Backed.warranted (backed : task.Backed target steps) (progress : Progress) :
    Warranted target steps (task.actions target progress) := by
  cases task with
  | call depth id continuation =>
    obtain passed | ⟨block, fresh, present⟩ := passed_or_fresh target id progress
    · rw [actions_call_of_passed passed]
      exact .nil
    · rw [actions_call fresh present]
      split
      · exact .visit (.draw (.draw .nil))
      · exact .visit (.draw .nil)
  | piece depth part =>
    cases part with
    | emit step => exact .draw .nil
    | opening join =>
      obtain ⟨right, declared⟩ := backed
      have drawn : IsDeclaredEnd target (steps ++ [.join join]) (join.owner, join) :=
        ⟨right, declared.mono (List.prefix_append _ _), isDeclared_concat rfl steps⟩
      exact .draw (.record drawn .nil)
    | rejoin join continuation | walk visits first continuation => exact .nil
  | search climb join continuation =>
    cases climb with
    | ended found => exact .draw .nil
    | under met child above => exact .nil
  | restore visited => exact .forget backed .nil

/-- The parts of the plan of a declared block are backed. -/
theorem backed_of_mem_plan {id : String} {block : Block} {continuation : Option Node} {part : Part}
    (present : target.block? id = some block) (declared : IsDeclared steps (.ofBlock id))
    (planned : part ∈ plan target id block continuation) (depth : Nat) :
    Backed target steps (.piece depth part) := by
  cases part with
  | emit step =>
    -- what a plan declares stands beside the block
    rintro name links rfl
    have settled : .block name links ∈ (plan target id block continuation).flatMap Part.settled :=
      List.mem_flatMap.mpr ⟨_, planned, List.mem_singleton_self _⟩
    exact ((isBeside_plan target id block continuation _ settled).2 _ rfl).1 rfl
  | opening join =>
    obtain ⟨kind, control, rfl⟩ := exists_kind_of_opening_mem_plan planned
    exact ⟨⟨block, kind, present, control, rfl⟩, declared⟩
  | rejoin join continuation | walk visits first continuation => trivial

/-- The tasks that a task leaves are backed by what is drawn by then. -/
theorem backed_of_mem_work (known : ∀ id ∈ progress.visited, IsDeclared steps (.ofBlock id))
    (inside : next ∈ (task.work target progress).2) :
    next.Backed target (steps ++ (task.work target progress).1.steps) := by
  cases task with
  | call depth id continuation =>
    obtain passed | ⟨block, fresh, present⟩ := passed_or_fresh target id progress
    · simp [work_call_of_passed passed] at inside
    · rw [work_call fresh present] at inside ⊢
      split at inside
      · contradiction
      · next above =>
        obtain ⟨part, planned, rfl⟩ := List.mem_map.mp inside
        rw [if_neg above]
        exact backed_of_mem_plan present (isDeclared_concat rfl steps) planned depth
  | piece depth part =>
    cases part with
    | emit step | opening join => contradiction
    | rejoin join continuation =>
      obtain rfl := List.mem_singleton.mp inside
      trivial
    | walk visits first continuation =>
      cases visits with
      | shared =>
        obtain rfl := List.mem_singleton.mp inside
        trivial
      | forked =>
        obtain rfl | inside := List.mem_cons.mp inside
        · trivial
        · -- what a branch is forked from is what is known at this time
          obtain rfl := List.mem_singleton.mp inside
          exact fun id visited => (known id visited).mono (List.prefix_append _ _)
  | search climb join continuation =>
    cases climb with
    | ended found => contradiction
    | under met child above =>
      obtain rfl := List.mem_singleton.mp inside
      trivial
  | restore visited => contradiction

/-- A task that draws a block is a call. -/
theorem Backed.exists_call (backed : task.Backed target steps) {id : String} {links : Nat}
    (inside : .draw (.block id links) ∈ task.actions target progress) :
    ∃ depth continuation, task = .call depth id continuation := by
  cases task with
  | call depth other continuation =>
    obtain passed | ⟨block, fresh, present⟩ := passed_or_fresh target other progress
    · simp [actions_call_of_passed passed] at inside
    · rw [actions_call fresh present] at inside
      obtain ⟨rfl, -⟩ : id = other ∧ links = linkLimit - depth := by
        split at inside <;> simpa using inside
      exact ⟨depth, continuation, rfl⟩
  | piece depth part =>
    cases part with
    | emit step =>
      have same : Step.block id links = step := by simpa [actions] using inside
      exact absurd same.symm (backed id links)
    | opening join => simp [actions] at inside
    | rejoin join continuation | walk visits first continuation => contradiction
  | search climb join continuation => cases climb <;> simp [actions] at inside
  | restore visited => simp [actions] at inside

end Task

/-! ### What is known at any moment -/

/-- All that is known, and all that is left to do, is backed by what is drawn. -/
structure Machine.Backed (target : Target) (machine : Machine) : Prop where
  known : Outcome.Backed target [] ⟨machine.steps, machine.progress⟩
  tasks : ∀ task ∈ machine.tasks, task.Backed target machine.steps

namespace Machine

variable {target : Target} {entry : String} {machine : Machine}

theorem Backed.warranted (backed : machine.Backed target) :
    Warranted target machine.steps (machine.actions target) := by
  obtain ⟨tasks, progress, steps⟩ := machine
  cases tasks with
  | nil => exact .nil
  | cons task rest => exact (backed.tasks task List.mem_cons_self).warranted progress

theorem Backed.tick (backed : machine.Backed target) : (machine.tick target).Backed target := by
  -- the tick does all actions of the topmost task, one after the other
  have known := (backed.known.of_nil _).performAll backed.warranted
  rw [machine.performAll_actions target] at known
  refine ⟨known, fun next inside => ?_⟩
  obtain ⟨tasks, progress, steps⟩ := machine
  cases tasks with
  | nil => contradiction
  | cons task rest =>
    obtain left | later := List.mem_append.mp inside
    · exact Task.backed_of_mem_work (fun _ => backed.known.isDeclared_of_mem_visited) left
    · exact (backed.tasks next (List.mem_cons_of_mem task later)).mono (List.prefix_append _ _)

/-- At any time all that is known is declared. -/
theorem Occurs.backed (occurs : machine.Occurs target entry) : machine.Backed target := by
  obtain ⟨count, rfl⟩ := occurs
  induction count with
  | zero =>
    refine ⟨⟨by simp [run, start, Progress.start], by simp [run, start, Progress.start]⟩, ?_⟩
    intro task inside
    obtain rfl := List.mem_singleton.mp inside
    trivial
  | succ count ih =>
    rw [run_succ]
    exact ih.tick

end Machine

namespace Moment

variable {target : Target} {entry : String} {machine : Machine} {left : List Action}
  {now : Outcome}

theorem backed_and_warranted (moment : Moment target entry machine left now) :
    now.Backed target left ∧ Warranted target now.steps left := by
  induction moment with
  | begin occurs => exact ⟨occurs.backed.known.of_nil _, occurs.backed.warranted⟩
  | act _ ih => exact ih.1.perform ih.2

/-- At any moment all that is known is declared, the block excepted that is drawn next. -/
theorem backed (moment : Moment target entry machine left now) : now.Backed target left :=
  moment.backed_and_warranted.1

theorem steps_isPrefix_now (moment : Moment target entry machine left now) :
    machine.steps <+: now.steps := by
  induction moment with
  | begin _ => exact List.prefix_rfl
  | @act action _ now _ ih => exact ih.trans (now.steps_isPrefix_perform action)

/-- At any moment what warrants the tasks is declared. -/
theorem backed_of_mem_tasks (moment : Moment target entry machine left now) {task : Task}
    (inside : task ∈ machine.tasks) : task.Backed target now.steps :=
  (moment.occurs.backed.tasks task inside).mono moment.steps_isPrefix_now

/-- A block is drawn by the topmost task, which is a call for this block. -/
theorem exists_call (moment : Moment target entry machine left now) {id : String}
    (draws : DrawsNext id left) :
    ∃ depth continuation rest, machine.tasks = .call depth id continuation :: rest := by
  obtain ⟨links, later, rfl⟩ := draws
  have inside := moment.left_isSuffix.subset List.mem_cons_self
  unfold Machine.actions at inside
  split at inside
  · contradiction
  · next task rest tasks =>
    obtain ⟨depth, continuation, rfl⟩ :=
      (moment.backed_of_mem_tasks (tasks ▸ List.mem_cons_self)).exists_call inside
    exact ⟨depth, continuation, rest, tasks⟩

end Moment

end ScriptChart.Flow
