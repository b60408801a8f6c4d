import ScriptChart.Chart.Basic
import ScriptChart.Proofs.Chart.Coverage
import ScriptChart.Proofs.Flow.Machine
import ScriptChart.Proofs.Flow.Repetition

/-!
# Charts come to an end

Whatever the links of its blocks are, and even if they run in circles, a program has a chart that is
drawn after a finite number of ticks of the machine for each of its scripts. On the way no call is
deeper than 501 links. A call that draws a block at this depth draws one sentinel, reports one fault
and calls nothing; any other call goes on with the plan of its block. A search upwards looks no
further than there are blocks, and once more.

## Main definitions

* `targetLines`, `targetReports`, `fromSteps`: the lines and the faults of a target and the chart of
  a program, from the steps of the scripts.

## Main results

* `termination_ofProgram`: how the scripts of a program come to an end.
* `exists_tasks_run_nest`: a nest of loops is walked down to any depth up to the limit.
-/

namespace ScriptChart.Chart

open ScriptChart.Diagram ScriptChart.Flow ScriptChart.Label ScriptChart.Phrase
open ScriptChart.Project

/-! ### Charts from the steps of scripts -/

section

variable (program : Program) (options : Options) (steps : Target → String → List Step)

/-- The lines of a target, from the steps of its scripts. -/
def targetLines (target : Target) : List Statement :=
  if target.blocks.isEmpty then []
  else
    .edgeToNode rootId (targetId target.name) .rect target.name ::
      target.entryPoints.zipIdx.flatMap fun script =>
        .edge (targetId target.name)
            ((scriptPen target options.dictionary script.2).name (.ofBlock script.1)) ::
          (scriptPen target options.dictionary script.2).drawn (steps target script.1)

/-- The faults of a target, from the steps of its scripts. -/
def targetReports (target : Target) : List Diagnostic :=
  if target.blocks.isEmpty then []
  else
    target.entryPoints.zipIdx.flatMap fun script =>
      (scriptPen target options.dictionary script.2).faults (steps target script.1)

/-- The chart of a program, from the steps of its scripts. -/
def fromSteps : Chart where
  direction := options.direction
  statements :=
    .node rootId .rect options.rootLabel :: program.targets.flatMap (targetLines options steps)
  diagnostics := program.targets.flatMap (targetReports options steps)

theorem value_targetSection_eq_targetLines (target : Target) :
    (targetSection options.dictionary target).value = targetLines options scriptSteps target := by
  unfold targetLines
  cases blocks : target.blocks.isEmpty with
  | true => simp [targetSection, blocks]
  | false =>
    rw [value_targetSection options.dictionary blocks]
    simp only [value_scriptSection, Bool.false_eq_true, if_false]

theorem diagnostics_targetSection_eq_targetReports (target : Target) :
    (targetSection options.dictionary target).diagnostics =
      targetReports options scriptSteps target := by
  unfold targetReports
  cases blocks : target.blocks.isEmpty with
  | true => simp [targetSection, blocks]
  | false =>
    rw [diagnostics_targetSection options.dictionary blocks]
    simp only [diagnostics_scriptSection, Bool.false_eq_true, if_false]

theorem ofProgram_eq_fromSteps :
    ofProgram program options = fromSteps program options scriptSteps := by
  simp only [ofProgram, fromSteps, Report.value_mapM, Report.diagnostics_mapM,
    value_targetSection_eq_targetLines, diagnostics_targetSection_eq_targetReports,
    List.flatMap_def]

/-- The chart is drawn after a number of ticks for each script. -/
theorem exists_ofProgram_eq_fromSteps :
    ∃ count : Target → String → Nat,
      (∀ target entry, (Machine.run target entry (count target entry)).tasks = []) ∧
        ofProgram program options = fromSteps program options fun target entry =>
          (Machine.run target entry (count target entry)).steps := by
  choose count stopped steps using Machine.exists_run_eq
  refine ⟨count, stopped, ?_⟩
  rw [ofProgram_eq_fromSteps, funext fun target => funext (steps target)]

end

/-! ### What is drawn where a walk is cut -/

namespace Pen

variable (pen : Pen) {id : String} {block : Block} (found : pen.target.block? id = some block)
include found

theorem drawn_block_cut (links : Nat) :
    pen.drawn [.block id links, .cut id] =
      [.node (pen.name (.ofBlock id)) (.ofOpcode block.opcode)
          ((Resolver.mk pen.target pen.dictionary).nodeLabel block).value,
        .edgeToNode (pen.name (.ofBlock id)) (pen.name ⟨id, .runaway⟩) .rect
          (pen.dictionary.synthetic .runaway)] := by
  rw [drawn, List.flatMap_cons, pen.value_draw_block found]
  rfl

theorem faults_block_cut (links : Nat) :
    pen.faults [.block id links, .cut id] =
      ((Resolver.mk pen.target pen.dictionary).nodeLabel block).diagnostics ++
        [.depthLimit pen.target.name id] := by
  simp [faults, draw, Pen.block, found, Report.fault]

end Pen

/-! ### The end of a chart -/

/-- The chart of a program comes to an end, whatever its links are. It is drawn from what is done
after a number of ticks for each script, when nothing is left to do. At any time before, for any
entry of any target:

* no call is deeper than 501;
* a call that draws a block at this depth draws one sentinel, reports one fault beside those of the
  block's label, and leaves nothing to do;
* any other call that draws a block leaves its plan to do, and only calls at depth 501 cut a walk;
* a search upwards is over after looks at no more ancestors than there are blocks, and once more,
  and it has found what the ancestors offer. -/
theorem termination_ofProgram (program : Program) (options : Options) :
    (∃ count : Target → String → Nat,
      (∀ target entry, (Machine.run target entry (count target entry)).tasks = []) ∧
        ofProgram program options = fromSteps program options fun target entry =>
          (Machine.run target entry (count target entry)).steps) ∧
    ∀ target entry machine, Machine.Occurs target entry machine →
      (∀ depth id continuation, .call depth id continuation ∈ machine.tasks → depth ≤ 501) ∧
      (∀ id continuation rest block, machine.tasks = .call 501 id continuation :: rest →
        id ∉ machine.progress.visited → target.block? id = some block →
          machine.tick target =
              ⟨rest, machine.progress.visit id, machine.steps ++ [.block id 0, .cut id]⟩ ∧
            ∀ index, let pen := scriptPen target options.dictionary index
              pen.drawn [.block id 0, .cut id] =
                  [.node (pen.name (.ofBlock id)) (.ofOpcode block.opcode)
                      ((Resolver.mk target options.dictionary).nodeLabel block).value,
                    .edgeToNode (pen.name (.ofBlock id)) (pen.name ⟨id, .runaway⟩) .rect
                      (options.dictionary.synthetic .runaway)] ∧
                pen.faults [.block id 0, .cut id] =
                  ((Resolver.mk target options.dictionary).nodeLabel block).diagnostics ++
                    [.depthLimit target.name id]) ∧
      (∀ depth id continuation rest block, depth ≤ 500 →
        machine.tasks = .call depth id continuation :: rest →
        id ∉ machine.progress.visited → target.block? id = some block →
          machine.tick target =
            ⟨(plan target id block continuation).map (.piece depth) ++ rest,
              machine.progress.visit id, machine.steps ++ [.block id (501 - depth)]⟩) ∧
      (∀ taken id, (machine.tick target).steps = machine.steps ++ taken → .cut id ∈ taken →
        ∃ continuation rest, machine.tasks = .call 501 id continuation :: rest ∧
          id ∉ machine.progress.visited ∧ target.hasBlock id = true) ∧
      (∀ join continuation rest,
        machine.tasks = .search (.start target join.owner) join continuation :: rest →
          ∃ looks ≤ target.blocks.size + 1, (Machine.tick target)^[looks] machine =
            ⟨.search (.ended (enclosing? target machine.progress.ends join.owner)) join
                continuation :: rest, machine.progress, machine.steps⟩) := by
  refine ⟨exists_ofProgram_eq_fromSteps program options, fun target entry machine occurs => ?_⟩
  refine ⟨?_, ?_, ?_, ?_, ?_⟩
  · intro depth id continuation inside
    exact occurs.shallow _ inside
  · intro id continuation rest block tasks fresh present
    refine ⟨Machine.tick_of_cut tasks fresh present, fun index => ?_⟩
    exact ⟨Pen.drawn_block_cut (scriptPen target options.dictionary index) present 0,
      Pen.faults_block_cut (scriptPen target options.dictionary index) present 0⟩
  · intro depth id continuation rest block above tasks fresh present
    exact Machine.tick_of_draw above tasks fresh present
  · intro taken id more cuts
    exact occurs.cut_of_tick more cuts
  · intro join continuation rest tasks
    exact Machine.exists_tick_iterate_of_search tasks

/-! ### The limit is met -/

/-- A nest of loops is walked down to any depth up to the limit. -/
theorem exists_tasks_run_nest {count depth : Nat} (within : depth ≤ count)
    (above : count ≤ linkLimit) :
    ∃ continuation rest,
      (Machine.run (nest count) (nestId 0) (4 * depth)).tasks =
          .call depth (nestId depth) continuation :: rest ∧
        ∀ other, depth ≤ other →
          nestId other ∉ (Machine.run (nest count) (nestId 0) (4 * depth)).progress.visited := by
  induction depth with
  | zero => exact ⟨none, [], rfl, fun _ _ => List.not_mem_nil⟩
  | succ depth ih =>
    obtain ⟨continuation, rest, tasks, fresh⟩ := ih (Nat.le_of_succ_le within)
    have limit : depth ≤ depthLimit := Nat.le_of_lt_succ (Nat.lt_of_lt_of_le within above)
    have drawn := Machine.tick_of_draw limit tasks (fresh depth (Nat.le_refl depth))
      (block?_nest (Nat.le_of_succ_le within))
    rw [plan_nest within] at drawn
    have apart : ∀ other, depth + 1 ≤ other → nestId other ≠ nestId depth :=
      fun other below same => absurd (nestId_injective same) (by omega)
    -- the loop is drawn and opened, and after the edge its branch is entered
    rw [Nat.mul_succ, Machine.run_succ, Machine.run_succ, Machine.run_succ, Machine.run_succ,
      drawn]
    refine ⟨some ⟨nestId depth, .loopEnd⟩, _, rfl, fun other below => ?_⟩
    exact List.not_mem_cons_of_ne_of_not_mem (apart other below)
      (fresh other (Nat.le_of_succ_le below))

/-- The walk of a nest of 501 loops is cut at the last block, which nothing is left to do for. -/
theorem exists_tick_run_nest_eq_cut :
    ∃ machine continuation rest, Machine.Occurs (nest 501) (nestId 0) machine ∧
      machine.tasks = .call 501 (nestId 501) continuation :: rest ∧
        machine.tick (nest 501) =
          ⟨rest, machine.progress.visit (nestId 501),
            machine.steps ++ [.block (nestId 501) 0, .cut (nestId 501)]⟩ := by
  obtain ⟨continuation, rest, tasks, fresh⟩ :=
    exists_tasks_run_nest (Nat.le_refl 501) (Nat.le_refl linkLimit)
  have occurs : Machine.Occurs (nest 501) (nestId 0) _ := ⟨4 * 501, rfl⟩
  have bounded := (termination_ofProgram ⟨[nest 501]⟩ ⟨"Demo", .topDown, .ofList []⟩).2 _ _ _ occurs
  refine ⟨_, continuation, rest, occurs, tasks, ?_⟩
  exact (bounded.2.1 _ _ _ _ tasks (fresh 501 (Nat.le_refl 501)) (block?_nest (Nat.le_refl 501))).1

end ScriptChart.Chart
