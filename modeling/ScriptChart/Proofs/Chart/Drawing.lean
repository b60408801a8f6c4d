import ScriptChart.Chart.Section
import ScriptChart.Proofs.Chart.Naming
import ScriptChart.Proofs.Flow.Exits
import ScriptChart.Proofs.Label.Report

/-!
# The lines of a target

The section of a target is the line of its own node followed by the lines of its scripts, and the
lines of a script are the drawings of its steps. Since the ids of nodes can be read back, the lines
that leave a node come from the steps that leave it, whatever other lines the section has.

## Main definitions

* `Pen.drawn`: the lines that several steps draw.
* `scriptPen`: what is needed to draw a script of a target.
* `edgesFrom`: the lines that draw edges that leave a node.

## Main results

* `value_targetSection`, `diagnostics_targetSection`: the lines and the faults of a target.
* `edge_of_mem_targetSection`: where the edges of a section come from.
* `filter_targetSection`: how lines are sought among the steps of the scripts.
* `edgesFrom_targetSection_eq`: the lines that leave a node come from the steps that leave it.
-/

namespace ScriptChart.Chart

open ScriptChart.Diagram ScriptChart.Flow ScriptChart.Label ScriptChart.Phrase
open ScriptChart.Project

namespace Pen

variable (pen : Pen)

/-- The lines that several steps draw. -/
def drawn (steps : List Step) : List Statement :=
  steps.flatMap fun step => (pen.draw step).value

/-- The faults that several steps report. -/
def faults (steps : List Step) : List Diagnostic :=
  steps.flatMap fun step => (pen.draw step).diagnostics

theorem value_drawAll (steps : List Step) : (pen.drawAll steps).value = pen.drawn steps := by
  simp [drawAll, drawn, List.flatMap_def]

theorem diagnostics_drawAll (steps : List Step) :
    (pen.drawAll steps).diagnostics = pen.faults steps := by
  simp [drawAll, faults]

/-- The lines that are asked for are drawn by the steps that are chosen, when asking a line comes to
choosing its step. -/
theorem filter_drawn {asked : Statement → Bool} {chosen : Step → Bool} {steps : List Step}
    (told : ∀ step ∈ steps, ∀ line ∈ (pen.draw step).value, asked line = chosen step) :
    (pen.drawn steps).filter asked = pen.drawn (steps.filter chosen) := by
  induction steps with
  | nil => rfl
  | cons step rest ih =>
    have later := ih fun other inside => told other (List.mem_cons_of_mem step inside)
    have first := told step List.mem_cons_self
    have whole : pen.drawn (step :: rest) = (pen.draw step).value ++ pen.drawn rest := rfl
    rw [whole, List.filter_append, later, List.filter_cons]
    by_cases is : chosen step = true
    · have all : (pen.draw step).value.filter asked = (pen.draw step).value :=
        List.filter_eq_self.mpr fun line inside => (first line inside).trans is
      rw [all, if_pos is]
      rfl
    · have nothing : (pen.draw step).value.filter asked = [] :=
        List.filter_eq_nil_iff.mpr fun line inside asks => is ((first line inside).symm.trans asks)
      rw [nothing, if_neg is, List.nil_append]

/-- Deciding the way on from a construct does not change what is drawn. -/
theorem draw_decided (step : Step) : pen.draw step.decided = pen.draw step := by
  cases step with
  | rejoin source enclosing continuation =>
    cases way : enclosing.or continuation <;> simp [Step.decided, draw, way]
  | _ => rfl

/-- A line of a step draws the edge of the step and declares the node of the step. -/
theorem ends_of_mem_draw {step : Step} {line : Statement}
    (inside : line ∈ (pen.draw step).value) :
    line.edge? = step.ends?.map (fun ends => (pen.name ends.1, pen.name ends.2)) ∧
      line.declared? = step.declared?.map pen.name := by
  cases step with
  | block id links =>
    simp only [draw, block] at inside
    split at inside
    · obtain rfl := List.mem_singleton.mp inside
      exact ⟨rfl, rfl⟩
    · simp at inside
  | rejoin source enclosing continuation =>
    simp only [draw] at inside
    split at inside
    · next onward way =>
      obtain rfl := List.mem_singleton.mp inside
      simp [Statement.edge?, Step.ends?, Statement.declared?, Step.declared?, way]
    · next way =>
      obtain rfl := List.mem_singleton.mp inside
      simp [leaf, Statement.edge?, Step.ends?, Statement.declared?, Step.declared?, way]
  | missing id link name => simp [draw] at inside
  | join node | edge source destination | branch source destination answer | leaf source | cut id =>
    obtain rfl := List.mem_singleton.mp inside
    exact ⟨rfl, rfl⟩

theorem edge?_of_mem_draw {step : Step} {line : Statement}
    (inside : line ∈ (pen.draw step).value) :
    line.edge? = step.ends?.map fun ends => (pen.name ends.1, pen.name ends.2) :=
  (pen.ends_of_mem_draw inside).1

theorem declared?_of_mem_draw {step : Step} {line : Statement}
    (inside : line ∈ (pen.draw step).value) :
    line.declared? = step.declared?.map pen.name :=
  (pen.ends_of_mem_draw inside).2

end Pen

/-- What is needed to draw one of the scripts of a target. -/
def scriptPen (target : Target) (dictionary : Dictionary) (index : Nat) : Pen :=
  ⟨target, dictionary, scriptStem target.name target.entryPoints.length index⟩

section

variable (target : Target) (dictionary : Dictionary)

/-- The lines of a script: the edge from the target's node, and the drawings of the steps. -/
theorem value_scriptSection (script : String × Nat) :
    (scriptSection target dictionary target.entryPoints.length script).value =
      .edge (targetId target.name)
          ((scriptPen target dictionary script.2).name (.ofBlock script.1)) ::
        (scriptPen target dictionary script.2).drawn (scriptSteps target script.1) := by
  simp [scriptSection, scriptPen, Pen.value_drawAll]

theorem diagnostics_scriptSection (script : String × Nat) :
    (scriptSection target dictionary target.entryPoints.length script).diagnostics =
      (scriptPen target dictionary script.2).faults (scriptSteps target script.1) := by
  simp [scriptSection, scriptPen, Pen.diagnostics_drawAll]

variable {target}

/-- The lines of a target with blocks: its node, and its scripts one after the other. -/
theorem value_targetSection (blocks : target.blocks.isEmpty = false) :
    (targetSection dictionary target).value =
      .edgeToNode rootId (targetId target.name) .rect target.name ::
        target.entryPoints.zipIdx.flatMap fun script =>
          (scriptSection target dictionary target.entryPoints.length script).value := by
  simp [targetSection, blocks, List.flatMap_def]

theorem diagnostics_targetSection (blocks : target.blocks.isEmpty = false) :
    (targetSection dictionary target).diagnostics =
      target.entryPoints.zipIdx.flatMap fun script =>
        (scriptSection target dictionary target.entryPoints.length script).diagnostics := by
  simp [targetSection, blocks]

theorem entryPoints_eq_nil_of_isEmpty (blocks : target.blocks.isEmpty = true) :
    target.entryPoints = [] := by
  have nothing : target.blocks.entries = [] := List.isEmpty_iff.mp blocks
  simp [Target.entryPoints, nothing]

end

section

variable {target : Target}

theorem mem_entryPoints_of_mem_zipIdx {script : String × Nat}
    (inside : script ∈ target.entryPoints.zipIdx) : script.1 ∈ target.entryPoints :=
  List.mem_of_getElem? (List.mem_zipIdx_iff_getElem?.mp inside)

theorem lt_length_of_mem_zipIdx {script : String × Nat}
    (inside : script ∈ target.entryPoints.zipIdx) : script.2 < target.entryPoints.length :=
  (List.getElem?_eq_some_iff.mp (List.mem_zipIdx_iff_getElem?.mp inside)).1

theorem isRoot_of_mem_zipIdx {script : String × Nat}
    (inside : script ∈ target.entryPoints.zipIdx) : IsRoot target script.1 :=
  isRoot_of_mem_entryPoints (mem_entryPoints_of_mem_zipIdx inside)

/-- The edges of a section: to the target's node, from there to the first block of each script, and
those of the steps of the scripts. -/
theorem edge_of_mem_targetSection {dictionary : Dictionary} {line : Statement}
    {source destination : String} (inside : line ∈ (targetSection dictionary target).value)
    (draws : line.edge? = some (source, destination)) :
    line = .edgeToNode rootId (targetId target.name) .rect target.name ∨
      ∃ script ∈ target.entryPoints.zipIdx,
        line = .edge (targetId target.name)
            ((scriptPen target dictionary script.2).name (.ofBlock script.1)) ∨
          ∃ step ∈ scriptSteps target script.1, ∃ start finish : Node,
            step.ends? = some (start, finish) ∧
              source = (scriptPen target dictionary script.2).name start ∧
                destination = (scriptPen target dictionary script.2).name finish := by
  cases blocks : target.blocks.isEmpty with
  | true => simp [targetSection, blocks] at inside
  | false =>
    rw [value_targetSection dictionary blocks, List.mem_cons] at inside
    apply inside.imp_right
    intro inside
    obtain ⟨script, chosen, inside⟩ := List.mem_flatMap.mp inside
    rw [value_scriptSection, List.mem_cons] at inside
    refine ⟨script, chosen, inside.imp_right fun inside => ?_⟩
    obtain ⟨step, walked, inside⟩ := List.mem_flatMap.mp inside
    rw [Pen.edge?_of_mem_draw _ inside] at draws
    obtain ⟨⟨start, finish⟩, ends, same⟩ := Option.map_eq_some_iff.mp draws
    obtain ⟨rfl, rfl⟩ := Prod.mk.inj same
    exact ⟨step, walked, start, finish, ends, rfl, rfl⟩

/-- Nodes of scripts of one target with the same id are the same node of the same script. -/
theorem name_inj (distinct : CollisionFree target) {dictionary : Dictionary}
    {script script' : String × Nat} (chosen : script ∈ target.entryPoints.zipIdx)
    (chosen' : script' ∈ target.entryPoints.zipIdx) {node node' : Node}
    (present : target.hasBlock node.owner = true) (present' : target.hasBlock node'.owner = true)
    (same : (scriptPen target dictionary script.2).name node =
      (scriptPen target dictionary script'.2).name node') :
    script.2 = script'.2 ∧ node = node' :=
  nodeId_inj distinct (lt_length_of_mem_zipIdx chosen) (lt_length_of_mem_zipIdx chosen') present
    present' same

theorem name_ne_targetId (dictionary : Dictionary) (index : Nat) (node : Node) (name : String) :
    (scriptPen target dictionary index).name node ≠ targetId name :=
  nodeId_ne_targetId target.name name _ index node

theorem name_ne_rootId (dictionary : Dictionary) (index : Nat) (node : Node) :
    (scriptPen target dictionary index).name node ≠ rootId :=
  nodeId_ne_rootId target.name _ index node

/-- The lines of a section that are asked for are drawn by the steps that are chosen, when neither
the node of the target nor the edges to its scripts are asked for. -/
theorem filter_targetSection {dictionary : Dictionary} {asked : Statement → Bool}
    {chosen : String × Nat → Step → Bool}
    (root : asked (.edgeToNode rootId (targetId target.name) .rect target.name) = false)
    (entry : ∀ script ∈ target.entryPoints.zipIdx, asked (.edge (targetId target.name)
      ((scriptPen target dictionary script.2).name (.ofBlock script.1))) = false)
    (told : ∀ script ∈ target.entryPoints.zipIdx, ∀ step ∈ scriptSteps target script.1,
      ∀ line ∈ ((scriptPen target dictionary script.2).draw step).value,
        asked line = chosen script step) :
    (targetSection dictionary target).value.filter asked =
      target.entryPoints.zipIdx.flatMap fun script =>
        (scriptPen target dictionary script.2).drawn
          ((scriptSteps target script.1).filter (chosen script)) := by
  cases blocks : target.blocks.isEmpty with
  | true => simp [targetSection, blocks, entryPoints_eq_nil_of_isEmpty]
  | false =>
    rw [value_targetSection dictionary blocks, List.filter_cons_of_neg (by simp [root]),
      List.filter_flatMap]
    apply List.flatMap_congr
    intro script inside
    rw [value_scriptSection, List.filter_cons_of_neg (by simp [entry script inside])]
    exact Pen.filter_drawn _ (told script inside)

end

end ScriptChart.Chart
