import ScriptChart.Chart.Basic
import ScriptChart.Proofs.Chart.Drawing
import ScriptChart.Proofs.Digest.Memo

/-!
# Drafting a chart

A chart may also be written in one go: line after line is added to one text, fault after fault to
one list, and every safe id is asked from one memo, which goes from target to target and from script
to script. Whatever was drafted before, a step, a script and a target add the lines and faults that
they have on their own. So drafting comes to the chart.

## Main definitions

* `Draft`: what was asked for, written and reported so far.
* `Drafting.step`, `Drafting.script`, `Drafting.target`, `Drafting.program`: drafting the parts of a
  chart, and all of it.
* `Drafting.Adds`: what drafting adds to every draft.

## Main results

* `adds_step`, `adds_script`, `adds_target`: what the parts of a chart add.
* `drafted_eq`: what is drafted is the chart.
-/

namespace ScriptChart.Chart

open ScriptChart.Diagram ScriptChart.Digest ScriptChart.Flow ScriptChart.Label
open ScriptChart.Phrase ScriptChart.Project

/-- A chart that is being written. -/
structure Draft where
  memo : Memo
  text : String
  diagnostics : List Diagnostic

/-- The draft that holds nothing but the header. -/
def Draft.blank (direction : Direction) : Draft := ⟨.empty, header direction, []⟩

/-- Adding to a draft. -/
abbrev Drafting := StateM Draft

namespace Drafting

/-- The safe id of a text, by way of the memo. -/
def ask (text : String) : Drafting String := fun draft =>
  let answer := draft.memo.ask text
  (answer.1, { draft with memo := answer.2 })

/-- Adds a line to the text. -/
def line (statement : Statement) : Drafting Unit :=
  modify fun draft => { draft with text := draft.text ++ statement.line }

/-- Adds the faults of a report. -/
def report {α : Type} (report : Report α) : Drafting α := do
  modify fun draft => { draft with diagnostics := draft.diagnostics ++ report.diagnostics }
  return report.value

/-- The id of a node of a script. -/
def name (stem : String) (node : Node) : Drafting String := do
  return stem ++ "_" ++ (← ask node.owner) ++ node.role.suffix

section Steps

variable (pen : Pen)

/-- Adds an edge between two nodes. -/
def edge (source destination : Node) : Drafting Unit := do
  line (.edge (← name pen.stem source) (← name pen.stem destination))

/-- Adds the edge to the leaf after a node. -/
def leaf (source : Node) : Drafting Unit := do
  line (.edgeToNode (← name pen.stem source) (← name pen.stem source.leaf) .stadium
    (pen.words .finish))

/-- Adds a step of a script. -/
def step : Step → Drafting Unit
  | .block id _ =>
    match pen.target.block? id with
    | some block => do
      let node ← name pen.stem (.ofBlock id)
      let label ← report ((Resolver.mk pen.target pen.dictionary).nodeLabel block)
      line (.node node (.ofOpcode block.opcode) label)
    | none => return
  | .join node => do
    line (.node (← name pen.stem node) .stadium (pen.words (joinWords node.role)))
  | .edge source destination => edge pen source destination
  | .branch source destination answer => do
    line (.labelledEdge (← name pen.stem source) (← name pen.stem destination)
      (pen.words (answerWords answer)))
  | .leaf source => leaf pen source
  | .rejoin source enclosing continuation =>
    match enclosing.or continuation with
    | some onward => edge pen source onward
    | none => leaf pen source
  | .cut id => do
    report (Report.fault (.depthLimit pen.target.name id))
    line (.edgeToNode (← name pen.stem (.ofBlock id)) (← name pen.stem ⟨id, .runaway⟩) .rect
      (pen.words .runaway))
  | .missing _ _ id => report (Report.fault (.missingBlock pen.target.name id))

end Steps

/-- Adds the script that begins with a block, for a target whose node has an id. Nothing but the
draft is kept from the scripts before it. -/
def script (dictionary : Dictionary) (target : Target) (node : String) (script : String × Nat) :
    Drafting Unit := do
  let stem :=
    if 1 < target.entryPoints.length then node ++ "_" ++ toString script.2 else node
  line (.edge node (← name stem (.ofBlock script.1)))
  (scriptSteps target script.1).forM (step ⟨target, dictionary, stem⟩)

/-- Adds the section of a target. -/
def target (dictionary : Dictionary) (target : Target) : Drafting Unit :=
  if target.blocks.isEmpty then return
  else do
    let node := "T" ++ (← ask target.name)
    line (.edgeToNode rootId node .rect target.name)
    target.entryPoints.zipIdx.forM (script dictionary target node)

/-- Adds the root and the sections of a program. -/
def program (program : Program) (options : Options) : Drafting Unit := do
  line (.node rootId .rect options.rootLabel)
  program.targets.forM (Drafting.target options.dictionary)

end Drafting

/-- The chart of a program, drafted from the header on. -/
def drafted (program : Program) (options : Options) : Draft :=
  ((Drafting.program program options).run (.blank options.direction)).2

/-! ### What drafting adds -/

/-- A draft has come from another one by some lines and faults, and its memo is still faithful. -/
structure Draft.Extends (draft later : Draft) (lines : List Statement)
    (faults : List Diagnostic) : Prop where
  faithful : later.memo.Faithful
  text : later.text = draft.text ++ String.join (lines.map Statement.line)
  diagnostics : later.diagnostics = draft.diagnostics ++ faults

namespace Drafting

/-- Drafting comes to a value and adds lines and faults, whatever was drafted before. -/
def Adds {α : Type} (drafting : Drafting α) (value : α) (lines : List Statement)
    (faults : List Diagnostic) : Prop :=
  ∀ draft : Draft, draft.memo.Faithful →
    ∃ later, drafting.run draft = (value, later) ∧ draft.Extends later lines faults

section

variable {α β : Type}

theorem Adds.pure (value : α) : Adds (Pure.pure value) value [] [] := by
  intro draft faithful
  exact ⟨draft, rfl, faithful, by simp, by simp⟩

theorem Adds.bind {drafting : Drafting α} {next : α → Drafting β} {value : α} {value' : β}
    {lines lines' : List Statement} {faults faults' : List Diagnostic}
    (first : Adds drafting value lines faults) (second : Adds (next value) value' lines' faults') :
    Adds (drafting >>= next) value' (lines ++ lines') (faults ++ faults') := by
  intro draft faithful
  obtain ⟨later, ran, more⟩ := first draft faithful
  obtain ⟨last, ran', more'⟩ := second later more.faithful
  refine ⟨last, ?_, more'.faithful, ?_, ?_⟩
  · rw [StateT.run_bind, ran]
    exact ran'
  · rw [more'.text, more.text, List.map_append, String.join_append, String.append_assoc]
  · rw [more'.diagnostics, more.diagnostics, List.append_assoc]

theorem Adds.forM {items : List α} {drafting : α → Drafting Unit} {lines : α → List Statement}
    {faults : α → List Diagnostic}
    (each : ∀ item, Adds (drafting item) () (lines item) (faults item)) :
    Adds (items.forM drafting) () (items.flatMap lines) (items.flatMap faults) := by
  induction items with
  | nil => exact .pure ()
  | cons item rest ih => exact (each item).bind ih

theorem adds_report (given : Report α) : Adds (report given) given.value [] given.diagnostics := by
  intro draft faithful
  exact ⟨_, rfl, faithful, by simp, rfl⟩

end

/-- Asking adds nothing, and the answer does not depend on what was asked for before. -/
theorem adds_ask (text : String) : Adds (ask text) (safeId text) [] [] := by
  intro draft faithful
  refine ⟨{ draft with memo := (draft.memo.ask text).2 }, ?_, faithful.snd_ask text, ?_, ?_⟩
  · rw [← faithful.fst_ask text]
    rfl
  · simp
  · simp

theorem adds_line (statement : Statement) : Adds (line statement) () [statement] [] := by
  intro draft faithful
  exact ⟨_, rfl, faithful, by simp [String.join_cons], by simp⟩

theorem adds_name (stem : String) (node : Node) :
    Adds (name stem node) (nodeId stem node) [] [] :=
  (adds_ask node.owner).bind (.pure _)

section Steps

variable (pen : Pen)

theorem adds_edge (source destination : Node) :
    Adds (edge pen source destination) () [.edge (pen.name source) (pen.name destination)] [] :=
  (adds_name pen.stem source).bind ((adds_name pen.stem destination).bind (adds_line _))

theorem adds_leaf (source : Node) : Adds (leaf pen source) () [pen.leaf source] [] :=
  (adds_name pen.stem source).bind ((adds_name pen.stem source.leaf).bind (adds_line _))

/-- A step adds the lines that it draws and the faults that it reports. -/
theorem adds_step (step : Step) :
    Adds (Drafting.step pen step) () (pen.draw step).value (pen.draw step).diagnostics := by
  cases step with
  | block id links =>
    simp only [Drafting.step, Pen.draw, Pen.block]
    cases pen.target.block? id with
    | none => exact .pure ()
    | some block =>
      exact (adds_name pen.stem (.ofBlock id)).bind ((adds_report _).bind (adds_line _))
  | join node => exact (adds_name pen.stem node).bind (adds_line _)
  | edge source destination => exact adds_edge pen source destination
  | branch source destination answer =>
    exact (adds_name pen.stem source).bind ((adds_name pen.stem destination).bind (adds_line _))
  | leaf source => exact adds_leaf pen source
  | rejoin source enclosing continuation =>
    simp only [Drafting.step, Pen.draw]
    cases enclosing.or continuation with
    | none => exact adds_leaf pen source
    | some onward => exact adds_edge pen source onward
  | cut id =>
    exact (adds_report _).bind ((adds_name pen.stem (.ofBlock id)).bind
      ((adds_name pen.stem ⟨id, .runaway⟩).bind (adds_line _)))
  | missing owner link id => exact adds_report _

end Steps

/-- A script adds its own lines and faults. -/
theorem adds_script (dictionary : Dictionary) (target : Target) (script : String × Nat) :
    Adds (Drafting.script dictionary target (targetId target.name) script) ()
      (scriptSection target dictionary target.entryPoints.length script).value
      (scriptSection target dictionary target.entryPoints.length script).diagnostics := by
  rw [value_scriptSection, diagnostics_scriptSection]
  exact (adds_name _ (.ofBlock script.1)).bind ((adds_line _).bind
    (.forM (adds_step (scriptPen target dictionary script.2))))

/-- A target adds its own lines and faults. -/
theorem adds_target (dictionary : Dictionary) (target : Target) :
    Adds (Drafting.target dictionary target) () (targetSection dictionary target).value
      (targetSection dictionary target).diagnostics := by
  unfold Drafting.target
  cases blocks : target.blocks.isEmpty with
  | true =>
    simp only [targetSection, blocks, if_true]
    exact .pure ()
  | false =>
    rw [value_targetSection dictionary blocks, diagnostics_targetSection dictionary blocks]
    exact (adds_ask target.name).bind ((adds_line _).bind
      (.forM fun script => adds_script dictionary target script))

/-- What is drafted is the root and the sections of the targets, as if each of them were drafted on
its own. -/
theorem adds_program (program : Program) (options : Options) :
    Adds (Drafting.program program options) ()
      (.node rootId .rect options.rootLabel ::
        program.targets.flatMap fun target => (targetSection options.dictionary target).value)
      (program.targets.flatMap fun target =>
        (targetSection options.dictionary target).diagnostics) :=
  (adds_line _).bind (.forM fun target => adds_target options.dictionary target)

end Drafting

/-- What is drafted is the chart. -/
theorem drafted_eq (program : Program) (options : Options) :
    (drafted program options).text = (ofProgram program options).text ∧
      (drafted program options).diagnostics = (ofProgram program options).diagnostics := by
  obtain ⟨later, ran, more⟩ := Drafting.adds_program program options (.blank options.direction)
    Memo.faithful_empty
  have last : drafted program options = later := congrArg Prod.snd ran
  rw [last, more.text, more.diagnostics]
  simp [Draft.blank, ofProgram, Chart.text, render, List.flatMap_def]

end ScriptChart.Chart
