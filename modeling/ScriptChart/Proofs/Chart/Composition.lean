import ScriptChart.Proofs.Chart.Drafting

/-!
# Charts put together from their parts

The text of a chart is the header, the line of the root, and one text for each target; the text of
a target is its own line and one text for each of its scripts. Faults are strung together in the
same way. What a target contributes follows from the target and the dictionary, and what a script
contributes from the target, the number of the script and its first block: neither the other
targets and scripts matter, nor their order, the direction or the name of the project.

This holds as well of a chart that is drafted in one go, with one memo for all ids.

## Main definitions

* `targetText`, `targetFaults`: what a target contributes.
* `scriptText`, `scriptFaults`: what a script contributes.

## Main results

* `targetText_eq`, `targetFaults_eq`: a target is put together from its scripts.
* `composition_text`: a chart is put together from its targets.
-/

namespace ScriptChart.Chart

open ScriptChart.Diagram ScriptChart.Label ScriptChart.Phrase ScriptChart.Project

section

variable (dictionary : Dictionary) (target : Target)

/-- The text that a script contributes, by its number and its first block. -/
def scriptText (index : Nat) (entry : String) : String :=
  String.join ((scriptSection target dictionary target.entryPoints.length (entry, index)).value.map
    Statement.line)

/-- The faults that a script contributes, by its number and its first block. -/
def scriptFaults (index : Nat) (entry : String) : List Diagnostic :=
  (scriptSection target dictionary target.entryPoints.length (entry, index)).diagnostics

/-- The text that a target contributes. -/
def targetText : String :=
  String.join ((targetSection dictionary target).value.map Statement.line)

/-- The faults that a target contributes. -/
def targetFaults : List Diagnostic := (targetSection dictionary target).diagnostics

/-- The line of a target itself. A target without blocks has none. -/
def targetLine : String :=
  if target.blocks.isEmpty then ""
  else (Statement.edgeToNode rootId (targetId target.name) .rect target.name).line

theorem join_flatten (texts : List (List String)) :
    String.join texts.flatten = String.join (texts.map String.join) := by
  induction texts with
  | nil => rfl
  | cons first rest ih => simp [String.join_append, String.join_cons, ih]

/-- The text of a target is its own line and the texts of its scripts. -/
theorem targetText_eq :
    targetText dictionary target = targetLine target ++
      String.join (target.entryPoints.zipIdx.map fun script =>
        scriptText dictionary target script.2 script.1) := by
  cases blocks : target.blocks.isEmpty with
  | true =>
    simp [targetText, targetLine, targetSection, blocks, entryPoints_eq_nil_of_isEmpty blocks]
  | false =>
    rw [targetText, value_targetSection dictionary blocks, List.map_cons, String.join_cons,
      List.flatMap_def, List.map_flatten, join_flatten, targetLine, blocks]
    simp [scriptText, Function.comp_def]

/-- The faults of a target are those of its scripts. -/
theorem targetFaults_eq :
    targetFaults dictionary target =
      target.entryPoints.zipIdx.flatMap fun script =>
        scriptFaults dictionary target script.2 script.1 := by
  cases blocks : target.blocks.isEmpty with
  | true => simp [targetFaults, targetSection, blocks, entryPoints_eq_nil_of_isEmpty blocks]
  | false => exact diagnostics_targetSection dictionary blocks

end

section

variable (program : Program) (options : Options)

theorem text_ofProgram :
    (ofProgram program options).text =
      header options.direction ++ (Statement.node rootId .rect options.rootLabel).line ++
        String.join (program.targets.map (targetText options.dictionary)) := by
  simp only [Chart.text, render, ofProgram, Report.value_mapM, List.map_cons, String.join_cons,
    List.map_flatten, join_flatten, List.map_map, String.append_assoc, Function.comp_def]
  rfl

theorem diagnostics_ofProgram_eq :
    (ofProgram program options).diagnostics =
      program.targets.flatMap (targetFaults options.dictionary) := by
  simp only [ofProgram, Report.diagnostics_mapM]
  rfl

end

/-- A chart is put together from its parts. Its text is the header, the line of the root and one
text for each target, and its faults are those of the targets in order; the text of a target is its
own line and one text for each of its scripts, and its faults are those of its scripts. A chart that
is drafted in one go, with one memo, one text and one list of faults that go from part to part, is
the same chart. -/
theorem composition_text (program : Program) (options : Options) :
    (ofProgram program options).text =
        header options.direction ++ (Statement.node rootId .rect options.rootLabel).line ++
          String.join (program.targets.map (targetText options.dictionary)) ∧
      (ofProgram program options).diagnostics =
        program.targets.flatMap (targetFaults options.dictionary) ∧
      (∀ target,
        targetText options.dictionary target = targetLine target ++
            String.join (target.entryPoints.zipIdx.map fun script =>
              scriptText options.dictionary target script.2 script.1) ∧
          targetFaults options.dictionary target =
            target.entryPoints.zipIdx.flatMap fun script =>
              scriptFaults options.dictionary target script.2 script.1) ∧
      (drafted program options).text = (ofProgram program options).text ∧
      (drafted program options).diagnostics = (ofProgram program options).diagnostics := by
  refine ⟨text_ofProgram program options, diagnostics_ofProgram_eq program options, ?_,
    drafted_eq program options⟩
  intro target
  exact ⟨targetText_eq options.dictionary target, targetFaults_eq options.dictionary target⟩

end ScriptChart.Chart
