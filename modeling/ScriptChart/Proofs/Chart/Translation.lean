import Mathlib.Data.List.Forall2
import ScriptChart.Proofs.Chart.Lines
import ScriptChart.Proofs.Label.Translation

/-!
# Charts in two languages

A program is drawn with one dictionary or with another one. The texts have the same lines, and two
lines that stand at the same place are the same but for their labels, between the delimiters of a
shape or between the bars of an edge. So the ids, the shapes and the edges are the same, in the same
order.

The faults that are met are the same too, when both dictionaries have the phrase of a loop that
waits for its condition or neither has.

## Main definitions

* `Statement.unlabelled`: a statement without its label.
* `SameButLabel`: two lines of text are the same but for a label.

## Main results

* `forall₂_sameButLabel_render`: the texts of diagrams that are the same but for their labels.
* `translation_text`: the charts of a program in two languages.
-/

namespace ScriptChart.Diagram

/-- A statement without its label. -/
def Statement.unlabelled : Statement → Statement
  | .node id shape _ => .node id shape ""
  | .edge source destination => .edge source destination
  | .labelledEdge source destination _ => .labelledEdge source destination ""
  | .edgeToNode source destination shape _ => .edgeToNode source destination shape ""

/-- Two lines of text are the same but for a label, which stands at the end between the delimiters
of a shape, or between bars. -/
inductive SameButLabel : List Char → List Char → Prop
  | same (line : List Char) : SameButLabel line line
  | shape (before : List Char) (shape : Shape) (label label' : String) :
    SameButLabel (before ++ (shape.wrap label).toList) (before ++ (shape.wrap label').toList)
  | bars (before after : List Char) (label label' : String) :
    SameButLabel (before ++ '|' :: ((sanitize label).toList ++ '|' :: after))
      (before ++ '|' :: ((sanitize label').toList ++ '|' :: after))

namespace Statement

theorem unlabelled_sanitized (statement : Statement) :
    statement.sanitized.unlabelled = statement.unlabelled := by
  cases statement <;> rfl

/-- Statements that are the same but for their labels have lines of this kind. -/
theorem sameButLabel_body {statement statement' : Statement}
    (same : statement.unlabelled = statement'.unlabelled) :
    SameButLabel ("    " ++ statement.body).toList ("    " ++ statement'.body).toList := by
  cases statement with
  | node id shape label =>
    cases statement' <;> simp only [unlabelled, node.injEq, reduceCtorEq] at same
    next id' shape' label' =>
      obtain ⟨rfl, rfl, -⟩ := same
      simpa only [body, String.toList_append, List.append_assoc] using
        SameButLabel.shape ("    ".toList ++ id.toList) shape label label'
  | edge source destination =>
    cases statement' <;> simp only [unlabelled, edge.injEq, reduceCtorEq] at same
    next source' destination' =>
      obtain ⟨rfl, rfl⟩ := same
      exact .same _
  | labelledEdge source destination label =>
    cases statement' <;> simp only [unlabelled, labelledEdge.injEq, reduceCtorEq] at same
    next source' destination' label' =>
      obtain ⟨rfl, rfl, -⟩ := same
      have line : ∀ label, ("    " ++ (labelledEdge source destination label).body).toList =
          ("    " ++ source ++ " -->").toList ++
            '|' :: ((sanitize label).toList ++ '|' :: (' ' :: destination.toList)) := by
        intro label
        simp [body]
      rw [line, line]
      exact .bars _ _ label label'
  | edgeToNode source destination shape label =>
    cases statement' <;> simp only [unlabelled, edgeToNode.injEq, reduceCtorEq] at same
    next source' destination' shape' label' =>
      obtain ⟨rfl, rfl, rfl, -⟩ := same
      simpa only [body, String.toList_append, List.append_assoc] using
        SameButLabel.shape ("    ".toList ++ (source.toList ++ (" --> ".toList ++
          destination.toList))) shape label label'

end Statement

/-- The texts of two diagrams that are the same but for their labels have the same lines but for
the labels. -/
theorem forall₂_sameButLabel_render (direction : Direction)
    {statements statements' : List Statement}
    (valid : ∀ statement ∈ statements, ∀ id ∈ statement.ids, IsId id)
    (valid' : ∀ statement ∈ statements', ∀ id ∈ statement.ids, IsId id)
    (same : statements.map Statement.unlabelled = statements'.map Statement.unlabelled) :
    List.Forall₂ SameButLabel ((render direction statements).toList.splitOn '\n')
      ((render direction statements').toList.splitOn '\n') := by
  rw [splitOn_render direction valid, splitOn_render direction valid']
  refine .cons (.same _) (List.rel_append ?_ (.cons (.same _) .nil))
  rw [List.forall₂_map_left_iff, List.forall₂_map_right_iff]
  have each : List.Forall₂ (fun statement statement' =>
      statement.unlabelled = statement'.unlabelled) statements statements' := by
    rw [← List.forall₂_eq_eq_eq, List.forall₂_map_left_iff, List.forall₂_map_right_iff] at same
    exact same
  exact each.imp fun _ _ => Statement.sameButLabel_body

end ScriptChart.Diagram

namespace ScriptChart.Chart

open ScriptChart.Diagram ScriptChart.Flow ScriptChart.Label ScriptChart.Phrase
open ScriptChart.Project

/-! ### Lines -/

section

variable (target : Target) (dictionary dictionary' : Dictionary)

/-- A step draws the same lines in two languages, but for their labels. -/
theorem unlabelled_draw (index : Nat) (step : Step) :
    ((scriptPen target dictionary index).draw step).value.map Statement.unlabelled =
      ((scriptPen target dictionary' index).draw step).value.map Statement.unlabelled := by
  -- ids are made without a dictionary
  have named : (scriptPen target dictionary index).name =
      (scriptPen target dictionary' index).name := rfl
  cases step with
  | block id links =>
    cases found : target.block? id with
    | none => simp [Pen.draw, Pen.block, scriptPen, found]
    | some block =>
      rw [Pen.value_draw_block (scriptPen target dictionary index) found,
        Pen.value_draw_block (scriptPen target dictionary' index) found]
      simp [Statement.unlabelled, named]
  | rejoin source enclosing continuation =>
    cases way : enclosing.or continuation <;>
      simp [Pen.draw, Pen.leaf, way, Statement.unlabelled, named]
  | join _ | edge _ _ | branch _ _ _ | leaf _ | cut _ | missing _ _ _ =>
    simp [Pen.draw, Pen.leaf, Statement.unlabelled, named]

theorem unlabelled_drawn (index : Nat) (steps : List Step) :
    ((scriptPen target dictionary index).drawn steps).map Statement.unlabelled =
      ((scriptPen target dictionary' index).drawn steps).map Statement.unlabelled := by
  rw [Pen.drawn, Pen.drawn, List.map_flatMap, List.map_flatMap]
  exact List.flatMap_congr fun step _ => unlabelled_draw target dictionary dictionary' index step

theorem unlabelled_targetSection :
    (targetSection dictionary target).value.map Statement.unlabelled =
      (targetSection dictionary' target).value.map Statement.unlabelled := by
  cases blocks : target.blocks.isEmpty with
  | true => simp [targetSection, blocks]
  | false =>
    rw [value_targetSection dictionary blocks, value_targetSection dictionary' blocks,
      List.map_cons, List.map_cons, List.map_flatMap, List.map_flatMap]
    refine congrArg (List.cons _) (List.flatMap_congr fun script _ => ?_)
    rw [value_scriptSection, value_scriptSection, List.map_cons, List.map_cons,
      unlabelled_drawn target dictionary dictionary']
    rfl

end

section

variable (program : Program) (rootName : String) (direction : Direction)
  (dictionary dictionary' : Dictionary)

/-- The statements of a chart are the same in two languages, but for their labels. -/
theorem unlabelled_ofProgram :
    (ofProgram program ⟨rootName, direction, dictionary⟩).statements.map Statement.unlabelled =
      (ofProgram program ⟨rootName, direction, dictionary'⟩).statements.map
        Statement.unlabelled := by
  simp only [ofProgram, List.map_cons, Report.value_mapM, List.map_flatten, List.map_map]
  refine congrArg₂ List.cons rfl (congrArg List.flatten (List.map_congr_left fun target _ => ?_))
  exact unlabelled_targetSection target dictionary dictionary'

end

/-! ### Faults -/

section

variable (target : Target) {dictionary dictionary' : Dictionary}
  (both : (dictionary.get? "CONTROL_REPEAT_UNTIL").isSome =
    (dictionary'.get? "CONTROL_REPEAT_UNTIL").isSome)
include both

theorem diagnostics_draw (index : Nat) (step : Step) :
    ((scriptPen target dictionary index).draw step).diagnostics =
      ((scriptPen target dictionary' index).draw step).diagnostics := by
  cases step with
  | block id links =>
    simp only [Pen.draw, Pen.block, scriptPen]
    cases target.block? id with
    | none => rfl
    | some block =>
      simp only [Report.diagnostics_bind, Report.diagnostics_pure,
        Resolver.diagnostics_nodeLabel target dictionary dictionary' both block]
  | rejoin source enclosing continuation =>
    simp only [Pen.draw]
    cases enclosing.or continuation <;> rfl
  | _ => rfl

theorem diagnostics_targetSection_eq :
    (targetSection dictionary target).diagnostics =
      (targetSection dictionary' target).diagnostics := by
  cases blocks : target.blocks.isEmpty with
  | true => simp [targetSection, blocks]
  | false =>
    rw [diagnostics_targetSection dictionary blocks, diagnostics_targetSection dictionary' blocks]
    apply List.flatMap_congr
    intro script _
    rw [diagnostics_scriptSection, diagnostics_scriptSection]
    exact List.flatMap_congr fun step _ => diagnostics_draw target both script.2 step

theorem diagnostics_ofProgram (program : Program) (rootName : String) (direction : Direction) :
    (ofProgram program ⟨rootName, direction, dictionary⟩).diagnostics =
      (ofProgram program ⟨rootName, direction, dictionary'⟩).diagnostics := by
  simp only [ofProgram, Report.diagnostics_mapM]
  exact List.flatMap_congr fun target _ => diagnostics_targetSection_eq target both

end

/-- A translation does not change the structure of a chart. The texts of a program in two languages
have the same lines but for their labels, they are read back as the same diagram but for its labels,
and when both dictionaries have the phrase of a loop that waits for its condition or neither has,
the same faults are met in the same order. -/
theorem translation_text (program : Program) (rootName : String) (direction : Direction)
    (dictionary dictionary' : Dictionary) :
    List.Forall₂ SameButLabel
        ((ofProgram program ⟨rootName, direction, dictionary⟩).text.toList.splitOn '\n')
        ((ofProgram program ⟨rootName, direction, dictionary'⟩).text.toList.splitOn '\n') ∧
      (∃ lines lines',
        read? (ofProgram program ⟨rootName, direction, dictionary⟩).text =
            some (direction, lines) ∧
          read? (ofProgram program ⟨rootName, direction, dictionary'⟩).text =
              some (direction, lines') ∧
            lines.map Statement.unlabelled = lines'.map Statement.unlabelled) ∧
      ((dictionary.get? "CONTROL_REPEAT_UNTIL").isSome =
          (dictionary'.get? "CONTROL_REPEAT_UNTIL").isSome →
        (ofProgram program ⟨rootName, direction, dictionary⟩).diagnostics =
          (ofProgram program ⟨rootName, direction, dictionary'⟩).diagnostics) := by
  have same := unlabelled_ofProgram program rootName direction dictionary dictionary'
  refine ⟨?_, ⟨_, _, read?_text program _, read?_text program _, ?_⟩, ?_⟩
  · exact forall₂_sameButLabel_render direction
      (fun _ inside _ used => isId_of_mem_ofProgram inside used)
      (fun _ inside _ used => isId_of_mem_ofProgram inside used) same
  · simpa only [List.map_map, Function.comp_def, Statement.unlabelled_sanitized] using same
  · intro both
    exact diagnostics_ofProgram both program rootName direction

/-- A dictionary of two phrases. -/
def sampleDictionary : Dictionary :=
  .ofList [("LOOKS_HIDE", "hide"), ("CONTROL_REPEAT_UNTIL", "repeat until %1")]

/-- The phrases of the sample in another language. -/
def sampleTranslation : Dictionary :=
  .ofList [("CONTROL_REPEAT_UNTIL", "repetir hasta que %1"), ("LOOKS_HIDE", "esconder")]

/-- The dangling link of the sample is noticed in the other language too. -/
theorem diagnostics_sampleTranslation :
    (sampleDictionary.get? "CONTROL_REPEAT_UNTIL").isSome =
        (sampleTranslation.get? "CONTROL_REPEAT_UNTIL").isSome ∧
      (ofProgram ⟨[sampleTarget]⟩ ⟨"Demo", .topDown, sampleTranslation⟩).diagnostics =
        [.missingBlock "Cat" "gone"] := by
  have both : (sampleDictionary.get? "CONTROL_REPEAT_UNTIL").isSome =
      (sampleTranslation.get? "CONTROL_REPEAT_UNTIL").isSome := rfl
  have noticed : (ofProgram ⟨[sampleTarget]⟩ ⟨"Demo", .topDown, sampleDictionary⟩).diagnostics =
      [.missingBlock "Cat" "gone"] := rfl
  have same := (translation_text ⟨[sampleTarget]⟩ "Demo" .topDown sampleDictionary
    sampleTranslation).2.2 both
  exact ⟨both, same.symm.trans noticed⟩

end ScriptChart.Chart
