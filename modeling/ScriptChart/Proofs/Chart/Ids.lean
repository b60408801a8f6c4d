import ScriptChart.Chart.Basic
import ScriptChart.Proofs.Chart.Drawing
import ScriptChart.Proofs.Diagram.Reading

/-!
# The ids of a chart

Every id in a chart is made of letters, digits and underscores, whatever the names of targets and
blocks and the texts in labels are: an id is put together from digests, numbers and fixed words. So
the text of every chart can be read back.

## Main results

* `isId_of_mem_ofProgram`: the ids of a chart.
* `structure_of_render`: the text of a diagram has the structure of its statements.
-/

namespace ScriptChart.Chart

open ScriptChart.Diagram ScriptChart.Digest ScriptChart.Flow ScriptChart.Label
open ScriptChart.Project

/-! ### Ids -/

theorem isIdChar_of_mem_safeId {id : String} {c : Char} (inside : c ∈ (safeId id).toList) :
    isIdChar c = true := by
  have digits : hexDigits.all isIdChar = true := by decide
  exact List.all_eq_true.mp digits c (mem_hexDigits_of_mem_safeId inside)

theorem isIdChar_of_mem_targetId {name : String} {c : Char}
    (inside : c ∈ (targetId name).toList) : isIdChar c = true := by
  rw [toList_targetId] at inside
  obtain rfl | inside := List.mem_cons.mp inside
  · decide
  · exact isIdChar_of_mem_safeId inside

theorem isIdChar_of_mem_toString {number : Nat} {c : Char}
    (inside : c ∈ (toString number).toList) : isIdChar c = true := by
  rw [Nat.toString_eq_repr, Nat.toList_repr] at inside
  have digit : c.isDigit = true := Nat.isDigit_of_mem_toDigits (by decide) (by decide) inside
  simp [isIdChar, Char.isAlphanum, digit]

theorem isIdChar_of_mem_scriptStem {name : String} {scripts index : Nat} {c : Char}
    (inside : c ∈ (scriptStem name scripts index).toList) : isIdChar c = true := by
  rcases Nat.lt_or_ge 1 scripts with several | single
  · rw [toList_scriptStem name several, List.mem_append, List.mem_cons] at inside
    rcases inside with inside | rfl | inside
    · exact isIdChar_of_mem_targetId inside
    · decide
    · exact isIdChar_of_mem_toString inside
  · rw [scriptStem_of_le name single] at inside
    exact isIdChar_of_mem_targetId inside

theorem isIdChar_of_mem_suffix {role : Role} {c : Char} (inside : c ∈ role.suffix.toList) :
    isIdChar c = true := by
  have letters : role.suffix.toList.all isIdChar = true := by
    cases role <;> decide
  exact List.all_eq_true.mp letters c inside

theorem isId_rootId : IsId rootId := by decide

theorem isId_targetId (name : String) : IsId (targetId name) := by
  refine ⟨fun empty => ?_, fun c => isIdChar_of_mem_targetId⟩
  have long := length_targetId name
  rw [empty] at long
  contradiction

theorem isId_nodeId (name : String) (scripts index : Nat) (node : Node) :
    IsId (nodeId (scriptStem name scripts index) node) := by
  constructor
  · intro empty
    have long := length_nodeId_ge name scripts index node
    rw [empty] at long
    exact absurd long (by decide)
  · intro c inside
    rw [toList_nodeId, List.mem_append, List.mem_cons, List.mem_append] at inside
    rcases inside with inside | rfl | inside | inside
    · exact isIdChar_of_mem_scriptStem inside
    · decide
    · exact isIdChar_of_mem_safeId inside
    · exact isIdChar_of_mem_suffix inside

/-! ### The ids of charts -/

/-- The ids of a statement are those of the node that it declares and of the ends of its edge. -/
theorem declared?_or_edge?_of_mem_ids {line : Statement} {id : String} (used : id ∈ line.ids) :
    line.declared? = some id ∨ ∃ other, line.edge? = some (id, other) ∨
      line.edge? = some (other, id) := by
  cases line with
  | node name shape label =>
    obtain rfl := List.mem_singleton.mp used
    exact .inl rfl
  | edge source destination | labelledEdge source destination label
  | edgeToNode source destination shape label =>
    rcases List.mem_cons.mp used with rfl | used
    · exact .inr ⟨destination, .inl rfl⟩
    · rw [List.mem_singleton.mp used]
      exact .inr ⟨source, .inr rfl⟩

/-- The ids of the lines of a step are the ids of nodes. -/
theorem Pen.exists_node_of_mem_draw (pen : Pen) {step : Step} {line : Statement}
    (inside : line ∈ (pen.draw step).value) {id : String} (used : id ∈ line.ids) :
    ∃ node, id = pen.name node := by
  obtain ⟨edge, declared⟩ := pen.ends_of_mem_draw inside
  rcases declared?_or_edge?_of_mem_ids used with is | ⟨other, is | is⟩
  · rw [is] at declared
    obtain ⟨node, -, same⟩ := Option.map_eq_some_iff.mp declared.symm
    exact ⟨node, same.symm⟩
  · rw [is] at edge
    obtain ⟨ends, -, same⟩ := Option.map_eq_some_iff.mp edge.symm
    exact ⟨ends.1, (Prod.mk.inj same).1.symm⟩
  · rw [is] at edge
    obtain ⟨ends, -, same⟩ := Option.map_eq_some_iff.mp edge.symm
    exact ⟨ends.2, (Prod.mk.inj same).2.symm⟩

theorem isId_of_mem_scriptSection {target : Target} {dictionary : Phrase.Dictionary}
    {scripts : Nat} {script : String × Nat} {line : Statement}
    (inside : line ∈ (scriptSection target dictionary scripts script).value) {id : String}
    (used : id ∈ line.ids) : IsId id := by
  simp only [scriptSection, Pen.drawAll, Report.value_bind, Report.value_pure, Report.value_map,
    Report.value_mapM, List.mem_cons] at inside
  obtain rfl | inside := inside
  · rcases List.mem_cons.mp used with rfl | used
    · exact isId_targetId target.name
    · rw [List.mem_singleton.mp used]
      exact isId_nodeId target.name scripts script.2 _
  · obtain ⟨lines, drawn, inside⟩ := List.mem_flatten.mp inside
    obtain ⟨step, -, rfl⟩ := List.mem_map.mp drawn
    obtain ⟨node, rfl⟩ := Pen.exists_node_of_mem_draw _ inside used
    exact isId_nodeId target.name scripts script.2 node

theorem isId_of_mem_targetSection {target : Target} {dictionary : Phrase.Dictionary}
    {line : Statement} (inside : line ∈ (targetSection dictionary target).value) {id : String}
    (used : id ∈ line.ids) : IsId id := by
  unfold targetSection at inside
  split at inside
  · simp at inside
  · simp only [Report.value_bind, Report.value_pure, Report.value_mapM, List.mem_cons] at inside
    obtain rfl | inside := inside
    · rcases List.mem_cons.mp used with rfl | used
      · exact isId_rootId
      · rw [List.mem_singleton.mp used]
        exact isId_targetId target.name
    · obtain ⟨lines, section_, inside⟩ := List.mem_flatten.mp inside
      obtain ⟨script, -, rfl⟩ := List.mem_map.mp section_
      exact isId_of_mem_scriptSection inside used

/-- Every id of a chart is made of letters, digits and underscores. -/
theorem isId_of_mem_ofProgram {program : Program} {options : Options} {line : Statement}
    (inside : line ∈ (ofProgram program options).statements) {id : String}
    (used : id ∈ line.ids) : IsId id := by
  simp only [ofProgram, Report.value_mapM, List.mem_cons] at inside
  obtain rfl | inside := inside
  · rw [List.mem_singleton.mp used]
    exact isId_rootId
  · obtain ⟨lines, drawn, inside⟩ := List.mem_flatten.mp inside
    obtain ⟨target, -, rfl⟩ := List.mem_map.mp drawn
    exact isId_of_mem_targetSection inside used

/-- The text of every chart is read back as it was written. -/
theorem read?_text (program : Program) (options : Options) :
    read? (ofProgram program options).text =
      some (options.direction, (ofProgram program options).statements.map Statement.sanitized) :=
  read?_render options.direction fun _ inside _ used => isId_of_mem_ofProgram inside used

/-- No label can forge structure. The text of a diagram whose ids are made of letters, digits and
underscores is the header and one line for each statement, and it is read back as it was written.
Two such diagrams have the same text just when they have the same direction and the same statements
with sanitized labels. And all ids of the chart of any program are of this kind. -/
theorem structure_of_render :
    (∀ (direction : Direction) (statements : List Statement),
      (∀ statement ∈ statements, ∀ id ∈ statement.ids, IsId id) →
        (render direction statements).toList.splitOn '\n' =
            ("flowchart " ++ direction.keyword).toList ::
              ((statements.map fun statement => ("    " ++ statement.body).toList) ++ [[]]) ∧
          read? (render direction statements) =
            some (direction, statements.map Statement.sanitized)) ∧
    (∀ (direction direction' : Direction) (statements statements' : List Statement),
      (∀ statement ∈ statements, ∀ id ∈ statement.ids, IsId id) →
      (∀ statement ∈ statements', ∀ id ∈ statement.ids, IsId id) →
        (render direction statements = render direction' statements' ↔
          direction = direction' ∧
            statements.map Statement.sanitized = statements'.map Statement.sanitized)) ∧
    ∀ (program : Program) (options : Options),
      ∀ statement ∈ (ofProgram program options).statements, ∀ id ∈ statement.ids, IsId id := by
  refine ⟨?_, ?_, ?_⟩
  · intro direction statements valid
    exact ⟨splitOn_render direction valid, read?_render direction valid⟩
  · intro direction direction' statements statements' valid valid'
    exact render_inj valid valid'
  · intro program options statement inside id used
    exact isId_of_mem_ofProgram inside used

/-- A rounded node whose label is in brackets is not the stadium that it looks like. -/
theorem render_round_ne_stadium :
    render .topDown [.node "a" .round "[x]"] ≠ render .topDown [.node "a" .stadium "x"] := by
  intro same
  have read := (structure_of_render.2.1 .topDown .topDown _ _ (by decide) (by decide)).mp same
  exact absurd read.2 (by decide +kernel)

end ScriptChart.Chart
