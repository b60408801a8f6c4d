import ScriptChart.Proofs.Chart.Body
import ScriptChart.Proofs.Chart.Coverage
import ScriptChart.Proofs.Chart.Ids
import ScriptChart.Proofs.Flow.Declared

/-!
# The nodes and edges of a text

The text of a chart is read back line by line, and what its lines declare and which edges they draw
are the nodes and edges of the root, of the targets and of the steps of their scripts. Nothing is
asked of the links of the targets here.

## Main definitions

* `linesOf`: the statements in the text of a diagram.
* `HasNode`: the node with an id is declared.

## Main results

* `hasNode_linesOf_text_iff`, `hasEdge_linesOf_text_iff`: the nodes and edges of a text.
-/

namespace ScriptChart.Chart

open ScriptChart.Diagram ScriptChart.Flow ScriptChart.Label ScriptChart.Phrase
open ScriptChart.Project

/-- The statements in the text of a diagram. -/
def linesOf (text : String) : List Statement := ((read? text).map Prod.snd).getD []

/-- Some line declares the node with an id. -/
def HasNode (lines : List Statement) (id : String) : Prop :=
  ∃ line ∈ lines, line.declared? = some id

theorem linesOf_text (program : Program) (options : Options) :
    linesOf (ofProgram program options).text =
      (ofProgram program options).statements.map Statement.sanitized := by
  rw [linesOf, read?_text]
  rfl

/-! ### Lines as they are written -/

@[simp]
theorem declared?_sanitized (line : Statement) : line.sanitized.declared? = line.declared? := by
  cases line <;> rfl

@[simp]
theorem edge?_sanitized (line : Statement) : line.sanitized.edge? = line.edge? := by
  cases line <;> rfl

section

variable {program : Program} {options : Options} {id source destination : String}

theorem hasNode_linesOf_text :
    HasNode (linesOf (ofProgram program options).text) id ↔
      HasNode (ofProgram program options).statements id := by
  simp [HasNode, linesOf_text]

theorem hasEdge_linesOf_text :
    HasEdge (linesOf (ofProgram program options).text) source destination ↔
      HasEdge (ofProgram program options).statements source destination := by
  simp [HasEdge, linesOf_text]

/-- The lines of a chart are that of its root and those of its targets. -/
theorem mem_statements_iff {line : Statement} :
    line ∈ (ofProgram program options).statements ↔
      line = .node rootId .rect options.rootLabel ∨
        ∃ target ∈ program.targets, line ∈ (targetSection options.dictionary target).value := by
  simp [ofProgram]

end

/-! ### The lines of a section -/

section

variable {target : Target} {dictionary : Dictionary} {id source destination : String}

/-- A step of a script has one line, unless it notices a dangling link. -/
theorem exists_mem_draw (dictionary : Dictionary) (index : Nat) {entry : String} {step : Step}
    (walked : step ∈ scriptSteps target entry)
    (seen : step.declared? ≠ none ∨ step.ends? ≠ none) :
    ∃ line, line ∈ ((scriptPen target dictionary index).draw step).value := by
  cases step with
  | block name links =>
    obtain ⟨block, found⟩ := exists_block_of_hasBlock (Call.hasBlock_owner walked)
    have drawn := Pen.value_draw_block (scriptPen target dictionary index) found links
    exact ⟨_, drawn ▸ List.mem_singleton_self _⟩
  | rejoin start enclosing continuation =>
    cases way : enclosing.or continuation <;> simp [Pen.draw, way]
  | missing name link other => simp [Step.declared?, Step.ends?] at seen
  | join _ | edge _ _ | branch _ _ _ | leaf _ | cut _ => exact ⟨_, List.mem_singleton_self _⟩

theorem mem_targetSection_iff {line : Statement} :
    line ∈ (targetSection dictionary target).value ↔
      target.blocks.isEmpty = false ∧
        (line = .edgeToNode rootId (targetId target.name) .rect target.name ∨
          ∃ script ∈ target.entryPoints.zipIdx,
            line = .edge (targetId target.name)
                ((scriptPen target dictionary script.2).name (.ofBlock script.1)) ∨
              ∃ step ∈ scriptSteps target script.1,
                line ∈ ((scriptPen target dictionary script.2).draw step).value) := by
  cases blocks : target.blocks.isEmpty with
  | true => simp [targetSection, blocks]
  | false =>
    rw [value_targetSection dictionary blocks]
    simp only [value_scriptSection, Pen.drawn, List.mem_cons, List.mem_flatMap, true_and]

theorem isEmpty_eq_false_of_mem_zipIdx {script : String × Nat}
    (chosen : script ∈ target.entryPoints.zipIdx) : target.blocks.isEmpty = false := by
  cases blocks : target.blocks.isEmpty with
  | false => rfl
  | true => simp [entryPoints_eq_nil_of_isEmpty blocks] at chosen

/-- What a step of a script draws stands in the section. -/
theorem mem_targetSection_of_mem_draw {script : String × Nat}
    (chosen : script ∈ target.entryPoints.zipIdx) {step : Step}
    (walked : step ∈ scriptSteps target script.1) {line : Statement}
    (drawn : line ∈ ((scriptPen target dictionary script.2).draw step).value) :
    line ∈ (targetSection dictionary target).value := by
  rw [mem_targetSection_iff]
  exact ⟨isEmpty_eq_false_of_mem_zipIdx chosen, .inr ⟨script, chosen, .inr ⟨step, walked, drawn⟩⟩⟩

/-- The line of the target stands in its section. -/
theorem mem_targetSection_of_isEmpty_eq_false (blocks : target.blocks.isEmpty = false) :
    .edgeToNode rootId (targetId target.name) .rect target.name ∈
      (targetSection dictionary target).value := by
  rw [mem_targetSection_iff]
  exact ⟨blocks, .inl rfl⟩

/-- The edge from the target to a script stands in the section. -/
theorem mem_targetSection_of_mem_zipIdx {script : String × Nat}
    (chosen : script ∈ target.entryPoints.zipIdx) :
    .edge (targetId target.name) ((scriptPen target dictionary script.2).name (.ofBlock script.1)) ∈
      (targetSection dictionary target).value := by
  rw [mem_targetSection_iff]
  exact ⟨isEmpty_eq_false_of_mem_zipIdx chosen, .inr ⟨script, chosen, .inl rfl⟩⟩

/-- The nodes of a section are that of the target and those that the scripts declare. -/
theorem hasNode_targetSection_iff :
    HasNode (targetSection dictionary target).value id ↔
      (target.blocks.isEmpty = false ∧ id = targetId target.name) ∨
        ∃ script ∈ target.entryPoints.zipIdx, ∃ node,
          IsDeclared (scriptSteps target script.1) node ∧
            id = (scriptPen target dictionary script.2).name node := by
  constructor
  · rintro ⟨line, inside, declares⟩
    rw [mem_targetSection_iff] at inside
    obtain ⟨blocks, rfl | ⟨script, chosen, rfl | ⟨step, walked, drawn⟩⟩⟩ := inside
    · exact .inl ⟨blocks, (Option.some.inj declares).symm⟩
    · simp [Statement.declared?] at declares
    · rw [Pen.declared?_of_mem_draw _ drawn] at declares
      obtain ⟨node, is, rfl⟩ := Option.map_eq_some_iff.mp declares
      exact .inr ⟨script, chosen, node, ⟨step, walked, is⟩, rfl⟩
  · rintro (⟨blocks, rfl⟩ | ⟨script, chosen, node, ⟨step, walked, declares⟩, rfl⟩)
    · exact ⟨_, mem_targetSection_of_isEmpty_eq_false blocks, rfl⟩
    · obtain ⟨line, drawn⟩ := exists_mem_draw dictionary script.2 walked
        (.inl (by simp [declares]))
      refine ⟨line, mem_targetSection_of_mem_draw chosen walked drawn, ?_⟩
      rw [Pen.declared?_of_mem_draw _ drawn, declares]
      rfl

theorem hasNode_of_isDeclared {script : String × Nat}
    (chosen : script ∈ target.entryPoints.zipIdx) {node : Node}
    (declared : IsDeclared (scriptSteps target script.1) node) :
    HasNode (targetSection dictionary target).value
      ((scriptPen target dictionary script.2).name node) := by
  rw [hasNode_targetSection_iff]
  exact .inr ⟨script, chosen, node, declared, rfl⟩

/-- Without collisions, a section has a node of a script only if the script declares it. -/
theorem isDeclared_of_hasNode (distinct : CollisionFree target) {script : String × Nat}
    (chosen : script ∈ target.entryPoints.zipIdx) {node : Node}
    (present : target.hasBlock node.owner = true)
    (has : HasNode (targetSection dictionary target).value
      ((scriptPen target dictionary script.2).name node)) :
    IsDeclared (scriptSteps target script.1) node := by
  rw [hasNode_targetSection_iff] at has
  obtain ⟨-, same⟩ | ⟨script', chosen', other, declared, same⟩ := has
  · exact absurd same (name_ne_targetId dictionary script.2 node target.name)
  · obtain ⟨step, walked, declares⟩ := declared
    have present' : target.hasBlock other.owner = true :=
      Step.owner_of_declared? declares ▸ Call.hasBlock_owner walked
    obtain ⟨number, rfl⟩ := name_inj distinct chosen chosen' present present' same
    obtain rfl := eq_of_mem_zipIdx chosen chosen' number.symm
    exact ⟨step, walked, declares⟩

/-- The edges of a section lead to the node of the target, from there to the scripts, and between
the nodes of the scripts. -/
theorem hasEdge_targetSection_iff :
    HasEdge (targetSection dictionary target).value source destination ↔
      (target.blocks.isEmpty = false ∧ source = rootId ∧ destination = targetId target.name) ∨
        ∃ script ∈ target.entryPoints.zipIdx,
          (source = targetId target.name ∧
              destination = (scriptPen target dictionary script.2).name (.ofBlock script.1)) ∨
            ∃ start finish, Drawn target script.1 start finish ∧
              source = (scriptPen target dictionary script.2).name start ∧
                destination = (scriptPen target dictionary script.2).name finish := by
  constructor
  · rintro ⟨line, inside, draws⟩
    have there := inside
    rw [mem_targetSection_iff] at there
    obtain rfl | ⟨script, chosen, rfl | ⟨step, walked, start, finish, ends, same⟩⟩ :=
      edge_of_mem_targetSection inside draws
    · obtain ⟨rfl, rfl⟩ := Prod.mk.inj (Option.some.inj draws)
      exact .inl ⟨there.1, rfl, rfl⟩
    · obtain ⟨rfl, rfl⟩ := Prod.mk.inj (Option.some.inj draws)
      exact .inr ⟨script, chosen, .inl ⟨rfl, rfl⟩⟩
    · exact .inr ⟨script, chosen, .inr ⟨start, finish, ⟨step, walked, ends⟩, same⟩⟩
  · rintro (⟨blocks, rfl, rfl⟩ | ⟨script, chosen, ⟨rfl, rfl⟩ |
      ⟨start, finish, ⟨step, walked, ends⟩, rfl, rfl⟩⟩)
    · exact ⟨_, mem_targetSection_of_isEmpty_eq_false blocks, rfl⟩
    · exact ⟨_, mem_targetSection_of_mem_zipIdx chosen, rfl⟩
    · obtain ⟨line, drawn⟩ := exists_mem_draw dictionary script.2 walked
        (.inr (by simp [ends]))
      refine ⟨line, mem_targetSection_of_mem_draw chosen walked drawn, ?_⟩
      rw [Pen.edge?_of_mem_draw _ drawn, ends]
      rfl

theorem hasEdge_targetSection_of_drawn {script : String × Nat}
    (chosen : script ∈ target.entryPoints.zipIdx) {start finish : Node}
    (drawn : Drawn target script.1 start finish) :
    HasEdge (targetSection dictionary target).value
      ((scriptPen target dictionary script.2).name start)
      ((scriptPen target dictionary script.2).name finish) := by
  rw [hasEdge_targetSection_iff]
  exact .inr ⟨script, chosen, .inr ⟨start, finish, drawn, rfl, rfl⟩⟩

end

/-! ### The lines of a text -/

section

variable {program : Program} {options : Options} {id source destination : String}

/-- The nodes of a text are the root and those of the targets. -/
theorem hasNode_linesOf_text_iff :
    HasNode (linesOf (ofProgram program options).text) id ↔
      id = rootId ∨
        ∃ target ∈ program.targets, HasNode (targetSection options.dictionary target).value id := by
  rw [hasNode_linesOf_text]
  constructor
  · rintro ⟨line, inside, declares⟩
    rw [mem_statements_iff] at inside
    obtain rfl | ⟨target, chosen, inside⟩ := inside
    · exact .inl (Option.some.inj declares).symm
    · exact .inr ⟨target, chosen, line, inside, declares⟩
  · rintro (rfl | ⟨target, chosen, line, inside, declares⟩)
    · exact ⟨_, List.mem_cons_self, rfl⟩
    · refine ⟨line, ?_, declares⟩
      rw [mem_statements_iff]
      exact .inr ⟨target, chosen, inside⟩

/-- The edges of a text are those of the targets. -/
theorem hasEdge_linesOf_text_iff :
    HasEdge (linesOf (ofProgram program options).text) source destination ↔
      ∃ target ∈ program.targets,
        HasEdge (targetSection options.dictionary target).value source destination := by
  rw [hasEdge_linesOf_text]
  constructor
  · rintro ⟨line, inside, draws⟩
    rw [mem_statements_iff] at inside
    obtain rfl | ⟨target, chosen, inside⟩ := inside
    · simp [Statement.edge?] at draws
    · exact ⟨target, chosen, line, inside, draws⟩
  · rintro ⟨target, chosen, line, inside, draws⟩
    refine ⟨line, ?_, draws⟩
    rw [mem_statements_iff]
    exact .inr ⟨target, chosen, inside⟩

theorem hasNode_linesOf_text_of_mem {target : Target} (chosen : target ∈ program.targets)
    (has : HasNode (targetSection options.dictionary target).value id) :
    HasNode (linesOf (ofProgram program options).text) id := by
  rw [hasNode_linesOf_text_iff]
  exact .inr ⟨target, chosen, has⟩

theorem hasEdge_linesOf_text_of_mem {target : Target} (chosen : target ∈ program.targets)
    (has : HasEdge (targetSection options.dictionary target).value source destination) :
    HasEdge (linesOf (ofProgram program options).text) source destination := by
  rw [hasEdge_linesOf_text_iff]
  exact ⟨target, chosen, has⟩

end

end ScriptChart.Chart
