import ScriptChart.Proofs.Chart.Lines
import ScriptChart.Proofs.Flow.Outgoing

/-!
# Outgoing edges in a text

In the text of a chart control goes on from every node, whatever the links of the program are. The
nodes without an outgoing edge are the root of a program without blocks, a target without scripts,
the leaves, the sentinels, and blocks at which a walk ends outside all constructs.

## Main definitions

* `IsEnd`: the nodes from which control need not go on.

## Main results

* `outgoing_of_hasNode_text`: all other nodes have outgoing edges.
-/

namespace ScriptChart.Chart

open ScriptChart.Diagram ScriptChart.Flow ScriptChart.Phrase ScriptChart.Project

/-- The nodes in the text of a chart from which control need not go on. -/
inductive IsEnd (program : Program) (options : Options) : String → Prop
  /-- The root, when no target has blocks. -/
  | root (blockless : ∀ target ∈ program.targets, target.blocks.isEmpty = true) :
      IsEnd program options rootId
  /-- A target without scripts. -/
  | target {target : Target} (chosen : target ∈ program.targets)
      (scriptless : target.entryPoints = []) : IsEnd program options (targetId target.name)
  /-- A leaf, on the line of the edge to it. -/
  | leaf {source : String}
      (line : .edgeToNode source (source ++ Role.blockLeaf.suffix) .stadium
          (sanitize (options.dictionary.synthetic .finish)) ∈
        linesOf (ofProgram program options).text) :
      IsEnd program options (source ++ Role.blockLeaf.suffix)
  /-- A sentinel, on the line of the edge to it. -/
  | sentinel {source : String}
      (line : .edgeToNode source (source ++ Role.runaway.suffix) .rect
          (sanitize (options.dictionary.synthetic .runaway)) ∈
        linesOf (ofProgram program options).text) :
      IsEnd program options (source ++ Role.runaway.suffix)
  /-- A block at which a walk ends outside all constructs. -/
  | block {target : Target} {script : String × Nat} {id : String}
      (chosen : target ∈ program.targets) (entered : script ∈ target.entryPoints.zipIdx)
      (ends : EndsOpen target script.1 id) :
      IsEnd program options ((scriptPen target options.dictionary script.2).name (.ofBlock id))

/-! ### Leaves and sentinels -/

theorem Pen.name_runaway (pen : Pen) (id : String) :
    pen.name ⟨id, .runaway⟩ = pen.name (.ofBlock id) ++ Role.runaway.suffix := by
  simp [Pen.name, nodeId, Node.ofBlock, Role.suffix]

/-- The id of a leaf is that of the node before it with a suffix. -/
theorem Pen.name_leaf (pen : Pen) {source : Node}
    (ends : source.role = .block ∨ ∃ kind, kind ≠ .forever ∧ source.role = joinRole kind) :
    pen.name source.leaf = pen.name source ++ Role.blockLeaf.suffix := by
  have suffixes : source.role.leaf.suffix = source.role.suffix ++ Role.blockLeaf.suffix := by
    obtain role | ⟨kind, endless, role⟩ := ends
    · rw [role]
      decide
    · rw [role]
      cases kind with
      | forever => contradiction
      | ifThen | ifElse | repeatTimes | repeatUntil => decide
  simp only [Pen.name, nodeId, Node.leaf, suffixes, String.append_assoc]

section

variable {program : Program} {options : Options} {target : Target}
  (chosen : target ∈ program.targets) {script : String × Nat}
  (entered : script ∈ target.entryPoints.zipIdx)
include chosen entered

/-- What a step of a script draws stands in the text, as it is written. -/
theorem mem_linesOf_of_mem_draw {step : Step} (walked : step ∈ scriptSteps target script.1)
    {line : Statement}
    (drawn : line ∈ ((scriptPen target options.dictionary script.2).draw step).value) :
    line.sanitized ∈ linesOf (ofProgram program options).text := by
  rw [linesOf_text]
  apply List.mem_map_of_mem
  rw [mem_statements_iff]
  exact .inr ⟨target, chosen, mem_targetSection_of_mem_draw entered walked drawn⟩

theorem isEnd_of_isLeaf {source node : Node}
    (leaf : IsLeaf (scriptSteps target script.1) source node) :
    IsEnd program options ((scriptPen target options.dictionary script.2).name node) := by
  have named := Pen.name_leaf (scriptPen target options.dictionary script.2) (role_of_isLeaf leaf)
  obtain ⟨step, walked, is, rfl⟩ := leaf
  rw [named]
  have drawn : (scriptPen target options.dictionary script.2).leaf source ∈
      ((scriptPen target options.dictionary script.2).draw step).value := by
    rw [← Pen.draw_decided, is]
    exact List.mem_singleton_self _
  have line := mem_linesOf_of_mem_draw chosen entered walked drawn
  rw [Pen.leaf, named] at line
  exact .leaf line

theorem isEnd_of_isSentinel {id : String} {node : Node}
    (sentinel : IsSentinel (scriptSteps target script.1) id node) :
    IsEnd program options ((scriptPen target options.dictionary script.2).name node) := by
  obtain ⟨walked, rfl⟩ := sentinel
  have line : (Statement.edgeToNode _ _ _ _).sanitized ∈ linesOf (ofProgram program options).text :=
    mem_linesOf_of_mem_draw chosen entered walked (List.mem_singleton_self _)
  rw [Pen.name_runaway] at line ⊢
  exact .sentinel line

end

/-! ### Outgoing edges -/

section

variable {program : Program} {options : Options}

/-- An edge leaves the root when some target has blocks. -/
theorem exists_hasEdge_rootId {target : Target} (chosen : target ∈ program.targets)
    (blocks : target.blocks.isEmpty = false) :
    HasEdge (linesOf (ofProgram program options).text) rootId (targetId target.name) :=
  hasEdge_linesOf_text_of_mem chosen ⟨_, mem_targetSection_of_isEmpty_eq_false blocks, rfl⟩

/-- An edge leaves a target that has a script. -/
theorem exists_hasEdge_targetId {target : Target} (chosen : target ∈ program.targets) :
    (∃ destination, HasEdge (linesOf (ofProgram program options).text) (targetId target.name)
      destination) ∨ IsEnd program options (targetId target.name) := by
  cases scripts : target.entryPoints with
  | nil => exact .inr (.target chosen scripts)
  | cons entry rest =>
    have entered : (entry, 0) ∈ target.entryPoints.zipIdx := by
      simp [scripts]
    exact .inl ⟨_, hasEdge_linesOf_text_of_mem chosen
      ⟨_, mem_targetSection_of_mem_zipIdx entered, rfl⟩⟩

/-- The edges of a script are edges of the text. -/
theorem hasEdge_of_drawn {target : Target} (chosen : target ∈ program.targets)
    {script : String × Nat} (entered : script ∈ target.entryPoints.zipIdx) {start finish : Node}
    (drawn : Drawn target script.1 start finish) :
    HasEdge (linesOf (ofProgram program options).text)
      ((scriptPen target options.dictionary script.2).name start)
      ((scriptPen target options.dictionary script.2).name finish) :=
  hasEdge_linesOf_text_of_mem chosen (hasEdge_targetSection_of_drawn entered drawn)

/-- The nodes of a text are the root, targets, and nodes that scripts declare. -/
theorem hasNode_text_cases {id : String}
    (has : HasNode (linesOf (ofProgram program options).text) id) :
    id = rootId ∨ (∃ target ∈ program.targets, id = targetId target.name) ∨
      ∃ target ∈ program.targets, ∃ script ∈ target.entryPoints.zipIdx, ∃ node,
        IsDeclared (scriptSteps target script.1) node ∧
          id = (scriptPen target options.dictionary script.2).name node := by
  rw [hasNode_linesOf_text_iff] at has
  obtain root | ⟨target, chosen, has⟩ := has
  · exact .inl root
  · rw [hasNode_targetSection_iff] at has
    obtain ⟨-, named⟩ | ⟨script, entered, declared⟩ := has
    · exact .inr (.inl ⟨target, chosen, named⟩)
    · exact .inr (.inr ⟨target, chosen, script, entered, declared⟩)

/-- Every node of a text has an outgoing edge or is one of the ends. -/
theorem exists_hasEdge_or_isEnd {id : String}
    (has : HasNode (linesOf (ofProgram program options).text) id) :
    (∃ destination, HasEdge (linesOf (ofProgram program options).text) id destination) ∨
      IsEnd program options id := by
  obtain rfl | ⟨target, chosen, rfl⟩ | ⟨target, chosen, script, entered, node, declared, rfl⟩ :=
    hasNode_text_cases has
  · by_cases blockless : ∀ target ∈ program.targets, target.blocks.isEmpty = true
    · exact .inr (.root blockless)
    · simp only [not_forall, Bool.not_eq_true] at blockless
      obtain ⟨target, chosen, blocks⟩ := blockless
      exact .inl ⟨_, exists_hasEdge_rootId chosen blocks⟩
  · exact exists_hasEdge_targetId chosen
  · obtain ⟨finish, drawn⟩ | ⟨source, leaf⟩ | ⟨cut, sentinel⟩ | ⟨block, rfl, ends⟩ :=
      exists_drawn_of_isDeclared declared
    · exact .inl ⟨_, hasEdge_of_drawn chosen entered drawn⟩
    · exact .inr (isEnd_of_isLeaf chosen entered leaf)
    · exact .inr (isEnd_of_isSentinel chosen entered sentinel)
    · exact .inr (.block chosen entered ends)

/-- The end of the body of an endless loop leads back to the loop. -/
theorem hasEdge_back_of_hasNode {source : String}
    (has : HasNode (linesOf (ofProgram program options).text) (source ++ Role.again.suffix)) :
    HasEdge (linesOf (ofProgram program options).text) (source ++ Role.again.suffix) source := by
  obtain root | ⟨target, -, named⟩ | ⟨target, chosen, script, entered, node, declared, named⟩ :=
    hasNode_text_cases has
  · exact absurd root.symm (rootId_ne_append_again source)
  · exact absurd named.symm (targetId_ne_append_again target.name source)
  · obtain ⟨again, rfl⟩ := eq_of_nodeId_eq_append_again named.symm
    rw [named]
    rw [again] at declared ⊢
    exact hasEdge_of_drawn chosen entered (drawn_back_of_isDeclared declared)

end

/-- No flow is left dangling. In the text of a chart every node has an outgoing edge, except the
root when no target has blocks, a target without scripts, the leaves, the sentinels, and a block
that is no construct and no event and leads nowhere, where a walk comes to it outside all
constructs. And the end of the body of an endless loop leads back to the loop. -/
theorem outgoing_of_hasNode_text (program : Program) (options : Options) :
    (∀ id, HasNode (linesOf (ofProgram program options).text) id →
      (∃ destination, HasEdge (linesOf (ofProgram program options).text) id destination) ∨
        IsEnd program options id) ∧
    ∀ source,
      HasNode (linesOf (ofProgram program options).text) (source ++ Role.again.suffix) →
        HasEdge (linesOf (ofProgram program options).text) (source ++ Role.again.suffix) source :=
  ⟨fun _ has => exists_hasEdge_or_isEnd has, fun _ has => hasEdge_back_of_hasNode has⟩

/-- The end of the body of the endless loop of the sample leads back to the loop. -/
theorem hasEdge_sampleTarget_loop :
    HasEdge (linesOf (ofProgram ⟨[sampleTarget]⟩ ⟨"Demo", .topDown, .english⟩).text)
      ((scriptPen sampleTarget .english 0).name (.ofBlock "loop") ++ Role.again.suffix)
      ((scriptPen sampleTarget .english 0).name (.ofBlock "loop")) := by
  apply (outgoing_of_hasNode_text ⟨[sampleTarget]⟩ ⟨"Demo", .topDown, .english⟩).2
  have declared : IsDeclared (scriptSteps sampleTarget "flag") ⟨"loop", .again⟩ := by decide
  have named : (scriptPen sampleTarget .english 0).name (.ofBlock "loop") ++ Role.again.suffix =
      (scriptPen sampleTarget .english 0).name ⟨"loop", .again⟩ := by
    simp [Pen.name, nodeId, Node.ofBlock, Role.suffix]
  rw [named]
  exact hasNode_linesOf_text_of_mem (List.mem_singleton_self _)
    (hasNode_of_isDeclared mem_zipIdx_sampleTarget declared)

end ScriptChart.Chart
