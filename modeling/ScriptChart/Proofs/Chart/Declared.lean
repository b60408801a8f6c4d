import ScriptChart.Proofs.Chart.Lines

/-!
# Ends of edges in a text

In the text of a chart the ends of every edge are declared, with a shape and a label, whatever the
links of the program are. Only the edges that stray from the end of a construct may lead to a node
that no line declares, and there are no such edges when all targets are well linked.

## Main definitions

* `StraysBetween`: an edge between two ids strays.

## Main results

* `declared_of_hasEdge_text`: the ends of edges are declared.
* `not_declared_strayTarget`: an edge that strays to a node that is not declared.
-/

namespace ScriptChart.Chart

open ScriptChart.Flow ScriptChart.Phrase ScriptChart.Project

/-- An edge between the nodes with two ids strays in one of the scripts of a target. -/
def StraysBetween (target : Target) (dictionary : Dictionary) (source destination : String) :
    Prop :=
  ∃ script ∈ target.entryPoints.zipIdx, ∃ start finish,
    Drawn target script.1 start finish ∧ Strays target start finish ∧
      source = (scriptPen target dictionary script.2).name start ∧
        destination = (scriptPen target dictionary script.2).name finish

theorem not_straysBetween {target : Target} (linked : WellLinked target)
    (dictionary : Dictionary) (source destination : String) :
    ¬ StraysBetween target dictionary source destination := by
  rintro ⟨script, chosen, start, finish, drawn, strays, -, -⟩
  exact drawn.not_strays linked (isRoot_of_mem_zipIdx chosen) strays

/-- The ends of an edge of a section are the root or declared in the section, unless the edge
strays. -/
theorem declared_of_hasEdge_targetSection {target : Target} {dictionary : Dictionary}
    {source destination : String}
    (edge : HasEdge (targetSection dictionary target).value source destination) :
    (source = rootId ∨ HasNode (targetSection dictionary target).value source) ∧
      (HasNode (targetSection dictionary target).value destination ∨
        StraysBetween target dictionary source destination) := by
  have named : target.blocks.isEmpty = false →
      HasNode (targetSection dictionary target).value (targetId target.name) :=
    fun blocks => ⟨_, mem_targetSection_of_isEmpty_eq_false blocks, rfl⟩
  rw [hasEdge_targetSection_iff] at edge
  obtain ⟨blocks, rfl, rfl⟩ |
    ⟨script, chosen, ⟨rfl, rfl⟩ | ⟨start, finish, drawn, rfl, rfl⟩⟩ := edge
  · exact ⟨.inl rfl, .inl (named blocks)⟩
  · refine ⟨.inr (named (isEmpty_eq_false_of_mem_zipIdx chosen)), .inl ?_⟩
    exact hasNode_of_isDeclared chosen (isDeclared_entry (isRoot_of_mem_zipIdx chosen))
  · obtain ⟨leaves, arrives⟩ := declared_of_drawn drawn
    refine ⟨.inr (hasNode_of_isDeclared chosen leaves), ?_⟩
    apply arrives.imp
    · exact hasNode_of_isDeclared chosen
    · intro strays
      exact ⟨script, chosen, start, finish, drawn, strays, rfl, rfl⟩

/-- The ends of an edge of a text are declared in the text, unless the edge strays. -/
theorem declared_or_strays_of_hasEdge {program : Program} {options : Options}
    {source destination : String}
    (edge : HasEdge (linesOf (ofProgram program options).text) source destination) :
    HasNode (linesOf (ofProgram program options).text) source ∧
      (HasNode (linesOf (ofProgram program options).text) destination ∨
        ∃ target ∈ program.targets,
          StraysBetween target options.dictionary source destination) := by
  rw [hasEdge_linesOf_text_iff] at edge
  obtain ⟨target, chosen, edge⟩ := edge
  obtain ⟨leaves, arrives⟩ := declared_of_hasEdge_targetSection edge
  constructor
  · rw [hasNode_linesOf_text_iff]
    exact leaves.imp_right fun has => ⟨target, chosen, has⟩
  · apply arrives.imp
    · exact hasNode_linesOf_text_of_mem chosen
    · exact fun strays => ⟨target, chosen, strays⟩

/-- No edge leads to a node that is not declared, unless it strays. In the text of a chart the ends
of every edge are declared. The only exception is the destination of an edge from the end of a
conditional or a loop without a block below it, where looking upwards has found the block below an
ancestor. When all targets are well linked there is no exception. -/
theorem declared_of_hasEdge_text (program : Program) (options : Options) :
    (∀ source destination,
      HasEdge (linesOf (ofProgram program options).text) source destination →
        HasNode (linesOf (ofProgram program options).text) source ∧
          (HasNode (linesOf (ofProgram program options).text) destination ∨
            ∃ target ∈ program.targets,
              StraysBetween target options.dictionary source destination)) ∧
    ((∀ target ∈ program.targets, WellLinked target) → ∀ source destination,
      HasEdge (linesOf (ofProgram program options).text) source destination →
        HasNode (linesOf (ofProgram program options).text) source ∧
          HasNode (linesOf (ofProgram program options).text) destination) := by
  constructor
  · intro source destination edge
    exact declared_or_strays_of_hasEdge edge
  · intro linked source destination edge
    obtain ⟨leaves, arrives⟩ := declared_or_strays_of_hasEdge edge
    refine ⟨leaves, arrives.resolve_right ?_⟩
    rintro ⟨target, chosen, strays⟩
    exact not_straysBetween (linked target chosen) _ _ _ strays

/-- The edge from the end of the conditional in the sample leads to a declared node. -/
theorem hasNode_sampleTarget_loop :
    HasNode (linesOf (ofProgram ⟨[sampleTarget]⟩ ⟨"Demo", .topDown, .english⟩).text)
      ((scriptPen sampleTarget .english 0).name ⟨"loop", .again⟩) := by
  have linked : ∀ target ∈ [sampleTarget], WellLinked target := by
    simp [wellLinked_sampleTarget]
  have drawn : Drawn sampleTarget "flag" ⟨"check", .conditionEnd⟩ ⟨"loop", .again⟩ :=
    ⟨.rejoin ⟨"check", .conditionEnd⟩ (some ⟨"loop", .again⟩) (some ⟨"loop", .again⟩),
      by decide, rfl⟩
  have edge : HasEdge (linesOf (ofProgram ⟨[sampleTarget]⟩ ⟨"Demo", .topDown, .english⟩).text)
      ((scriptPen sampleTarget .english 0).name ⟨"check", .conditionEnd⟩)
      ((scriptPen sampleTarget .english 0).name ⟨"loop", .again⟩) :=
    hasEdge_linesOf_text_of_mem (List.mem_singleton_self _)
      (hasEdge_targetSection_of_drawn mem_zipIdx_sampleTarget drawn)
  exact ((declared_of_hasEdge_text ⟨[sampleTarget]⟩ ⟨"Demo", .topDown, .english⟩).2 linked _ _
    edge).2

/-- A conditional that names a block as its parent which does not lead to it. -/
def strayTarget : Target where
  name := "Cat"
  blocks := .ofList [
    ("flag", { opcode := "event_whenflagclicked", next := some "check", topLevel := true }),
    ("check", { opcode := "control_if", parent := some "step" }),
    ("step", { opcode := "looks_show", next := some "hide" }),
    ("hide", { opcode := "looks_hide", parent := some "step" })]

/-- An edge may lead to a node that is not declared. -/
theorem not_declared_strayTarget :
    ¬ ∀ (program : Program) (options : Options) (source destination : String),
      HasEdge (linesOf (ofProgram program options).text) source destination →
        HasNode (linesOf (ofProgram program options).text) source ∧
          HasNode (linesOf (ofProgram program options).text) destination := by
  intro declared
  have chosen : ("flag", 0) ∈ strayTarget.entryPoints.zipIdx := by decide
  have drawn : Drawn strayTarget "flag" ⟨"check", .conditionEnd⟩ (.ofBlock "hide") :=
    ⟨.rejoin ⟨"check", .conditionEnd⟩ (some (.ofBlock "hide")) none, by decide, rfl⟩
  obtain ⟨-, has⟩ := declared ⟨[strayTarget]⟩ ⟨"Demo", .topDown, .english⟩ _ _
    (hasEdge_linesOf_text_of_mem (List.mem_singleton_self _)
      (hasEdge_targetSection_of_drawn chosen drawn))
  rw [hasNode_linesOf_text_iff] at has
  obtain root | ⟨target, only, has⟩ := has
  · exact name_ne_rootId .english 0 _ root
  · obtain rfl := List.mem_singleton.mp only
    -- the ids are among those of the sample
    have distinct : CollisionFree strayTarget := collisionFree_sampleTarget.mono (by decide)
    exact absurd (isDeclared_of_hasNode distinct chosen rfl has) (by decide)

end ScriptChart.Chart
