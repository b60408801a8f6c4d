import ScriptChart.Proofs.Chart.Dangling
import ScriptChart.Proofs.Flow.Upwards

/-!
# Constructs are not tied to themselves

The search for the way on from a construct comes to an end, whatever the parents of the blocks are,
and what it finds is told by the chain of parents: the first ancestor that offers something offers
the end of another construct or another block. So in no chart does an edge lead from the node in
which a construct ends back to this node.

## Main results

* `not_hasEdge_linesOf_text_self`: the end of a construct has no edge to itself.
* `upwards_ofProgram`: what searches find, and what follows for charts.
-/

namespace ScriptChart.Chart

open ScriptChart.Flow ScriptChart.Phrase ScriptChart.Project

/-- The end of a construct has no edge to itself in a section, even when its id is that of a node in
another target with the same name. -/
theorem not_hasEdge_targetSection_self {target : Target} (distinct : CollisionFree target)
    (dictionary : Dictionary) {description : Description} {kind : ControlKind}
    (role : description.node.role = joinRole kind) :
    ¬ HasEdge (targetSection dictionary target).value description.id description.id := by
  intro edge
  rw [hasEdge_targetSection_iff] at edge
  obtain ⟨-, root, -⟩ | ⟨script, chosen, ⟨named, -⟩ | ⟨start, finish, drawn, source, same⟩⟩ := edge
  · exact description.id_ne_rootId root
  · exact description.id_ne_targetId _ named
  · have there : target.hasBlock start.owner = true := by
      obtain ⟨step, walked, ends⟩ := drawn
      exact Step.owner_of_ends? ends ▸ Call.hasBlock_owner walked
    obtain ⟨-, rfl⟩ := name_inj distinct chosen chosen there (hasBlock_of_drawn drawn)
      (source.symm.trans same)
    -- the id tells the role, and so the edge leaves the end of a construct
    have told : description.id =
        (Description.ofScript target.name target.entryPoints.length script.2 start).id := by
      rw [Description.id_ofScript]
      exact source
    exact drawn.ne_of_joinRole ((Description.role_eq_of_id_eq told).symm.trans role) rfl

theorem not_hasEdge_linesOf_text_self {program : Program} {options : Options}
    (distinct : ∀ target ∈ program.targets, CollisionFree target) {description : Description}
    {kind : ControlKind} (role : description.node.role = joinRole kind) :
    ¬ HasEdge (linesOf (ofProgram program options).text) description.id description.id := by
  intro edge
  rw [hasEdge_linesOf_text_iff] at edge
  obtain ⟨target, chosen, edge⟩ := edge
  exact not_hasEdge_targetSection_self (distinct target chosen) options.dictionary role edge

/-- The way on from a construct is never the construct itself. For all links and all ends that were
recorded, a search upwards is over after a number of looks at the chain of parents, which ends at
the first block that was met before or is not there, and it has found what the first ancestor offers
that offers anything: the recorded end of another construct, or another block. Hence in the text of
a chart, if the blocks of each target have different safe ids, no edge leads from the node in which
a construct of any script ends to the same node. -/
theorem upwards_ofProgram :
    (∀ (target : Target) (ends : Ends) (start : String),
      (∃ looks, (Climb.look target ends start)^[looks] (.start target start) =
        .ended (enclosing? target ends start)) ∧
      (∀ chain, ParentChain target start chain ↔ chain = ancestors target start) ∧
      (∀ node, enclosing? target ends start = some node ↔
        ∃ before stage after,
          stages start (ancestors target start) = before ++ stage :: after ∧
            (∀ earlier ∈ before, ∀ other, ¬ Offers target ends start earlier other) ∧
              Offers target ends start stage node) ∧
      ∀ node, enclosing? target ends start = some node →
        (∃ id block kind, id ≠ start ∧ target.block? id = some block ∧
            block.control? = some kind ∧ ends.lookup id = some node) ∨
          ∃ id, id ≠ start ∧ target.hasBlock id = true ∧ node = .ofBlock id) ∧
    ∀ (program : Program) (options : Options),
      (∀ target ∈ program.targets, CollisionFree target) →
        ∀ target ∈ program.targets, ∀ script ∈ target.entryPoints.zipIdx, ∀ id kind,
          let place := (scriptPen target options.dictionary script.2).name ⟨id, joinRole kind⟩
          ¬ HasEdge (linesOf (ofProgram program options).text) place place := by
  refine ⟨fun target ends start => ⟨?_, ?_, ?_, ?_⟩, ?_⟩
  · exact ⟨_, Climb.look_iterate_start target ends start⟩
  · exact fun chain => parentChain_iff
  · exact fun node => enclosing?_eq_some_iff
  · exact fun node => cases_of_enclosing?
  · intro program options distinct target _ script _ id kind place edge
    have told : place = (Description.ofScript target.name target.entryPoints.length script.2
        ⟨id, joinRole kind⟩).id := (Description.id_ofScript _ _ _ _).symm
    rw [told] at edge
    exact not_hasEdge_linesOf_text_self distinct rfl edge

/-- A loop and a conditional that name each other as parent and as branch. -/
def tangledTarget : Target where
  name := "Cat"
  blocks := .ofList [
    ("flag", { opcode := "event_whenflagclicked", next := some "loop", topLevel := true }),
    ("loop", { opcode := "control_repeat", parent := some "check",
               inputs := .ofList [(substack, .block "check")] }),
    ("check", { opcode := "control_if", parent := some "loop",
                inputs := .ofList [(substack, .block "loop")] })]

/-- Each of two constructs that are tied to each other finds the end of the other one, so edges lead
from the end of the one to that of the other and back, but from neither to itself. -/
theorem not_hasEdge_tangledTarget_self :
    enclosing? tangledTarget [("check", ⟨"check", .conditionEnd⟩)] "loop" =
        some ⟨"check", .conditionEnd⟩ ∧
      (∃ id block kind, id ≠ "loop" ∧ tangledTarget.block? id = some block ∧
          block.control? = some kind ∧
            [("check", Node.mk "check" .conditionEnd)].lookup id =
              some ⟨"check", .conditionEnd⟩) ∧
        CollisionFree tangledTarget ∧ ("flag", 0) ∈ tangledTarget.entryPoints.zipIdx ∧
          let lines := linesOf (ofProgram ⟨[tangledTarget]⟩ ⟨"Demo", .topDown, .english⟩).text
          let loopEnd := (scriptPen tangledTarget .english 0).name ⟨"loop", .loopEnd⟩
          let checkEnd := (scriptPen tangledTarget .english 0).name ⟨"check", .conditionEnd⟩
          HasEdge lines loopEnd checkEnd ∧ HasEdge lines checkEnd loopEnd ∧
            ¬ HasEdge lines loopEnd loopEnd := by
  obtain ⟨search, apart⟩ := upwards_ofProgram
  have found : enclosing? tangledTarget [("check", ⟨"check", .conditionEnd⟩)] "loop" =
      some ⟨"check", .conditionEnd⟩ := by decide
  -- the ids are among those of the sample
  have distinct : CollisionFree tangledTarget := collisionFree_sampleTarget.mono (by decide)
  have chosen : ("flag", 0) ∈ tangledTarget.entryPoints.zipIdx := by decide
  have edge : ∀ {start finish : Node}, Drawn tangledTarget "flag" start finish →
      HasEdge (linesOf (ofProgram ⟨[tangledTarget]⟩ ⟨"Demo", .topDown, .english⟩).text)
        ((scriptPen tangledTarget .english 0).name start)
        ((scriptPen tangledTarget .english 0).name finish) := fun drawn =>
    hasEdge_linesOf_text_of_mem (List.mem_singleton_self _)
      (hasEdge_targetSection_of_drawn chosen drawn)
  refine ⟨found, ?_, distinct, chosen, edge ?_, edge ?_, ?_⟩
  · obtain other | ⟨id, -, -, same⟩ := (search tangledTarget _ "loop").2.2.2 _ found
    · exact other
    · simp [Node.ofBlock] at same
  · exact ⟨.rejoin ⟨"loop", .loopEnd⟩ (some ⟨"check", .conditionEnd⟩) none, by decide, rfl⟩
  · exact ⟨.rejoin ⟨"check", .conditionEnd⟩ (some ⟨"loop", .loopEnd⟩) (some ⟨"loop", .loopEnd⟩),
      by decide, rfl⟩
  · exact apart ⟨[tangledTarget]⟩ ⟨"Demo", .topDown, .english⟩
      (fun target only => List.mem_singleton.mp only ▸ distinct) tangledTarget
      (List.mem_singleton_self _) ("flag", 0) chosen "loop" .repeatTimes

end ScriptChart.Chart
