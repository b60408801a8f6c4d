import ScriptChart.Proofs.Chart.Composition
import ScriptChart.Proofs.Chart.Frame
import ScriptChart.Proofs.Chart.Separation
import ScriptChart.Proofs.Flow.Dangling
import ScriptChart.Proofs.Flow.Unlink

/-!
# Dangling links in charts

A walk reports a missing block for each time that it follows the links of a block of which one
dangles, and for nothing else. No edge of the target ends at a node of the missing block, since only
blocks that are there are drawn and looked up; but another target with the same name may have a
block of this id, and then the text has its node. A link to the block below that dangles may be
taken out: the text stays the same, and so do all faults but those of this link.

## Main definitions

* `danglingNames`: the ids that the block of a step names in vain.
* `tracedFaults`: the faults of a target, each with the step that reports it.

## Main results

* `filter_walkFaults_perm`: the missing blocks that the walks of a target report.
* `exists_target_of_hasEdge`: an edge ends at a block that is there, in a target of that name.
* `targetText_unlinked`, `targetFaults_unlinked`: taking out a dangling link.
* `dangling_ofProgram`: dangling links are accounted for and change nothing else.
* `not_dangling_fullTarget`: a block that is missing in one of two targets with the same name.
-/

namespace ScriptChart

/-- Whether a fault is that a block is missing. -/
def Diagnostic.isMissingBlock : Diagnostic → Bool
  | .missingBlock _ _ => true
  | _ => false

namespace Chart

open ScriptChart.Diagram ScriptChart.Flow ScriptChart.Label ScriptChart.Phrase
open ScriptChart.Project

/-! ### Missing blocks that walks report -/

/-- The ids that the followed links of a block name in vain, for a step that draws the block and
goes on from there. -/
def danglingNames (target : Target) : Step → List String
  | .block id (_ + 1) =>
    match target.block? id with
    | some block => (followedLinks block).filterMap (dangling? target block)
    | none => []
  | _ => []

namespace Pen

variable (pen : Pen)

/-- Of the steps that draw no block, those that notice a dangling link report missing blocks. -/
theorem filter_isMissingBlock_draw {step : Step} (other : isNodeStep step = false) :
    (pen.draw step).diagnostics.filter Diagnostic.isMissingBlock =
      if step.isMissing then (pen.draw step).diagnostics else [] := by
  cases step with
  | block id links => cases other
  | rejoin source enclosing continuation =>
    cases way : enclosing.or continuation <;> simp [draw, way]
  | join _ | edge _ _ | branch _ _ _ | leaf _ | cut _ | missing _ _ _ => rfl

/-- The missing blocks that a walk reports are those that it notices. -/
theorem filter_isMissingBlock_faults (steps : List Step) :
    (pen.faults (steps.filter fun step => !isNodeStep step)).filter Diagnostic.isMissingBlock =
      pen.faults (steps.filter Step.isMissing) := by
  -- a label may report missing blocks as well, so steps that draw blocks are left out on both sides
  induction steps with
  | nil => rfl
  | cons step rest ih =>
    unfold faults at ih ⊢
    cases drawn : isNodeStep step with
    | true =>
      have silent : step.isMissing = false := by
        cases step <;> first | rfl | cases drawn
      simpa [drawn, silent] using ih
    | false =>
      have one := pen.filter_isMissingBlock_draw drawn
      cases noticed : step.isMissing <;> simp_all

theorem faults_noticeDangling (id : String) (block : Block) (link : Link) :
    pen.faults (noticeDangling pen.target id block link) =
      (dangling? pen.target block link).toList.map (.missingBlock pen.target.name) := by
  unfold noticeDangling
  cases dangling? pen.target block link <;> rfl

/-- What the block of a step lacks is reported by the names of the missing blocks. -/
theorem faults_gaps (step : Step) :
    pen.faults (gaps pen.target step) =
      (danglingNames pen.target step).map (.missingBlock pen.target.name) := by
  cases step with
  | block id links =>
    cases links with
    | zero => rfl
    | succ more =>
      simp only [gaps, danglingNames]
      cases pen.target.block? id with
      | none => rfl
      | some block =>
        have each := pen.faults_noticeDangling id block
        unfold faults at each ⊢
        simp only [List.flatMap_assoc, each, List.filterMap_eq_flatMap_toList, List.map_flatMap]
  | _ => rfl

end Pen

/-- The missing blocks that the walks of a target report: one for each time that a block is drawn
and its links are followed, and each of these links that dangles. -/
theorem filter_walkFaults_perm (target : Target) (dictionary : Dictionary) :
    ((walkFaults target dictionary).filter Diagnostic.isMissingBlock).Perm
      (target.entryPoints.flatMap fun entry =>
        (scriptSteps target entry).flatMap fun step =>
          (danglingNames target step).map (.missingBlock target.name)) := by
  have scripts : target.entryPoints = target.entryPoints.zipIdx.map Prod.fst :=
    (List.zipIdx_map_fst 0 _).symm
  rw [scripts, List.flatMap_map, walkFaults, List.filter_flatMap]
  refine List.Perm.flatMap_left _ fun script _ => ?_
  let pen := scriptPen target dictionary script.2
  -- the order changes: a body is walked between the links of its construct
  have noticed := (filter_isMissing_scriptSteps target script.1).flatMap_right
    fun step => (pen.draw step).diagnostics
  rw [List.flatMap_assoc] at noticed
  rw [Pen.filter_isMissingBlock_faults]
  refine noticed.trans (.of_eq (List.flatMap_congr fun step _ => ?_))
  exact pen.faults_gaps step

/-! ### Edges and missing blocks -/

section

variable {target : Target} {dictionary : Dictionary} {source : String}

/-- Edges between the nodes of scripts end at blocks that are there. -/
theorem hasBlock_of_drawn {entry : String} {start finish : Node}
    (drawn : Drawn target entry start finish) : target.hasBlock finish.owner = true := by
  obtain ⟨-, ⟨step, walked, declares⟩ | strays⟩ := declared_of_drawn drawn
  · exact Step.owner_of_declared? declares ▸ Call.hasBlock_owner walked
  · -- what is found upwards is looked up before an edge leads to it
    obtain ⟨ancestor, -, leads⟩ := strays.below
    exact hasBlock_of_destination? leads

/-- An edge of a section leads to the node of the target or to a node of a block that is there. -/
theorem exists_node_of_hasEdge {id : String}
    (edge : HasEdge (targetSection dictionary target).value source id) :
    id = targetId target.name ∨ ∃ index node, target.hasBlock node.owner = true ∧
      id = (Description.ofScript target.name target.entryPoints.length index node).id := by
  simp only [Description.id_ofScript]
  rw [hasEdge_targetSection_iff] at edge
  obtain ⟨-, -, same⟩ | ⟨script, chosen, ⟨-, same⟩ | ⟨start, finish, drawn, -, same⟩⟩ := edge
  · exact .inl same
  · exact .inr ⟨script.2, .ofBlock script.1, (isRoot_of_mem_zipIdx chosen).hasBlock, same⟩
  · exact .inr ⟨script.2, finish, hasBlock_of_drawn drawn, same⟩

/-- An edge of a text that ends at a described node ends at a block that is there in a target of the
name that the description has. -/
theorem exists_target_of_hasEdge {program : Program} {options : Options}
    {description : Description}
    (free : ∀ text ∈ textsOf program,
      NoCollision text description.target ∧ NoCollision text description.node.owner)
    (edge : HasEdge (linesOf (ofProgram program options).text) source description.id) :
    ∃ target ∈ program.targets, target.name = description.target ∧
      target.hasBlock description.node.owner = true := by
  rw [hasEdge_linesOf_text_iff] at edge
  obtain ⟨target, chosen, edge⟩ := edge
  have held : ∀ text ∈ target.name :: target.blocks.names, text ∈ textsOf program :=
    fun text inside => List.mem_flatMap.mpr ⟨target, chosen, inside⟩
  obtain same | ⟨index, node, present, same⟩ := exists_node_of_hasEdge edge
  · exact absurd same (description.id_ne_targetId target.name)
  · have inside := (target.blocks.contains_iff_mem_names _).mp present
    obtain ⟨names, -⟩ := free _ (held _ List.mem_cons_self)
    obtain ⟨-, owners⟩ := free _ (held _ (List.mem_cons_of_mem _ inside))
    -- the edge ends at a node of this target, and its id tells how it is described
    have told : Description.ofScript target.name target.entryPoints.length index node =
        description := Description.eq_of_id_eq names owners same.symm
    exact ⟨target, chosen, congrArg Description.target told, told ▸ present⟩

end

/-! ### Taking out a dangling link -/

/-- The faults that several steps report, each with its step. -/
def Pen.traced (pen : Pen) (steps : List Step) : List (Step × Diagnostic) :=
  steps.flatMap fun step => (pen.draw step).diagnostics.map (Prod.mk step)

/-- The faults of a target in order, each with the step of a script that reports it. -/
def tracedFaults (dictionary : Dictionary) (target : Target) : List (Step × Diagnostic) :=
  target.entryPoints.zipIdx.flatMap fun script =>
    (scriptPen target dictionary script.2).traced (scriptSteps target script.1)

theorem Pen.map_snd_traced (pen : Pen) (steps : List Step) :
    (pen.traced steps).map Prod.snd = pen.faults steps := by
  simp [traced, faults, List.map_flatMap, Function.comp_def]

/-- To keep the faults of some steps is to trace these steps. -/
theorem Pen.filter_traced (pen : Pen) (keep : Step → Bool) (steps : List Step) :
    (pen.traced steps).filter (fun fault => keep fault.1) = pen.traced (steps.filter keep) := by
  unfold traced
  induction steps with
  | nil => rfl
  | cons step rest ih =>
    cases kept : keep step <;> simp [kept, ih, List.filter_map, Function.comp_def]

theorem map_snd_tracedFaults (dictionary : Dictionary) (target : Target) :
    (tracedFaults dictionary target).map Prod.snd = targetFaults dictionary target := by
  simp only [targetFaults_eq, tracedFaults, List.map_flatMap, Pen.map_snd_traced, scriptFaults,
    diagnostics_scriptSection]

/-- Where a dangling link is noticed, the block that it names is reported as missing. -/
theorem eq_missingBlock_of_not_isKept {target : Target} {dictionary : Dictionary}
    {id gone : String} {fault : Step × Diagnostic}
    (reported : fault ∈ tracedFaults dictionary target) (goes : fault.1.isKept id gone = false) :
    fault.2 = .missingBlock target.name gone := by
  obtain ⟨script, -, reported⟩ := List.mem_flatMap.mp reported
  obtain ⟨step, -, reported⟩ := List.mem_flatMap.mp reported
  obtain ⟨fault, told, rfl⟩ := List.mem_map.mp reported
  obtain rfl := Step.isKept_eq_false_iff.mp goes
  exact List.mem_singleton.mp told

section

variable {target : Target} {dictionary : Dictionary} {id gone : String} {block : Block}
  (dangles : Dangles target id gone block)
include dangles

/-- A block looks the same when a dangling link is taken out. -/
theorem penBlock_unlinked (stem asked : String) :
    (Pen.mk (target.withBlock id block.unlinked) dictionary stem).block asked =
      (Pen.mk target dictionary stem).block asked := by
  have same : ShownAlike block block.unlinked := ⟨rfl, rfl, rfl, rfl, rfl⟩
  have alike := shownAlikeOn_withBlock dangles.present same
  have within : ∀ found, InputsWithin (fun _ => True) found := fun _ _ _ _ _ _ => trivial
  have held : (target.withBlock id block.unlinked).block? asked =
      if asked = id then some block.unlinked else target.block? asked :=
    Target.block?_withBlock asked
  -- the link is no part of a label, neither of its own block nor of one that shows this block
  by_cases here : asked = id
  · rw [if_pos here] at held
    exact penBlock_congr alike dictionary stem (here ▸ dangles.present) held same (within block) rfl
  · rw [if_neg here] at held
    cases present : target.block? asked with
    | none => simp only [Pen.block, held, present]
    | some found =>
      exact penBlock_congr alike dictionary stem present (held.trans present) (.refl found)
        (within found) rfl

/-- A step is drawn the same when a dangling link is taken out. -/
theorem draw_unlinked (index : Nat) (step : Step) :
    (scriptPen (target.withBlock id block.unlinked) dictionary index).draw step =
      (scriptPen target dictionary index).draw step := by
  simp only [scriptPen, dangles.entryPoints_eq]
  cases step with
  | block asked links => exact penBlock_unlinked dangles _ asked
  | join _ | edge _ _ | branch _ _ _ | leaf _ | cut _ | missing _ _ _ | rejoin _ _ _ => rfl

omit dangles in
/-- Steps that notice a dangling link draw nothing. -/
theorem drawn_filter_isKept (pen : Pen) (steps : List Step) :
    pen.drawn (steps.filter (Step.isKept id gone)) = pen.drawn steps := by
  induction steps with
  | nil => rfl
  | cons step rest ih =>
    have later : pen.drawn (step :: rest) = (pen.draw step).value ++ pen.drawn rest := rfl
    cases stays : step.isKept id gone with
    | true =>
      rw [List.filter_cons_of_pos stays, later, ← ih]
      rfl
    | false =>
      obtain rfl := Step.isKept_eq_false_iff.mp stays
      rw [List.filter_cons_of_neg (by simp [stays]), later, ih]
      rfl

/-- A script has the same lines when a dangling link is taken out. -/
theorem value_scriptSection_unlinked (script : String × Nat) :
    (scriptSection (target.withBlock id block.unlinked) dictionary
        (target.withBlock id block.unlinked).entryPoints.length script).value =
      (scriptSection target dictionary target.entryPoints.length script).value := by
  have drawn : (scriptPen (target.withBlock id block.unlinked) dictionary script.2).drawn
        (scriptSteps (target.withBlock id block.unlinked) script.1) =
      (scriptPen target dictionary script.2).drawn (scriptSteps target script.1) := by
    rw [dangles.scriptSteps_eq, Pen.drawn]
    simp only [draw_unlinked dangles]
    exact drawn_filter_isKept _ _
  rw [value_scriptSection, value_scriptSection, drawn]
  simp only [scriptPen, dangles.entryPoints_eq]
  rfl

/-- A target has the same text when a dangling link is taken out. -/
theorem targetText_unlinked :
    targetText dictionary (target.withBlock id block.unlinked) = targetText dictionary target := by
  have line : targetLine (target.withBlock id block.unlinked) = targetLine target := by
    rw [targetLine, Target.isEmpty_withBlock dangles.present]
    rfl
  rw [targetText_eq, targetText_eq, line, dangles.entryPoints_eq]
  simp only [scriptText, value_scriptSection_unlinked dangles]

/-- A target has the same faults when a dangling link is taken out, but for those of the link. -/
theorem targetFaults_unlinked :
    targetFaults dictionary (target.withBlock id block.unlinked) =
      ((tracedFaults dictionary target).filter fun fault => fault.1.isKept id gone).map
        Prod.snd := by
  rw [← map_snd_tracedFaults, tracedFaults, tracedFaults, dangles.entryPoints_eq,
    List.filter_flatMap]
  simp only [Pen.filter_traced, dangles.scriptSteps_eq]
  simp only [Pen.traced, draw_unlinked dangles]

end

/-- Dangling links are accounted for and change nothing else. The faults of a chart are those met in
the labels and on the walks of its targets. The missing blocks that walks report are one for each
time that a script draws a block and follows its links, and each of these links that dangles. An
edge that ends at a described node ends at a block that is there in a target of this name. And when
a dangling link to the block below is taken out, the text stays the same, and so do the faults but
for those of this link, which name the block that is missing. -/
theorem dangling_ofProgram (program : Program) (options : Options) :
    (ofProgram program options).diagnostics.Perm (program.targets.flatMap fun target =>
      labelFaults target options.dictionary ++ walkFaults target options.dictionary) ∧
    (∀ target ∈ program.targets,
      ((walkFaults target options.dictionary).filter Diagnostic.isMissingBlock).Perm
        (target.entryPoints.flatMap fun entry =>
          (scriptSteps target entry).flatMap fun step =>
            (danglingNames target step).map (.missingBlock target.name))) ∧
    (∀ (description : Description) (source : String),
      (∀ text ∈ textsOf program,
        NoCollision text description.target ∧ NoCollision text description.node.owner) →
      HasEdge (linesOf (ofProgram program options).text) source description.id →
        ∃ target ∈ program.targets, target.name = description.target ∧
          target.hasBlock description.node.owner = true) ∧
    ∀ (before after : List Target) (target : Target) (id gone : String) (block : Block),
      program.targets = before ++ target :: after → Dangles target id gone block →
        (ofProgram ⟨before ++ target.withBlock id block.unlinked :: after⟩ options).text =
            (ofProgram program options).text ∧
          (ofProgram program options).diagnostics =
            before.flatMap (targetFaults options.dictionary) ++
              (tracedFaults options.dictionary target).map Prod.snd ++
                after.flatMap (targetFaults options.dictionary) ∧
          (ofProgram ⟨before ++ target.withBlock id block.unlinked :: after⟩ options).diagnostics =
            before.flatMap (targetFaults options.dictionary) ++
              ((tracedFaults options.dictionary target).filter
                  fun fault => fault.1.isKept id gone).map Prod.snd ++
                after.flatMap (targetFaults options.dictionary) ∧
          ∀ fault ∈ tracedFaults options.dictionary target, fault.1.isKept id gone = false →
            fault.2 = .missingBlock target.name gone := by
  refine ⟨?_, ?_, ?_, ?_⟩
  · rw [diagnostics_ofProgram_eq]
    exact List.Perm.flatMap_left _ fun target _ => diagnostics_targetSection_perm
  · intro target _
    exact filter_walkFaults_perm target options.dictionary
  · intro description source free edge
    exact exists_target_of_hasEdge free edge
  · intro before after target id gone block parted dangles
    refine ⟨?_, ?_, ?_, ?_⟩
    · simp only [text_ofProgram, parted, List.map_append, List.map_cons,
        targetText_unlinked dangles]
    · simp only [diagnostics_ofProgram_eq, parted, List.flatMap_append, List.flatMap_cons,
        map_snd_tracedFaults, List.append_assoc]
    · simp only [diagnostics_ofProgram_eq, List.flatMap_append, List.flatMap_cons,
        targetFaults_unlinked dangles, List.append_assoc]
    · intro fault reported goes
      exact eq_missingBlock_of_not_isKept reported goes

/-- A loop that names a missing block in its body and another one below. -/
def gapLoop : Block :=
  { opcode := "control_repeat", next := some "gone", parent := some "flag",
    inputs := .ofList [(substack, .block "void")] }

/-- A script that comes to such a loop. -/
def gapTarget : Target where
  name := "Cat"
  blocks := .ofList [
    ("flag", { opcode := "event_whenflagclicked", next := some "loop", topLevel := true }),
    ("loop", gapLoop)]

/-- The link of the loop to the block below may be taken out. Both missing blocks are reported, no
edge ends at the one below, and without the link the other one is still reported. -/
theorem dangling_gapTarget :
    ((walkFaults gapTarget (.ofList [])).filter Diagnostic.isMissingBlock).Perm
        [.missingBlock "Cat" "void", .missingBlock "Cat" "gone"] ∧
      (∀ source, ¬ HasEdge (linesOf (ofProgram ⟨[gapTarget]⟩
          ⟨"Demo", .topDown, .ofList []⟩).text) source
        (Description.mk "Cat" none (.ofBlock "gone")).id) ∧
      Dangles gapTarget "loop" "gone" gapLoop ∧
      (ofProgram ⟨[gapTarget.withBlock "loop" gapLoop.unlinked]⟩
          ⟨"Demo", .topDown, .ofList []⟩).text =
        (ofProgram ⟨[gapTarget]⟩ ⟨"Demo", .topDown, .ofList []⟩).text ∧
      (ofProgram ⟨[gapTarget.withBlock "loop" gapLoop.unlinked]⟩
          ⟨"Demo", .topDown, .ofList []⟩).diagnostics =
        [.missingBlock "Cat" "void"] := by
  obtain ⟨-, counts, edges, unlinking⟩ :=
    dangling_ofProgram ⟨[gapTarget]⟩ ⟨"Demo", .topDown, .ofList []⟩
  have dangles : Dangles gapTarget "loop" "gone" gapLoop := ⟨rfl, rfl, rfl⟩
  obtain ⟨text, -, diagnostics, -⟩ := unlinking [] [] gapTarget "loop" "gone" gapLoop rfl dangles
  refine ⟨counts gapTarget (List.mem_singleton.mpr rfl), ?_, dangles, text, diagnostics⟩
  intro source edge
  have free : ∀ text ∈ textsOf ⟨[gapTarget]⟩,
      NoCollision text "Cat" ∧ NoCollision text "gone" := by
    decide +kernel
  obtain ⟨target, chosen, -, present⟩ :=
    edges (Description.mk "Cat" none (.ofBlock "gone")) source free edge
  obtain rfl := List.mem_singleton.mp chosen
  cases present

/-- A script that goes on to a missing block. -/
def lackingTarget : Target where
  name := "Cat"
  blocks := .ofList [
    ("a", { opcode := "event_whenflagclicked", next := some "b", topLevel := true })]

/-- A target of the same name whose script goes on to such a block. -/
def fullTarget : Target where
  name := "Cat"
  blocks := .ofList [
    ("a", { opcode := "event_whenflagclicked", next := some "b", topLevel := true }),
    ("b", { opcode := "looks_hide", parent := some "a" })]

/-- An edge may end at the node of a block that is missing in its target, although no digests
collide. -/
theorem not_dangling_fullTarget :
    ¬ ∀ (program : Program) (options : Options) (target : Target) (id gone : String)
        (block : Block) (source : String) (index : Nat),
      target ∈ program.targets → Dangles target id gone block →
      (∀ text ∈ textsOf program, ∀ other ∈ gone :: textsOf program, NoCollision text other) →
      index < target.entryPoints.length →
        ¬ HasEdge (linesOf (ofProgram program options).text) source
          ((scriptPen target options.dictionary index).name (.ofBlock gone)) := by
  intro apart
  have dangles : Dangles lackingTarget "a" "b"
      { opcode := "event_whenflagclicked", next := some "b", topLevel := true } := ⟨rfl, rfl, rfl⟩
  have chosen : ("a", 0) ∈ fullTarget.entryPoints.zipIdx := by decide
  -- the edge belongs to the second target, and the first one names its end in vain
  have drawn : Drawn fullTarget "a" (.ofBlock "a") (.ofBlock "b") :=
    ⟨.edge (.ofBlock "a") (.ofBlock "b"), by decide, rfl⟩
  have inside : fullTarget ∈ [lackingTarget, fullTarget] := by simp
  exact apart ⟨[lackingTarget, fullTarget]⟩ ⟨"Demo", .topDown, .english⟩ lackingTarget "a" "b" _ _ 0
    List.mem_cons_self dangles (by decide +kernel) (by decide)
    (hasEdge_linesOf_text_of_mem inside (hasEdge_targetSection_of_drawn chosen drawn))

end Chart

end ScriptChart
