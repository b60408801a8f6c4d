import ScriptChart.Proofs.Chart.Drawing
import ScriptChart.Proofs.Flow.Coverage

/-!
# What a section covers

Every block that a script of a well-linked target reaches along at most 501 links has one line that
declares it, over all scripts of the target, and no other block has one. Just the blocks at the
limit have a sentinel, and beside the faults that labels report, the walk reports just these blocks
as too deep, each of them once.

## Main definitions

* `declarations`: the lines that declare a node in any script of a target.
* `labelFaults`, `walkFaults`: the faults that are met in labels, and those met on the walk.

## Main results

* `coverage_targetSection`: which blocks are declared and where scripts are cut.
-/

namespace ScriptChart.Chart

open ScriptChart.Diagram ScriptChart.Flow ScriptChart.Label ScriptChart.Phrase
open ScriptChart.Project

/-- Whether a step draws the node of a block, with its label. -/
def isNodeStep : Step → Bool
  | .block _ _ => true
  | _ => false

namespace Pen

variable (pen : Pen)

theorem value_draw_block {id : String} {block : Block}
    (found : pen.target.block? id = some block) (links : Nat) :
    (pen.draw (.block id links)).value =
      [.node (pen.name (.ofBlock id)) (.ofOpcode block.opcode)
        ((Resolver.mk pen.target pen.dictionary).nodeLabel block).value] := by
  simp [draw, Pen.block, found]

theorem faults_append (first second : List Step) :
    pen.faults (first ++ second) = pen.faults first ++ pen.faults second := by
  simp [faults]

/-- The faults of a script are those met in labels and those met on the walk. -/
theorem faults_perm (steps : List Step) :
    (pen.faults steps).Perm
      (pen.faults (steps.filter isNodeStep) ++
        pen.faults (steps.filter fun step => !isNodeStep step)) := by
  rw [← faults_append]
  exact (List.filter_append_perm isNodeStep steps).symm.flatMap_right _

/-- A walk reports a block as too deep for each time that it is cut there. -/
theorem filter_faults (id : String) (steps : List Step) :
    (pen.faults (steps.filter fun step => !isNodeStep step)).filter
        (fun fault => fault = .depthLimit pen.target.name id) =
      (cuts id steps).map fun _ => .depthLimit pen.target.name id := by
  induction steps with
  | nil => rfl
  | cons step rest ih =>
    cases step with
    | cut other =>
      by_cases same : other = id
      · subst same
        simpa [faults, isNodeStep, cuts, draw, Report.fault] using ih
      · simpa [faults, isNodeStep, cuts, draw, Report.fault, same] using ih
    | rejoin source enclosing continuation =>
      cases way : enclosing.or continuation <;>
        simpa [faults, isNodeStep, cuts, draw, way] using ih
    | block _ _ | join _ | edge _ _ | branch _ _ _ | leaf _ =>
      simpa [faults, isNodeStep, cuts, draw] using ih
    | missing _ _ _ => simpa [faults, isNodeStep, cuts, draw, Report.fault] using ih

end Pen

section

variable (target : Target) (dictionary : Dictionary)

/-- The lines that declare a node in any of the scripts of a target. -/
def declarations (node : Node) (lines : List Statement) : List Statement :=
  lines.filter fun line => decide (∃ script ∈ target.entryPoints.zipIdx,
    line.declared? = some ((scriptPen target dictionary script.2).name node))

/-- The faults that are met in the labels of a target. -/
def labelFaults : List Diagnostic :=
  target.entryPoints.zipIdx.flatMap fun script =>
    (scriptPen target dictionary script.2).faults
      ((scriptSteps target script.1).filter isNodeStep)

/-- The faults that are met on the walks of a target. -/
def walkFaults : List Diagnostic :=
  target.entryPoints.zipIdx.flatMap fun script =>
    (scriptPen target dictionary script.2).faults
      ((scriptSteps target script.1).filter fun step => !isNodeStep step)

end

section

variable {target : Target} {dictionary : Dictionary}

/-- The faults of a target are those met in labels and those met on the walks. -/
theorem diagnostics_targetSection_perm :
    (targetSection dictionary target).diagnostics.Perm
      (labelFaults target dictionary ++ walkFaults target dictionary) := by
  cases blocks : target.blocks.isEmpty with
  | true => simp [targetSection, blocks, labelFaults, walkFaults, entryPoints_eq_nil_of_isEmpty]
  | false =>
    rw [diagnostics_targetSection dictionary blocks]
    simp only [diagnostics_scriptSection]
    apply (List.Perm.flatMap_left _ fun script _ => Pen.faults_perm _ _).trans
    exact (List.flatMap_append_perm _ _ _).symm

/-- A walk reports a block as too deep for each time that a script is cut there. -/
theorem filter_walkFaults (id : String) :
    (walkFaults target dictionary).filter (fun fault => fault = .depthLimit target.name id) =
      target.entryPoints.zipIdx.flatMap fun script =>
        (cuts id (scriptSteps target script.1)).map fun _ => .depthLimit target.name id := by
  rw [walkFaults, List.filter_flatMap]
  exact List.flatMap_congr fun script _ =>
    (scriptPen target dictionary script.2).filter_faults id (scriptSteps target script.1)

theorem count_walkFaults_eq_length (id : String) :
    (walkFaults target dictionary).count (.depthLimit target.name id) =
      (target.entryPoints.zipIdx.flatMap fun script =>
        cuts id (scriptSteps target script.1)).length := by
  rw [List.count_eq_length_filter]
  simp only [beq_eq_decide, filter_walkFaults]
  rw [← List.map_flatMap, List.length_map]

end

section

variable {target : Target} (linked : WellLinked target)
include linked

/-- What is asked of all scripts about a block that one of them reaches is asked of this one. -/
theorem flatMap_scripts_eq {γ : Type} {values : String × Nat → List γ} {script : String × Nat}
    (chosen : script ∈ target.entryPoints.zipIdx) {id : String} {count : Nat}
    {join : Option Node} (reached : Reached target script.1 none id count join)
    (silent : ∀ script' ∈ target.entryPoints.zipIdx,
      (∀ count' join', ¬ Reached target script'.1 none id count' join') → values script' = []) :
    target.entryPoints.zipIdx.flatMap values = values script := by
  have named : (target.entryPoints.zipIdx.map Prod.fst).Nodup := by
    rw [List.zipIdx_map_fst]
    exact nodup_entryPoints target
  apply flatMap_eq_of_nodup_map named chosen
  intro script' chosen' apart
  apply silent script' chosen'
  intro count' join' reached'
  -- a block is reached from one entry only
  apply apart
  exact (reached'.unique linked (isRoot_of_mem_zipIdx chosen') (isRoot_of_mem_zipIdx chosen)
    reached).1

variable (distinct : CollisionFree target) {dictionary : Dictionary}
include distinct

/-- The node that a step of a script declares is told from all nodes of all scripts by its id. -/
theorem declared?_eq_of_name_eq {script script' : String × Nat}
    (chosen : script ∈ target.entryPoints.zipIdx) (chosen' : script' ∈ target.entryPoints.zipIdx)
    {step : Step} (walked : step ∈ scriptSteps target script.1) {node : Node}
    (present : target.hasBlock node.owner = true)
    (declares : step.declared?.map (scriptPen target dictionary script.2).name =
      some ((scriptPen target dictionary script'.2).name node)) :
    step.declared? = some node := by
  obtain ⟨other, is, same⟩ := Option.map_eq_some_iff.mp declares
  have root := isRoot_of_mem_zipIdx chosen
  obtain ⟨count, join, -, reached, -⟩ := exists_reached_of_mem_scriptSteps linked root walked
  rw [Step.owner_of_declared? is] at reached
  obtain ⟨-, rfl⟩ := name_inj distinct chosen chosen' (reached.hasBlock root.hasBlock) present same
  exact is

/-- The lines of a section that declare a node are drawn by the steps that declare it. -/
theorem declarations_targetSection {node : Node} (present : target.hasBlock node.owner = true) :
    declarations target dictionary node (targetSection dictionary target).value =
      target.entryPoints.zipIdx.flatMap fun script =>
        (scriptPen target dictionary script.2).drawn
          (declaring node (scriptSteps target script.1)) := by
  apply filter_targetSection
  · apply decide_eq_false
    rintro ⟨script, -, declares⟩
    exact name_ne_targetId dictionary script.2 node target.name (Option.some.inj declares).symm
  · intro script _
    apply decide_eq_false
    rintro ⟨script', -, declares⟩
    simp [Statement.declared?] at declares
  · intro script chosen step walked line inside
    rw [Pen.declared?_of_mem_draw _ inside, decide_eq_decide]
    constructor
    · rintro ⟨script', chosen', declares⟩
      exact declared?_eq_of_name_eq linked distinct chosen chosen' walked present declares
    · intro declares
      exact ⟨script, chosen, congrArg _ declares⟩

/-- A script declares just the blocks that it reaches. -/
theorem exists_declared_iff {script : String × Nat}
    (chosen : script ∈ target.entryPoints.zipIdx) {id : String}
    (present : target.hasBlock id = true) :
    (∃ line ∈ (scriptSection target dictionary target.entryPoints.length script).value,
        line.declared? = some ((scriptPen target dictionary script.2).name (.ofBlock id))) ↔
      ∃ count join, count ≤ linkLimit ∧ Reached target script.1 none id count join := by
  have root := isRoot_of_mem_zipIdx chosen
  rw [value_scriptSection]
  constructor
  · rintro ⟨line, inside, declares⟩
    obtain rfl | inside := List.mem_cons.mp inside
    · simp [Statement.declared?] at declares
    · obtain ⟨step, walked, inside⟩ := List.mem_flatMap.mp inside
      rw [Pen.declared?_of_mem_draw _ inside] at declares
      have is := declared?_eq_of_name_eq linked distinct chosen chosen walked present declares
      obtain ⟨count, join, within, reached, -⟩ :=
        exists_reached_of_mem_scriptSteps linked root walked
      rw [Step.owner_of_declared? is] at reached
      exact ⟨count, join, within, reached⟩
  · rintro ⟨count, join, within, reached⟩
    obtain ⟨block, found⟩ := exists_block_of_hasBlock present
    have drawn := declaring_scriptSteps linked root reached within
    -- the script has the step that draws the block's node
    have walked : .block id (linkLimit - count) ∈ scriptSteps target script.1 :=
      (List.mem_filter.mp (drawn ▸ List.mem_singleton_self _)).1
    have line := Pen.value_draw_block (scriptPen target dictionary script.2) found
      (linkLimit - count)
    have inside : _ ∈ (scriptPen target dictionary script.2).drawn (scriptSteps target script.1) :=
      List.mem_flatMap.mpr ⟨_, walked, line ▸ List.mem_singleton_self _⟩
    exact ⟨_, List.mem_cons_of_mem _ inside, rfl⟩

variable {script : String × Nat} (chosen : script ∈ target.entryPoints.zipIdx) {id : String}

section Reached

variable {count : Nat} {join : Option Node} (reached : Reached target script.1 none id count join)
  (within : count ≤ linkLimit)
include chosen reached within

/-- One line declares a block that a script reaches. -/
theorem declarations_block {block : Block} (found : target.block? id = some block) :
    declarations target dictionary (.ofBlock id) (targetSection dictionary target).value =
      [.node ((scriptPen target dictionary script.2).name (.ofBlock id)) (.ofOpcode block.opcode)
        ((Resolver.mk target dictionary).nodeLabel block).value] := by
  rw [declarations_targetSection linked distinct (hasBlock_of_block? found),
    flatMap_scripts_eq linked chosen reached,
    declaring_scriptSteps linked (isRoot_of_mem_zipIdx chosen) reached within]
  · rw [Pen.drawn, List.flatMap_singleton]
    exact Pen.value_draw_block (scriptPen target dictionary script.2) found _
  · intro script' chosen' apart
    have silent := declaring_scriptSteps_eq_nil linked (isRoot_of_mem_zipIdx chosen')
      (fun count' join' reached' => absurd reached' (apart count' join')) .block
    exact congrArg (scriptPen target dictionary script'.2).drawn silent

/-- A block that a script reaches has a sentinel just when it is at the limit. -/
theorem declarations_runaway :
    declarations target dictionary ⟨id, .runaway⟩ (targetSection dictionary target).value =
      if count = linkLimit then
        [.edgeToNode ((scriptPen target dictionary script.2).name (.ofBlock id))
          ((scriptPen target dictionary script.2).name ⟨id, .runaway⟩) .rect
          (dictionary.synthetic .runaway)]
      else [] := by
  have root := isRoot_of_mem_zipIdx chosen
  rw [declarations_targetSection linked distinct (reached.hasBlock root.hasBlock),
    flatMap_scripts_eq linked chosen reached,
    declaring_scriptSteps_runaway linked root reached within]
  · split <;> rfl
  · intro script' chosen' apart
    rw [declaring_scriptSteps_eq_nil linked (isRoot_of_mem_zipIdx chosen')
      fun count' join' reached' => absurd reached' (apart count' join')]
    rfl

omit distinct in
/-- A walk reports a block that a script reaches as too deep just when it is at the limit. -/
theorem count_walkFaults :
    (walkFaults target dictionary).count (.depthLimit target.name id) =
      if count = linkLimit then 1 else 0 := by
  rw [count_walkFaults_eq_length, flatMap_scripts_eq linked chosen reached,
    cuts_scriptSteps linked (isRoot_of_mem_zipIdx chosen) reached within]
  · split <;> rfl
  · intro script' chosen' apart
    exact cuts_scriptSteps_eq_nil linked (isRoot_of_mem_zipIdx chosen')
      fun count' join' reached' => absurd reached' (apart count' join')

end Reached

section Beyond

variable (beyond : ∀ script ∈ target.entryPoints.zipIdx, ∀ count join,
  Reached target script.1 none id count join → linkLimit < count)
include beyond

/-- No line declares a node of a block that no script reaches. -/
theorem declarations_eq_nil (present : target.hasBlock id = true) (role : Role) :
    declarations target dictionary ⟨id, role⟩ (targetSection dictionary target).value = [] := by
  rw [declarations_targetSection linked distinct present, List.flatMap_eq_nil_iff]
  intro script chosen
  rw [declaring_scriptSteps_eq_nil linked (isRoot_of_mem_zipIdx chosen) (beyond script chosen)]
  rfl

omit distinct in
/-- No walk reports a block as too deep that no script reaches. -/
theorem count_walkFaults_eq_zero :
    (walkFaults target dictionary).count (.depthLimit target.name id) = 0 := by
  rw [count_walkFaults_eq_length, List.length_eq_zero_iff, List.flatMap_eq_nil_iff]
  intro script chosen
  exact cuts_scriptSteps_eq_nil linked (isRoot_of_mem_zipIdx chosen) (beyond script chosen)

end Beyond

end

/-- What a well-linked target covers. A script declares just the blocks at most 501 links away from
its entry. Each of them is declared by one line over all scripts, which is a line of its own. It has
a sentinel and is reported by the walk as too deep just when it is 501 links away, and then once.
Other blocks are not declared, have no sentinel, and are not reported by the walk. -/
theorem coverage_targetSection {target : Target} (linked : WellLinked target)
    (distinct : CollisionFree target) (dictionary : Dictionary) :
    (∀ script ∈ target.entryPoints.zipIdx, ∀ id, target.hasBlock id = true →
      ((∃ line ∈ (scriptSection target dictionary target.entryPoints.length script).value,
          line.declared? = some ((scriptPen target dictionary script.2).name (.ofBlock id))) ↔
        ∃ count join, count ≤ 501 ∧ Reached target script.1 none id count join)) ∧
    (∀ script ∈ target.entryPoints.zipIdx, ∀ id count join block,
      Reached target script.1 none id count join → count ≤ 501 →
      target.block? id = some block →
        declarations target dictionary (.ofBlock id) (targetSection dictionary target).value =
          [.node ((scriptPen target dictionary script.2).name (.ofBlock id))
            (.ofOpcode block.opcode) ((Resolver.mk target dictionary).nodeLabel block).value] ∧
        declarations target dictionary ⟨id, .runaway⟩ (targetSection dictionary target).value =
          (if count = 501 then
            [.edgeToNode ((scriptPen target dictionary script.2).name (.ofBlock id))
              ((scriptPen target dictionary script.2).name ⟨id, .runaway⟩) .rect
              (dictionary.synthetic .runaway)]
          else []) ∧
        (walkFaults target dictionary).count (.depthLimit target.name id) =
          if count = 501 then 1 else 0) ∧
    (∀ id, (∀ script ∈ target.entryPoints.zipIdx, ∀ count join,
        Reached target script.1 none id count join → 501 < count) →
      (walkFaults target dictionary).count (.depthLimit target.name id) = 0 ∧
        (target.hasBlock id = true → ∀ role,
          declarations target dictionary ⟨id, role⟩ (targetSection dictionary target).value =
            [])) ∧
    (targetSection dictionary target).diagnostics.Perm
      (labelFaults target dictionary ++ walkFaults target dictionary) := by
  refine ⟨?_, ?_, ?_, diagnostics_targetSection_perm⟩
  · intro script chosen id present
    exact exists_declared_iff linked distinct chosen present
  · intro script chosen id count join block reached within found
    exact ⟨declarations_block linked distinct chosen reached within found,
      declarations_runaway linked distinct chosen reached within,
      count_walkFaults linked chosen reached within⟩
  · intro id beyond
    exact ⟨count_walkFaults_eq_zero linked beyond,
      declarations_eq_nil linked distinct beyond⟩

/-- The walk does not report the conditional of the sample, which is three links away from the
entry of its script, as too deep. -/
theorem count_walkFaults_sampleTarget_check :
    (walkFaults sampleTarget .english).count (.depthLimit "Cat" "check") = 0 := by
  have linked := wellLinked_sampleTarget
  have distinct := collisionFree_sampleTarget
  exact ((coverage_targetSection linked distinct .english).2.1 ("flag", 0) (by decide +kernel)
    "check" 3 _ _ reached_check_sampleTarget (by decide) rfl).2.2

end ScriptChart.Chart
