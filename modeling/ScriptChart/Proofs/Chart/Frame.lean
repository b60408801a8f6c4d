import ScriptChart.Chart.Basic
import ScriptChart.Proofs.Chart.Drawing
import ScriptChart.Proofs.Flow.Frame
import ScriptChart.Proofs.Label.Frame

/-!
# What a chart does not show

A chart shows the blocks that its scripts come upon, and it comes upon a block because something
mentions it. The only order of blocks that it shows is that of the blocks that scripts begin with.
So a chart stays the same when the other blocks change their places, and when a block is added to a
target that has blocks already, if no script begins with this block and nothing mentions it.

## Main results

* `targetSection_congr`: targets that agree from the beginnings of their scripts on have the same
  section.
* `frame_ofProgram`: moving blocks and adding a block that is not mentioned changes no chart.
-/

namespace ScriptChart.Chart

open ScriptChart.Diagram ScriptChart.Flow ScriptChart.Label ScriptChart.Phrase
open ScriptChart.Project

/-- A node is drawn alike in targets that look alike, for blocks that cannot be told apart and show
their inputs in the same order. -/
theorem penBlock_congr {known : String → Prop} {target other : Target}
    (alike : ShownAlikeOn known target other) (dictionary : Dictionary) (stem : String)
    {id : String} {block block' : Block} (present : target.block? id = some block)
    (present' : other.block? id = some block') (same : ShownAlike block block')
    (inside : InputsWithin known block) (keys : statementKeys block' = statementKeys block) :
    (Pen.mk other dictionary stem).block id = (Pen.mk target dictionary stem).block id := by
  have label := Resolver.nodeLabel_congr alike dictionary same inside keys
  simp only [Pen.block, present, present', label, same.opcode]
  rfl

section

variable {known : String → Prop} {target other : Target} (agree : target.AgreesOn known other)
include agree

/-- A step of a script is drawn alike in agreeing targets. -/
theorem draw_congr (dictionary : Dictionary) (stem : String) {step : Step}
    (inside : known step.owner) :
    (Pen.mk other dictionary stem).draw step = (Pen.mk target dictionary stem).draw step := by
  cases step with
  | block id links =>
    have here : known id := inside
    cases present : target.block? id with
    | none =>
      simp only [Pen.draw, Pen.block, agree.block? here, present]
    | some block =>
      have alike := shownAlikeOn_of_agreesOn agree
      exact penBlock_congr alike dictionary stem present ((agree.block? here).trans present)
        (.refl block) (alike.closed here present) rfl
  | cut id => simp only [Pen.draw, agree.name]; rfl
  | missing owner link id => simp only [Pen.draw, agree.name]
  | join node | edge source destination | branch source destination answer | leaf source
  | rejoin source enclosing continuation => rfl

/-- A script that begins with a known block is drawn alike in agreeing targets. -/
theorem scriptSection_congr (dictionary : Dictionary) (scripts : Nat) {script : String × Nat}
    (inside : known script.1) :
    scriptSection other dictionary scripts script =
      scriptSection target dictionary scripts script := by
  have drawings : ∀ step ∈ scriptSteps target script.1,
      (Pen.mk other dictionary (scriptStem target.name scripts script.2)).draw step =
        (Pen.mk target dictionary (scriptStem target.name scripts script.2)).draw step :=
    fun step walked => draw_congr agree dictionary _ (known_of_mem_scriptSteps agree inside walked)
  simp only [scriptSection, Pen.drawAll, agree.name, scriptSteps_congr agree inside,
    mapM_congr drawings]
  rfl

/-- Targets with blocks that agree from the beginnings of their scripts on have the same section. -/
theorem targetSection_congr (dictionary : Dictionary) (filled : target.blocks.isEmpty = false)
    (filled' : other.blocks.isEmpty = false) (entries : other.entryPoints = target.entryPoints)
    (inside : ∀ entry ∈ target.entryPoints, known entry) :
    targetSection dictionary other = targetSection dictionary target := by
  have scripts : ∀ script ∈ target.entryPoints.zipIdx,
      scriptSection other dictionary target.entryPoints.length script =
        scriptSection target dictionary target.entryPoints.length script :=
    fun script chosen => scriptSection_congr agree dictionary _
      (inside script.1 (mem_entryPoints_of_mem_zipIdx chosen))
  simp only [targetSection, filled, filled', entries, agree.name, mapM_congr scripts]

end

/-- A target may be replaced by another one with the same section. -/
theorem ofProgram_congr {target other : Target} {options : Options}
    (same : targetSection options.dictionary other = targetSection options.dictionary target)
    (before after : List Target) :
    ofProgram ⟨before ++ other :: after⟩ options =
      ofProgram ⟨before ++ target :: after⟩ options := by
  simp only [ofProgram, List.mapM_append, List.mapM_cons, same]

/-- A chart stays the same when the blocks of a target with blocks change their places and those
that scripts begin with stay in their order, and when a block is added to such a target, at any
place, with which no script begins and which no other block of the target mentions. -/
theorem frame_ofProgram (before after : List Target) (target : Target) (options : Options)
    (filled : target.blocks.isEmpty = false) (blocks : OrderedMap Block) :
    (blocks.entries.Perm target.blocks.entries →
      ({ target with blocks := blocks } : Target).entryPoints = target.entryPoints →
        ofProgram ⟨before ++ { target with blocks := blocks } :: after⟩ options =
          ofProgram ⟨before ++ target :: after⟩ options) ∧
    ∀ (front back : List (String × Block)) (id : String) (block : Block),
      target.blocks.entries = front ++ back → blocks.entries = front ++ (id, block) :: back →
        id ∉ ({ target with blocks := blocks } : Target).entryPoints →
          (∀ entry ∈ target.blocks.entries, ¬ entry.2.Mentions id) →
            ofProgram ⟨before ++ { target with blocks := blocks } :: after⟩ options =
              ofProgram ⟨before ++ target :: after⟩ options := by
  constructor
  · intro moved entries
    have filled' : blocks.isEmpty = false := by
      rw [← filled, OrderedMap.isEmpty, OrderedMap.isEmpty, moved.isEmpty_eq]
    exact ofProgram_congr (targetSection_congr (target.agreesOn_of_perm moved) options.dictionary
      filled filled' entries fun _ _ => trivial) before after
  · intro front back id block parted added idle unmentioned
    have filled' : blocks.isEmpty = false := by simp [OrderedMap.isEmpty, added]
    have fresh : id ∉ target.blocks.names := by
      have distinct := blocks.distinct
      rw [added, List.map_append, List.map_cons, List.nodup_middle, List.nodup_cons,
        ← List.map_append, ← parted] at distinct
      exact distinct.1
    have inside : ∀ entry ∈ target.entryPoints, entry ≠ id := by
      rintro entry chosen rfl
      have there := (isRoot_of_mem_entryPoints chosen).hasBlock
      exact fresh ((OrderedMap.contains_iff_mem_names _ _).mp there)
    exact ofProgram_congr (targetSection_congr
      (target.agreesOn_of_unmentioned parted added unmentioned) options.dictionary filled filled'
      (target.entryPoints_eq_of_not_mem parted added idle) inside) before after

/-- The blocks of the sample, those that scripts begin with last. -/
def movedBlocks : OrderedMap Block where
  entries :=
    (sampleTarget.blocks.entries.filter fun entry => !entry.2.topLevel) ++
      sampleTarget.blocks.entries.filter fun entry => entry.2.topLevel
  distinct := by decide

/-- The blocks of the sample, and one that goes on to them and to itself. -/
def addedBlocks : OrderedMap Block :=
  sampleTarget.blocks.insert "idle"
    { opcode := "control_if", next := some "loop", parent := some "step",
      inputs := .ofList [(substack, .block "idle")] }

/-- The sample has the same chart with its blocks moved and with the block added. -/
theorem ofProgram_movedBlocks_addedBlocks :
    ofProgram ⟨[{ sampleTarget with blocks := movedBlocks }]⟩ ⟨"Demo", .topDown, .english⟩ =
        ofProgram ⟨[sampleTarget]⟩ ⟨"Demo", .topDown, .english⟩ ∧
      ofProgram ⟨[{ sampleTarget with blocks := addedBlocks }]⟩ ⟨"Demo", .topDown, .english⟩ =
        ofProgram ⟨[sampleTarget]⟩ ⟨"Demo", .topDown, .english⟩ := by
  constructor
  · refine (frame_ofProgram [] [] sampleTarget _ (by decide) movedBlocks).1 ?_ (by decide)
    refine List.perm_append_comm.trans ?_
    exact List.filter_append_perm (fun entry => entry.2.topLevel) sampleTarget.blocks.entries
  · exact (frame_ofProgram [] [] sampleTarget _ (by decide) addedBlocks).2
      sampleTarget.blocks.entries [] "idle" _ (List.append_nil _).symm rfl (by decide) (by decide)

end ScriptChart.Chart
