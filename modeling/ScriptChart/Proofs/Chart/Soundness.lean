import ScriptChart.Proofs.Chart.Composition
import ScriptChart.Proofs.Flow.Call
import ScriptChart.Proofs.Label.Soundness

/-!
# Faults that charts report

Every fault of a chart was found in one of the program's targets, whose name it bears, and it is
true of this target. Faults are reported by labels and by two kinds of steps: a step that notices a
dangling link, which names a block that is not there, and a step that cuts a walk, which it does at
a block that it has just drawn.

## Main results

* `only_draw`: what the steps of a script report holds of the target.
* `soundness_ofProgram`: what a chart reports holds of one of the targets.
-/

namespace ScriptChart.Chart

open ScriptChart.Flow ScriptChart.Label ScriptChart.Phrase ScriptChart.Project

/-- What a step of a script reports holds of the target. -/
theorem only_draw (pen : Pen) {entry : String} {step : Step}
    (inside : step ∈ scriptSteps pen.target entry) :
    (pen.draw step).Only (Diagnostic.HoldsOf pen.target) := by
  cases step with
  | block id links =>
    rw [Pen.draw, Pen.block]
    split
    · exact .bind ((Resolver.mk pen.target pen.dictionary).only_nodeLabel _) fun _ => .pure _
    · exact .pure []
  | cut id =>
    have present : pen.target.hasBlock id = true := Call.hasBlock_owner inside
    exact .bind (.fault (Diagnostic.holdsOf_depthLimit present)) fun _ => .pure _
  | missing owner link id =>
    obtain ⟨block, -, dangles⟩ := Call.exists_dangling_of_missing inside
    have absent := hasBlock_of_dangling? dangles
    exact .bind (.fault (Diagnostic.holdsOf_missingBlock absent)) fun _ => .pure []
  | rejoin source enclosing continuation =>
    rw [Pen.draw]
    split
    · exact .pure _
    · exact .pure _
  | join node | edge source destination | branch source destination answer | leaf source =>
    exact .pure _

/-- What a script reports holds of its target. -/
theorem holdsOf_scriptFaults (dictionary : Dictionary) (target : Target) (index : Nat)
    (entry : String) :
    ∀ fault ∈ scriptFaults dictionary target index entry, fault.HoldsOf target := by
  intro fault reported
  rw [scriptFaults, diagnostics_scriptSection, Pen.faults, List.mem_flatMap] at reported
  obtain ⟨step, inside, reported⟩ := reported
  exact only_draw (scriptPen target dictionary index) inside fault reported

/-- What a target reports holds of it. -/
theorem holdsOf_targetFaults (dictionary : Dictionary) (target : Target) :
    ∀ fault ∈ targetFaults dictionary target, fault.HoldsOf target := by
  intro fault reported
  rw [targetFaults_eq, List.mem_flatMap] at reported
  obtain ⟨script, -, reported⟩ := reported
  exact holdsOf_scriptFaults dictionary target script.2 script.1 fault reported

/-- Every fault that a chart reports bears the name of one of the targets and holds of it: a block
or a message that is called missing is not there, and a walk or a value was cut at a block that is
there. -/
theorem soundness_ofProgram (program : Program) (options : Options) :
    ∀ fault ∈ (ofProgram program options).diagnostics,
      ∃ target ∈ program.targets, fault.target = target.name ∧ fault.HoldsOf target := by
  intro fault reported
  rw [diagnostics_ofProgram_eq, List.mem_flatMap] at reported
  obtain ⟨target, inside, reported⟩ := reported
  have holds := holdsOf_targetFaults options.dictionary target fault reported
  exact ⟨target, inside, holds.target_eq, holds⟩

/-- A script that says a text which contains itself, sends a message without a name, and goes on to
a block that is missing. -/
def faultyTarget : Target where
  name := "Cat"
  blocks := .ofList [
    ("say", { opcode := "looks_say", next := some "send", topLevel := true,
              inputs := .ofList [("MESSAGE", .block "join")] }),
    ("join", { opcode := "operator_join", parent := some "say",
               inputs := .ofList [("STRING1", .block "join")] }),
    ("send", { opcode := "event_broadcast", parent := some "say", next := some "gone",
               inputs := .ofList [("BROADCAST_INPUT", .broadcast "go" (some "message"))] })]

/-- The faults of the sample, each of which holds of it. -/
theorem sound_faultyTarget :
    (ofProgram ⟨[faultyTarget]⟩ ⟨"Demo", .topDown, .ofList []⟩).diagnostics =
        [.circularReference "Cat" "join", .missingBroadcast "Cat" "message" "go",
          .missingBlock "Cat" "gone"] ∧
      ∀ fault ∈ (ofProgram ⟨[faultyTarget]⟩ ⟨"Demo", .topDown, .ofList []⟩).diagnostics,
        fault.HoldsOf faultyTarget := by
  refine ⟨rfl, fun fault reported => ?_⟩
  obtain ⟨target, inside, -, holds⟩ := soundness_ofProgram _ _ fault reported
  rwa [List.mem_singleton.mp inside] at holds

end ScriptChart.Chart
