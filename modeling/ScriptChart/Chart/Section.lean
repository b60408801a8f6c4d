import ScriptChart.Chart.Naming
import ScriptChart.Diagram.Statement
import ScriptChart.Flow.Walk
import ScriptChart.Label.Statement

/-!
# The section of a target

The steps of a walk become statements of a diagram: nodes get their ids and labels, and faults are
reported. Every target with blocks has a section: its own node, and its scripts one after the
other. A section depends on nothing but its target and the dictionary.

## Main definitions

* `Pen`: what is needed to draw the steps of one script.
* `Pen.draw`: the statements of a step.
* `scriptSection`, `targetSection`: the statements of a script and of a target.
-/

namespace ScriptChart.Chart

open ScriptChart.Diagram ScriptChart.Flow ScriptChart.Label ScriptChart.Phrase
open ScriptChart.Project

/-- What is needed to draw the steps of one script. -/
structure Pen where
  target : Target
  dictionary : Dictionary
  stem : String

/-- The words on an edge for an answer. -/
def answerWords : Answer → Synthetic
  | .yes => .yes
  | .no => .no
  | .holds => .holds
  | .fails => .fails

/-- The words on a node in which a construct ends. -/
def joinWords : Role → Synthetic
  | .again => .again
  | .conditionEnd => .conditionEnd
  | _ => .loopEnd

namespace Pen

variable (pen : Pen)

/-- The id of a node. -/
def name (node : Node) : String := nodeId pen.stem node

/-- Words that the diagram adds. -/
def words (synthetic : Synthetic) : String := pen.dictionary.synthetic synthetic

/-- The node of a block with its label. -/
def block (id : String) : Report (List Statement) :=
  match pen.target.block? id with
  | some block => do
    let label ← (Resolver.mk pen.target pen.dictionary).nodeLabel block
    return [.node (pen.name (.ofBlock id)) (.ofOpcode block.opcode) label]
  | none => return []

/-- The edge to the leaf after a node. -/
def leaf (source : Node) : Statement :=
  .edgeToNode (pen.name source) (pen.name source.leaf) .stadium (pen.words .finish)

/-- The statements of a step, and the faults that it reports. -/
def draw : Step → Report (List Statement)
  | .block id _ => pen.block id
  | .join node =>
    return [.node (pen.name node) .stadium (pen.words (joinWords node.role))]
  | .edge source destination => return [.edge (pen.name source) (pen.name destination)]
  | .branch source destination answer =>
    return [.labelledEdge (pen.name source) (pen.name destination)
      (pen.words (answerWords answer))]
  | .leaf source => return [pen.leaf source]
  | .rejoin source enclosing continuation =>
    match enclosing.or continuation with
    | some onward => return [.edge (pen.name source) (pen.name onward)]
    | none => return [pen.leaf source]
  | .cut id => do
    Report.fault (.depthLimit pen.target.name id)
    return [.edgeToNode (pen.name (.ofBlock id)) (pen.name ⟨id, .runaway⟩) .rect
      (pen.words .runaway)]
  -- a dangling link draws nothing
  | .missing _ _ id => do
    Report.fault (.missingBlock pen.target.name id)
    return []

/-- The statements of several steps. -/
def drawAll (steps : List Step) : Report (List Statement) :=
  List.flatten <$> steps.mapM pen.draw

end Pen

/-- The statements of the script that begins with a block: the edge from the target's node, and
what is met on the walk. -/
def scriptSection (target : Target) (dictionary : Dictionary) (scripts : Nat)
    (script : String × Nat) : Report (List Statement) := do
  let pen : Pen := ⟨target, dictionary, scriptStem target.name scripts script.2⟩
  let statements ← pen.drawAll (scriptSteps target script.1)
  return .edge (targetId target.name) (pen.name (.ofBlock script.1)) :: statements

/-- The statements of a target: its node, and its scripts in order. A target without blocks is
left out. -/
def targetSection (dictionary : Dictionary) (target : Target) : Report (List Statement) :=
  if target.blocks.isEmpty then return []
  else do
    let entries := target.entryPoints
    let scripts ← entries.zipIdx.mapM (scriptSection target dictionary entries.length)
    return .edgeToNode rootId (targetId target.name) .rect target.name :: scripts.flatten

end ScriptChart.Chart
