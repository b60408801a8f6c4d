import ScriptChart.Digest.SafeId
import ScriptChart.Flow.Node

/-!
# The ids of nodes

A node's id begins with the safe id of its target, goes on with the number of its script when the
target has several, and ends with the safe id of its block and a suffix for its role. So nodes of
different targets, scripts, blocks or roles have different ids.

## Main definitions

* `rootId`, `targetId`, `scriptStem`, `nodeId`: the ids of the root, of a target, and of a node.
-/

namespace ScriptChart.Chart

open ScriptChart.Flow

/-- The id of the root of a diagram. -/
def rootId : String := "Start"

/-- The id of the node of a target. -/
def targetId (name : String) : String := "T" ++ Digest.safeId name

/-- What the ids of a script's nodes begin with: the target's id, with the number of the script
when there are several. -/
def scriptStem (targetName : String) (scripts index : Nat) : String :=
  if 1 < scripts then targetId targetName ++ "_" ++ toString index else targetId targetName

/-- The id of a node of a script. -/
def nodeId (stem : String) (node : Node) : String :=
  stem ++ "_" ++ Digest.safeId node.owner ++ node.role.suffix

end ScriptChart.Chart
