import ScriptChart.Chart.Section

/-!
# Charts

The chart of a program is a diagram: the root with the name of the project, and the sections of
the targets in order. Beside it stand the faults that were met.

## Main definitions

* `Options`: the name of the project, the direction, and the dictionary.
* `Chart`, `Chart.ofProgram`: the chart of a program.
* `Chart.text`: the chart as text.
-/

namespace ScriptChart

open ScriptChart.Diagram ScriptChart.Label ScriptChart.Phrase ScriptChart.Project

/-- The diagram of a program and the faults that were met. -/
structure Chart where
  direction : Direction
  statements : List Statement
  diagnostics : List Diagnostic

namespace Chart

/-- How a program is drawn. -/
structure Options where
  rootName : String
  direction : Direction
  dictionary : Dictionary

/-- The label of the root. A project without a name is called untitled. -/
def Options.rootLabel (options : Options) : String :=
  if Text.isAllBlank options.rootName then options.dictionary.synthetic .untitledProject
  else options.rootName

/-- The chart of a program. -/
def ofProgram (program : Program) (options : Options) : Chart :=
  let sections := program.targets.mapM (targetSection options.dictionary)
  { direction := options.direction
    statements := .node rootId .rect options.rootLabel :: sections.value.flatten
    diagnostics := sections.diagnostics }

/-- The chart as text. -/
def text (chart : Chart) : String := render chart.direction chart.statements

end Chart

end ScriptChart
