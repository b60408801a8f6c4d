/-!
# Stages of a run

A run goes through a few stages, and says so as it enters each of them: a line with the number of
the stage, the number of all stages, and a bar that grows to its full width.

## Main definitions

* `Stage`, `Stage.line`: the stages and the line that announces one.
* `bar`: a bar of a given width.
-/

namespace ScriptChart.CommandLine

/-- The stages of a run. The last one is left out if the diagram is only shown. -/
inductive Stage where
  | input
  | project
  | chart
  | output
deriving DecidableEq, Repr

namespace Stage

/-- The number of a stage. -/
def number : Stage → Nat
  | .input => 1
  | .project => 2
  | .chart => 3
  | .output => 4

/-- What is done in a stage. -/
def label : Stage → String
  | .input => "Resolving input path"
  | .project => "Reading project"
  | .chart => "Building flowchart"
  | .output => "Writing diagram"

end Stage

/-- How many cells of a bar a step fills: the part of the width that the step is of the total,
rounded to the nearest, a half up. -/
def filled (step total width : Nat) : Nat := (step * width + total / 2) / total

/-- A bar, filled from the left. -/
def bar (step total width : Nat) : String :=
  let cells := filled step total width
  "[" ++ String.ofList (List.replicate (min cells width) '='
    ++ List.replicate (width - cells) '-') ++ "]"

/-- The width of the bar of a run. -/
def barWidth : Nat := 14

/-- The line that announces a stage. -/
def Stage.line (stage : Stage) (total : Nat) : String :=
  "[Flowchart] " ++ stage.label ++ "... (" ++ toString stage.number ++ "/" ++ toString total
    ++ ") " ++ bar stage.number total barWidth

end ScriptChart.CommandLine
