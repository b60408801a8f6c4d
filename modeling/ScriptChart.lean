import ScriptChart.Archive.Zip
import ScriptChart.Chart.File
import ScriptChart.CommandLine.Run
import ScriptChart.Digest.SafeId
import ScriptChart.Main
import ScriptChart.Phrase.File
import ScriptChart.Project.File
import ScriptChart.Proofs.Flow.Links
import ScriptChart.Proofs.Flow.Plan
import ScriptChart.Proofs.Flow.Progress
import ScriptChart.Proofs.Flow.Enclosing
import ScriptChart.Proofs.Flow.Tour
import ScriptChart.Proofs.Flow.Exits
import ScriptChart.Proofs.Chart.Naming
import ScriptChart.Proofs.Chart.Drawing
import ScriptChart.Proofs.Chart.Edges
import ScriptChart.Proofs.Flow.Body
import ScriptChart.Proofs.Chart.Body
import ScriptChart.Proofs.Chart.Coverage
import ScriptChart.Proofs.Diagram.Label
import ScriptChart.Proofs.Diagram.Reading
import ScriptChart.Proofs.Chart.Ids
import ScriptChart.Proofs.Flow.Call
import ScriptChart.Proofs.Flow.Arrival
import ScriptChart.Proofs.Flow.Declared
import ScriptChart.Proofs.Chart.Lines
import ScriptChart.Proofs.Chart.Declared
import ScriptChart.Proofs.Flow.Outgoing
import ScriptChart.Proofs.Chart.Outgoing
import ScriptChart.Proofs.Flow.Repetition
import ScriptChart.Proofs.Chart.Repetition
import ScriptChart.Proofs.Label.Translation
import ScriptChart.Proofs.Chart.Translation
import ScriptChart.Proofs.Digest.Memo
import ScriptChart.Proofs.Chart.Drafting
import ScriptChart.Proofs.Chart.Composition
import ScriptChart.Proofs.Chart.Description
import ScriptChart.Proofs.Chart.Separation
import ScriptChart.Proofs.Label.Soundness
import ScriptChart.Proofs.Chart.Soundness
import ScriptChart.Proofs.Chart.Frame
import ScriptChart.Proofs.Chart.Termination
import ScriptChart.Proofs.CommandLine.Run
import ScriptChart.Proofs.Label.Operands
import ScriptChart.Proofs.Flow.Agreement
import ScriptChart.Proofs.Label.Slots
import ScriptChart.Proofs.Label.Visits
import ScriptChart.Proofs.Label.Trail
import ScriptChart.Proofs.Label.Circular
import ScriptChart.Proofs.Label.Plain
import ScriptChart.Proofs.Phrase.Substitution
import ScriptChart.Proofs.Phrase.Wording
import ScriptChart.Proofs.Label.Procedure
import ScriptChart.Proofs.Project.Replace
import ScriptChart.Proofs.Label.Order
import ScriptChart.Proofs.Flow.Dangling
import ScriptChart.Proofs.Flow.Unlink
import ScriptChart.Proofs.Chart.Dangling
import ScriptChart.Proofs.OrderedMap
import ScriptChart.Proofs.Project.Slot
import ScriptChart.Proofs.Label.Message
import ScriptChart.Proofs.Json.Tree
import ScriptChart.Proofs.Project.File
import ScriptChart.Proofs.Project.Decode
import ScriptChart.Proofs.Chart.Upwards
import ScriptChart.Proofs.Chart.Visited
