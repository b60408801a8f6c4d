import ScriptChart.Proofs.Chart.Lines
import ScriptChart.Proofs.Flow.Visited

/-!
# What is visited is written

The lines of a script are written step by step. So the lines that are written by a moment of the
walk are the first lines of the script, and what is visited or recorded at this moment can be looked
up in them: each block that was visited has its line, if it is not the block that the current call
writes next, and each end of a construct that was recorded has its line, as its block has.

## Main definitions

* `linesBy`: the lines of a script that some of its steps write.
* `IsWritten`: a node is declared by steps and in the lines that they write.

## Main results

* `written_of_moment`: what is known at a moment is written.
-/

namespace ScriptChart.Chart

open ScriptChart.Diagram ScriptChart.Flow ScriptChart.Phrase ScriptChart.Project

/-- The lines of a script that some of its steps write: the edge that leads to it, and the drawings
of the steps. -/
def linesBy (target : Target) (dictionary : Dictionary) (script : String × Nat)
    (steps : List Step) : List Statement :=
  let pen := scriptPen target dictionary script.2
  .edge (targetId target.name) (pen.name (.ofBlock script.1)) :: pen.drawn steps

/-- A node is declared by some steps of a script, and in the lines that they write. -/
structure IsWritten (target : Target) (dictionary : Dictionary) (script : String × Nat)
    (steps : List Step) (node : Node) : Prop where
  declared : IsDeclared steps node
  hasNode : HasNode (linesBy target dictionary script steps)
    ((scriptPen target dictionary script.2).name node)

section

variable {target : Target} {script : String × Nat} {steps : List Step}
  (begun : steps <+: scriptSteps target script.1) (dictionary : Dictionary)
include begun

/-- The first steps of a script write its first lines. -/
theorem linesBy_isPrefix : linesBy target dictionary script steps <+:
    (scriptSection target dictionary target.entryPoints.length script).value := by
  obtain ⟨later, whole⟩ := begun
  refine ⟨(scriptPen target dictionary script.2).drawn later, ?_⟩
  simp [value_scriptSection, linesBy, Pen.drawn, ← whole]

theorem isWritten_of_isDeclared {node : Node} (declared : IsDeclared steps node) :
    IsWritten target dictionary script steps node := by
  refine ⟨declared, ?_⟩
  obtain ⟨step, inside, declares⟩ := declared
  obtain ⟨line, drawn⟩ := exists_mem_draw dictionary script.2 (begun.subset inside)
    (.inl (by simp [declares]))
  refine ⟨line, List.mem_cons_of_mem _ (List.mem_flatMap.mpr ⟨step, inside, drawn⟩), ?_⟩
  rw [Pen.declared?_of_mem_draw _ drawn, declares]
  rfl

end

/-- What is visited is written, whatever the links of a target are. The moments of the walk of a
script take in every call that it makes, with what is known when it is made. And at every moment the
lines that are written are the first lines of the script, and in them are declared:

* each block that was visited, if it is not the block of the current call that is written next;
* each block that was visited when a branch was forked;
* each block for which the end of a construct is recorded, which is the node that belongs to the
  kind of the block, and this node. -/
theorem written_of_moment (target : Target) (script : String × Nat) (dictionary : Dictionary) :
    (∀ call, Call.Made target (.ofEntry script.1) call →
      ∃ (machine : Machine) (left : List Action) (depth : Nat) (rest : List Task),
        Moment target script.1 machine left ⟨machine.steps, call.progress⟩ ∧
          machine.tasks = .call depth call.id call.continuation :: rest) ∧
    ∀ machine left now, Moment target script.1 machine left now →
      linesBy target dictionary script now.steps <+:
          (scriptSection target dictionary target.entryPoints.length script).value ∧
        (∀ id ∈ now.progress.visited,
          IsWritten target dictionary script now.steps (.ofBlock id) ∨
            (∃ links later, left = .draw (.block id links) :: later) ∧
              ∃ depth continuation rest, machine.tasks = .call depth id continuation :: rest) ∧
        (∀ visited, .restore visited ∈ machine.tasks → ∀ id ∈ visited,
          IsWritten target dictionary script now.steps (.ofBlock id)) ∧
        ∀ record ∈ now.progress.ends,
          (∃ block kind, target.block? record.1 = some block ∧ block.control? = some kind ∧
              record.2 = ⟨record.1, joinRole kind⟩) ∧
            IsWritten target dictionary script now.steps (.ofBlock record.1) ∧
              IsWritten target dictionary script now.steps record.2 := by
  refine ⟨fun call made => ?_, fun machine left now moment => ?_⟩
  · obtain ⟨machine, depth, rest, occurs, -, tasks, known⟩ := Machine.exists_occurs_of_made made
    exact ⟨machine, machine.actions target, depth, rest, known ▸ .begin occurs, tasks⟩
  · have begun := moment.steps_isPrefix
    have backed := moment.backed
    have written : ∀ {node}, IsDeclared now.steps node →
        IsWritten target dictionary script now.steps node :=
      isWritten_of_isDeclared begun dictionary
    refine ⟨linesBy_isPrefix begun dictionary, fun id inside => ?_,
      fun visited inside id member => ?_, fun record recorded => ?_⟩
    · exact (backed.visited id inside).imp written fun next => ⟨next, moment.exists_call next⟩
    · have declared : Task.Backed target now.steps (.restore visited) :=
        moment.backed_of_mem_tasks inside
      exact written (declared id member)
    · obtain ⟨right, block, finish⟩ := backed.ends record recorded
      exact ⟨right, written block, written finish⟩

/-- At one moment the entry of a script is called. At another one the first block within an endless
loop is marked and not drawn yet: the loop is drawn, from which its body was forked, and the end of
the loop is recorded. -/
theorem written_sampleTarget_step :
    (∃ (machine : Machine) (left : List Action) (depth : Nat) (rest : List Task),
      Moment sampleTarget "flag" machine left ⟨machine.steps, .start⟩ ∧
        machine.tasks = .call depth "flag" none :: rest) ∧
    ∃ (machine : Machine) (now : Outcome),
      Moment sampleTarget "flag" machine [.draw (.block "step" 499)] now ∧
        now.progress.visited = ["step", "loop", "flag"] ∧
          ¬ IsDeclared now.steps (.ofBlock "step") ∧
            .restore ["loop", "flag"] ∈ machine.tasks ∧
              IsWritten sampleTarget .english ("flag", 0) now.steps (.ofBlock "loop") ∧
                now.progress.ends = [("loop", ⟨"loop", .again⟩)] ∧
                  IsWritten sampleTarget .english ("flag", 0) now.steps ⟨"loop", .again⟩ := by
  obtain ⟨calls, written⟩ := written_of_moment sampleTarget ("flag", 0) .english
  let machine := Machine.run sampleTarget "flag" 7
  let now := Outcome.perform ⟨machine.steps, machine.progress⟩ (.visit "step")
  have occurs : machine.Occurs sampleTarget "flag" := ⟨7, rfl⟩
  have actions : machine.actions sampleTarget = [.visit "step", .draw (.block "step" 499)] := by
    decide
  have moment : Moment sampleTarget "flag" machine [.draw (.block "step" 499)] now :=
    .act (actions ▸ .begin occurs)
  have forked : .restore ["loop", "flag"] ∈ machine.tasks :=
    List.mem_cons_of_mem _ List.mem_cons_self
  obtain ⟨-, -, outside, ends⟩ := written machine _ now moment
  exact ⟨calls (.ofEntry "flag") .refl, machine, now, moment, by decide, by decide, forked,
    outside _ forked "loop" (by decide), by decide,
    (ends ("loop", ⟨"loop", .again⟩) (by decide)).2.2⟩

end ScriptChart.Chart
