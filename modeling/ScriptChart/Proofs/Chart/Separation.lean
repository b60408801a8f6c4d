import ScriptChart.Proofs.Chart.Description

/-!
# Targets that share no nodes

All ids in the section of a target but that of the root begin with the id of the target, which tells
its name. So the sections of two targets with different names have no node in common. Nothing else
keeps them apart: two targets with the same name have the same node, and blocks of the same id in
them have the same node as well.

## Main definitions

* `Uses`: an id stands in one of several lines.
* `textsOf`: the names and ids of a program, of which digests are made.

## Main results

* `separate_targetSections`: targets with different names share no nodes.
* `not_separate_twinProgram`: targets with the same name share a node.
-/

namespace ScriptChart.Chart

open ScriptChart.Diagram ScriptChart.Digest ScriptChart.Flow ScriptChart.Phrase
open ScriptChart.Project

/-- An id stands in one of several lines, as a node or as the end of an edge. -/
def Uses (lines : List Statement) (id : String) : Prop := ∃ line ∈ lines, id ∈ line.ids

/-- The names of the targets of a program and the ids of their blocks. -/
def textsOf (program : Program) : List String :=
  program.targets.flatMap fun target => target.name :: target.blocks.names

section

variable {target target' : Target} {dictionary : Dictionary} {id : String}

/-- All ids in a section but that of the root begin with the id of the target. -/
theorem Uses.exists_rest (uses : Uses (targetSection dictionary target).value id)
    (other : id ≠ rootId) :
    ∃ rest : List Char, id.toList = (targetId target.name).toList ++ rest := by
  obtain ⟨line, inside, used⟩ := uses
  rcases id_cases_of_mem_targetSection inside used with root | rfl | ⟨script, -, node, rfl⟩
  · exact absurd root other
  · exact ⟨[], (List.append_nil _).symm⟩
  · exact ⟨_, Description.toList_id _⟩

/-- Two sections that share an id belong to targets whose names have the same safe id. -/
theorem safeId_eq_of_uses (uses : Uses (targetSection dictionary target).value id)
    (uses' : Uses (targetSection dictionary target').value id) (other : id ≠ rootId) :
    safeId target.name = safeId target'.name := by
  obtain ⟨rest, letters⟩ := uses.exists_rest other
  obtain ⟨rest', letters'⟩ := uses'.exists_rest other
  exact (safeId_eq_of_append_eq (letters.symm.trans letters')).1

theorem safeId_eq_of_targetId_eq {name name' : String} (same : targetId name = targetId name') :
    safeId name = safeId name' := by
  have letters := congrArg String.toList same
  rw [← List.append_nil (targetId name).toList,
    ← List.append_nil (targetId name').toList] at letters
  exact (safeId_eq_of_append_eq letters).1

end

/-- Targets with different names share no nodes. When the names do not collide, the targets have
different nodes of their own, and no id in the section of one of them but that of the root stands in
the section of the other one. -/
theorem separate_targetSections (program : Program) (options : Options) :
    ∀ target ∈ program.targets, ∀ target' ∈ program.targets, target.name ≠ target'.name →
      NoCollision target.name target'.name →
        targetId target.name ≠ targetId target'.name ∧
          ∀ id, Uses (targetSection options.dictionary target).value id →
            Uses (targetSection options.dictionary target').value id → id = rootId := by
  intro target _ target' _ different free
  constructor
  · intro same
    exact different (free (safeId_eq_of_targetId_eq same))
  · intro id uses uses'
    by_contra other
    exact different (free (safeId_eq_of_uses uses uses' other))

/-- The first block of the sample is not drawn for its copy. -/
theorem not_uses_sampleTarget_flag :
    NoCollision "Cat" "Dog" ∧
      ¬ Uses (targetSection .english { sampleTarget with name := "Dog" }).value
        ((scriptPen sampleTarget .english 0).name (.ofBlock "flag")) := by
  have free : NoCollision "Cat" "Dog" := by decide +kernel
  have drawn : Uses (targetSection .english sampleTarget).value
      ((scriptPen sampleTarget .english 0).name (.ofBlock "flag")) :=
    ⟨_, mem_targetSection_of_mem_zipIdx mem_zipIdx_sampleTarget, by simp [Statement.ids]⟩
  have apart := separate_targetSections ⟨[sampleTarget, { sampleTarget with name := "Dog" }]⟩
    ⟨"Demo", .topDown, .english⟩ sampleTarget (by simp) { sampleTarget with name := "Dog" }
    (by simp) (by decide) free
  exact ⟨free, fun shared => name_ne_rootId .english 0 _ (apart.2 _ drawn shared)⟩

/-- Two targets with the same name, each with one block of the same id. -/
def twinProgram : Program where
  targets := [
    { name := "Cat",
      blocks := .ofList [("a", { opcode := "event_whenflagclicked", topLevel := true })] },
    { name := "Cat", blocks := .ofList [("a", { opcode := "looks_hide", topLevel := true })] }]

/-- Different targets of a program may share nodes, although no digests collide. -/
theorem not_separate_twinProgram :
    ¬ ∀ (program : Program) (options : Options) (first second : Nat) (target target' : Target),
      (∀ text ∈ textsOf program, ∀ other ∈ textsOf program, NoCollision text other) →
      first ≠ second → program.targets[first]? = some target →
      program.targets[second]? = some target' →
        (target.blocks.isEmpty = false → target'.blocks.isEmpty = false →
          targetId target.name ≠ targetId target'.name) ∧
        ∀ id, Uses (targetSection options.dictionary target).value id →
          Uses (targetSection options.dictionary target').value id → id = rootId := by
  intro separate
  obtain ⟨nodes, -⟩ := separate twinProgram ⟨"Demo", .topDown, .english⟩ 0 1 _ _
    (by decide +kernel) (by decide) rfl rfl
  exact nodes rfl rfl rfl

end ScriptChart.Chart
