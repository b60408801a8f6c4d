import ScriptChart.Proofs.Flow.Call
import ScriptChart.Proofs.Flow.Repetition

/-!
# How long a script is

A plan has a few parts only, so a script has a few steps for each node of a block on it. How many of
these there are follows from how often each block is repeated. Since a walk is cut where it has
followed too many links, there is also one number that no script of any target exceeds.

## Main definitions

* `Step.isBlock`: whether a step is the node of a block.

## Main results

* `length_plan_le`: a plan is short.
* `length_scriptSteps_le`: the length of a script by its blocks and the loops that it expands.
* `length_scriptSteps_le_pow`: one bound for all scripts.
-/

namespace ScriptChart.Flow

open ScriptChart.Project

/-- Whether a step is the node of a block. -/
def Step.isBlock : Step → Bool
  | .block _ _ => true
  | _ => false

theorem Step.declared?_of_isBlock {step : Step} (node : step.isBlock = true) :
    step.declared? = some (.ofBlock step.owner) := by
  cases step with
  | block id links => rfl
  | _ => contradiction

/-! ### Plans -/

section

variable (target : Target) (id : String) (block : Block) (continuation : Option Node)

theorem length_linkParts_le {link : Link} {visits : Visits} {enter : Node → Step}
    {other : Option Node} {absent : List Part} (short : absent.length ≤ 1) :
    (linkParts target id block link visits enter other absent).length ≤ 2 := by
  unfold linkParts danglingParts noticeDangling
  cases destination? target block link with
  | some first => exact Nat.le_refl 2
  | none => cases dangling? target block link <;> simp <;> omega

/-- A construct takes two parts for each of its links and one for its end. -/
theorem length_plan_le : (plan target id block continuation).length ≤ 7 := by
  unfold plan
  cases block.control? with
  | none =>
    refine Nat.le_trans (length_linkParts_le target id block ?_) (by decide)
    split
    · exact Nat.le_refl 1
    · cases continuation <;> simp
  | some kind =>
    have branch : ∀ visits link answer join,
        (branchParts target id block visits link answer join).length ≤ 2 :=
      fun _ _ _ _ => length_linkParts_le target id block (Nat.le_refl 1)
    have body : ∀ join, (bodyParts target id block join).length ≤ 2 :=
      fun _ => length_linkParts_le target id block (Nat.le_refl 1)
    have onward : ∀ join, (rejoinParts target id block join continuation).length ≤ 2 :=
      fun _ => length_linkParts_le target id block (Nat.le_refl 1)
    cases kind <;> simp only [constructParts, List.length_cons, List.length_append,
      List.length_nil] <;> grind

end

/-! ### Walks -/

section

variable (target : Target) {walker : Walker}

/-- A part is one step or a walk. -/
theorem length_run_le {bound weight : Nat} (positive : 0 < bound)
    (walks : ∀ first continuation progress, (walker first continuation progress).steps.length ≤
      bound + weight * (walker first continuation progress).steps.countP Step.isBlock)
    (part : Part) (progress : Progress) :
    (part.run target walker progress).steps.length ≤
      bound + weight * (part.run target walker progress).steps.countP Step.isBlock := by
  cases part with
  | emit _ | opening _ | rejoin _ _ => exact Nat.le_add_right_of_le positive
  | walk visits first continuation => cases visits <;> exact walks first continuation progress

/-- If a walk takes so many steps for the node of each block and a few more, a list of parts takes
those few for each of them. -/
theorem length_runParts_le {bound : Nat} (weight : Nat) (positive : 0 < bound)
    (walks : ∀ first continuation progress, (walker first continuation progress).steps.length ≤
      bound + weight * (walker first continuation progress).steps.countP Step.isBlock)
    (parts : List Part) (progress : Progress) :
    (runParts target walker parts progress).steps.length ≤
      parts.length * bound +
        weight * (runParts target walker parts progress).steps.countP Step.isBlock := by
  induction parts generalizing progress with
  | nil => simp [runParts]
  | cons part rest ih =>
    have one := length_run_le target positive walks part progress
    have more := ih (part.run target walker progress).progress
    simp only [runParts, Outcome.steps_andThen, List.length_append, List.length_cons, Nat.add_mul,
      Nat.one_mul, List.countP_append, Nat.mul_add]
    omega

/-- Every link that may still be followed multiplies the length of a walk by eight at most. -/
theorem length_walk_le_pow (links : Nat) (id : String) (continuation : Option Node)
    (progress : Progress) :
    (walk target links id continuation progress).steps.length ≤ 8 ^ (links + 1) := by
  -- induction on the links that may still be followed
  induction links generalizing id continuation progress with
  | zero =>
    obtain passed | ⟨block, fresh, present⟩ := passed_or_fresh target id progress
    · simp [walk_of_passed target id passed]
    · simp [walk_zero target id fresh present]
  | succ links ih =>
    obtain passed | ⟨block, fresh, present⟩ := passed_or_fresh target id progress
    · simp [walk_of_passed target id passed]
    · have positive : 0 < 8 ^ (links + 1) := Nat.pow_pos (by decide)
      -- nothing is granted for the nodes of blocks
      have parts := length_runParts_le target 0 positive
        (fun first continuation progress => Nat.le_add_right_of_le (ih first continuation progress))
        (plan target id block continuation) (progress.visit id)
      have short := Nat.mul_le_mul_right (8 ^ (links + 1))
        (length_plan_le target id block continuation)
      rw [walk_eq_runParts target id fresh present, Nat.pow_succ]
      simp only [Outcome.steps_after, List.length_append, List.length_singleton]
      omega

/-- A walk takes no more than eight steps for the node of each block. -/
theorem length_walk_le_blocks (links : Nat) (id : String) (continuation : Option Node)
    (progress : Progress) :
    (walk target links id continuation progress).steps.length ≤
      8 * (walk target links id continuation progress).steps.countP Step.isBlock := by
  induction links generalizing id continuation progress with
  | zero =>
    obtain passed | ⟨block, fresh, present⟩ := passed_or_fresh target id progress
    · simp [walk_of_passed target id passed]
    · simp [walk_zero target id fresh present, List.countP_cons, Step.isBlock]
  | succ links ih =>
    obtain passed | ⟨block, fresh, present⟩ := passed_or_fresh target id progress
    · simp [walk_of_passed target id passed]
    · -- the node of the block pays for itself and for the parts of the plan
      have parts := length_runParts_le target 8 Nat.one_pos
        (fun first continuation progress => Nat.le_add_left_of_le (ih first continuation progress))
        (plan target id block continuation) (progress.visit id)
      have short := length_plan_le target id block continuation
      rw [walk_eq_runParts target id fresh present]
      simp only [Outcome.steps_after, List.length_append, List.length_singleton, List.countP_append,
        List.countP_cons, List.countP_nil, Step.isBlock, if_true]
      omega

end

/-! ### Scripts -/

section

variable (target : Target) (entry : String)

/-- If no block is declared too often, there are not too many nodes of blocks. -/
theorem countP_isBlock_le {steps : List Step} {ids : List String} {bound : Nat}
    (among : ∀ step ∈ steps, step.owner ∈ ids)
    (seldom : ∀ id, (declaring (.ofBlock id) steps).length ≤ bound) :
    steps.countP Step.isBlock ≤ ids.length * bound := by
  -- the nodes of the first block are counted, and those of the others are left
  induction ids generalizing steps with
  | nil =>
    have empty : steps = [] := List.eq_nil_iff_forall_not_mem.mpr fun step taken =>
      List.not_mem_nil (among step taken)
    simp [empty]
  | cons id rest ih =>
    have own : (steps.filter fun step => step.owner = id).countP Step.isBlock ≤ bound := by
      refine Nat.le_trans ?_ (seldom id)
      rw [declaring, ← List.countP_eq_length_filter, List.countP_filter]
      refine List.countP_mono_left fun step _ both => ?_
      obtain ⟨node, same⟩ := (Bool.and_eq_true _ _).mp both
      rw [Step.declared?_of_isBlock node, of_decide_eq_true same, decide_eq_true rfl]
    have kept : ∀ step ∈ steps.filter (fun step => !decide (step.owner = id)),
        step.owner ∈ rest := by
      intro step taken
      obtain ⟨taken, other⟩ := List.mem_filter.mp taken
      exact (List.mem_cons.mp (among step taken)).resolve_left (by simpa using other)
    have others := ih kept fun other => Nat.le_trans
      (List.filter_sublist.filter _).length_le (seldom other)
    rw [List.countP_eq_countP_filter_add steps Step.isBlock fun step => step.owner = id,
      List.length_cons, Nat.add_mul, Nat.one_mul]
    omega

/-- A script is no longer than eight steps for each block, once more than it expands loops. -/
theorem length_scriptSteps_le :
    (scriptSteps target entry).length ≤
      8 * (target.blocks.entries.length * (1 + expansions target entry)) := by
  have among : ∀ step ∈ scriptSteps target entry, step.owner ∈ target.blocks.names :=
    fun step taken => (target.blocks.contains_iff_mem_names _).mp (Call.hasBlock_owner taken)
  have nodes := countP_isBlock_le among (length_declaring_le_expansions target entry)
  rw [OrderedMap.names, List.length_map] at nodes
  exact Nat.le_trans (length_walk_le_blocks target linkLimit entry none .start)
    (Nat.mul_le_mul_left 8 nodes)

theorem length_scriptSteps_le_pow : (scriptSteps target entry).length ≤ 8 ^ (linkLimit + 1) :=
  length_walk_le_pow target linkLimit entry none .start

end

end ScriptChart.Flow
