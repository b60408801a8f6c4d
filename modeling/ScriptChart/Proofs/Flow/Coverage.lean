import ScriptChart.Proofs.Flow.Script

/-!
# What a script covers

A script in a well-linked target declares every block that it reaches along no more links than the
limit, each of them once, and no other block. It is cut at the blocks at the limit, at each of them
once, and at no other block: neither what was visited nor the copies made for the bodies of loops
hide a block or show it twice, and the links that are left count the links to a block.

## Main definitions

* `declaring`: the steps that declare a node.
* `cuts`: the steps that cut a script at a block.

## Main results

* `declaring_scriptSteps`, `cuts_scriptSteps`: how a script declares and cuts a block it reaches.
* `declaring_scriptSteps_eq_nil`, `cuts_scriptSteps_eq_nil`: what it does to other blocks.
-/

namespace ScriptChart.Flow

open ScriptChart.Project

/-- The steps that declare a node. -/
def declaring (node : Node) (steps : List Step) : List Step :=
  steps.filter fun step => step.declared? = some node

/-- The steps that cut a script at a block. -/
def cuts (id : String) (steps : List Step) : List Step :=
  steps.filter fun step => step = .cut id

/-- What stands beside a block declares neither the block nor its sentinel. -/
theorem Step.IsBeside.declared?_ne {id : String} {step : Step} (beside : step.IsBeside id)
    (node : Node) (own : node.role = .block ∨ node.role = .runaway) :
    step.declared? ≠ some node := by
  intro declares
  obtain ⟨other, sentinel⟩ := beside.2 node declares
  exact own.elim other sentinel

theorem Step.IsBeside.ne_cut {id : String} {step : Step} (beside : step.IsBeside id) :
    step ≠ .cut id := by
  rintro rfl
  exact beside.declared?_ne ⟨id, .runaway⟩ (.inr rfl) rfl

/-- Of the steps that are drawn for a block, those that do not stand beside it are its own node and
the edge to its sentinel. -/
theorem filter_steps_of_isBeside {target : Target} {stop : Stop} {block : Block}
    (present : target.block? stop.id = some block) {asked : Step → Bool}
    (beside : ∀ step, step.IsBeside stop.id → asked step = false) :
    (stop.steps target).filter asked =
      (.block stop.id stop.links ::
        if stop.links = 0 then [.cut stop.id] else []).filter asked := by
  obtain ⟨id, links, join⟩ := stop
  cases links with
  | zero => simp [Stop.steps, present]
  | succ more =>
    -- what the plan draws stands beside the block
    have others : ((plan target id block join).flatMap Part.settled).filter asked = [] := by
      apply List.filter_eq_nil_iff.mpr
      intro step inside is
      rw [beside step (isBeside_plan target id block join step inside)] at is
      contradiction
    simp only [Stop.steps, present, List.filter_cons, others, Nat.succ_ne_zero, if_false,
      List.filter_nil]

section

variable {target : Target} (linked : WellLinked target) {entry : String}
  (root : IsRoot target entry) {id : String}
include linked root

/-- The steps of a script that do not stand beside a block are the block's own node and the edge to
its sentinel. -/
theorem filter_scriptSteps_of_isBeside {count : Nat} {join : Option Node}
    (reached : Reached target entry none id count join) (within : count ≤ linkLimit)
    (asked : Step → Bool) (owned : ∀ step, asked step = true → step.owner = id)
    (beside : ∀ step, step.IsBeside id → asked step = false) :
    ((scriptSteps target entry).filter asked).Perm
      ((.block id (linkLimit - count) :: if count = linkLimit then [.cut id] else []).filter
        asked) := by
  obtain ⟨block, present⟩ := exists_block_of_hasBlock (reached.hasBlock root.hasBlock)
  have drawn := filter_scriptSteps_perm linked root owned reached within
  rw [filter_steps_of_isBeside present beside] at drawn
  have none_left : linkLimit - count = 0 ↔ count = linkLimit := by omega
  simpa only [none_left] using drawn

/-- A script declares a block that it reaches once. -/
theorem declaring_scriptSteps {count : Nat} {join : Option Node}
    (reached : Reached target entry none id count join) (within : count ≤ linkLimit) :
    declaring (.ofBlock id) (scriptSteps target entry) = [.block id (linkLimit - count)] := by
  have drawn := filter_scriptSteps_of_isBeside linked root reached within
    (fun step => step.declared? = some (.ofBlock id))
    (fun step declares => Step.owner_of_declared? (of_decide_eq_true declares))
    (fun step beside => decide_eq_false (beside.declared?_ne _ (.inl rfl)))
  apply List.perm_singleton.mp
  by_cases last : count = linkLimit <;>
    simpa [declaring, last, Step.declared?, Node.ofBlock] using drawn

/-- A script has the sentinel of a block that it reaches just when the block is at the limit, and
then once. -/
theorem declaring_scriptSteps_runaway {count : Nat} {join : Option Node}
    (reached : Reached target entry none id count join) (within : count ≤ linkLimit) :
    declaring ⟨id, .runaway⟩ (scriptSteps target entry) =
      if count = linkLimit then [.cut id] else [] := by
  have drawn := filter_scriptSteps_of_isBeside linked root reached within
    (fun step => step.declared? = some ⟨id, .runaway⟩)
    (fun step declares => Step.owner_of_declared? (of_decide_eq_true declares))
    (fun step beside => decide_eq_false (beside.declared?_ne _ (.inr rfl)))
  by_cases last : count = linkLimit
  · simpa [declaring, last, Step.declared?, Node.ofBlock] using drawn
  · simpa [declaring, last, Step.declared?, Node.ofBlock] using drawn

/-- A script is cut at a block that it reaches just when the block is at the limit, and then
once. -/
theorem cuts_scriptSteps {count : Nat} {join : Option Node}
    (reached : Reached target entry none id count join) (within : count ≤ linkLimit) :
    cuts id (scriptSteps target entry) = if count = linkLimit then [.cut id] else [] := by
  have drawn := filter_scriptSteps_of_isBeside linked root reached within
    (fun step => step = .cut id)
    (fun step is => of_decide_eq_true is ▸ rfl)
    (fun step beside => decide_eq_false beside.ne_cut)
  by_cases last : count = linkLimit
  · simpa [cuts, last] using drawn
  · simpa [cuts, last] using drawn

variable (beyond : ∀ count join, Reached target entry none id count join → linkLimit < count)
include beyond

/-- A script declares no node of a block that it does not reach. -/
theorem declaring_scriptSteps_eq_nil (role : Role) :
    declaring ⟨id, role⟩ (scriptSteps target entry) = [] := by
  apply filter_scriptSteps_eq_nil linked root _ beyond
  intro step declares
  exact Step.owner_of_declared? (of_decide_eq_true declares)

/-- A script is not cut at a block that it does not reach. -/
theorem cuts_scriptSteps_eq_nil : cuts id (scriptSteps target entry) = [] := by
  apply filter_scriptSteps_eq_nil linked root _ beyond
  intro step is
  rw [of_decide_eq_true is]
  rfl

end

end ScriptChart.Flow
