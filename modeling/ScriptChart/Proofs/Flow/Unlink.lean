import ScriptChart.Proofs.Flow.Plan
import ScriptChart.Proofs.Project.Replace

/-!
# Taking out a dangling link

A block that names one below it which is not there is walked in the same way as a block with nothing
below it. The search upwards asks which block an ancestor names below itself before it asks whether
that block is there; but it asks for a block that it comes from, and this one is there. So a walk
takes the same steps when the name is taken out, but for noticing that the block is not there.

## Main definitions

* `Dangles`: a block names one below it that is not there.
* `Block.unlinked`: a block without the name of the one below it.
* `Step.isKept`: the steps that do not notice this link.
* `Unlinked`: what a walk reads of a block when the link is taken out.

## Main results

* `Dangles.exists_unlinked`: a walk reads the same of all blocks.
* `Unlinked.plan_eq`, `Dangles.enclosing?_eq`: plans and the search upwards.
* `Dangles.scriptSteps_eq`: a script takes the steps that are kept.
-/

namespace ScriptChart

/-- A block that names nothing below it. -/
def Project.Block.unlinked (block : Project.Block) : Project.Block := { block with next := none }

namespace Flow

open ScriptChart.Project

/-- A block of a target names one below it that is not there. -/
structure Dangles (target : Target) (id gone : String) (block : Block) : Prop where
  present : target.block? id = some block
  next : block.next = some gone
  absent : target.hasBlock gone = false

/-- Whether a step is kept when a dangling link is taken out: it does not notice this link. -/
def Step.isKept (id gone : String) (step : Step) : Bool := step != .missing id .next gone

/-- Whether a part of a plan is kept when a dangling link is taken out. -/
def Part.isKept (id gone : String) : Part → Bool
  | .emit step => step.isKept id gone
  | _ => true

section

variable {id gone : String}

theorem Step.isKept_eq_false_iff {step : Step} :
    step.isKept id gone = false ↔ step = .missing id .next gone := by
  simp [Step.isKept]

@[simp]
theorem Step.isKept_edge (source destination : Node) :
    (Step.edge source destination).isKept id gone = true := rfl

@[simp]
theorem Step.isKept_branch (source destination : Node) (answer : Answer) :
    (Step.branch source destination answer).isKept id gone = true := rfl

@[simp]
theorem Part.isKept_emit (step : Step) :
    (Part.emit step).isKept id gone = step.isKept id gone := rfl

@[simp]
theorem Part.isKept_opening (join : Node) : (Part.opening join).isKept id gone = true := rfl

@[simp]
theorem Part.isKept_walk (visits : Visits) (first : String) (continuation : Option Node) :
    (Part.walk visits first continuation).isKept id gone = true := rfl

/-- Only a link of one block is taken out, and only the one to the block below. -/
theorem filter_isKept_noticeDangling {target : Target} {asked : String} {found : Block}
    {link : Link} (apart : asked ≠ id ∨ link ≠ .next) :
    (noticeDangling target asked found link).filter (Step.isKept id gone) =
      noticeDangling target asked found link := by
  refine List.filter_eq_self.mpr fun step noticed => ?_
  obtain ⟨name, -, rfl⟩ := List.mem_map.mp noticed
  simp only [Step.isKept, bne_iff_ne, ne_eq, Step.missing.injEq, not_and_or]
  exact apart.imp_right .inl

end

/-- What is kept of the steps of a part of a walk, with the same progress. -/
def Outcome.kept (id gone : String) (outcome : Outcome) : Outcome :=
  { outcome with steps := outcome.steps.filter (Step.isKept id gone) }

/-- A walk reads the same of two blocks in two targets, but for a dangling link. -/
structure Unlinked (target other : Target) (id gone asked : String) (block block' : Block) : Prop
    where
  control : block'.control? = block.control?
  event : block'.isEvent = block.isEvent
  parent : block'.parent = block.parent
  destination : ∀ link, destination? other block' link = destination? target block link
  notice : ∀ link, noticeDangling other asked block' link =
    (noticeDangling target asked block link).filter (Step.isKept id gone)
  below : ∀ child, target.hasBlock child = true →
    (block'.next = some child ↔ block.next = some child)

namespace Dangles

variable {target : Target} {id gone : String} {block : Block}
  (dangles : Dangles target id gone block)
include dangles

theorem destination?_withBlock (found : Block) (link : Link) :
    destination? (target.withBlock id block.unlinked) found link =
      destination? target found link := by
  unfold destination?
  congr 1
  funext asked
  exact Target.hasBlock_withBlock dangles.present asked

theorem noticeDangling_withBlock (asked : String) (found : Block) (link : Link) :
    noticeDangling (target.withBlock id block.unlinked) asked found link =
      noticeDangling target asked found link := by
  have same : ∀ name, (target.withBlock id block.unlinked).hasBlock name = target.hasBlock name :=
    Target.hasBlock_withBlock dangles.present
  simp only [noticeDangling, dangling?, same]

/-- A walk reads the same of the block itself without the link. -/
theorem unlinked_self :
    Unlinked target (target.withBlock id block.unlinked) id gone id block block.unlinked where
  control := rfl
  event := rfl
  parent := rfl
  destination link := by
    rw [dangles.destination?_withBlock]
    cases link with
    | next =>
      simp [destination?, named?, Block.unlinked, dangles.next, dangles.absent, Option.filter_some]
    | substack | substack2 => rfl
  notice link := by
    rw [dangles.noticeDangling_withBlock]
    cases link with
    | next =>
      simp [noticeDangling, dangling?, named?, Block.unlinked, dangles.next, dangles.absent,
        Step.isKept, Option.filter_some]
    | substack | substack2 => exact (filter_isKept_noticeDangling (.inr (by decide))).symm
  below child there := by
    -- only a block that is there is asked for, so it is not the one that the link names
    simp only [Block.unlinked, dangles.next, Option.some.injEq, reduceCtorEq, false_iff]
    rintro rfl
    simp [dangles.absent] at there

/-- A walk reads the same of any other block. -/
theorem unlinked_of_ne {asked : String} (apart : asked ≠ id) (found : Block) :
    Unlinked target (target.withBlock id block.unlinked) id gone asked found found where
  control := rfl
  event := rfl
  parent := rfl
  destination := dangles.destination?_withBlock found
  notice link := by
    rw [dangles.noticeDangling_withBlock, filter_isKept_noticeDangling (.inl apart)]
  below _ _ := .rfl

/-- When the link is taken out, there is a block under the same ids, and a walk reads the same of
it. -/
theorem exists_unlinked {asked : String} {found : Block}
    (there : target.block? asked = some found) :
    ∃ found', (target.withBlock id block.unlinked).block? asked = some found' ∧
      Unlinked target (target.withBlock id block.unlinked) id gone asked found found' := by
  rw [Target.block?_withBlock]
  by_cases here : asked = id
  · subst here
    obtain rfl := Option.some.inj (there.symm.trans dangles.present)
    exact ⟨_, if_pos rfl, dangles.unlinked_self⟩
  · exact ⟨found, (if_neg here).trans there, dangles.unlinked_of_ne here found⟩

theorem block?_eq_none {asked : String} (nothing : target.block? asked = none) :
    (target.withBlock id block.unlinked).block? asked = none := by
  have same : (target.withBlock id block.unlinked).hasBlock asked = target.hasBlock asked :=
    Target.hasBlock_withBlock dangles.present asked
  rw [← Option.not_isSome_iff_eq_none] at nothing ⊢
  exact fun there => nothing (same.symm.trans there)

end Dangles

/-! ### Plans -/

namespace Unlinked

variable {target other : Target} {id gone asked : String} {block block' : Block}
  (unlinked : Unlinked target other id gone asked block block')
include unlinked

theorem linkParts_eq {link : Link} {visits : Visits} {enter : Node → Step}
    {continuation : Option Node} {absent : List Part}
    (enters : ∀ place, (enter place).isKept id gone = true)
    (stays : absent.filter (Part.isKept id gone) = absent) :
    linkParts other asked block' link visits enter continuation absent =
      (linkParts target asked block link visits enter continuation absent).filter
        (Part.isKept id gone) := by
  unfold linkParts
  rw [unlinked.destination]
  cases destination? target block link with
  | some first => simp [List.filter_cons, enters]
  | none =>
    rw [List.filter_append, stays, danglingParts, unlinked.notice, danglingParts,
      List.filter_map]
    rfl

theorem branchParts_eq (visits : Visits) (link : Link) (answer : Answer) (join : Node) :
    branchParts other asked block' visits link answer join =
      (branchParts target asked block visits link answer join).filter (Part.isKept id gone) :=
  unlinked.linkParts_eq (fun _ => rfl) rfl

theorem rejoinParts_eq (join : Node) (continuation : Option Node) :
    rejoinParts other asked block' join continuation =
      (rejoinParts target asked block join continuation).filter (Part.isKept id gone) :=
  unlinked.linkParts_eq (fun _ => rfl) rfl

theorem bodyParts_eq (join : Node) :
    bodyParts other asked block' join =
      (bodyParts target asked block join).filter (Part.isKept id gone) :=
  unlinked.linkParts_eq (fun _ => rfl) rfl

theorem plainParts_eq (continuation : Option Node) :
    plainParts other asked block' continuation =
      (plainParts target asked block continuation).filter (Part.isKept id gone) := by
  unfold plainParts
  rw [unlinked.event]
  refine unlinked.linkParts_eq (fun _ => rfl) ?_
  split
  · rfl
  · cases continuation <;> rfl

/-- The plan of a block is what is kept of it. -/
theorem plan_eq (continuation : Option Node) :
    plan other asked block' continuation =
      (plan target asked block continuation).filter (Part.isKept id gone) := by
  unfold plan
  rw [unlinked.control]
  cases block.control? with
  | none => exact unlinked.plainParts_eq continuation
  | some kind =>
    cases kind <;>
      simp [constructParts, unlinked.branchParts_eq, unlinked.rejoinParts_eq,
        unlinked.bodyParts_eq, List.filter_cons]

theorem offer?_eq (ends : Ends) (start : String) {child : String}
    (there : target.hasBlock child = true) :
    offer? other ends start child (asked, block') =
      offer? target ends start child (asked, block) := by
  simp only [offer?, unlinked.below child there, unlinked.control, unlinked.destination]

end Unlinked

/-! ### Walks -/

namespace Dangles

variable {target : Target} {id gone : String} {block : Block}
  (dangles : Dangles target id gone block)
include dangles

/-- Coming up from a block that is there, the ancestors offer the same. -/
theorem firstOffer?_eq (ends : Ends) (start : String) (count : Nat) {met : List String}
    {child : String} (there : target.hasBlock child = true) (above : Option String) :
    firstOffer? (target.withBlock id block.unlinked) ends start child
        (ancestorsFrom (target.withBlock id block.unlinked) count met above) =
      firstOffer? target ends start child (ancestorsFrom target count met above) := by
  -- induction on the number of ancestors: each is the child of the next one
  induction count generalizing met child above with
  | zero => rfl
  | succ count ih =>
    cases above with
    | none => rfl
    | some asked =>
      rw [ancestorsFrom, ancestorsFrom]
      split
      · rfl
      · cases present : target.block? asked with
        | none => simp only [dangles.block?_eq_none present, firstOffer?]
        | some found =>
          obtain ⟨found', present', unlinked⟩ := dangles.exists_unlinked present
          have here : target.hasBlock asked = true := Option.isSome_iff_exists.mpr ⟨found, present⟩
          simp only [present', firstOffer?, unlinked.offer?_eq ends start there, unlinked.parent,
            ih here]

/-- Looking upwards finds the same. -/
theorem enclosing?_eq (ends : Ends) (start : String) :
    enclosing? (target.withBlock id block.unlinked) ends start = enclosing? target ends start := by
  unfold enclosing? ancestors
  rw [Target.size_withBlock dangles.present]
  cases present : target.block? start with
  | none =>
    rw [dangles.block?_eq_none present, Option.bind_none]
    cases target.blocks.size <;> rfl
  | some found =>
    obtain ⟨found', present', unlinked⟩ := dangles.exists_unlinked present
    rw [present', Option.bind_some, Option.bind_some, unlinked.parent]
    exact dangles.firstOffer?_eq ends start _ (Option.isSome_iff_exists.mpr ⟨found, present⟩) _

/-- A part that is kept does what is kept of its steps. -/
theorem run_eq {walker walker' : Walker}
    (walks : ∀ first continuation progress, walker' first continuation progress =
      (walker first continuation progress).kept id gone)
    {part : Part} (stays : part.isKept id gone = true) (progress : Progress) :
    part.run (target.withBlock id block.unlinked) walker' progress =
      (part.run target walker progress).kept id gone := by
  cases part with
  | emit step =>
    have same : [step].filter (Step.isKept id gone) = [step] := by
      simpa using stays
    simp [Part.run, Outcome.emit, Outcome.kept, same]
  | opening join => rfl
  | rejoin join continuation =>
    rw [Part.run, Part.run, dangles.enclosing?_eq]
    rfl
  | walk visits first continuation =>
    cases visits with
    | shared => exact walks first continuation progress
    | forked =>
      simp only [Part.run, walks]
      rfl

omit dangles in
/-- A part that is not kept does nothing but a step that is not kept. -/
theorem run_of_not_isKept {walker : Walker} {part : Part} (goes : part.isKept id gone = false)
    (progress : Progress) :
    ((part.run target walker progress).steps.filter (Step.isKept id gone) = []) ∧
      (part.run target walker progress).progress = progress := by
  cases part with
  | emit step => exact ⟨by simpa [Part.run, Outcome.emit] using goes, rfl⟩
  | opening join | rejoin join continuation | walk visits first continuation => cases goes

/-- What is kept of the parts of a plan does what is kept of their steps. -/
theorem runParts_eq {walker walker' : Walker}
    (walks : ∀ first continuation progress, walker' first continuation progress =
      (walker first continuation progress).kept id gone)
    (parts : List Part) (progress : Progress) :
    runParts (target.withBlock id block.unlinked) walker' (parts.filter (Part.isKept id gone))
        progress =
      (runParts target walker parts progress).kept id gone := by
  -- a part that goes changes no progress, so the later parts run as before
  induction parts generalizing progress with
  | nil => rfl
  | cons part rest ih =>
    cases stays : part.isKept id gone with
    | true =>
      rw [List.filter_cons_of_pos stays, runParts, runParts, dangles.run_eq walks stays]
      simp [Outcome.andThen, Outcome.after, Outcome.kept, ih]
    | false =>
      obtain ⟨nothing, same⟩ :
          (part.run target walker progress).steps.filter (Step.isKept id gone) = [] ∧
            (part.run target walker progress).progress = progress :=
        run_of_not_isKept stays progress
      rw [List.filter_cons_of_neg (by simp [stays]), ih, runParts]
      simp [Outcome.andThen, Outcome.after, Outcome.kept, nothing, same]

/-- A walk takes the steps that are kept. -/
theorem walk_eq (links : Nat) (asked : String) (continuation : Option Node)
    (progress : Progress) :
    walk (target.withBlock id block.unlinked) links asked continuation progress =
      (walk target links asked continuation progress).kept id gone := by
  -- induction on the links that may still be followed
  induction links generalizing asked continuation progress with
  | zero =>
    obtain passed | ⟨found, fresh, present⟩ := passed_or_fresh target asked progress
    · rw [walk_of_passed target asked passed,
        walk_of_passed _ asked (passed.imp_right dangles.block?_eq_none)]
      rfl
    · obtain ⟨found', present', -⟩ := dangles.exists_unlinked present
      rw [walk_zero target asked fresh present, walk_zero _ asked fresh present']
      rfl
  | succ links ih =>
    obtain passed | ⟨found, fresh, present⟩ := passed_or_fresh target asked progress
    · rw [walk_of_passed target asked passed,
        walk_of_passed _ asked (passed.imp_right dangles.block?_eq_none)]
      rfl
    · obtain ⟨found', present', unlinked⟩ := dangles.exists_unlinked present
      rw [walk_eq_runParts target asked fresh present, walk_eq_runParts _ asked fresh present',
        unlinked.plan_eq, dangles.runParts_eq ih]
      rfl

/-- Scripts begin with the same blocks. -/
theorem entryPoints_eq :
    (target.withBlock id block.unlinked).entryPoints = target.entryPoints :=
  Target.entryPoints_withBlock dangles.present rfl rfl

/-- A script takes the steps that are kept. -/
theorem scriptSteps_eq (entry : String) :
    scriptSteps (target.withBlock id block.unlinked) entry =
      (scriptSteps target entry).filter (Step.isKept id gone) := by
  rw [scriptSteps, dangles.walk_eq]
  rfl

end Dangles

end Flow

end ScriptChart
