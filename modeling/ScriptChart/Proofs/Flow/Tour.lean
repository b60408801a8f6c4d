import Mathlib.Data.List.Nodup
import Mathlib.Data.List.Perm.Basic
import ScriptChart.Proofs.Flow.Enclosing

/-!
# Walks of well-linked targets

In a well-linked target a walk is nothing but a tour of the tree of blocks below its start. It
never meets a block twice, so neither what was visited nor the copies made for the bodies of loops
matter, and the way on from a construct is always the continuation. What the walk draws is, up to
its order, what is drawn for each of the blocks on its own.

## Main definitions

* `Stop`, `stops`: the blocks that a walk comes to, each with the number of links that may still be
  followed and the node in which the innermost construct around it ends.
* `Stop.steps`: what is drawn for a block on its own.

## Main results

* `mem_stops`: the stops are the blocks that are reached along no more links than are allowed.
* `nodup_stops`: no block is come to twice.
* `tours`: a walk draws what is drawn for its stops.
-/

namespace ScriptChart.Flow

open ScriptChart.Project

/-- A block that a walk comes to. -/
structure Stop where
  id : String
  /-- How many links may still be followed. -/
  links : Nat
  /-- Where the innermost construct around the block ends. -/
  join : Option Node

/-- The blocks that a walk comes to along no more than a number of links. -/
def stops (target : Target) : Nat → String → Option Node → List Stop
  | 0, id, join => [⟨id, 0, join⟩]
  | more + 1, id, join =>
    ⟨id, more + 1, join⟩ ::
      match target.block? id with
      | none => []
      | some block =>
        (children target id block join).flatMap fun child => stops target more child.1 child.2

/-- What is drawn for a block on its own. -/
def Stop.steps (target : Target) (stop : Stop) : List Step :=
  match stop.links, target.block? stop.id with
  | _, none => []
  | 0, some _ => [.block stop.id 0, .cut stop.id]
  | more + 1, some block =>
    .block stop.id (more + 1) :: (plan target stop.id block stop.join).flatMap Part.settled

/-! ### The stops of a tour -/

theorem reached_zero_iff {target : Target} {start id : String} {around join : Option Node} :
    Reached target start around id 0 join ↔ id = start ∧ join = around := by
  constructor
  · intro reached
    cases reached
    exact ⟨rfl, rfl⟩
  · rintro ⟨rfl, rfl⟩
    exact .start

/-- The stops are the blocks that are reached along no more links than are allowed. -/
theorem mem_stops {target : Target} {links : Nat} {id : String} {join : Option Node}
    {stop : Stop} :
    stop ∈ stops target links id join ↔
      ∃ count, stop.links + count = links ∧ Reached target id join stop.id count stop.join := by
  induction links generalizing id join with
  | zero =>
    obtain ⟨last, left, inner⟩ := stop
    simp only [stops, List.mem_singleton, Stop.mk.injEq, Nat.add_eq_zero_iff]
    constructor
    · rintro ⟨rfl, rfl, rfl⟩
      exact ⟨0, ⟨rfl, rfl⟩, .start⟩
    · rintro ⟨count, ⟨rfl, rfl⟩, reached⟩
      obtain ⟨rfl, rfl⟩ := reached_zero_iff.mp reached
      exact ⟨rfl, rfl, rfl⟩
  | succ links ih =>
    simp only [stops, List.mem_cons]
    constructor
    · rintro (rfl | later)
      · exact ⟨0, rfl, .start⟩
      · cases present : target.block? id with
        | none => simp [present] at later
        | some block =>
          simp only [present, List.mem_flatMap, ih, mem_children_iff] at later
          obtain ⟨⟨next, inner⟩, ⟨link, followed, leads, rfl⟩, count, total, reached⟩ := later
          exact ⟨count + 1, by omega,
            reached_succ_iff.mpr ⟨block, link, next, present, followed, leads, reached⟩⟩
    · rintro ⟨count, total, reached⟩
      cases count with
      | zero =>
        obtain ⟨same, inner⟩ := reached_zero_iff.mp reached
        obtain ⟨last, left, around⟩ := stop
        exact .inl (by simp_all)
      | succ count =>
        obtain ⟨block, link, next, present, followed, leads, rest⟩ := reached_succ_iff.mp reached
        simp only [present, List.mem_flatMap, ih, mem_children_iff]
        exact .inr ⟨(next, _), ⟨link, followed, leads, rfl⟩, count, by omega, rest⟩

/-- No block is below two others. -/
def Apart (target : Target) (one two : String) : Prop :=
  ∀ last, Leads target one last → ¬ Leads target two last

section

variable {target : Target} (linked : WellLinked target) {entry id : String} {count : Nat}
  {join : Option Node} (root : IsRoot target entry)
  (reached : Reached target entry none id count join)
include linked root reached

/-- The trees below the children of a block are disjoint. -/
theorem pairwise_children {block : Block} (present : target.block? id = some block) :
    (children target id block join).Pairwise fun one two => Apart target one.1 two.1 := by
  refine List.pairwise_filterMap.mpr ((nodup_followedLinks block).imp_of_mem ?_)
  intro link other followed followed' different one here two there
  obtain ⟨left, leads, rfl⟩ := Option.map_eq_some_iff.mp here
  obtain ⟨right, leads', rfl⟩ := Option.map_eq_some_iff.mp there
  have unequal : left ≠ right := by
    rintro rfl
    exact different (linked.link_eq present leads leads')
  exact fun last => linked.not_leads_both root reached ⟨block, present, followed, leads⟩
    ⟨block, present, followed', leads'⟩ unequal

/-- No block is come to twice. -/
theorem nodup_stops (links : Nat) : ((stops target links id join).map Stop.id).Nodup := by
  -- the block is not below its children, and what is below two of them is disjoint
  induction links generalizing id count join with
  | zero => simp [stops]
  | succ links ih =>
    cases present : target.block? id with
    | none => simp [stops, present]
    | some block =>
      simp only [stops, present, List.map_cons, List.map_flatMap, List.nodup_cons,
        List.nodup_flatMap]
      refine ⟨fun again => ?_, fun child inside => ?_, ?_⟩
      · -- a child does not lead back
        obtain ⟨child, inside, again⟩ := List.mem_flatMap.mp again
        obtain ⟨stop, within, same⟩ := List.mem_map.mp again
        obtain ⟨link, followed, leads, inner⟩ := mem_children_iff.mp inside
        obtain ⟨more, -, beyond⟩ := mem_stops.mp within
        exact linked.not_leads_of_follows root reached ⟨block, present, followed, leads⟩
          (same ▸ beyond.leads)
      · obtain ⟨link, followed, leads, inner⟩ := mem_children_iff.mp inside
        rw [inner]
        exact ih (.follow reached present followed leads)
      · apply (pairwise_children linked root reached present).imp
        intro one two apart last here there
        obtain ⟨stop, within, rfl⟩ := List.mem_map.mp here
        obtain ⟨stop', within', same⟩ := List.mem_map.mp there
        obtain ⟨_, -, beyond⟩ := mem_stops.mp within
        obtain ⟨_, -, beyond'⟩ := mem_stops.mp within'
        exact apart _ beyond.leads (same ▸ beyond'.leads)

end

/-! ### Walks as tours -/

/-- Whether nothing that a block leads to was visited. -/
def Fresh (target : Target) (visited : List String) (id : String) : Prop :=
  ∀ other, Leads target id other → other ∉ visited

/-- Walks along no more than a number of links draw what is drawn for their stops, each on its
own. -/
def Tours (target : Target) (entry : String) (links : Nat) : Prop :=
  ∀ id count join progress, Reached target entry none id count join →
    RightEnds target progress.ends → Recorded progress.ends join →
      Fresh target progress.visited id → (walk target links id join progress).steps.Perm
        ((stops target links id join).flatMap (Stop.steps target))

/-- What is known when a part of a plan is come to. -/
def Ready (target : Target) (entry : String) (progress : Progress) : Part → Prop
  | .emit _ => True
  | .opening _ => False
  | .rejoin join continuation =>
    (∃ count, Reached target entry none join.owner count continuation) ∧
      Recorded progress.ends continuation
  | .walk _ first continuation =>
    (∃ count, Reached target entry none first count continuation) ∧
      Recorded progress.ends continuation ∧ Fresh target progress.visited first

section Parts

variable {target : Target} {entry : String}

/-- What a part draws, and the blocks that it walks on to. -/
def Part.all (target : Target) (links : Nat) (part : Part) : List Step :=
  part.settled ++ part.child?.toList.flatMap fun child =>
    (stops target links child.1 child.2).flatMap (Stop.steps target)

/-- What is known about a part stays known while another part is done. -/
theorem Ready.after {links : Nat} {progress : Progress} {part other : Part}
    (right : RightEnds target progress.ends) (ready : Ready target entry progress part)
    (later : Ready target entry progress other)
    (apart : ∀ child ∈ part.child?, ∀ child' ∈ other.child?, Apart target child.1 child'.1) :
    Ready target entry (part.run target (walk target links) progress).progress other := by
  cases part with
  | emit step => exact later
  | rejoin join continuation => exact later
  | opening join => exact ready.elim
  | walk visits first continuation =>
    have keeps : ∀ {join : Option Node}, Recorded progress.ends join →
        Recorded (walk target links first continuation progress).progress.ends join :=
      fun recorded node is => lookup_ends_walk right links first continuation (recorded node is)
    have ends : (Part.run target (walk target links) (.walk visits first continuation)
        progress).progress.ends =
          (walk target links first continuation progress).progress.ends := by
      cases visits <;> rfl
    cases other with
    | emit step => exact trivial
    | opening join => exact later
    | rejoin join other => exact ⟨later.1, ends ▸ keeps later.2⟩
    | walk visits' first' other =>
      refine ⟨later.1, ends ▸ keeps later.2.1, fun last leads inside => ?_⟩
      -- what is visited now was visited before or lies below the part that is done
      have old := later.2.2 last leads
      cases visits with
      | forked => exact old inside
      | shared =>
        apply (mem_visited_walk inside).elim old
        intro leads'
        exact apart _ rfl _ rfl last leads' leads

theorem rightEnds_run {links : Nat} {progress : Progress} {part : Part}
    (right : RightEnds target progress.ends) (ready : Ready target entry progress part) :
    RightEnds target (part.run target (walk target links) progress).progress.ends := by
  cases part with
  | emit step => exact right
  | rejoin join continuation => exact right
  | opening join => exact ready.elim
  | walk visits first continuation =>
    cases visits <;> exact rightEnds_walk right links first continuation

/-- What is done for a block draws what its parts draw, opening the construct included. -/
theorem flatMap_all_perm (links : Nat) (parts : List Part) :
    (parts.flatMap (Part.all target links)).Perm
      (parts.flatMap Part.settled ++
        (parts.filterMap Part.child?).flatMap fun child =>
          (stops target links child.1 child.2).flatMap (Stop.steps target)) := by
  rw [List.filterMap_eq_flatMap_toList, List.flatMap_assoc]
  exact (List.flatMap_append_perm parts _ _).symm

end Parts

section Walks

variable {target : Target} (linked : WellLinked target) {entry : String}
  (root : IsRoot target entry)

/-- What is known when a part of a block's plan is come to, once its construct was opened. -/
theorem ready_of_mem_plan {id : String} {count : Nat} {join : Option Node} {block : Block}
    {progress : Progress} {part : Part} (reached : Reached target entry none id count join)
    (present : target.block? id = some block) (inside : part ∈ plan target id block join)
    (opened : ∀ node, part ≠ .opening node) (recorded : Recorded progress.ends join)
    (within : ∀ kind, block.control? = some kind →
      progress.ends.lookup id = some ⟨id, joinRole kind⟩)
    (fresh : ∀ link next, Follows target id link next → Fresh target progress.visited next) :
    Ready target entry progress part := by
  cases part with
  | emit step => exact trivial
  | opening node => exact absurd rfl (opened node)
  | rejoin node other =>
    obtain ⟨⟨kind, -, -, rfl⟩, -, rfl⟩ := exists_kind_of_rejoin_mem_plan inside
    exact ⟨⟨count, reached⟩, recorded⟩
  | walk visits first other =>
    obtain ⟨link, followed, leads, rfl⟩ := exists_link_of_walk_mem_plan inside
    refine ⟨⟨count + 1, .follow reached present followed leads⟩, ?_,
      fresh link first ⟨block, present, followed, leads⟩⟩
    -- a chain goes on within the same construct, and a branch lies in the one just opened
    by_cases chained : link = .next
    · subst chained
      exact recorded
    · obtain ⟨kind, control, along⟩ := joinAlong_of_ne_next id followed chained join
      rw [along]
      rintro node ⟨⟩
      exact within kind control

include linked root

/-- A part draws its own steps and what is drawn for the stops of its walk. -/
theorem run_perm {links : Nat} {progress : Progress} {part : Part}
    (tours : Tours target entry links) (right : RightEnds target progress.ends)
    (ready : Ready target entry progress part) :
    (part.run target (walk target links) progress).steps.Perm (part.all target links) := by
  cases part with
  | emit step => exact .refl _
  | opening node => exact ready.elim
  | rejoin node other =>
    obtain ⟨⟨count, reached⟩, recorded⟩ := ready
    simp [Part.run, Part.all, Part.settled, Part.child?,
      enclosing?_eq linked root reached recorded]
  | walk visits first other =>
    obtain ⟨⟨count, reached⟩, recorded, fresh⟩ := ready
    have drawn : (Part.run target (walk target links) (.walk visits first other) progress).steps =
        (walk target links first other progress).steps := by
      cases visits <;> rfl
    rw [drawn]
    simpa [Part.all, Part.settled, Part.child?] using
      tours first count other progress reached right recorded fresh

/-- Parts that are done one after the other draw what each of them draws. -/
theorem runParts_perm {links : Nat} {parts : List Part} {progress : Progress}
    (tours : Tours target entry links)
    (right : RightEnds target progress.ends)
    (ready : ∀ part ∈ parts, Ready target entry progress part)
    (apart : (parts.filterMap Part.child?).Pairwise fun one two => Apart target one.1 two.1) :
    (runParts target (walk target links) parts progress).steps.Perm
      (parts.flatMap (Part.all target links)) := by
  -- each part finds its blocks fresh, since the parts before it stay in other trees
  induction parts generalizing progress with
  | nil => exact .refl []
  | cons part rest ih =>
    have first := ready part List.mem_cons_self
    rw [List.pairwise_filterMap, List.pairwise_cons] at apart
    rw [runParts, Outcome.steps_andThen, List.flatMap_cons]
    refine (run_perm linked root tours right first).append
      (ih (rightEnds_run right first) ?_ (List.pairwise_filterMap.mpr apart.2))
    intro other later
    exact first.after right (ready other (List.mem_cons_of_mem part later))
      (fun child is child' is' => apart.1 other later child is child' is')

/-- The plan of a block draws what its parts draw. -/
theorem runParts_plan_perm {links : Nat} {id : String} {count : Nat} {join : Option Node}
    {block : Block} (progress : Progress)
    (tours : Tours target entry links)
    (reached : Reached target entry none id count join) (present : target.block? id = some block)
    (right : RightEnds target progress.ends) (recorded : Recorded progress.ends join)
    (fresh : ∀ link next, Follows target id link next → Fresh target progress.visited next) :
    (runParts target (walk target links) (plan target id block join) progress).steps.Perm
      ((plan target id block join).flatMap (Part.all target links)) := by
  have apart : ((plan target id block join).filterMap Part.child?).Pairwise
      fun one two => Apart target one.1 two.1 := by
    rw [filterMap_child?_plan]
    exact pairwise_children linked root reached present
  -- of a construct, the opening is done first, so that the other parts find its end recorded
  cases control : block.control? with
  | none =>
    refine runParts_perm linked root tours right (fun part inside => ?_) apart
    refine ready_of_mem_plan reached present inside ?_ recorded (by simp [control]) fresh
    rintro node rfl
    obtain ⟨kind, is, -⟩ := exists_kind_of_opening_mem_plan inside
    simp [control] at is
  | some kind =>
    have whole : plan target id block join =
        .opening ⟨id, joinRole kind⟩ ::
          constructParts target id block kind ⟨id, joinRole kind⟩ join := by
      simp [plan, control]
    rw [whole] at apart ⊢
    simp only [runParts, Part.run, Outcome.emit_andThen, Outcome.steps_after, List.flatMap_cons]
    refine List.Perm.append (.refl _)
      (runParts_perm linked root tours (right.cons present control) (fun part inside => ?_) apart)
    refine ready_of_mem_plan reached present (whole ▸ List.mem_cons_of_mem _ inside) ?_ ?_ ?_ fresh
    · rintro node rfl
      exact opening_not_mem_constructParts control inside
    · exact fun node is => right.lookup_cons present control (recorded node is)
    · intro other is
      obtain rfl := Option.some.inj (control.symm.trans is)
      exact List.lookup_cons_self

/-- A walk draws what is drawn for its stops, each on its own. -/
theorem tours (links : Nat) : Tours target entry links := by
  induction links with
  | zero =>
    intro id count join progress reached _ _ fresh
    obtain ⟨block, present⟩ := exists_block_of_hasBlock (reached.hasBlock root.hasBlock)
    simp [walk_zero target id (fresh id .refl) present, stops, Stop.steps, present]
  | succ links ih =>
    intro id count join progress reached right recorded fresh
    obtain ⟨block, present⟩ := exists_block_of_hasBlock (reached.hasBlock root.hasBlock)
    -- what the block leads to was not visited, and the block itself is not among it
    have below : ∀ link next, Follows target id link next →
        Fresh target (progress.visit id).visited next := by
      intro link next follows other beyond inside
      obtain rfl | inside := List.mem_cons.mp inside
      · exact linked.not_leads_of_follows root reached follows beyond
      · exact fresh other (follows.leads.trans beyond) inside
    have drawn := (runParts_plan_perm linked root (progress.visit id) ih reached present
      right recorded below).trans (flatMap_all_perm links _)
    rw [filterMap_child?_plan] at drawn
    rw [walk_eq_runParts target id (fresh id .refl) present]
    simp only [stops, Stop.steps, present, Outcome.steps_after, List.flatMap_cons,
      List.flatMap_assoc, List.cons_append, List.nil_append]
    exact drawn.cons _

/-- A script draws what is drawn for its blocks, each on its own. -/
theorem scriptSteps_perm :
    (scriptSteps target entry).Perm
      ((stops target linkLimit entry none).flatMap (Stop.steps target)) :=
  tours linked root linkLimit entry 0 none .start .start (rightEnds_nil target) (recorded_none _)
    (by simp [Fresh, Progress.start])

end Walks

end ScriptChart.Flow
