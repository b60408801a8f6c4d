import Mathlib.Data.List.Dedup
import Mathlib.Data.List.Perm.Subperm
import ScriptChart.Proofs.Label.Soundness
import ScriptChart.Proofs.Label.Visits

/-!
# What the trail keeps

A trail is shared by all that is rendered on it, so what one reference leaves behind is what the
next one begins with. Along the visits this is a chain: a visit that expands its block adds that
block to what is known, and any other visit adds nothing. As only a block that is not known is
expanded, none is expanded twice, whatever refers to what, and there are no more expansions than
blocks that were named.

## Main definitions

* `Visit.expands`, `expansions`: the visits that expand their block, and the blocks that they
  expand.
* `Visit.cut?`: what a visit reports that does not.
* `Learns`: what is known grows along the visits.

## Main results

* `Learns.eq`, `Learns.nodup`: what is known in the end, and that it was learned only once.
* `Resolver.Runs.learns`, `Resolver.Runs.depthWithin_le`: the visits of a rendering.
* `Resolver.Runs.filter_faults`: what is cut is what these visits report.
* `Resolver.trail_mapM_answer`: the trail of any renderings that share it.
-/

namespace ScriptChart

/-- Whether a fault is that a value was cut. -/
def Diagnostic.isCut : Diagnostic → Bool
  | .missingBlock .. | .missingBroadcast .. => false
  | .circularReference .. | .depthLimit .. => true

namespace Label

open ScriptChart.Phrase ScriptChart.Project

/-! ### Visits -/

namespace Visit

/-- What is reported at a visit that does not expand its block. -/
def cut? (target : String) (visit : Visit) : Option Diagnostic :=
  if expansionLimit ≤ visit.trail.depth then some (.depthLimit target visit.id)
  else if visit.id ∈ visit.trail.expanded then some (.circularReference target visit.id)
  else none

variable (visit : Visit)

/-- A visit expands its block when the trail is not at the limit and the block is new to it. -/
def expands : Bool :=
  visit.trail.depth < expansionLimit && !visit.trail.expanded.contains visit.id

/-- How deep the visit goes. -/
def depthWithin : Nat :=
  if visit.expands then visit.trail.depth + 1 else visit.trail.depth

/-- What is known once the visit has begun. -/
def learned : List String :=
  if visit.expands then visit.id :: visit.trail.expanded else visit.trail.expanded

variable {visit}

theorem expands_iff :
    visit.expands = true ↔
      visit.trail.depth < expansionLimit ∧ visit.id ∉ visit.trail.expanded := by
  simp [expands]

theorem expands_eq_false_of_le (deep : expansionLimit ≤ visit.trail.depth) :
    visit.expands = false := by
  simp [expands, Nat.not_lt.mpr deep]

theorem expands_eq_false_of_mem (known : visit.id ∈ visit.trail.expanded) :
    visit.expands = false := by
  simp [expands, known]

theorem depthWithin_le (within : visit.trail.depth ≤ expansionLimit) :
    visit.depthWithin ≤ expansionLimit := by
  unfold depthWithin
  split
  · next expands => exact (expands_iff.mp expands).1
  · exact within

theorem suffix_learned : visit.trail.expanded <:+ visit.learned := by
  unfold learned
  split
  · exact List.suffix_cons _ _
  · exact List.suffix_refl _

theorem cut?_eq_none_iff {target : String} : visit.cut? target = none ↔ visit.expands = true := by
  rw [expands_iff]
  unfold cut?
  split
  · simp only [reduceCtorEq, false_iff]
    omega
  · next shallow => simp [Nat.lt_of_not_le shallow]

end Visit

/-- The blocks that visits expand. -/
def expansions (visits : List Visit) : List String := (visits.filter Visit.expands).map Visit.id

theorem expansions_cons (visit : Visit) (visits : List Visit) :
    expansions (visit :: visits) =
      if visit.expands then visit.id :: expansions visits else expansions visits := by
  unfold expansions
  cases expands : visit.expands <;> simp [expands]

theorem mem_expansions {visits : List Visit} {id : String} :
    id ∈ expansions visits ↔ ∃ visit ∈ visits, visit.expands = true ∧ visit.id = id := by
  simp [expansions, and_assoc]

/-! ### What is known along visits -/

/-- Visits lead from what is known before them to what is known after them. -/
inductive Learns : List String → List Visit → List String → Prop
  | nil (known : List String) : Learns known [] known
  | cons {visit : Visit} {visits : List Visit} {before after : List String}
      (here : visit.trail.expanded = before) (later : Learns visit.learned visits after) :
      Learns before (visit :: visits) after

namespace Learns

variable {before between after : List String} {front back visits : List Visit}

theorem append (first : Learns before front between) (second : Learns between back after) :
    Learns before (front ++ back) after := by
  induction first with
  | nil => exact second
  | cons here _ ih => exact .cons here (ih second)

theorem split (learns : Learns before (front ++ back) after) :
    ∃ between, Learns before front between ∧ Learns between back after := by
  induction front generalizing before with
  | nil => exact ⟨before, .nil before, learns⟩
  | cons visit front ih =>
    cases learns with
    | cons here later =>
      obtain ⟨between, first, second⟩ := ih later
      exact ⟨between, .cons here first, second⟩

/-- What is known is what was known before, and the blocks that were expanded since. -/
theorem eq (learns : Learns before visits after) :
    after = (expansions visits).reverse ++ before := by
  induction learns with
  | nil => rfl
  | cons here _ ih =>
    rw [ih, expansions_cons, Visit.learned, here]
    split <;> simp

section

variable {place : Place} {id : String} {trail : Trail}

/-- A visit that expands nothing adds nothing. -/
theorem skip (cut : Visit.expands ⟨place, id, trail⟩ = false)
    (later : Learns trail.expanded visits after) :
    Learns trail.expanded (⟨place, id, trail⟩ :: visits) after := by
  refine cons rfl ?_
  rwa [Visit.learned, cut]

/-- A visit that expands its block adds it. -/
theorem expand (expands : Visit.expands ⟨place, id, trail⟩ = true)
    (later : Learns (trail.enter id).expanded visits after) :
    Learns trail.expanded (⟨place, id, trail⟩ :: visits) after := by
  refine cons rfl ?_
  rwa [Visit.learned, if_pos expands]

end

/-- A visit begins with what was known before all visits, and with what was expanded since. -/
theorem expanded_eq {visit : Visit} (learns : Learns before (front ++ visit :: back) after) :
    visit.trail.expanded = (expansions front).reverse ++ before := by
  obtain ⟨between, first, second⟩ := learns.split
  cases second with
  | cons here _ => exact here.trans first.eq

/-- What is known only grows. -/
theorem suffix (learns : Learns before visits after) : before <:+ after :=
  ⟨_, learns.eq.symm⟩

/-- What is known at a visit stays known at all later ones. -/
theorem pairwise (learns : Learns before visits after) :
    visits.Pairwise fun earlier later => earlier.trail.expanded <:+ later.trail.expanded := by
  induction learns with
  | nil => exact .nil
  | @cons visit visits before after here later ih =>
    refine List.pairwise_cons.mpr ⟨fun next inside => ?_, ih⟩
    obtain ⟨front, back, rfl⟩ := List.append_of_mem inside
    exact visit.suffix_learned.trans ⟨_, later.expanded_eq.symm⟩

/-- A block that is known is not expanded. -/
theorem not_mem (learns : Learns before visits after) {id : String}
    (expanded : id ∈ expansions visits) : id ∉ before := by
  obtain ⟨visit, inside, expands, rfl⟩ := mem_expansions.mp expanded
  obtain ⟨front, back, rfl⟩ := List.append_of_mem inside
  have fresh := (Visit.expands_iff.mp expands).2
  rw [learns.expanded_eq, List.mem_append, not_or] at fresh
  exact fresh.2

/-- No block is expanded twice. -/
theorem nodup (learns : Learns before visits after) : (expansions visits).Nodup := by
  induction learns with
  | nil => exact List.nodup_nil
  | @cons visit visits before after here later ih =>
    rw [expansions_cons]
    split
    · next expands =>
      -- the block is known to all that come after it
      have known : visit.id ∈ visit.learned := by simp [Visit.learned, expands]
      exact List.nodup_cons.mpr ⟨fun again => later.not_mem again known, ih⟩
    · exact ih

end Learns

/-- There are no more expansions than blocks that were named. -/
theorem length_expansions_le {visits : List Visit} (once : (expansions visits).Nodup) :
    (expansions visits).length ≤ (visits.map Visit.id).dedup.length := by
  refine (List.Nodup.subperm once fun id expanded => ?_).length_le
  obtain ⟨visit, inside, -, rfl⟩ := mem_expansions.mp expanded
  exact List.mem_dedup.mpr (List.mem_map_of_mem inside)

/-! ### The visits of a rendering -/

namespace Resolver

variable {r : Resolver} {asked : List Asked} {trail : Trail} {account : Account}

namespace Runs

/-- What one reference leaves behind is what the next one begins with. -/
theorem learns (runs : r.Runs asked trail account) :
    Learns trail.expanded account.visits account.final.expanded := by
  -- induction on the rules: the visits inside an expansion come before those behind it
  induction runs with
  | done => exact .nil _
  | nested _ ih | found _ _ ih => exact ih
  | literal _ ih | broadcast _ ih | missing _ _ ih => exact ih
  | cut deep _ ih => exact .skip (Visit.expands_eq_false_of_le deep) ih
  | refuse _ known _ ih => exact .skip (Visit.expands_eq_false_of_mem known) ih
  | expand shallow fresh _ _ inside ih =>
    exact .expand (Visit.expands_iff.mpr ⟨shallow, fresh⟩) (inside.append ih)

/-- No visit goes deeper than the limit, unless the trail began there. -/
theorem depthWithin_le (runs : r.Runs asked trail account) (within : trail.depth ≤ expansionLimit) :
    ∀ visit ∈ account.visits, visit.depthWithin ≤ expansionLimit := by
  induction runs with
  | done => simp
  | nested _ ih | found _ _ ih => exact ih within
  | literal _ ih | broadcast _ ih | missing _ _ ih => exact ih within
  | cut _ _ ih | refuse _ _ _ ih =>
    exact List.forall_mem_cons.mpr ⟨Visit.depthWithin_le within, ih within⟩
  | expand shallow _ inside _ ihInside ih =>
    refine List.forall_mem_cons.mpr
      ⟨Visit.depthWithin_le within, List.forall_mem_append.mpr ⟨?_, ?_⟩⟩
    · exact ihInside shallow
    · refine ih ?_
      rw [Trail.leave, inside.depth_final]
      simpa [Trail.enter] using within

/-- What is cut is what the visits report that do not expand their block. -/
theorem filter_faults (runs : r.Runs asked trail account) :
    account.faults.filter Diagnostic.isCut =
      account.visits.filterMap (Visit.cut? r.target.name) := by
  -- fields and messages report nothing else than missing messages
  have told : ∀ id given, r.target.broadcasts.get? id = none →
      (Diagnostic.missingBroadcast r.target.name id given).isCut = false := fun _ _ _ => rfl
  have uncut {α : Type} {report : Report α} (only : report.Only (·.isCut = false)) :
      report.diagnostics.filter Diagnostic.isCut = [] :=
    List.filter_eq_nil_iff.mpr fun fault inside => by simp [only fault inside]
  induction runs with
  | done => rfl
  | nested _ ih | found _ _ ih => exact ih
  | literal _ ih => exact ih
  | broadcast _ ih => simpa [Account.behind, uncut (r.only_broadcast told _ _)] using ih
  | missing _ _ ih => simpa [Account.behind, Diagnostic.isCut] using ih
  | cut deep _ ih =>
    simpa [Account.behind, List.filter_cons, Diagnostic.isCut, Visit.cut?, deep] using ih
  | refuse shallow known _ ih =>
    simpa [Account.behind, List.filter_cons, Diagnostic.isCut, Visit.cut?, Nat.not_le.mpr shallow,
      known] using ih
  | expand shallow fresh _ _ inside ih =>
    simp [Account.behind, uncut (r.only_fields told _), Visit.cut?, Nat.not_le.mpr shallow, fresh,
      inside, ih]

end Runs

/-- However many renderings share a trail, and whatever refers to what, they come to an end; the
trail is as deep after each of them as before it, and never deeper than the limit; what is known
only grows; and no block is expanded twice, so that there are no more expansions than blocks that
were named. -/
theorem trail_mapM_answer (r : Resolver) (queries : List Query) :
    (∃ account, r.Runs (queries.map (Asked.mk .outside)) .start account ∧
      (queries.mapM r.answer).run .start = account.report ∧
      (∀ visit ∈ account.visits, visit.depthWithin ≤ expansionLimit) ∧
      (account.visits.Pairwise fun earlier later =>
        earlier.trail.expanded <:+ later.trail.expanded) ∧
      account.final.expanded = (expansions account.visits).reverse ∧
      (expansions account.visits).Nodup ∧
      (expansions account.visits).length ≤ (account.visits.map Visit.id).dedup.length) ∧
    ∀ (query : Query) (trail : Trail),
      ((r.answer query).run trail).value.2.depth = trail.depth ∧
      trail.expanded <:+ ((r.answer query).run trail).value.2.expanded := by
  constructor
  · obtain ⟨account, runs⟩ := r.exists_runs (queries.map (Asked.mk .outside)) .start
    have rendered : (queries.mapM r.answer).run .start = account.report := by
      rw [← runs.run_answers, answers, List.mapM_map]
      rfl
    have known : account.final.expanded = (expansions account.visits).reverse :=
      runs.learns.eq.trans (List.append_nil _)
    have once := runs.learns.nodup
    exact ⟨account, runs, rendered, runs.depthWithin_le (Nat.zero_le _), runs.learns.pairwise,
      known, once, length_expansions_le once⟩
  · intro query trail
    obtain ⟨account, runs⟩ := r.exists_runs [⟨.outside, query⟩] trail
    obtain ⟨text, -, rendered⟩ := runs.run_answer
    rw [rendered]
    exact ⟨runs.depth_final, runs.learns.suffix⟩

end Resolver

end Label

end ScriptChart
