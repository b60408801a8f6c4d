import ScriptChart.Proofs.Flow.Plan

/-!
# What walks do to the progress

A relation between the progress before and after a part of a walk holds of whole walks when it
holds of the single things that change the progress: visiting a block, recording the end of a
construct, and forgetting what the body of a loop visited. Two facts about all targets follow: a
walk visits only blocks that its start leads to, and it keeps the records of constructs, all of
which are right.

## Main definitions

* `Kept`: a relation that holds of everything that changes the progress.
* `RightEnds`: every record is the node in which the construct that it belongs to ends.

## Main results

* `Kept.walk`: what is kept by every change is kept by a walk.
* `mem_visited_walk`, `visited_subset_walk`: a walk visits only what its start leads to, and what
  was visited stays visited.
* `rightEnds_walk`, `lookup_ends_walk`: records are right and stay.
-/

namespace ScriptChart.Flow

open ScriptChart.Project

/-- A relation between the progress before and after a walk from a block that holds of everything
that changes the progress, and of a block when it holds of the next one. -/
structure Kept (target : Target) (kept : String → Progress → Progress → Prop) : Prop where
  refl : ∀ id progress, kept id progress progress
  trans : ∀ {id first second third}, kept id first second → kept id second third →
    kept id first third
  visit : ∀ id progress, kept id progress (progress.visit id)
  record : ∀ {id block kind} progress, target.block? id = some block →
    block.control? = some kind → kept id progress (progress.record ⟨id, joinRole kind⟩)
  forget : ∀ {id before after}, kept id before after →
    kept id before { after with visited := before.visited }
  follow : ∀ {id link next before after}, Follows target id link next →
    kept next before after → kept id before after

namespace Kept

variable {target : Target} {kept : String → Progress → Progress → Prop} (keeps : Kept target kept)
include keeps

/-- What holds of every part holds of all of them. -/
theorem runParts {walker : Walker} {id : String} {parts : List Part}
    (each : ∀ part ∈ parts, ∀ progress,
      kept id progress (part.run target walker progress).progress) (progress : Progress) :
    kept id progress (runParts target walker parts progress).progress := by
  induction parts generalizing progress with
  | nil => exact keeps.refl id progress
  | cons part rest ih =>
    exact keeps.trans (each part List.mem_cons_self progress)
      (ih (fun other later => each other (List.mem_cons_of_mem part later)) _)

/-- What holds of walks from the next blocks holds of every part of a plan. -/
theorem run_of_mem_plan {walker : Walker} {id : String} {block : Block}
    {continuation : Option Node} {part : Part} (present : target.block? id = some block)
    (walks : ∀ first other progress,
      kept first progress (walker first other progress).progress)
    (inside : part ∈ plan target id block continuation) (progress : Progress) :
    kept id progress (part.run target walker progress).progress := by
  cases part with
  | emit step => exact keeps.refl id progress
  | rejoin join other => exact keeps.refl id progress
  | opening join =>
    obtain ⟨kind, control, rfl⟩ := exists_kind_of_opening_mem_plan inside
    exact keeps.record progress present control
  | walk visits first other =>
    obtain ⟨link, followed, leads, -⟩ := exists_link_of_walk_mem_plan inside
    -- a copy of what was visited changes nothing but what is visited afterwards
    have reached := keeps.follow ⟨block, present, followed, leads⟩ (walks first other progress)
    cases visits with
    | shared => exact reached
    | forked => exact keeps.forget reached

/-- What is kept by everything that changes the progress is kept by a walk. -/
theorem walk (links : Nat) (id : String) (continuation : Option Node) (progress : Progress) :
    kept id progress (walk target links id continuation progress).progress := by
  -- induction on the links that may still be followed, which bounds the walks of a plan
  induction links generalizing id continuation progress with
  | zero =>
    obtain passed | ⟨block, fresh, present⟩ := passed_or_fresh target id progress
    · simpa [walk_of_passed target id passed] using keeps.refl id progress
    · simpa [walk_zero target id fresh present] using keeps.visit id progress
  | succ links ih =>
    obtain passed | ⟨block, fresh, present⟩ := passed_or_fresh target id progress
    · simpa [walk_of_passed target id passed] using keeps.refl id progress
    · rw [walk_eq_runParts target id fresh present]
      exact keeps.trans (keeps.visit id progress)
        (keeps.runParts (fun part inside => keeps.run_of_mem_plan present ih inside) _)

end Kept

/-! ### Visited blocks -/

theorem kept_visited (target : Target) :
    Kept target fun id before after =>
      ∀ other ∈ after.visited, other ∈ before.visited ∨ Leads target id other where
  refl _ _ _ inside := .inl inside
  trans first second other inside := (second other inside).elim (first other) .inr
  visit _ _ _ inside := (List.mem_cons.mp inside).elim (fun same => .inr (same ▸ .refl)) .inl
  record _ _ _ _ inside := .inl inside
  forget _ _ inside := .inl inside
  follow follows next other inside :=
    (next other inside).imp_right fun leads => follows.leads.trans leads

/-- A walk visits only blocks that its start leads to. -/
theorem mem_visited_walk {target : Target} {links : Nat} {id other : String}
    {continuation : Option Node} {progress : Progress}
    (visited : other ∈ (walk target links id continuation progress).progress.visited) :
    other ∈ progress.visited ∨ Leads target id other :=
  (kept_visited target).walk links id continuation progress other visited

theorem kept_visited_subset (target : Target) :
    Kept target fun _ before after => before.visited ⊆ after.visited where
  refl _ _ := List.Subset.refl _
  trans first second := List.Subset.trans first second
  visit _ _ := List.subset_cons_self _ _
  record _ _ _ := List.Subset.refl _
  forget _ := List.Subset.refl _
  follow _ next := next

/-- What was visited before a walk stays visited. -/
theorem visited_subset_walk (target : Target) (links : Nat) (id : String)
    (continuation : Option Node) (progress : Progress) :
    progress.visited ⊆ (walk target links id continuation progress).progress.visited :=
  (kept_visited_subset target).walk links id continuation progress

/-! ### Records of constructs -/

/-- Every record is the node in which the construct that it belongs to ends. -/
def RightEnds (target : Target) (ends : Ends) : Prop :=
  ∀ id node, ends.lookup id = some node → ∃ block kind, target.block? id = some block ∧
    block.control? = some kind ∧ node = ⟨id, joinRole kind⟩

theorem rightEnds_nil (target : Target) : RightEnds target [] := by
  intro id node found
  simp at found

theorem RightEnds.cons {target : Target} {ends : Ends} {id : String} {block : Block}
    {kind : ControlKind} (right : RightEnds target ends) (present : target.block? id = some block)
    (control : block.control? = some kind) :
    RightEnds target ((id, ⟨id, joinRole kind⟩) :: ends) := by
  intro other node found
  by_cases same : other = id
  · subst same
    simp only [List.lookup_cons_self, Option.some.injEq] at found
    exact ⟨block, kind, present, control, found.symm⟩
  · rw [Entries.lookup_cons_of_ne same] at found
    exact right other node found

/-- A further record of a construct changes no look-up that has an answer. -/
theorem RightEnds.lookup_cons {target : Target} {ends : Ends} {id other : String} {block : Block}
    {kind : ControlKind} {node : Node} (right : RightEnds target ends)
    (present : target.block? id = some block) (control : block.control? = some kind)
    (found : ends.lookup other = some node) :
    ((id, (⟨id, joinRole kind⟩ : Node)) :: ends).lookup other = some node := by
  by_cases same : other = id
  · -- a second record of the same construct is the same node
    subst same
    obtain ⟨block', kind', present', control', rfl⟩ := right other node found
    obtain rfl := Option.some.inj (present.symm.trans present')
    obtain rfl := Option.some.inj (control.symm.trans control')
    exact List.lookup_cons_self
  · rw [Entries.lookup_cons_of_ne same, found]

theorem kept_ends (target : Target) :
    Kept target fun _ before after => RightEnds target before.ends →
      RightEnds target after.ends ∧ ∀ other node, before.ends.lookup other = some node →
        after.ends.lookup other = some node where
  refl _ _ right := ⟨right, fun _ _ found => found⟩
  trans first second right :=
    have ⟨between, kept⟩ := first right
    have ⟨after, keeps⟩ := second between
    ⟨after, fun other node found => keeps other node (kept other node found)⟩
  visit _ _ right := ⟨right, fun _ _ found => found⟩
  record _ present control right :=
    ⟨right.cons present control, fun _ _ found => right.lookup_cons present control found⟩
  forget same := same
  follow _ same := same

theorem rightEnds_walk {target : Target} {progress : Progress}
    (right : RightEnds target progress.ends) (links : Nat) (id : String)
    (continuation : Option Node) :
    RightEnds target (walk target links id continuation progress).progress.ends :=
  ((kept_ends target).walk links id continuation progress right).1

theorem lookup_ends_walk {target : Target} {progress : Progress}
    (right : RightEnds target progress.ends) (links : Nat) (id : String)
    (continuation : Option Node) {other : String} {node : Node}
    (found : progress.ends.lookup other = some node) :
    (walk target links id continuation progress).progress.ends.lookup other = some node :=
  ((kept_ends target).walk links id continuation progress right).2 other node found

end ScriptChart.Flow
