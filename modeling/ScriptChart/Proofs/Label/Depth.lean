import ScriptChart.Proofs.Label.Closed

/-!
# How deep expansions are nested

An expansion goes one level down and comes up again when it is done. So texts that are rendered one
after the other are all rendered at the same depth, and the levels that are left to one of them
follow from that depth.

## Main definitions

* `KeepsDepth`: a rendering comes out as deep as it went in.

## Main results

* `closed_keepsDepth`, `keepsDepth_referenceWithin`: values keep the depth.
* `run_reference`, `run_mapM_input`: the texts of blocks and inputs at a depth, by the levels that
  are left.
-/

namespace ScriptChart.Label

open ScriptChart.Phrase ScriptChart.Project

/-- A rendering comes out as deep as it went in. -/
def KeepsDepth {α : Type} (rendering : Rendering α) : Prop :=
  ∀ trail, (rendering.run trail).value.2.depth = trail.depth

theorem keepsDepth_liftM {α : Type} (report : Report α) :
    KeepsDepth (liftM report : Rendering α) :=
  fun _ => rfl

namespace Resolver

variable (r : Resolver)

/-- Only references change the depth. -/
theorem closed_keepsDepth : r.Closed KeepsDepth where
  pure _ _ := rfl
  bind keeps later trail := by
    simp only [StateT.run_bind, Report.value_bind]
    exact (later _ _).trans (keeps trail)
  fields _ := keepsDepth_liftM _
  broadcast _ _ := keepsDepth_liftM _
  missing _ := keepsDepth_liftM _

/-- The text of a block that is expanded for the first time is that of its expansion, one level
deeper. -/
theorem run_referenceWithin_succ {trail : Trail} {id : String} (fresh : id ∉ trail.expanded)
    (levels : Nat) (block : Block) :
    (r.referenceWithin (levels + 1) id block).run trail =
      (fun expanded => (expanded.1, expanded.2.leave)) <$>
        (r.expandVia (r.referenceWithin levels) block).run (trail.enter id) := by
  simp [referenceWithin, fresh]

/-- A reference comes up again from its expansion. -/
theorem keepsDepth_referenceWithin (levels : Nat) (id : String) (block : Block) :
    KeepsDepth (r.referenceWithin levels id block) := by
  induction levels generalizing id block with
  | zero => exact r.closed_keepsDepth.bind (keepsDepth_liftM _) fun _ _ => rfl
  | succ levels ih =>
    intro trail
    by_cases known : id ∈ trail.expanded
    · have cut : (r.referenceWithin (levels + 1) id block).run trail =
          (liftM (Report.fault (.circularReference r.target.name id)) >>= fun _ =>
            pure (r.dictionary.synthetic .circularReference) : Rendering String).run trail := by
        simp [referenceWithin, known]
      rw [cut]
      exact r.closed_keepsDepth.bind (keepsDepth_liftM _) (fun _ _ => rfl) trail
    · have inside := r.closed_keepsDepth.expandVia (fun next other _ => ih next other) block
        (trail.enter id)
      rw [run_referenceWithin_succ r known, Report.value_map, Trail.leave, inside, Trail.enter,
        Nat.add_sub_cancel]

/-- The text of a block in an input slot, by the levels that are left at a depth. -/
theorem run_reference {trail : Trail} {levels : Nat} (left : levels + trail.depth = expansionLimit)
    (id : String) (block : Block) :
    (r.reference id block).run trail = (r.referenceWithin levels id block).run trail := by
  have levels_eq : expansionLimit - trail.depth = levels := by omega
  change (r.referenceWithin (expansionLimit - trail.depth) id block).run trail = _
  rw [levels_eq]

/-- The text of an input, by the levels that are left at a depth. -/
theorem run_input {trail : Trail} {levels : Nat} (left : levels + trail.depth = expansionLimit)
    (value : InputValue) :
    (r.input value).run trail = (r.inputVia (r.referenceWithin levels) value).run trail := by
  unfold input
  induction value with
  | literal text | broadcast name id => rfl
  | nested inner ih => exact ih
  | block id =>
    unfold inputVia
    cases r.target.block? id with
    | none => rfl
    | some block => exact r.run_reference left id block

/-- The texts of inputs that are rendered one after the other at a depth, by the levels that are
left. -/
theorem run_mapM_input {trail : Trail} {levels : Nat} (left : levels + trail.depth = expansionLimit)
    (values : List InputValue) :
    (values.mapM r.input).run trail =
      (values.mapM (r.inputVia (r.referenceWithin levels))).run trail := by
  induction values generalizing trail with
  | nil => rfl
  | cons value rest ih =>
    have keeps := r.closed_keepsDepth.inputVia
      (fun id block _ => r.keepsDepth_referenceWithin levels id block) value trail
    -- what is left after the first input is what was left before it
    have later := @ih ((r.inputVia (r.referenceWithin levels) value).run trail).value.2
      (by rwa [keeps])
    rw [List.mapM_cons, List.mapM_cons, StateT.run_bind, StateT.run_bind, r.run_input left]
    apply Report.bind_congr
    rw [StateT.run_bind, StateT.run_bind, later]

end Resolver

end ScriptChart.Label
