import ScriptChart.Label.Reference
import ScriptChart.Proofs.Label.Report

/-!
# Properties of all values

The text of a value is put together from fixed texts, from the fields and the messages that a target
has, and from the texts of the blocks in input slots. So a property that these have, and that is
kept when one rendering follows another, is a property of every value.

## Main definitions

* `Closed`: a property is kept when renderings are put together.
* `Resolver.Closed`: what is rendered for a target has a property, except for references.

## Main results

* `Resolver.Closed.inputVia`, `Resolver.Closed.expandVia`: a property of the references is one of
  inputs and of expansions.
-/

namespace ScriptChart.Label

open ScriptChart.Phrase ScriptChart.Project

/-- Renderings have a property when they are put together from renderings that have it. -/
structure Closed (holds : {α : Type} → Rendering α → Prop) : Prop where
  pure {α : Type} (value : α) : holds (Pure.pure value)
  bind {α β : Type} {first : Rendering α} {next : α → Rendering β} :
    holds first → (∀ value, holds (next value)) → holds (first >>= next)

namespace Closed

variable {holds : {α : Type} → Rendering α → Prop} (closed : Closed holds)
include closed

theorem mapM {α β : Type} {text : α → Rendering β} (each : ∀ item, holds (text item))
    (items : List α) : holds (items.mapM text) := by
  induction items with
  | nil => exact closed.pure []
  | cons item rest ih =>
    rw [List.mapM_cons]
    exact closed.bind (each item) fun _ => closed.bind ih fun _ => closed.pure _

theorem fillSlots {argument : String → Rendering String} (each : ∀ id, holds (argument id))
    (parts : List Part) (ids : List String) : holds (fillSlots argument parts ids) := by
  induction parts generalizing ids with
  | nil => exact closed.pure []
  | cons part parts ih =>
    cases part with
    | plain c => exact closed.bind (ih ids) fun _ => closed.pure _
    | slot kind =>
      cases ids with
      | nil => exact closed.bind (ih []) fun _ => closed.pure _
      | cons id ids =>
        exact closed.bind (each id) fun _ => closed.bind (ih ids) fun _ => closed.pure _

end Closed

namespace Resolver

/-- A property is closed, and so it holds of what is rendered for a target, except for the blocks in
input slots: of its fields and messages, and where a block is missing. -/
structure Closed (r : Resolver) (holds : {α : Type} → Rendering α → Prop) : Prop
    extends Label.Closed holds where
  fields (block : Block) : holds (liftM (r.fields block))
  broadcast (given : String) (id : Option String) : holds (liftM (r.broadcast given id))
  missing {id : String} (absent : r.target.hasBlock id = false) :
    holds (liftM (Report.fault (.missingBlock r.target.name id)))

namespace Closed

variable {r : Resolver} {holds : {α : Type} → Rendering α → Prop} (closed : r.Closed holds)
  {reference : ReferenceText}
  (each : ∀ id block, r.target.hasBlock id = true → holds (reference id block))
include closed each

/-- An input is shown by reference only when the target has the block that it names. -/
theorem inputVia (value : InputValue) : holds (r.inputVia reference value) := by
  induction value with
  | literal text => exact closed.pure text
  | nested inner ih => exact ih
  | broadcast name id => exact closed.broadcast name id
  | block id =>
    unfold Resolver.inputVia
    cases found : r.target.block? id with
    | some block => exact each id block (Option.isSome_iff_exists.mpr ⟨block, found⟩)
    | none =>
      have absent : r.target.hasBlock id = false := by
        change (r.target.block? id).isSome = false
        rw [found, Option.isSome_none]
      exact closed.bind (closed.missing absent) fun _ => closed.pure id

theorem procedureVia (block : Block) : holds (r.procedureVia reference block) := by
  unfold Resolver.procedureVia
  split
  · refine closed.bind (closed.fillSlots (fun id => ?_) _ _) fun _ => closed.pure _
    cases block.inputs.get? id with
    | some value => exact closed.inputVia each value
    | none => exact closed.pure ""
  · exact closed.pure none

theorem operandsVia (block : Block) (keys : List String) :
    holds (r.operandsVia reference block keys) :=
  closed.bind (closed.mapM (closed.inputVia each) _) fun _ => closed.pure _

theorem expandVia (block : Block) : holds (r.expandVia reference block) := by
  refine closed.bind (closed.fields block) fun fields => ?_
  split
  · exact closed.pure _
  · refine closed.bind (closed.procedureVia each block) fun label => ?_
    cases label with
    | some label => exact closed.pure label
    | none => exact closed.bind (closed.operandsVia each block _) fun _ => closed.pure _

end Closed

end Resolver

end ScriptChart.Label
