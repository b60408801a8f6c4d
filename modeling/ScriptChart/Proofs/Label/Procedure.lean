import ScriptChart.Proofs.Label.Slots
import ScriptChart.Proofs.OrderedMap
import ScriptChart.Proofs.Phrase.Wording

/-!
# The wording of a procedure call

A call of a custom procedure is shown by the procedure's wording. Its arguments are put into the
slots of the wording in the order in which their ids are listed, and they are rendered in this order
too, on one trail. A slot without an argument stays as written, and an argument without a slot is
not rendered.

## Main definitions

* `ListsStrings`, `ListsArguments`: the argument ids that a mutation lists.
* `Resolver.argument`: the text of an argument.
* `slotText`: a slot and the text before it, with an argument in the slot.

## Main results

* `listsArguments_iff`: the argument ids are determined.
* `fillSlots_partsOf`: slots are filled one after the other, each with the argument in its place.
* `Resolver.procedure_fills_slots`: how a procedure call is shown.
-/

namespace ScriptChart.Label

open ScriptChart.Phrase ScriptChart.Project

/-! ### Argument ids -/

/-- A text is a JSON list of strings. -/
def ListsStrings (text : String) (strings : List String) : Prop :=
  ∃ items, Json.Tree.ofText? text = some (.array items) ∧
    items.map Json.Tree.string? = strings.map some

/-- The argument ids of a mutation are those that it lists. When it has no list, or something that
is not a JSON list of strings, there are none. -/
inductive ListsArguments : Option String → List String → Prop
  | listed {text : String} {ids : List String} (lists : ListsStrings text ids) :
      ListsArguments (some text) ids
  | unlisted {listing : Option String}
      (nothing : ∀ text ∈ listing, ∀ ids, ¬ ListsStrings text ids) : ListsArguments listing []

theorem stringsOfText?_eq_some_iff {text : String} {strings : List String} :
    Json.stringsOfText? text = some strings ↔ ListsStrings text strings := by
  have each : ∀ items : List Json.Tree, items.map Json.Tree.string? = strings.map some ↔
      items.mapM Json.Tree.string? = some strings := by
    intro items
    rw [mapM_eq_some_iff, ← List.forall₂_eq_eq_eq, List.forall₂_map_left_iff,
      List.forall₂_map_right_iff]
  simp only [Json.stringsOfText?, Option.bind_eq_some_iff, ListsStrings, each]
  constructor
  · rintro ⟨tree, reads, lists⟩
    cases tree with
    | array items => exact ⟨items, reads, lists⟩
    | scalar _ => cases lists
    | object _ => cases lists
  · rintro ⟨items, reads, lists⟩
    exact ⟨.array items, reads, lists⟩

/-- The argument ids are determined. -/
theorem listsArguments_iff (wording : Option String) {listing : Option String}
    {ids : List String} : ListsArguments listing ids ↔ ids = argumentIds ⟨wording, listing⟩ := by
  unfold argumentIds
  constructor
  · intro lists
    cases lists with
    | listed lists => simp [stringsOfText?_eq_some_iff.mpr lists]
    | unlisted nothing =>
      have unread : listing.bind Json.stringsOfText? = none := by
        rw [Option.eq_none_iff_forall_ne_some]
        intro ids read
        obtain ⟨text, held, reads⟩ := Option.bind_eq_some_iff.mp read
        exact nothing text held ids (stringsOfText?_eq_some_iff.mp reads)
      rw [unread, Option.getD_none]
  · rintro rfl
    cases read : listing.bind Json.stringsOfText? with
    | some ids =>
      obtain ⟨text, held, reads⟩ := Option.bind_eq_some_iff.mp read
      rw [held]
      exact .listed (stringsOfText?_eq_some_iff.mp reads)
    | none =>
      refine .unlisted fun text held ids lists => ?_
      have reads := Option.bind_eq_some_iff.mpr ⟨text, held, stringsOfText?_eq_some_iff.mpr lists⟩
      rw [read] at reads
      cases reads

/-! ### Filling slots -/

/-- A slot and the text before it, with a text in the slot, if there is one for it. -/
def slotText (argument : String → Rendering String) (slot : Slot) :
    Option String → Rendering (List Char)
  | some id => return slot.gap ++ (← argument id).toList
  | none => return slot.written

theorem fillSlots_plains (argument : String → Rendering String) (gap : List Char)
    (parts : List Part) (ids : List String) :
    fillSlots argument (gap.map .plain ++ parts) ids = (do
      return gap ++ (← fillSlots argument parts ids)) := by
  induction gap with
  | nil => simp
  | cons c gap ih => simp [fillSlots, ih]

/-- Slots are filled one after the other, each with the argument in its place. -/
theorem fillSlots_partsOf (argument : String → Rendering String) (slots : List Slot)
    (last : List Char) (ids : List String) (start : Nat) :
    fillSlots argument (partsOf slots last) (ids.drop start) = (do
      let texts ← (slots.zipIdx start).mapM fun entry => slotText argument entry.1 ids[entry.2]?
      return texts.flatten ++ last) := by
  -- induction on the slots: each takes the first of the ids that are left
  induction slots generalizing start with
  | nil =>
    have filled := fillSlots_plains argument last [] (ids.drop start)
    simpa [partsOf, fillSlots] using filled
  | cons slot slots ih =>
    rw [partsOf_cons, fillSlots_plains, List.zipIdx_cons, List.mapM_cons]
    cases held : ids[start]? with
    | none =>
      have done : ids.length ≤ start := List.getElem?_eq_none_iff.mp held
      have later := ih (start + 1)
      rw [List.drop_eq_nil_of_le (by omega)] at later
      simp [List.drop_eq_nil_of_le done, fillSlots, slotText, Slot.written, later]
    | some id =>
      obtain ⟨within, rfl⟩ := List.getElem?_eq_some_iff.mp held
      rw [List.drop_eq_getElem_cons within]
      simp [fillSlots, slotText, ih (start + 1)]

namespace Resolver

variable (r : Resolver)

/-- The text of an argument, empty when the block has no such input. -/
def argument (reference : ReferenceText) (block : Block) (id : String) : Rendering String :=
  match block.inputs.get? id with
  | some value => r.inputVia reference value
  | none => return ""

/-- How a call of a custom procedure is shown. The slots of its wording and its argument ids are
determined. However blocks in input slots are shown, the wording is shown with its slots filled one
after the other on one trail, each with the text of the argument in its place; a slot without an
argument stays as written, and so does all that is between the slots. Nothing else is rendered. -/
theorem procedure_fills_slots {block : Block} {wording : String} {listing : Option String}
    (calls : block.mutation = some ⟨some wording, listing⟩) :
    ∃ (slotting : Slotting wording.toList) (ids : List String),
      (∀ other : Slotting wording.toList, other = slotting) ∧
      (∀ others, ListsArguments listing others ↔ others = ids) ∧
      ∀ reference : ReferenceText, r.procedureVia reference block = do
        let texts ← slotting.slots.zipIdx.mapM fun entry =>
          slotText (r.argument reference block) entry.1 ids[entry.2]?
        return some (String.ofList (texts.flatten ++ slotting.last)) := by
  obtain ⟨slotting⟩ := Slotting.nonempty wording.toList
  refine ⟨slotting, argumentIds ⟨some wording, listing⟩, slotting.unique,
    fun others => listsArguments_iff (some wording), fun reference => ?_⟩
  have filled := fillSlots_partsOf (r.argument reference block) slotting.slots slotting.last
    (argumentIds ⟨some wording, listing⟩) 0
  rw [List.drop_zero, ← cutWording_eq_parts] at filled
  have via : r.procedureVia reference block = (do
      let text ← fillSlots (r.argument reference block) (cutWording wording.toList)
        (argumentIds ⟨some wording, listing⟩)
      return some (String.ofList text)) := by
    rw [procedureVia, calls]
    rfl
  simp [via, filled]

end Resolver

/-- A call with four slots and three arguments, of which the block has two. -/
def callBlock : Block where
  opcode := "procedures_call"
  inputs := .ofList [("N", .nested (.literal "7")), ("TEXT", .nested (.literal "%b"))]
  mutation := some ⟨some "say %s or %b%%n %s", some "[\"TEXT\",\"GONE\",\"N\"]"⟩

/-- A target without blocks, and a dictionary. -/
def callResolver : Resolver := ⟨{ name := "Cat" }, .ofLocale .english⟩

/-- An argument that looks like a slot is shown as it is, one that the block does not have is shown
as nothing, and the slot without an argument is kept. -/
theorem procedure_fills_slots_callBlock :
    callBlock.mutation =
        some ⟨some "say %s or %b%%n %s", some "[\"TEXT\",\"GONE\",\"N\"]"⟩ ∧
      callResolver.procedure? callBlock = pure (some "say %b or %7 %s") := by
  have calls : callBlock.mutation =
      some ⟨some "say %s or %b%%n %s", some "[\"TEXT\",\"GONE\",\"N\"]"⟩ := rfl
  refine ⟨calls, ?_⟩
  obtain ⟨slotting, ids, -, listed, shown⟩ := callResolver.procedure_fills_slots calls
  have slots : slotting.slots = [⟨"say ".toList, 's'⟩, ⟨" or ".toList, 'b'⟩, ⟨['%'], 'n'⟩,
      ⟨[' '], 's'⟩] ∧ slotting.last = [] := by
    apply partsOf_inj
    rw [← cutWording_eq_parts]
    decide +kernel
  have arguments : ids = ["TEXT", "GONE", "N"] := by
    refine ((listed _).mp ((listsArguments_iff none).mpr ?_)).symm
    decide +kernel
  rw [Resolver.procedure?, shown, slots.1, slots.2, arguments]
  rfl

end ScriptChart.Label
