import ScriptChart.Phrase.Wording

/-!
# The slots of a wording

A percent sign and a letter that tells a kind make a slot. Slots do not overlap, since a percent
sign tells no kind. So a wording is told by its slots, by what is written before each of them, and
by what is written after the last one.

## Main definitions

* `SlotFree`: no slot stands in a text.
* `Slotting`: a wording as its slots and the texts between them.

## Main results

* `cutWording_eq_parts`: the parts of a wording are those of its slots and the texts between them.
* `Slotting.nonempty`, `Slotting.unique`: there is just one way to read a wording.
-/

namespace ScriptChart.Phrase

/-- No slot stands in a text. -/
def SlotFree (text : List Char) : Prop :=
  ∀ before kind after, text = before ++ '%' :: kind :: after → isSlotKind kind = false

/-- A slot, with what is written between the slot before it and itself. -/
@[ext]
structure Slot where
  gap : List Char
  kind : Char
deriving DecidableEq, Repr

/-- A slot as it was written, after its gap. -/
def Slot.written (slot : Slot) : List Char := slot.gap ++ ['%', slot.kind]

/-- A wording as its slots from left to right, and what is written after the last one. -/
@[ext]
structure Slotting (wording : List Char) where
  slots : List Slot
  last : List Char
  gap_free : ∀ slot ∈ slots, SlotFree slot.gap
  kind : ∀ slot ∈ slots, isSlotKind slot.kind = true
  last_free : SlotFree last
  whole : slots.flatMap Slot.written ++ last = wording

/-- The parts of slots and of a text after them. -/
def partsOf (slots : List Slot) (last : List Char) : List Part :=
  (slots.flatMap fun slot => slot.gap.map .plain ++ [.slot slot.kind]) ++ last.map .plain

/-! ### Texts without slots -/

theorem isSlotKind_percent : isSlotKind '%' = false := by decide

theorem slotFree_nil : SlotFree [] := by simp [SlotFree]

theorem slotFree_cons_iff {c : Char} {text : List Char} :
    SlotFree (c :: text) ↔
      (c = '%' → ∀ kind ∈ text.head?, isSlotKind kind = false) ∧ SlotFree text := by
  constructor
  · refine fun free => ⟨?_, fun before kind after whole => ?_⟩
    · rintro rfl kind first
      obtain ⟨after, rfl⟩ := List.head?_eq_some_iff.mp first
      exact free [] kind after rfl
    · exact free (c :: before) kind after (by rw [whole, List.cons_append])
  · rintro ⟨first, later⟩ before kind after whole
    cases before with
    | nil =>
      obtain ⟨rfl, rfl⟩ := List.cons.inj whole
      exact first rfl kind rfl
    | cons d before => exact later before kind after (List.cons.inj whole).2

/-! ### The parts of a wording -/

theorem cutWording_cons_of_ne {c : Char} (other : c ≠ '%') (rest : List Char) :
    cutWording (c :: rest) = .plain c :: cutWording rest := by
  cases rest with
  | nil => simp [cutWording]
  | cons kind rest => simp [cutWording, other]

theorem cutWording_percent {rest : List Char}
    (alone : ∀ kind ∈ rest.head?, isSlotKind kind = false) :
    cutWording ('%' :: rest) = .plain '%' :: cutWording rest := by
  cases rest with
  | nil => simp [cutWording]
  | cons kind rest => simp [cutWording, alone kind rfl]

/-- A text without slots stands for itself, also before a slot. -/
theorem cutWording_append {gap : List Char} (free : SlotFree gap) (rest : List Char)
    (apart : ∀ kind ∈ rest.head?, isSlotKind kind = false) :
    cutWording (gap ++ rest) = gap.map .plain ++ cutWording rest := by
  induction gap with
  | nil => rfl
  | cons c gap ih =>
    obtain ⟨first, later⟩ := slotFree_cons_iff.mp free
    rw [List.cons_append, List.map_cons, List.cons_append, ← ih later]
    by_cases percent : c = '%'
    · -- a percent sign begins no slot, since what follows is no kind in the text nor behind it
      subst percent
      refine cutWording_percent fun kind next => ?_
      cases gap with
      | nil => exact apart kind next
      | cons d gap => exact first rfl kind next
    · exact cutWording_cons_of_ne percent _

/-- The parts of a wording are those of its slots and of the texts between them. -/
theorem cutWording_eq_parts {wording : List Char} (slotting : Slotting wording) :
    cutWording wording = partsOf slotting.slots slotting.last := by
  obtain ⟨slots, last, gap_free, kind, last_free, rfl⟩ := slotting
  induction slots with
  | nil =>
    have cut := cutWording_append last_free [] (by simp)
    simpa [partsOf, cutWording] using cut
  | cons slot slots ih =>
    have later := ih (fun other inside => gap_free other (List.mem_cons_of_mem slot inside))
      fun other inside => kind other (List.mem_cons_of_mem slot inside)
    have cut := cutWording_append (gap_free slot List.mem_cons_self)
      ('%' :: slot.kind :: (slots.flatMap Slot.written ++ last))
      (by simp [isSlotKind_percent])
    rw [cutWording, if_pos (kind slot List.mem_cons_self), later] at cut
    simpa [partsOf, Slot.written] using cut

/-! ### One way to read a wording -/

/-- Where the first slot is, is told by the parts. -/
theorem plains_append_slot_inj {gap gap' : List Char} {kind kind' : Char} {rest rest' : List Part}
    (same : gap.map Part.plain ++ .slot kind :: rest =
      gap'.map Part.plain ++ .slot kind' :: rest') :
    gap = gap' ∧ kind = kind' ∧ rest = rest' := by
  induction gap generalizing gap' with
  | nil => cases gap' <;> simp_all
  | cons c gap ih =>
    cases gap' with
    | nil => simp at same
    | cons d gap' =>
      obtain ⟨first, later⟩ := List.cons.inj same
      obtain ⟨rfl, rest⟩ := ih later
      exact ⟨by rw [Part.plain.inj first], rest⟩

theorem partsOf_cons (slot : Slot) (slots : List Slot) (last : List Char) :
    partsOf (slot :: slots) last =
      slot.gap.map .plain ++ .slot slot.kind :: partsOf slots last := by
  simp [partsOf]

/-- Slots and the text after them are told by their parts. -/
theorem partsOf_inj {slots slots' : List Slot} {last last' : List Char}
    (same : partsOf slots last = partsOf slots' last') : slots = slots' ∧ last = last' := by
  have apart : ∀ (slot : Slot) slots last last',
      partsOf (slot :: slots) last ≠ partsOf [] last' := by
    intro slot slots last last' same
    have inside : Part.slot slot.kind ∈ partsOf [] last' := by
      rw [← same, partsOf_cons]
      simp
    simp [partsOf] at inside
  induction slots generalizing slots' with
  | nil =>
    cases slots' with
    | nil =>
      have plains : last.map Part.plain = last'.map Part.plain := same
      exact ⟨rfl, (List.map_inj_right fun _ _ => Part.plain.inj).mp plains⟩
    | cons slot' slots' => exact absurd same.symm (apart slot' slots' last' last)
  | cons slot slots ih =>
    cases slots' with
    | nil => exact absurd same (apart slot slots last last')
    | cons slot' slots' =>
      rw [partsOf_cons, partsOf_cons] at same
      obtain ⟨gap, kind, later⟩ := plains_append_slot_inj same
      obtain ⟨rfl, rfl⟩ := ih later
      exact ⟨by rw [Slot.ext gap kind], rfl⟩

namespace Slotting

variable {wording : List Char}

theorem unique (slotting other : Slotting wording) : other = slotting := by
  have same := (cutWording_eq_parts other).symm.trans (cutWording_eq_parts slotting)
  obtain ⟨slots, last⟩ := partsOf_inj same
  exact Slotting.ext slots last

/-- A character before a wording that begins no slot belongs to the first of its texts. -/
theorem exists_cons (slotting : Slotting wording) {c : Char}
    (alone : c = '%' → ∀ kind ∈ wording.head?, isSlotKind kind = false) :
    Nonempty (Slotting (c :: wording)) := by
  obtain ⟨slots, last, gap_free, kind, last_free, whole⟩ := slotting
  cases slots with
  | nil =>
    refine ⟨[], c :: last, by simp, by simp, slotFree_cons_iff.mpr ⟨?_, last_free⟩, by simpa⟩
    rwa [show last = wording from whole]
  | cons slot slots =>
    obtain ⟨gap, letter⟩ := slot
    obtain ⟨first_free, gaps_free⟩ := List.forall_mem_cons.mp gap_free
    have grown : SlotFree (c :: gap) := by
      refine slotFree_cons_iff.mpr ⟨fun percent next first => ?_, first_free⟩
      obtain ⟨gap, rfl⟩ := List.head?_eq_some_iff.mp first
      exact alone percent next (by simp [← whole, Slot.written])
    refine ⟨⟨c :: gap, letter⟩ :: slots, last, List.forall_mem_cons.mpr ⟨grown, gaps_free⟩, ?_,
      last_free, by simpa [Slot.written] using whole⟩
    exact List.forall_mem_cons.mpr (List.forall_mem_cons.mp kind)

/-- Every wording can be read as slots and the texts between them. -/
theorem nonempty (wording : List Char) : Nonempty (Slotting wording) := by
  fun_induction cutWording wording with
  | case1 letter rest is_kind ih =>
    obtain ⟨slots, last, gap_free, kind, last_free, whole⟩ := ih
    exact ⟨⟨[], letter⟩ :: slots, last, List.forall_mem_cons.mpr ⟨slotFree_nil, gap_free⟩,
      List.forall_mem_cons.mpr ⟨is_kind, kind⟩, last_free, by simp [Slot.written, whole]⟩
  | case2 letter rest other ih =>
    obtain ⟨slotting⟩ := ih
    exact slotting.exists_cons fun _ kind first => by simp_all
  | case3 c rest other ih =>
    obtain ⟨slotting⟩ := ih
    refine slotting.exists_cons ?_
    rintro rfl kind first
    obtain ⟨after, rfl⟩ := List.head?_eq_some_iff.mp first
    exact absurd rfl (other kind after rfl)
  | case4 => exact ⟨[], [], by simp, by simp, slotFree_nil, rfl⟩

end Slotting

end ScriptChart.Phrase
