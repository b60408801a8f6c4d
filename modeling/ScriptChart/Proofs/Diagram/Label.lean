import Mathlib.Data.List.Basic
import ScriptChart.Diagram.Label

/-!
# Labels as they are written

A label that was sanitized holds none of the characters that delimit shapes, edges or quotations,
and no line break. So it ends where the next delimiter stands, and sanitizing it once more leaves it
as it is. A text is written character by character: each delimiter becomes its entity code, each
blank or control character that is no plain space becomes one space, and no space comes from
anything else.

## Main definitions

* `delimiters`: the characters that have an entity code.

## Main results

* `isMetachar_of_mem_sanitize`: what a written label does not hold.
* `sanitize_sanitize`: labels are sanitized once for all.
* `sanitize_append`, `sanitize_singleton_of_isLayout`: labels are written character by character.
* `count_space_sanitize`: where the spaces of a written label come from.
-/

namespace ScriptChart.Diagram

open ScriptChart.Text

/-- The characters that have an entity code. -/
def delimiters : List Char := ['[', ']', '{', '}', '(', ')', '|', '"', '\'', '\x60', '<', '>']

theorem mem_delimiters_of_entityCode {c : Char} {code : String}
    (coded : entityCode? c = some code) : c ∈ delimiters := by
  unfold entityCode? at coded
  split at coded <;> first | contradiction | decide

theorem forall_delimiters {p : Char → Prop} (holds : delimiters.Forall p) {c : Char}
    {code : String} (coded : entityCode? c = some code) : p c :=
  List.forall_iff_forall_mem.mp holds c (mem_delimiters_of_entityCode coded)

/-- Entity codes are written without delimiters. -/
theorem isMetachar_of_mem_entityCode {c d : Char} {code : String}
    (coded : entityCode? c = some code) (inside : d ∈ code.toList) : isMetachar d = false := by
  have plain : delimiters.Forall fun c => ∀ code ∈ entityCode? c,
      code.toList.Forall fun d => isMetachar d = false := by decide
  exact List.forall_iff_forall_mem.mp (forall_delimiters plain coded code coded) d inside

theorem isMetachar_of_mem_escape {c d : Char} (inside : d ∈ escape c) : isMetachar d = false := by
  unfold escape at inside
  split at inside
  · next code coded => exact isMetachar_of_mem_entityCode coded inside
  · next uncoded =>
    split at inside
    · -- a plain space stands for a line break
      rw [List.mem_singleton.mp inside]
      decide
    · next kept =>
      rw [List.mem_singleton.mp inside, isMetachar, uncoded, Bool.eq_false_iff.mpr kept]
      rfl

/-- A written label holds no delimiter and no line break. -/
theorem isMetachar_of_mem_sanitize {text : String} {c : Char}
    (inside : c ∈ (sanitize text).toList) : isMetachar c = false := by
  rw [toList_sanitize] at inside
  obtain ⟨original, -, inside⟩ := List.mem_flatMap.mp inside
  exact isMetachar_of_mem_escape inside

/-- A text without delimiters and line breaks is written as it is. -/
theorem sanitize_eq_self {text : String} (plain : ∀ c ∈ text.toList, isMetachar c = false) :
    sanitize text = text := by
  have kept : text.toList.flatMap escape = text.toList.flatMap fun c => [c] :=
    List.flatMap_congr fun c inside => escape_of_not_isMetachar (plain c inside)
  rw [← String.toList_inj, toList_sanitize, kept, List.flatMap_singleton']

/-- Sanitizing a label twice is sanitizing it once. -/
@[simp]
theorem sanitize_sanitize (text : String) : sanitize (sanitize text) = sanitize text :=
  sanitize_eq_self fun _ inside => isMetachar_of_mem_sanitize inside

/-- Only a text without delimiters and line breaks is written as it is. -/
theorem sanitize_eq_self_iff {text : String} :
    sanitize text = text ↔ ∀ c ∈ text.toList, isMetachar c = false := by
  constructor
  · intro same c inside
    rw [← same] at inside
    exact isMetachar_of_mem_sanitize inside
  · exact sanitize_eq_self

/-! ### Character by character -/

/-- What is written of a text does not depend on what stands before and after it. -/
theorem sanitize_append (text other : String) :
    sanitize (text ++ other) = sanitize text ++ sanitize other := by
  rw [← String.toList_inj, toList_sanitize, String.toList_append, List.flatMap_append,
    String.toList_append, toList_sanitize, toList_sanitize]

/-- Delimiters are neither blank nor control characters. -/
theorem not_blank_of_entityCode {c : Char} {code : String} (coded : entityCode? c = some code) :
    isBlank c = false ∧ isControl c = false := by
  have apart : delimiters.Forall fun c => isBlank c = false ∧ isControl c = false := by decide
  exact forall_delimiters apart coded

theorem escape_of_isLayout {c : Char} (layout : isLayout c = true) : escape c = [' '] := by
  unfold escape
  split
  · next code coded =>
    obtain ⟨noBlank, noControl⟩ := not_blank_of_entityCode coded
    simp [isLayout, noBlank, noControl] at layout
  · rw [if_pos layout]

/-- A blank or control character that is no plain space is written as one space. -/
theorem sanitize_singleton_of_isLayout {c : Char} (layout : isLayout c = true) :
    sanitize (String.singleton c) = " " := by
  rw [← String.toList_inj, toList_sanitize, String.toList_singleton, List.flatMap_singleton,
    escape_of_isLayout layout]
  rfl

/-- A delimiter is written as its entity code. -/
theorem sanitize_singleton_of_entityCode {c : Char} {code : String}
    (coded : entityCode? c = some code) : sanitize (String.singleton c) = code := by
  rw [← String.toList_inj, toList_sanitize, String.toList_singleton, List.flatMap_singleton,
    escape, coded]

/-- Entity codes are written without spaces. -/
theorem count_space_of_entityCode {c : Char} {code : String} (coded : entityCode? c = some code) :
    code.toList.count ' ' = 0 := by
  have bare : delimiters.Forall fun c => ∀ code ∈ entityCode? c, code.toList.count ' ' = 0 := by
    decide
  exact forall_delimiters bare coded code coded

/-- One space is written for a blank or control character, and none for any other. -/
theorem count_space_escape (c : Char) :
    (escape c).count ' ' = if isBlank c || isControl c then 1 else 0 := by
  unfold escape
  split
  · next code coded =>
    obtain ⟨noBlank, noControl⟩ := not_blank_of_entityCode coded
    simp [count_space_of_entityCode coded, noBlank, noControl]
  · by_cases space : c = ' '
    · subst space
      decide
    · cases white : isBlank c || isControl c <;> simp [isLayout, space, white]

/-- There are as many spaces in a written label as blank and control characters in its text. -/
theorem count_space_sanitize (text : String) :
    (sanitize text).toList.count ' ' =
      text.toList.countP fun c => isBlank c || isControl c := by
  rw [toList_sanitize]
  induction text.toList with
  | nil => rfl
  | cons c rest ih =>
    rw [List.flatMap_cons, List.count_append, ih, count_space_escape, List.countP_cons,
      Nat.add_comm]

/-- Labels are written faithfully and once for all. A written label holds no character that would
break its line; a text is written as it is exactly when it holds none; sanitizing it once more
changes nothing. What is written of a text does not depend on what stands beside it: a delimiter
becomes its entity code, and a blank or control character other than the plain space becomes one
space, which is not merged with its neighbours. No space comes from anything else. -/
theorem exact_sanitize (text : String) :
    (∀ c ∈ (sanitize text).toList, isMetachar c = false) ∧
    (sanitize text = text ↔ ∀ c ∈ text.toList, isMetachar c = false) ∧
    sanitize (sanitize text) = sanitize text ∧
    (∀ other, sanitize (text ++ other) = sanitize text ++ sanitize other) ∧
    (∀ c code after, entityCode? c = some code →
      sanitize (text ++ String.singleton c ++ after) = sanitize text ++ code ++ sanitize after) ∧
    (∀ c after, c ≠ ' ' → (isBlank c || isControl c) = true →
      sanitize (text ++ String.singleton c ++ after) = sanitize text ++ " " ++ sanitize after) ∧
    (sanitize text).toList.count ' ' = text.toList.countP fun c => isBlank c || isControl c := by
  refine ⟨fun c => isMetachar_of_mem_sanitize, sanitize_eq_self_iff, sanitize_sanitize text,
    sanitize_append text, fun c code after coded => ?_, fun c after other white => ?_,
    count_space_sanitize text⟩
  · rw [sanitize_append, sanitize_append, sanitize_singleton_of_entityCode coded]
  · have layout : isLayout c = true := by
      rw [isLayout, white, Bool.and_true]
      exact bne_iff_ne.mpr other
    rw [sanitize_append, sanitize_append, sanitize_singleton_of_isLayout layout]

/-- Two line breaks of different kinds between delimiters become two spaces. -/
theorem exact_sanitize_lineSeparator :
    '#' ∈ (sanitize "<a>\r").toList ∧ isMetachar '#' = false ∧
      entityCode? '(' = some "#40;" ∧
        sanitize ("" ++ String.singleton '(' ++ "b)") = "#40;b#41;" ∧
        '\u2028' ≠ ' ' ∧ (isBlank '\u2028' || isControl '\u2028') = true ∧
          sanitize ("<a>\r" ++ String.singleton '\u2028' ++ "(b)") = "#lt;a#gt;  #40;b#41;" := by
  have inside : '#' ∈ (sanitize "<a>\r").toList := by decide
  have coded : entityCode? '(' = some "#40;" := rfl
  have white : (isBlank '\u2028' || isControl '\u2028') = true := by decide
  refine ⟨inside, (exact_sanitize "<a>\r").1 '#' inside, coded, ?_, by decide, white, ?_⟩
  · rw [(exact_sanitize "").2.2.2.2.1 '(' "#40;" "b)" coded]
    decide
  · rw [(exact_sanitize "<a>\r").2.2.2.2.2.1 '\u2028' "(b)" (by decide) white]
    decide

end ScriptChart.Diagram
