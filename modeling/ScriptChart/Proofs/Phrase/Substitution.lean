import Mathlib.Data.List.Forall2
import Mathlib.Data.Nat.Digits.Defs
import ScriptChart.Phrase.Template

/-!
# Filling a template in one pass

Read from left to right, a template is cut in one way only: a percent sign takes the longest run of
digits after it, if there is any, and every other character stands for itself. Each placeholder is
filled on its own, with the parameter that its digits number, and what was put in is not looked at
again. So two templates may be filled apart, unless the digits at the beginning of the second one
would belong to a percent sign in the first.

## Main definitions

* `Cuts`: the ways to cut a template, by rules from left to right.
* `Denotes`: the number that ASCII digits denote.
* `Fills`: what stands in the place of a segment.
* `Straddles`: a placeholder would reach from one template into the next one.

## Main results

* `Cuts.unique`, `cuts_cutTemplate`: there is just one way to cut a template.
* `fills_iff`: what stands in the place of a segment is determined.
* `substitute_append`: templates that no placeholder straddles are filled apart.
* `single_pass_substitute`: how a template is filled.
-/

namespace ScriptChart.Phrase

open ScriptChart.Text

/-! ### Cutting from left to right -/

/-- A text does not begin with a digit. -/
def BeginsWithoutDigit (text : List Char) : Prop := ∀ c ∈ text.head?, isDecimal c = false

/-- A template is cut into segments from left to right. -/
inductive Cuts : List Char → List Segment → Prop
  | nil : Cuts [] []
  /-- A character stands for itself, a percent sign only when no digit follows it. -/
  | plain {c : Char} {rest : List Char} {segments : List Segment}
      (alone : c = '%' → BeginsWithoutDigit rest) (later : Cuts rest segments) :
      Cuts (c :: rest) (.plain c :: segments)
  /-- A percent sign takes all digits that follow it. -/
  | placeholder {digits rest : List Char} {segments : List Segment} (nonempty : digits ≠ [])
      (decimal : ∀ c ∈ digits, isDecimal c = true) (whole : BeginsWithoutDigit rest)
      (later : Cuts rest segments) :
      Cuts ('%' :: digits ++ rest) (.placeholder digits :: segments)

/-- A percent sign with digits after it ends one template, and the next one begins with a digit. -/
def Straddles (first second : List Char) : Prop :=
  (∃ before digits, first = before ++ '%' :: digits ∧ ∀ c ∈ digits, isDecimal c = true) ∧
    ∃ c ∈ second.head?, isDecimal c = true

theorem isDecimal_percent : isDecimal '%' = false := by decide

theorem beginsWithoutDigit_cons {c : Char} (other : isDecimal c = false) (rest : List Char) :
    BeginsWithoutDigit (c :: rest) := by
  simp [BeginsWithoutDigit, other]

/-- Where a run of digits ends is determined. -/
theorem eq_of_append_eq {digits digits' rest rest' : List Char}
    (decimal : ∀ c ∈ digits, isDecimal c = true) (decimal' : ∀ c ∈ digits', isDecimal c = true)
    (whole : BeginsWithoutDigit rest) (whole' : BeginsWithoutDigit rest')
    (same : digits ++ rest = digits' ++ rest') : digits = digits' ∧ rest = rest' := by
  induction digits generalizing digits' with
  | nil =>
    cases digits' with
    | nil => exact ⟨rfl, same⟩
    | cons d digits' =>
      have first := whole d (by rw [List.nil_append] at same; simp [same])
      simp [decimal' d List.mem_cons_self] at first
  | cons c digits ih =>
    cases digits' with
    | nil =>
      have first := whole' c (by rw [List.nil_append] at same; simp [← same])
      simp [decimal c List.mem_cons_self] at first
    | cons d digits' =>
      obtain ⟨rfl, tails⟩ := List.cons.inj same
      obtain ⟨rfl, rfl⟩ := ih (fun e inside => decimal e (List.mem_cons_of_mem _ inside))
        (fun e inside => decimal' e (List.mem_cons_of_mem _ inside)) tails
      exact ⟨rfl, rfl⟩

namespace Cuts

/-- There is no more than one way to cut a template. -/
theorem unique {template : List Char} {segments segments' : List Segment}
    (cuts : Cuts template segments) (cuts' : Cuts template segments') : segments = segments' := by
  -- a percent sign is a character or begins a placeholder, as the character after it tells
  have apart : ∀ {digits rest : List Char}, digits ≠ [] → (∀ c ∈ digits, isDecimal c = true) →
      ¬ BeginsWithoutDigit (digits ++ rest) := by
    intro digits rest nonempty decimal without
    obtain ⟨d, digits, rfl⟩ := List.exists_cons_of_ne_nil nonempty
    have first := without d rfl
    simp [decimal d List.mem_cons_self] at first
  induction cuts generalizing segments' with
  | nil => cases cuts'; rfl
  | plain alone later ih =>
    generalize whole : _ :: _ = template at cuts'
    cases cuts' with
    | nil => simp at whole
    | plain alone' later' =>
      obtain ⟨rfl, rfl⟩ := List.cons.inj whole
      rw [ih later']
    | placeholder nonempty decimal _ later' =>
      obtain ⟨rfl, rfl⟩ := List.cons.inj whole
      exact absurd (alone rfl) (apart nonempty decimal)
  | @placeholder digits rest segments nonempty decimal whole later ih =>
    generalize same : '%' :: digits ++ rest = template at cuts'
    cases cuts' with
    | nil => simp at same
    | plain alone' later' =>
      obtain ⟨rfl, rfl⟩ := List.cons.inj same
      exact absurd (alone' rfl) (apart nonempty decimal)
    | placeholder nonempty' decimal' whole' later' =>
      obtain ⟨-, same⟩ := List.cons.inj same
      obtain ⟨rfl, rfl⟩ := eq_of_append_eq decimal decimal' whole whole' same
      rw [ih later']

/-- Digits that follow no percent sign stand for themselves. -/
theorem plains {digits rest : List Char} {segments : List Segment}
    (decimal : ∀ c ∈ digits, isDecimal c = true) (cuts : Cuts rest segments) :
    Cuts (digits ++ rest) (digits.map .plain ++ segments) := by
  induction digits with
  | nil => exact cuts
  | cons c digits ih =>
    refine .plain ?_ (ih fun d inside => decimal d (List.mem_cons_of_mem c inside))
    rintro rfl
    simp [isDecimal_percent] at decimal

/-- Two templates that no placeholder straddles are cut apart. -/
theorem append {first second : List Char} {segments segments' : List Segment}
    (cuts : Cuts first segments) (cuts' : Cuts second segments')
    (apart : ¬ Straddles first second) : Cuts (first ++ second) (segments ++ segments') := by
  induction cuts with
  | nil => exact cuts'
  | @plain c rest segments alone later ih =>
    refine .plain ?_ (ih fun straddles => apart ?_)
    · rintro rfl
      cases rest with
      | nil =>
        -- the percent sign ends the first template
        intro d begins
        by_contra digit
        exact apart ⟨⟨[], [], rfl, by simp⟩, d, begins, by simpa using digit⟩
      | cons d rest => exact alone rfl
    · obtain ⟨⟨before, digits, rfl, decimal⟩, begins⟩ := straddles
      exact ⟨⟨c :: before, digits, rfl, decimal⟩, begins⟩
  | @placeholder digits rest segments nonempty decimal whole later ih =>
    rw [List.append_assoc]
    refine .placeholder nonempty decimal ?_ (ih fun straddles => apart ?_)
    · cases rest with
      | nil =>
        intro d begins
        by_contra digit
        exact apart ⟨⟨[], digits, by simp, decimal⟩, d, begins, by simpa using digit⟩
      | cons d rest => exact whole
    · obtain ⟨⟨before, more, rfl, decimal'⟩, begins⟩ := straddles
      exact ⟨⟨'%' :: digits ++ before, more, by simp, decimal'⟩, begins⟩

end Cuts

/-! ### Cutting from the end -/

/-- What is known of a template that was read from its end: the digits that it begins with, and a
cut of what follows them. -/
structure Cut.Splits (template : List Char) (cut : Cut) : Prop where
  decimal : ∀ c ∈ cut.digits, isDecimal c = true
  rest : ∃ rest, template = cut.digits ++ rest ∧ BeginsWithoutDigit rest ∧ Cuts rest cut.segments

theorem Cut.Splits.settle {template : List Char} {cut : Cut} (splits : cut.Splits template) :
    Cuts template cut.settle := by
  obtain ⟨rest, rfl, -, cuts⟩ := splits.rest
  exact cuts.plains splits.decimal

theorem Cut.Splits.add {template : List Char} {cut : Cut} (splits : cut.Splits template)
    (c : Char) : (cut.add c).Splits (c :: template) := by
  obtain ⟨rest, whole, without, cuts⟩ := splits.rest
  unfold Cut.add
  by_cases digit : isDecimal c = true
  · rw [if_pos digit]
    refine ⟨?_, rest, by simp [whole], without, cuts⟩
    intro d inside
    obtain rfl | inside := List.mem_cons.mp inside
    · exact digit
    · exact splits.decimal d inside
  · rw [if_neg digit]
    have other : isDecimal c = false := by simpa using digit
    by_cases mark : c = '%' ∧ cut.digits ≠ []
    · obtain ⟨rfl, nonempty⟩ := mark
      rw [if_pos ⟨rfl, nonempty⟩, whole]
      exact ⟨by simp, _, rfl, beginsWithoutDigit_cons other _,
        .placeholder nonempty splits.decimal without cuts⟩
    · rw [if_neg mark]
      refine ⟨by simp, _, rfl, beginsWithoutDigit_cons other _, .plain ?_ splits.settle⟩
      rintro rfl
      have nothing : cut.digits = [] := by simpa using mark
      rw [whole, nothing]
      exact without

theorem splits_cutFrom (template : List Char) : (cutFrom template).Splits template := by
  induction template with
  | nil => exact ⟨by simp [cutFrom], [], by simp [cutFrom], by simp [BeginsWithoutDigit], .nil⟩
  | cons c rest ih => exact ih.add c

/-- Cutting from the end follows the rules from left to right. -/
theorem cuts_cutTemplate (template : List Char) : Cuts template (cutTemplate template) :=
  (splits_cutFrom template).settle

/-! ### Filling placeholders -/

/-- Digits denote a number when all of them are ASCII digits, in base ten. -/
def Denotes (digits : List Char) (number : Nat) : Prop :=
  (∀ c ∈ digits, c.isDigit = true) ∧
    number = Nat.ofDigits 10 (digits.reverse.map fun c => c.toNat - 48)

/-- What stands in the place of a segment: a character for itself, the parameter that a placeholder
numbers, counted from one, and any other placeholder as it was written. -/
inductive Fills (params : List String) : Segment → List Char → Prop
  | plain (c : Char) : Fills params (.plain c) [c]
  | parameter {digits : List Char} {number : Nat} (denotes : Denotes digits number)
      (positive : 1 ≤ number) (within : number ≤ params.length) :
      Fills params (.placeholder digits) (params[number - 1]).toList
  | kept {digits : List Char}
      (unnumbered : ∀ number, Denotes digits number → number = 0 ∨ params.length < number) :
      Fills params (.placeholder digits) ('%' :: digits)

theorem asciiDigit?_eq (c : Char) :
    asciiDigit? c = if c.isDigit = true then some (c.toNat - 48) else none := by
  have same : ('0' ≤ c ∧ c ≤ '9') ↔ c.isDigit = true := by
    rw [Char.isDigit, Bool.and_eq_true, decide_eq_true_eq, decide_eq_true_eq]
    exact Iff.rfl
  rw [asciiDigit?]
  exact if_congr same rfl rfl

theorem natOfAsciiFrom?_eq_some_iff {digits : List Char} {start number : Nat} :
    natOfAsciiFrom? start digits = some number ↔
      (∀ c ∈ digits, c.isDigit = true) ∧
        number = start * 10 ^ digits.length +
          Nat.ofDigits 10 (digits.reverse.map fun c => c.toNat - 48) := by
  induction digits generalizing start with
  | nil =>
    rw [natOfAsciiFrom?, Option.some.injEq, eq_comm]
    simp
  | cons c digits ih =>
    -- the first digit counts for as many powers of ten as there are digits after it
    have shifted : (start * 10 + (c.toNat - 48)) * 10 ^ digits.length +
        Nat.ofDigits 10 (digits.reverse.map fun c => c.toNat - 48) =
          start * 10 ^ (c :: digits).length +
            Nat.ofDigits 10 ((c :: digits).reverse.map fun c => c.toNat - 48) := by
      rw [List.reverse_cons, List.map_append, List.map_singleton, Nat.ofDigits_append,
        Nat.ofDigits_singleton, List.length_map, List.length_reverse, List.length_cons, pow_succ]
      ring
    rw [natOfAsciiFrom?, asciiDigit?_eq, List.forall_mem_cons, ← shifted]
    by_cases digit : c.isDigit = true
    · simp only [digit, if_true, Option.bind_eq_bind, Option.bind_some, true_and]
      exact ih
    · simp [digit]

/-- The number of a placeholder is the one that its digits denote. -/
theorem natOfAscii?_eq_some_iff {digits : List Char} {number : Nat} :
    natOfAscii? digits = some number ↔ Denotes digits number := by
  rw [natOfAscii?, natOfAsciiFrom?_eq_some_iff, Denotes, Nat.zero_mul, Nat.zero_add]

/-- A placeholder has a parameter when its digits denote the place of one, counted from one. -/
theorem parameterAt?_eq_some_iff {params : List String} {digits : List Char} {value : String} :
    parameterAt? params digits = some value ↔
      ∃ number, Denotes digits number ∧ 1 ≤ number ∧ params[number - 1]? = some value := by
  simp only [← natOfAscii?_eq_some_iff]
  unfold parameterAt?
  split
  · next index reads => simp [reads]
  · next other =>
    simp only [reduceCtorEq, false_iff, not_exists, not_and]
    intro number reads positive
    obtain ⟨index, rfl⟩ := Nat.exists_eq_add_of_le' positive
    exact absurd reads (other index)

/-- What stands in the place of a segment is determined. -/
theorem fills_iff {params : List String} {segment : Segment} {text : List Char} :
    Fills params segment text ↔ text = segment.fill params := by
  constructor
  · rintro (c | @⟨digits, number, denotes, positive, within⟩ | @⟨digits, unnumbered⟩)
    · rfl
    · have held : parameterAt? params digits = some params[number - 1] :=
        parameterAt?_eq_some_iff.mpr ⟨number, denotes, positive, List.getElem?_eq_getElem _⟩
      simp [Segment.fill, held]
    · have absent : parameterAt? params digits = none := by
        rw [Option.eq_none_iff_forall_ne_some]
        intro value held
        obtain ⟨number, denotes, positive, inside⟩ := parameterAt?_eq_some_iff.mp held
        obtain ⟨within, -⟩ := List.getElem?_eq_some_iff.mp inside
        obtain zero | beyond := unnumbered number denotes
        · omega
        · omega
      simp [Segment.fill, absent]
  · rintro rfl
    cases segment with
    | plain c => exact .plain c
    | placeholder digits =>
      cases held : parameterAt? params digits with
      | some value =>
        obtain ⟨number, denotes, positive, inside⟩ := parameterAt?_eq_some_iff.mp held
        obtain ⟨within, rfl⟩ := List.getElem?_eq_some_iff.mp inside
        simpa [Segment.fill, held] using Fills.parameter denotes positive (by omega)
      | none =>
        have unnumbered : ∀ number, Denotes digits number →
            number = 0 ∨ params.length < number := by
          intro number denotes
          by_contra inside
          have within : number - 1 < params.length := by omega
          have value := parameterAt?_eq_some_iff.mpr
            ⟨number, denotes, by omega, List.getElem?_eq_getElem within⟩
          simp [held] at value
        simpa [Segment.fill, held] using Fills.kept unnumbered

theorem forall₂_fills_iff {params : List String} {segments : List Segment}
    {texts : List (List Char)} :
    List.Forall₂ (Fills params) segments texts ↔ texts = segments.map (Segment.fill params) := by
  induction segments generalizing texts with
  | nil => rw [List.forall₂_nil_left_iff, List.map_nil]
  | cons segment rest ih => simp [List.forall₂_cons_left_iff, fills_iff, ih]

/-! ### One pass -/

/-- Two templates that no placeholder straddles are filled apart. -/
theorem substitute_append {first second : String} (params : List String)
    (apart : ¬ Straddles first.toList second.toList) :
    substitute (first ++ second) params = substitute first params ++ substitute second params := by
  have cut : cutTemplate (first ++ second).toList =
      cutTemplate first.toList ++ cutTemplate second.toList := by
    rw [String.toList_append]
    exact (cuts_cutTemplate _).unique ((cuts_cutTemplate _).append (cuts_cutTemplate _) apart)
  rw [substitute, substitute, substitute, cut, List.flatMap_append, String.ofList_append]

/-- How a template is filled. It is cut in one way only, into characters that stand for themselves
and placeholders, which are percent signs with all digits that follow them. The placeholders whose
digits denote the place of a parameter are replaced by it, and nothing else is changed. So two
templates one after the other are filled apart, unless a percent sign with digits after it ends the
first one and a digit begins the second one. -/
theorem single_pass_substitute (params : List String) :
    (∀ template : String, ∃ segments texts,
      Cuts template.toList segments ∧
      (∀ other, Cuts template.toList other → other = segments) ∧
      List.Forall₂ (Fills params) segments texts ∧
      (∀ other, List.Forall₂ (Fills params) segments other → other = texts) ∧
      (substitute template params).toList = texts.flatten) ∧
    ∀ first second : String, ¬ Straddles first.toList second.toList →
      substitute (first ++ second) params =
        substitute first params ++ substitute second params := by
  constructor
  · intro template
    have cuts := cuts_cutTemplate template.toList
    refine ⟨_, _, cuts, fun other cuts' => cuts'.unique cuts, forall₂_fills_iff.mpr rfl,
      fun other filled => forall₂_fills_iff.mp filled, ?_⟩
    rw [substitute, String.toList_ofList, List.flatMap_def]
  · intro first second apart
    exact substitute_append params apart

/-- The two percent signs of the first template and the digits of the second one are kept apart by a
letter. What is put in looks like placeholders and is left alone, and neither a zero nor digits of
another script number a parameter. -/
theorem substitute_append_percents :
    ¬ Straddles "%02 of %1%%".toList "x%0 %٣%2".toList ∧
      substitute ("%02 of %1%%" ++ "x%0 %٣%2") ["%2", "b"] = "b of %2%%x%0 %٣b" := by
  have apart : ¬ Straddles "%02 of %1%%".toList "x%0 %٣%2".toList := by
    rintro ⟨-, letter, first, digit⟩
    obtain rfl : 'x' = letter := Option.some.inj first
    exact absurd digit (by decide)
  refine ⟨apart, ?_⟩
  rw [(single_pass_substitute ["%2", "b"]).2 _ _ apart]
  decide +kernel

end ScriptChart.Phrase
