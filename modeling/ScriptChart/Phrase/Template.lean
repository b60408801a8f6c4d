import ScriptChart.Text.Digit

/-!
# Phrase templates

A phrase may hold placeholders: a percent sign with the decimal digits that follow it. Filling a
phrase replaces each placeholder that names a parameter, in one pass: what was put in is not
looked at again. A placeholder that names no parameter is left as written.

A template is read from its end, so that the digits that follow a percent sign are known when
the sign is reached.

## Main definitions

* `Segment`, `cutTemplate`: a template as plain characters and placeholders.
* `parameterAt?`: the parameter that a placeholder's digits name.
* `substitute`: a template with its placeholders filled.
-/

namespace ScriptChart.Phrase

open ScriptChart.Text

/-- A piece of a template. -/
inductive Segment where
  /-- A character that stands for itself. -/
  | plain (c : Char)
  /-- A percent sign with the digits that follow it. -/
  | placeholder (digits : List Char)
deriving DecidableEq, Repr

/-- What is known of the rest of a template: the digits it begins with, which may turn out to
belong to a placeholder, and the segments after them. -/
structure Cut where
  digits : List Char
  segments : List Segment

namespace Cut

/-- The rest of a template when its first digits belong to no placeholder. -/
def settle (cut : Cut) : List Segment := cut.digits.map .plain ++ cut.segments

/-- Puts one more character in front. -/
def add (c : Char) (cut : Cut) : Cut :=
  if isDecimal c then ⟨c :: cut.digits, cut.segments⟩
  else if c = '%' ∧ cut.digits ≠ [] then ⟨[], .placeholder cut.digits :: cut.segments⟩
  else ⟨[], .plain c :: cut.settle⟩

end Cut

/-- The segments of a template, and the digits that it begins with set apart. -/
def cutFrom (template : List Char) : Cut := template.foldr Cut.add ⟨[], []⟩

/-- The segments of a template: every maximal run of digits after a percent sign is a
placeholder, and every other character stands for itself. -/
def cutTemplate (template : List Char) : List Segment := (cutFrom template).settle

/-- The parameter that a placeholder names: its ASCII digits count from one. -/
def parameterAt? (params : List String) (digits : List Char) : Option String :=
  match natOfAscii? digits with
  | some (index + 1) => params[index]?
  | _ => none

/-- A segment with its placeholder filled, or as written when no parameter belongs to it. -/
def Segment.fill (params : List String) : Segment → List Char
  | .plain c => [c]
  | .placeholder digits =>
    match parameterAt? params digits with
    | some value => value.toList
    | none => '%' :: digits

/-- A template with its placeholders filled. -/
def substitute (template : String) (params : List String) : String :=
  String.ofList ((cutTemplate template.toList).flatMap (Segment.fill params))

end ScriptChart.Phrase
