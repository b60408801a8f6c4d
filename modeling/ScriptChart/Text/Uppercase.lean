import ScriptChart.Text.CaseTable

/-!
# Upper case

Full upper-casing: every character is replaced by its upper-case form, which may be several
characters long (the sharp s becomes two letters), and characters without one stay.

## Main definitions

* `upperForm`: the upper-case form of one character.
* `uppercase`: the upper-case form of a text, character by character.
-/

namespace ScriptChart.Text

/-- Whether a code point belongs to a range. -/
def CaseRange.covers (range : CaseRange) (code : Nat) : Bool :=
  range.first ≤ code && code ≤ range.last && (code - range.first) % range.step == 0

/-- The upper-case form of a character outside ASCII. -/
def upperFormWide (c : Char) : List Char :=
  match caseExpansions.lookup c.toNat with
  | some codes => codes.map Char.ofNat
  | none =>
    match caseRanges.find? fun range => range.covers c.toNat with
    | some range => [Char.ofNat (c.toNat + range.shift).toNat]
    | none => [c]

/-- The upper-case form of a character. -/
def upperForm (c : Char) : List Char :=
  if c.toNat < 0x80 then [c.toUpper] else upperFormWide c

/-- The upper-case form of a text. -/
def uppercase (text : String) : String := String.ofList (text.toList.flatMap upperForm)

end ScriptChart.Text
