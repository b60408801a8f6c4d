import ScriptChart.Decimal.FloatText
import ScriptChart.Json.Value

/-!
# Compact JSON text

The text of a value without any spaces, with the members of objects in their order. Quotes,
backslashes and the characters below the space are escaped, the frequent ones of them by a letter
and the others by four hexadecimal digits.

## Main definitions

* `escaped`: a character within a string literal.
* `Value.compact`: the text of a value.
* `Value.scalarText`: the text that stands for a value where a text is wanted.
-/

namespace ScriptChart.Json

/-- A hexadecimal digit. -/
def hexDigit (value : Nat) : Char :=
  if value < 10 then Char.ofNat (48 + value) else Char.ofNat (87 + value)

/-- A character as it is written within a string literal. -/
def escaped (c : Char) : List Char :=
  match c with
  | '"' => ['\\', '"']
  | '\\' => ['\\', '\\']
  | '\x08' => ['\\', 'b']
  | '\x0c' => ['\\', 'f']
  | '\n' => ['\\', 'n']
  | '\r' => ['\\', 'r']
  | '\t' => ['\\', 't']
  | c =>
    if c.toNat < 0x20 then
      ['\\', 'u', '0', '0', hexDigit (c.toNat / 16), hexDigit (c.toNat % 16)]
    else [c]

/-- A text as a string literal. -/
def quoted (text : String) : List Char := '"' :: text.toList.flatMap escaped ++ ['"']

/-- The text of a number. -/
def Number.text : Number → List Char
  | .int value => (toString value).toList
  | .float value => Decimal.floatText value

mutual

/-- The text of a value without any spaces. -/
def Value.compact : Value → List Char
  | .null => "null".toList
  | .bool true => "true".toList
  | .bool false => "false".toList
  | .number value => value.text
  | .string value => quoted value
  | .array items => '[' :: compactItems items ++ [']']
  | .object members => '{' :: compactMembers members ++ ['}']

/-- The texts of the items of an array, with commas between them. -/
def compactItems : List Value → List Char
  | [] => []
  | [item] => item.compact
  | item :: rest => item.compact ++ ',' :: compactItems rest

/-- The texts of the members of an object, with commas between them. -/
def compactMembers : List (String × Value) → List Char
  | [] => []
  | [(name, value)] => quoted name ++ ':' :: value.compact
  | (name, value) :: rest => quoted name ++ ':' :: value.compact ++ ',' :: compactMembers rest

end

/-- The text that stands for a value where a text is wanted: a string as it is, nothing for null,
and compact JSON for everything else. -/
def Value.scalarText : Value → String
  | .string value => value
  | .null => ""
  | other => String.ofList other.compact

end ScriptChart.Json
