import ScriptChart.Json.Tree
import ScriptChart.OrderedMap

/-!
# JSON values

A JSON text as it is read: strings are texts, numbers are in range, and of several members with
one name the last value is kept at the first one's place. A text that breaks these rules is not
read, nor is one in which containers are nested too deeply.

## Main definitions

* `Value`: a value as it is read.
* `Literal.text?`: the text that a string literal denotes.
* `Value.ofTree?`, `Value.ofText?`: reading a tree and a text.
-/

namespace ScriptChart.Json

/-- A value as it is read. The names of an object's members differ from each other. -/
inductive Value where
  | null
  | bool (value : Bool)
  | number (value : Number)
  | string (value : String)
  | array (items : List Value)
  | object (members : List (String × Value))

instance : Inhabited Value := ⟨.null⟩

/-! ### String literals -/

/-- Whether a code unit is the first half of a pair. -/
def isHighHalf (unit : Nat) : Bool := 0xD800 ≤ unit && unit ≤ 0xDBFF

/-- Whether a code unit is the second half of a pair. -/
def isLowHalf (unit : Nat) : Bool := 0xDC00 ≤ unit && unit ≤ 0xDFFF

/-- The code point that the two halves of a pair denote. -/
def pairCode (high low : Nat) : Nat := 0x10000 + (high - 0xD800) * 0x400 + (low - 0xDC00)

/-- The bytes of a code point. -/
def utf8Bytes (code : Nat) : List UInt8 := (String.singleton (Char.ofNat code)).toUTF8.toList

/-- The bytes of a literal so far, the last first, and the first half of a pair that waits for its
second half. -/
structure LiteralBytes where
  reversed : List UInt8
  high? : Option Nat

/-- Takes a piece of a literal. A half of a pair that stands alone has no meaning. -/
def LiteralBytes.add? (l : LiteralBytes) (piece : Piece) : Option LiteralBytes :=
  match l.high?, piece with
  | none, .byte b => some { l with reversed := b :: l.reversed }
  | none, .unit u =>
    if isHighHalf u then some { l with high? := some u }
    else if isLowHalf u then none
    else some { l with reversed := (utf8Bytes u).reverse ++ l.reversed }
  | some high, .unit u =>
    if isLowHalf u then some ⟨(utf8Bytes (pairCode high u)).reverse ++ l.reversed, none⟩ else none
  | some _, .byte _ => none

/-- The text that a string literal denotes, if its bytes are well formed. -/
def Literal.text? (literal : Literal) : Option String :=
  (literal.foldlM LiteralBytes.add? ⟨[], none⟩).bind fun l =>
    match l.high? with
    | none => String.fromUTF8? ⟨l.reversed.reverse.toArray⟩
    | some _ => none

/-! ### Values -/

/-- How many containers may be open at once. -/
def depthLimit : Nat := 127

/-- The value of a scalar. -/
def Scalar.value? : Scalar → Option Value
  | .null => some .null
  | .bool value => some (.bool value)
  | .numeral n => n.value?.map .number
  | .string literal => (Literal.text? literal).map .string

/-- The value of a tree in which no more than a number of containers are nested. -/
def Value.ofTree? : Nat → Tree → Option Value
  | _, .scalar value => value.value?
  | 0, _ => none
  | levels + 1, .array items => (items.mapM (Value.ofTree? levels)).map .array
  | levels + 1, .object members => do
    let read ← members.mapM fun member => do
      return ((← Literal.text? member.1), (← Value.ofTree? levels member.2))
    return .object (Entries.putAll [] read)

/-- The value of a text. -/
def Value.ofText? (text : String) : Option Value :=
  (Tree.ofText? text).bind (Value.ofTree? depthLimit)

end ScriptChart.Json
