import ScriptChart.Json.Number

/-!
# The grammar of JSON

A JSON text as the grammar has it: string literals as the bytes and code units that are written,
numbers by their digits, all members of an object. Whether a literal denotes a text, a number is in
range, or the nesting is too deep, is not a question of grammar; it is asked only of the parts of
a text that are read.

The text is taken one byte at a time. A scanner puts bytes together to tokens, and a builder puts
tokens together to a tree; the containers that are still open are kept in a list, so no depth of
nesting is out of reach.

## Main definitions

* `Literal`, `Scalar`, `Tree`: the grammar's view of a text.
* `Reading.step`, `Builder.accept`: one byte, and one token.
* `Tree.ofBytes?`, `Tree.ofText?`: the tree of a whole text.
-/

namespace ScriptChart.Json

/-- A piece of a string literal. -/
inductive Piece where
  /-- A byte that stands for itself. -/
  | byte (value : UInt8)
  /-- A sixteen-bit code unit, written as four hexadecimal digits. -/
  | unit (value : Nat)
deriving DecidableEq, Repr

/-- The pieces between the quotes of a string literal. -/
abbrev Literal := List Piece

/-- A value without parts. -/
inductive Scalar where
  | null
  | bool (value : Bool)
  | numeral (value : Numeral)
  | string (value : Literal)
deriving DecidableEq, Repr

/-- A JSON text as the grammar has it. -/
inductive Tree where
  | scalar (value : Scalar)
  | array (items : List Tree)
  | object (members : List (Literal × Tree))

instance : Inhabited Tree := ⟨.scalar .null⟩

/-- What a text is made of. -/
inductive Token where
  | openArray
  | closeArray
  | openObject
  | closeObject
  | comma
  | colon
  | scalar (value : Scalar)

/-! ### From tokens to trees -/

/-- A container that is still open, with what it holds so far, the last first. -/
inductive Frame where
  /-- An array. -/
  | items (items : List Tree)
  /-- An object between two members. -/
  | members (members : List (Literal × Tree))
  /-- An object in which a member's name has been written and its value has not. -/
  | named (name : Literal) (members : List (Literal × Tree))

/-- What may come next. -/
inductive Expectation where
  | value
  | valueOrClose
  | name
  | nameOrClose
  | colon
  | separator
  | nothing (tree : Tree)

/-- The tokens taken so far. -/
structure Builder where
  expected : Expectation
  frames : List Frame

namespace Builder

/-- The builder before the first token. -/
def start : Builder := ⟨.value, []⟩

/-- Puts a whole value into the container that is open. -/
def complete (tree : Tree) : List Frame → Option Builder
  | [] => some ⟨.nothing tree, []⟩
  | .items items :: frames => some ⟨.separator, .items (tree :: items) :: frames⟩
  | .named name members :: frames =>
    some ⟨.separator, .members ((name, tree) :: members) :: frames⟩
  | .members _ :: _ => none

/-- Takes a token where a value must come. -/
def acceptValue (frames : List Frame) : Token → Option Builder
  | .scalar value => complete (.scalar value) frames
  | .openArray => some ⟨.valueOrClose, .items [] :: frames⟩
  | .openObject => some ⟨.nameOrClose, .members [] :: frames⟩
  | _ => none

/-- Takes the end of an array. -/
def closeArray : List Frame → Option Builder
  | .items items :: frames => complete (.array items.reverse) frames
  | _ => none

/-- Takes the end of an object. -/
def closeObject : List Frame → Option Builder
  | .members members :: frames => complete (.object members.reverse) frames
  | _ => none

/-- Takes the name of a member. -/
def acceptName (frames : List Frame) : Token → Option Builder
  | .scalar (.string name) =>
    match frames with
    | .members members :: outer => some ⟨.colon, .named name members :: outer⟩
    | _ => none
  | _ => none

/-- Takes what follows a value in a container. -/
def acceptSeparator (frames : List Frame) : Token → Option Builder
  | .comma =>
    match frames with
    | .items _ :: _ => some ⟨.value, frames⟩
    | .members _ :: _ => some ⟨.name, frames⟩
    | _ => none
  | .closeArray => closeArray frames
  | .closeObject => closeObject frames
  | _ => none

/-- Takes a token. -/
def accept (b : Builder) (token : Token) : Option Builder :=
  match b.expected with
  | .value => acceptValue b.frames token
  | .valueOrClose =>
    match token with
    | .closeArray => closeArray b.frames
    | other => acceptValue b.frames other
  | .name => acceptName b.frames token
  | .nameOrClose =>
    match token with
    | .closeObject => closeObject b.frames
    | other => acceptName b.frames other
  | .colon =>
    match token with
    | .colon => some ⟨.value, b.frames⟩
    | _ => none
  | .separator => acceptSeparator b.frames token
  | .nothing _ => none

end Builder

/-! ### From bytes to tokens -/

/-- The parts of a number in the order in which they are written. -/
inductive NumeralPart where
  | sign
  | zero
  | whole
  | point
  | fraction
  | mark
  | exponentSign
  | exponent
deriving DecidableEq, Repr

namespace NumeralPart

/-- Whether a number may end here. -/
def mayEnd : NumeralPart → Bool
  | .zero | .whole | .fraction | .exponent => true
  | _ => false

end NumeralPart

/-- The value of a decimal digit. -/
def digit? (b : UInt8) : Option Nat :=
  if 0x30 ≤ b ∧ b ≤ 0x39 then some (b.toNat - 0x30) else none

/-- The value of a hexadecimal digit of either case. -/
def hexDigit? (b : UInt8) : Option Nat :=
  if 0x30 ≤ b ∧ b ≤ 0x39 then some (b.toNat - 0x30)
  else if 0x41 ≤ b ∧ b ≤ 0x46 then some (b.toNat - 0x37)
  else if 0x61 ≤ b ∧ b ≤ 0x66 then some (b.toNat - 0x57)
  else none

/-- A number that is being written: its part and its digits so far, the last first. -/
structure PartialNumeral where
  part : NumeralPart
  digits : Numeral

namespace PartialNumeral

/-- The number with the digits in order. -/
def finish (p : PartialNumeral) : Numeral :=
  { p.digits with
    whole := p.digits.whole.reverse
    fraction := p.digits.fraction.reverse
    exponent := p.digits.exponent.reverse }

/-- The number with one more byte, unless the byte does not belong to it. -/
def add? (p : PartialNumeral) (b : UInt8) : Option PartialNumeral :=
  let n := p.digits
  match p.part, digit? b with
  | .sign, some d => some ⟨if d = 0 then .zero else .whole, { n with whole := [d] }⟩
  | .whole, some d => some ⟨.whole, { n with whole := d :: n.whole }⟩
  | .point, some d | .fraction, some d =>
    some ⟨.fraction, { n with fraction := d :: n.fraction }⟩
  | .mark, some d | .exponentSign, some d | .exponent, some d =>
    some ⟨.exponent, { n with exponent := d :: n.exponent }⟩
  | .zero, none | .whole, none =>
    if b = 0x2E then some ⟨.point, n⟩
    else if b = 0x65 ∨ b = 0x45 then some ⟨.mark, n⟩
    else none
  | .fraction, none => if b = 0x65 ∨ b = 0x45 then some ⟨.mark, n⟩ else none
  | .mark, none =>
    if b = 0x2B then some ⟨.exponentSign, n⟩
    else if b = 0x2D then some ⟨.exponentSign, { n with exponentNegative := true }⟩
    else none
  | _, _ => none

end PartialNumeral

/-- What the bytes taken so far end in. -/
inductive Scanner where
  /-- The space between tokens. -/
  | between
  /-- A word of which some bytes are still to come. -/
  | word (next : UInt8) (rest : List UInt8) (value : Scalar)
  /-- A number. -/
  | numeral (partially : PartialNumeral)
  /-- A string literal, its last piece first. -/
  | literal (pieces : Literal)
  /-- A string literal after a backslash. -/
  | escape (pieces : Literal)
  /-- A string literal within the digits of a code unit. -/
  | codeUnit (pieces : Literal) (missing : Nat) (value : Nat)

/-- The byte that a short escape stands for. -/
def shortEscape? (b : UInt8) : Option UInt8 :=
  if b = 0x22 ∨ b = 0x5C ∨ b = 0x2F then some b
  else if b = 0x62 then some 0x08
  else if b = 0x66 then some 0x0C
  else if b = 0x6E then some 0x0A
  else if b = 0x72 then some 0x0D
  else if b = 0x74 then some 0x09
  else none

/-- The scanner with the builder that takes its tokens. -/
structure Reading where
  scanner : Scanner
  builder : Builder

namespace Reading

/-- The reading before the first byte. -/
def start : Reading := ⟨.between, .start⟩

/-- Hands a token to the builder and goes on between tokens. -/
def emit (builder : Builder) (token : Token) : Option Reading :=
  (builder.accept token).map fun next => ⟨.between, next⟩

/-- Takes the first byte of a token, or a blank. -/
def begin (builder : Builder) (b : UInt8) : Option Reading :=
  if b = 0x20 ∨ b = 0x09 ∨ b = 0x0A ∨ b = 0x0D then some ⟨.between, builder⟩
  else if b = 0x5B then emit builder .openArray
  else if b = 0x5D then emit builder .closeArray
  else if b = 0x7B then emit builder .openObject
  else if b = 0x7D then emit builder .closeObject
  else if b = 0x2C then emit builder .comma
  else if b = 0x3A then emit builder .colon
  else if b = 0x22 then some ⟨.literal [], builder⟩
  else if b = 0x6E then some ⟨.word 0x75 [0x6C, 0x6C] .null, builder⟩
  else if b = 0x74 then some ⟨.word 0x72 [0x75, 0x65] (.bool true), builder⟩
  else if b = 0x66 then some ⟨.word 0x61 [0x6C, 0x73, 0x65] (.bool false), builder⟩
  else if b = 0x2D then some ⟨.numeral ⟨.sign, ⟨true, [], [], false, []⟩⟩, builder⟩
  else
    match (PartialNumeral.mk .sign ⟨false, [], [], false, []⟩).add? b with
    | some partially => some ⟨.numeral partially, builder⟩
    | none => none

/-- Takes a byte. A number ends at the first byte that does not belong to it; that byte then
begins the next token. -/
def step (r : Reading) (b : UInt8) : Option Reading :=
  match r.scanner with
  | .between => begin r.builder b
  | .word next rest value =>
    if b = next then
      match rest with
      | [] => emit r.builder (.scalar value)
      | next :: rest => some { r with scanner := .word next rest value }
    else none
  | .numeral partially =>
    match partially.add? b with
    | some more => some { r with scanner := .numeral more }
    | none =>
      if partially.part.mayEnd then
        -- the byte behind a number belongs to the next token
        (r.builder.accept (.scalar (.numeral partially.finish))).bind fun builder =>
          begin builder b
      else none
  | .literal pieces =>
    if b = 0x22 then emit r.builder (.scalar (.string pieces.reverse))
    else if b = 0x5C then some { r with scanner := .escape pieces }
    else if b < 0x20 then none
    else some { r with scanner := .literal (.byte b :: pieces) }
  | .escape pieces =>
    if b = 0x75 then some { r with scanner := .codeUnit pieces 4 0 }
    else (shortEscape? b).map fun byte => { r with scanner := .literal (.byte byte :: pieces) }
  | .codeUnit pieces missing value =>
    (hexDigit? b).map fun digit =>
      let value := value * 16 + digit
      if missing ≤ 1 then { r with scanner := .literal (.unit value :: pieces) }
      else { r with scanner := .codeUnit pieces (missing - 1) value }

/-- The tree of the bytes taken, if they make up a whole text. -/
def finish (r : Reading) : Option Tree :=
  let last :=
    match r.scanner with
    | .between => some r.builder
    | .numeral partially =>
      if partially.part.mayEnd then r.builder.accept (.scalar (.numeral partially.finish))
      else none
    | _ => none
  last.bind fun builder =>
    match builder.expected with
    | .nothing tree => some tree
    | _ => none

end Reading

/-- The tree of a text that is given by its bytes. -/
def Tree.ofBytes? (bytes : List UInt8) : Option Tree :=
  (bytes.foldlM Reading.step .start).bind Reading.finish

/-- The tree of a text. -/
def Tree.ofText? (text : String) : Option Tree := ofBytes? text.toUTF8.toList

end ScriptChart.Json
