/-!
# Blank and control characters

Which characters separate words, and which characters have no place on a line of a diagram. The
blank characters are those with the Unicode property `White_Space`; the control characters are
those of the general category `Cc`.

## Main definitions

* `isBlank`, `isControl`: the two classes.
* `words`: the maximal runs of characters that are not blank.
* `singleSpaced`: the words of a text with one space between neighbours.
-/

namespace ScriptChart.Text

/-- The characters with the property `White_Space`, by code point. -/
def blankCodes : List Nat :=
  [0x09, 0x0A, 0x0B, 0x0C, 0x0D, 0x20, 0x85, 0xA0, 0x1680, 0x2000, 0x2001, 0x2002, 0x2003, 0x2004,
   0x2005, 0x2006, 0x2007, 0x2008, 0x2009, 0x200A, 0x2028, 0x2029, 0x202F, 0x205F, 0x3000]

/-- Whether a character is white space. -/
def isBlank (c : Char) : Bool := blankCodes.contains c.toNat

/-- Whether a character is a control character: below the space, or from DEL to U+009F. -/
def isControl (c : Char) : Bool :=
  c.toNat < 0x20 || (0x7F ≤ c.toNat && c.toNat ≤ 0x9F)

/-- Whether a text holds nothing but white space. -/
def isAllBlank (text : String) : Bool := text.toList.all isBlank

/-- The words found so far, with the letters before the first blank as a word of their own. -/
def closeWord (found : List Char × List (List Char)) : List (List Char) :=
  if found.1.isEmpty then found.2 else found.1 :: found.2

/-- Puts a character before what was found in the rest of a text: the letters before its first
blank, and the words after it. -/
def addLetter (c : Char) (found : List Char × List (List Char)) : List Char × List (List Char) :=
  if isBlank c then ([], closeWord found) else (c :: found.1, found.2)

/-- The maximal runs of characters that are not blank. -/
def words (text : String) : List String :=
  (closeWord (text.toList.foldr addLetter ([], []))).map String.ofList

/-- The words of a text with one space between neighbours and none outside. -/
def singleSpaced (text : String) : String := " ".intercalate (words text)

end ScriptChart.Text
