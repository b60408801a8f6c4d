/-!
# Code page 437

A set of 256 characters with one byte each. The lower half is ASCII, the upper half holds accented
letters, parts of frames, and signs of mathematics. A text that does not say how it is written is
taken to be in this set.

## Main definitions

* `codePageUpper`: the characters of the bytes from 0x80 on.
* `ofCodePage`: the text that bytes stand for.
-/

namespace ScriptChart.Text

/-- The characters of the bytes from 0x80 on. -/
def codePageUpper : List Char :=
  ("ÇüéâäàåçêëèïîìÄÅÉæÆôöòûùÿÖÜ¢£¥₧ƒáíóúñÑªº¿⌐¬½¼¡«»░▒▓│┤╡╢╖╕╣║╗╝╜╛┐" ++
   "└┴┬├─┼╞╟╚╔╩╦╠═╬╧╨╤╥╙╘╒╓╫╪┘┌█▄▌▐▀αßΓπΣσµτΦΘΩδ∞φε∩≡±≥≤⌠⌡÷≈°∙·√ⁿ²■\u00a0").toList

/-- The character that a byte stands for. -/
def codePageChar (b : UInt8) : Char :=
  if b < 0x80 then Char.ofNat b.toNat else codePageUpper.getD (b.toNat - 0x80) ' '

/-- The text that bytes stand for. -/
def ofCodePage (bytes : List UInt8) : String := String.ofList (bytes.map codePageChar)

end ScriptChart.Text
