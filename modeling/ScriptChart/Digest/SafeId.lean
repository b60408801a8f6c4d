import ScriptChart.Digest.Md5
import ScriptChart.OrderedMap

/-!
# Safe ids

Ids of blocks and names of targets may hold any character. In a diagram each is represented by
the digest of its text, which consists of thirty-two lower-case hexadecimal digits.

A memo remembers the safe ids that were asked for; it changes no answer.

## Main definitions

* `safeId`: the safe id of a text.
* `Memo`, `Memo.ask`: the safe ids asked for so far.
-/

namespace ScriptChart.Digest

/-- The digest of a text as hexadecimal digits. -/
def safeId (text : String) : String :=
  String.ofList (hex (Md5.digest text.toUTF8.toList))

/-- The safe ids that were asked for, by the text they belong to. -/
structure Memo where
  known : OrderedMap String

namespace Memo

/-- The memo in which nothing has been asked for. -/
def empty : Memo := ⟨∅⟩

/-- The number of texts that were asked for. -/
def size (memo : Memo) : Nat := memo.known.size

/-- Whether nothing has been asked for. -/
def isEmpty (memo : Memo) : Bool := memo.known.isEmpty

/-- The safe id of a text, looked up when it was asked for before and else computed and kept. -/
def ask (memo : Memo) (text : String) : String × Memo :=
  match memo.known.get? text with
  | some id => (id, memo)
  | none => (safeId text, ⟨memo.known.insert text (safeId text)⟩)

end Memo

end ScriptChart.Digest
