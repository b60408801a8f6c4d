/-!
# Prefix codes

A code in which no code word begins another one, kept as a binary tree whose leaves are the
symbols. The code words follow from their lengths alone: shorter words come before longer ones,
and words of one length are in the order of their symbols.

## Main definitions

* `CodeTree`: a prefix code as a tree.
* `CodeTree.ofLengths`: the code with given lengths.
* `isComplete`, `isUsable`: whether the lengths leave no word unused and use none twice, and
  whether a code of these lengths is accepted.
-/

namespace ScriptChart.Archive

/-- A prefix code as a tree: a zero leads to the left and a one to the right. -/
inductive CodeTree where
  | empty
  | symbol (value : Nat)
  | branch (zero one : CodeTree)
deriving Repr

namespace CodeTree

/-- Adds a symbol under a word that is given by its bits, the first one first. -/
def insert (value : Nat) : List Bool → CodeTree → CodeTree
  | [], _ => .symbol value
  | false :: bits, .branch zero one => .branch (insert value bits zero) one
  | true :: bits, .branch zero one => .branch zero (insert value bits one)
  | false :: bits, _ => .branch (insert value bits .empty) .empty
  | true :: bits, _ => .branch .empty (insert value bits .empty)

end CodeTree

/-- The low bits of a number, the highest first. -/
def highFirst : Nat → Nat → List Bool
  | 0, _ => []
  | count + 1, value => value.testBit count :: highFirst count value

/-- The largest length of a word. -/
def longestWord : Nat := 15

/-- How many symbols have words of a length. -/
def countOf (lengths : List Nat) (length : Nat) : Nat := lengths.count length

/-- The first words of the lengths up to `length`, the longest first, each as a number. -/
def firstWords (lengths : List Nat) : Nat → List Nat
  | 0 => [0]
  | length + 1 =>
    let shorter := firstWords lengths length
    let used := if length = 0 then 0 else countOf lengths length
    (2 * (shorter.headD 0 + used)) :: shorter

/-- Gives each symbol the next word of its length. -/
def assignWords (next : List Nat) (tree : CodeTree) (symbol : Nat) : List Nat → CodeTree
  | [] => tree
  | 0 :: rest => assignWords next tree (symbol + 1) rest
  | length :: rest =>
    let word := next.getD length 0
    assignWords (next.set length (word + 1)) (tree.insert symbol (highFirst length word))
      (symbol + 1) rest

/-- The prefix code in which each symbol has a word of the given length. A symbol of length zero
has no word. -/
def CodeTree.ofLengths (lengths : List Nat) : CodeTree :=
  assignWords (firstWords lengths longestWord).reverse .empty 0 lengths

/-- The lengths of the words that there are. -/
def wordLengths (lengths : List Nat) : List Nat := lengths.filter fun length => 0 < length

/-- Whether the words of the given lengths fill the whole code: every sequence of bits begins with
exactly one of them. -/
def isComplete (lengths : List Nat) : Bool :=
  let filled :=
    (wordLengths lengths).foldl (fun total length => total + Nat.pow 2 (longestWord - length)) 0
  filled == Nat.pow 2 longestWord

/-- Whether the words of the given lengths can be used: they fill the whole code, or there is none,
or there is a single one of one bit. -/
def isUsable (lengths : List Nat) : Bool :=
  isComplete lengths || wordLengths lengths == [] || wordLengths lengths == [1]

end ScriptChart.Archive
