/-!
# Looking for a piece of text

Whether a text begins with, ends with, or contains a given piece, decided character by character.
-/

namespace ScriptChart.Text

/-- Whether a list of characters occurs without gaps in another. -/
def occursIn (piece : List Char) : List Char → Bool
  | [] => piece.isEmpty
  | c :: rest => piece.isPrefixOf (c :: rest) || occursIn piece rest

/-- Whether a text contains a piece. -/
def hasPiece (piece text : String) : Bool := occursIn piece.toList text.toList

/-- Whether a text begins with a piece. -/
def beginsWith (piece text : String) : Bool := piece.toList.isPrefixOf text.toList

/-- Whether a text ends with a piece. -/
def endsWith (piece text : String) : Bool := piece.toList.isSuffixOf text.toList

/-- The parts before and after the first place where a character stands, if it stands anywhere. -/
def cutAtFirst? (mark : Char) : List Char → Option (List Char × List Char)
  | [] => none
  | c :: rest =>
    if c = mark then some ([], rest)
    else (cutAtFirst? mark rest).map fun parts => (c :: parts.1, parts.2)

end ScriptChart.Text
