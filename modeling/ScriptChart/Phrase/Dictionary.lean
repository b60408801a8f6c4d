import ScriptChart.OrderedMap
import ScriptChart.Phrase.Chinese
import ScriptChart.Phrase.English

/-!
# Dictionaries

A dictionary holds phrases by their keys. Two are built in, one for each locale; others are read
from files.

## Main definitions

* `Dictionary`, `Dictionary.get?`: phrases by key.
* `LocaleName`, `Dictionary.ofLocale`: the dictionaries that are built in.
-/

namespace ScriptChart.Phrase

/-- Phrases by their keys. -/
structure Dictionary where
  phrases : OrderedMap String

/-- The languages with a dictionary of their own. -/
inductive LocaleName where
  | chinese
  | english
deriving DecidableEq, Repr, Inhabited

namespace Dictionary

/-- The phrases of a list, the last one of a key winning. -/
def ofList (phrases : List (String × String)) : Dictionary := ⟨.ofList phrases⟩

/-- The phrase stored under a key. -/
def get? (dictionary : Dictionary) (key : String) : Option String :=
  dictionary.phrases.get? key

/-- The number of phrases. -/
def size (dictionary : Dictionary) : Nat := dictionary.phrases.size

/-- Whether there is no phrase. -/
def isEmpty (dictionary : Dictionary) : Bool := dictionary.phrases.isEmpty

/-- The Chinese dictionary. -/
def chinese : Dictionary := ofList chinesePhrases

/-- The English dictionary. -/
def english : Dictionary := ofList englishPhrases

/-- The dictionary of a locale. -/
def ofLocale : LocaleName → Dictionary
  | .chinese => chinese
  | .english => english

end Dictionary

end ScriptChart.Phrase
