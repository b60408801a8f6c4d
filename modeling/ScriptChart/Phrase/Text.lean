import ScriptChart.Json.Strings
import ScriptChart.Phrase.Dictionary

/-!
# Dictionaries as texts

A dictionary can be given as a text: a JSON object whose members are the phrases by their keys.
-/

namespace ScriptChart.Phrase

/-- The dictionary that a text holds, if the text is an object of strings. -/
def Dictionary.ofText? (text : String) : Option Dictionary :=
  (Json.stringTableOfText? text).map Dictionary.mk

end ScriptChart.Phrase
