import ScriptChart.Phrase.Dictionary
import ScriptChart.Phrase.Key
import ScriptChart.Phrase.Template

/-!
# Looking up phrases

A dictionary is asked for the phrase of an opcode, for that of a value chosen from a menu, and for
the words that a diagram adds of its own. Those words have a default, so that a
dictionary need not hold them.

## Main definitions

* `Synthetic`: the words that a diagram adds.
* `Dictionary.phrase?`, `Dictionary.menuValue?`, `Dictionary.synthetic`: the look-ups.
* `Dictionary.render?`: the phrase of an opcode with its parameters filled in.
-/

namespace ScriptChart.Phrase

/-- The words that a diagram adds to those of its blocks. -/
inductive Synthetic where
  | finish
  | again
  | conditionEnd
  | loopEnd
  | yes
  | no
  | holds
  | fails
  | runaway
  | circularReference
  | bareCondition
  | untitledProject
deriving DecidableEq, Repr

namespace Synthetic

/-- The key under which a dictionary holds the words. -/
def key : Synthetic → String
  | .finish => "FLOWCHART_END"
  | .again => "FLOWCHART_CONTINUE"
  | .conditionEnd => "FLOWCHART_CONDITION_END"
  | .loopEnd => "FLOWCHART_LOOP_END"
  | .yes => "FLOWCHART_YES"
  | .no => "FLOWCHART_NO"
  | .holds => "FLOWCHART_TRUE"
  | .fails => "FLOWCHART_FALSE"
  | .runaway => "FLOWCHART_RUNAWAY"
  | .circularReference => "FLOWCHART_CIRCULAR_REFERENCE"
  | .bareCondition => "FLOWCHART_IF_FALLBACK"
  | .untitledProject => "FLOWCHART_UNTITLED_PROJECT"

/-- The words used when a dictionary does not hold the key. -/
def defaultText : Synthetic → String
  | .finish => "end"
  | .again => "repeat"
  | .conditionEnd => "end if"
  | .loopEnd => "end repeat"
  | .yes => "yes"
  | .no => "no"
  | .holds => "true"
  | .fails => "false"
  | .runaway => "runaway loop..."
  | .circularReference => "circular reference"
  | .bareCondition => "if %1"
  | .untitledProject => "untitled project"

end Synthetic

namespace Dictionary

/-- The phrase of an opcode. -/
def phrase? (dictionary : Dictionary) (opcode : String) : Option String :=
  dictionary.get? (Phrase.key opcode)

/-- Whether a menu value is a token: longer than two bytes, with an underscore at both ends. -/
def isToken (value : String) : Bool :=
  2 < value.utf8ByteSize && Text.beginsWith "_" value && Text.endsWith "_" value

/-- The phrase of a value chosen from a menu. Tokens are looked up on their own, other values
under the opcode that owns the menu, and the empty value has no phrase. -/
def menuValue? (dictionary : Dictionary) (opcode value : String) : Option String :=
  if isToken value then dictionary.get? (Phrase.key value)
  else if value.isEmpty then none
  else dictionary.get? (Phrase.key (opcode ++ "_" ++ value))

/-- Words that a diagram adds, as the dictionary has them or else in their default form. -/
def synthetic (dictionary : Dictionary) (words : Synthetic) : String :=
  (dictionary.get? words.key).getD words.defaultText

/-- The phrase of an opcode with its parameters filled in. -/
def render? (dictionary : Dictionary) (opcode : String) (params : List String) : Option String :=
  (dictionary.phrase? opcode).map fun template => substitute template params

end Dictionary

end ScriptChart.Phrase
