import ScriptChart.Text.Search
import ScriptChart.Text.Uppercase

/-!
# Opcodes as keys and as words

An opcode such as `motion_movesteps` names a category and an action. Phrases are stored under the
opcode in upper case with underscores; without a phrase a block is shown by its action.

## Main definitions

* `key`: the key under which the phrase of an opcode is stored.
* `action`: the opcode without its category.
-/

namespace ScriptChart.Phrase

/-- The key of an opcode: underscores for dots, and all of it in upper case. -/
def key (opcode : String) : String :=
  Text.uppercase (String.ofList (opcode.toList.map fun c => if c = '.' then '_' else c))

/-- The opcode without its category, which ends at the first underscore. An opcode with nothing
after that underscore, or without one, stays whole. -/
def action (opcode : String) : String :=
  match Text.cutAtFirst? '_' opcode.toList with
  | some (_, c :: rest) => String.ofList (c :: rest)
  | _ => opcode

end ScriptChart.Phrase
