/-!
# Diagnostics

What was wrong with a program and did not stop its diagram from being drawn: a reference to a
block or a message that is not there, a value that refers to itself, and a chain or a value that
goes on for too long. Each names the target that it was found in.
-/

namespace ScriptChart

/-- A fault of a program that was passed over. -/
inductive Diagnostic where
  | missingBlock (target block : String)
  | missingBroadcast (target broadcast fallback : String)
  | circularReference (target block : String)
  | depthLimit (target block : String)
deriving DecidableEq, Repr

namespace Diagnostic

/-- The target that the fault was found in. -/
def target : Diagnostic → String
  | .missingBlock target _ => target
  | .missingBroadcast target _ _ => target
  | .circularReference target _ => target
  | .depthLimit target _ => target

/-- The fault in words. -/
def message : Diagnostic → String
  | .missingBlock target block => target ++ ": reference to missing block '" ++ block ++ "'"
  | .missingBroadcast target broadcast fallback =>
    target ++ ": unknown broadcast '" ++ broadcast ++ "', showing '" ++ fallback ++ "'"
  | .circularReference target block =>
    target ++ ": circular input reference through block '" ++ block ++ "'"
  | .depthLimit target block =>
    target ++ ": traversal depth limit reached at block '" ++ block ++ "'"

end Diagnostic

end ScriptChart
