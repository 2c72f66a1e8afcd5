import EventMachine.Value

/-!
# Runtime errors
-/

namespace EventMachine

/-- How deep the moves made on entry of states may be nested. -/
def maxMoveDepth : Nat := 64

/-- Why an operation on an instance fails. -/
inductive RuntimeError
  | unknownState (name : String)
  | missingEventData (event name : String)
  | typeMismatch (name : String) (expected actual : ValueType)
  | undefinedVariable (name : String)
  | actionFailed (action cause : String)
  | moveDepthExceeded (state : String)
deriving DecidableEq

namespace RuntimeError

open Text (quote)

def message : RuntimeError → String
  | unknownState name => "unknown state " ++ quote name
  | missingEventData event name => "missing event-data " ++ quote name ++ " for event " ++ event
  | typeMismatch name expected actual =>
    "type mismatch for event-data " ++ quote name ++ ": expected " ++ expected.name ++ ", got " ++
      actual.name
  | undefinedVariable name => "undefined variable " ++ quote name
  | actionFailed action cause => "action " ++ action ++ " failed: " ++ cause
  | moveDepthExceeded state =>
    "moving to " ++ quote state ++ " exceeds " ++ toString maxMoveDepth ++ " nested init moves"

end RuntimeError

end EventMachine
