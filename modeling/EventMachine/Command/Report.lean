import EventMachine.Command.Style
import EventMachine.Lexer.Basic
import EventMachine.Machine.Basic

/-!
# What the commands print

The lines of the commands `tokens` and `check`, without their ends.
-/

namespace EventMachine

/-- A token: its place, its kind and its text, divided by tabs. -/
def Token.line (style : Style) (t : Token) : String :=
  let kind := if t.kind = .illegal then style.red t.kind.name else t.kind.name
  t.location.text ++ "\t" ++ kind ++ "\t" ++ Text.quote t.text

/-- A trigger, which has the given index in its state. -/
def Machine.Trigger.line (index : Nat) (t : Machine.Trigger) : String :=
  "    #" ++ toString index ++ " on " ++ " | ".intercalate (t.conditions.map (·.trigger)) ++ ": " ++
    toString t.actions.length ++ " actions"

/-- The triggers of a state, of which the first has the given index. -/
def triggerLines (index : Nat) : List Machine.Trigger → List String
  | [] => []
  | t :: ts => t.line index :: triggerLines (index + 1) ts

/-- A state with its triggers. -/
def Machine.State.lines (style : Style) (s : Machine.State) : List String :=
  let counts := " (" ++ toString s.init.length ++ " init actions, " ++ toString s.triggers.length ++
    " triggers)"
  ("  " ++ style.cyan s.name ++ counts) :: triggerLines 0 s.triggers

/-- A warning. -/
def Warning.line (style : Style) (w : Warning) : String :=
  style.yellow "Warning" ++ ": " ++ w.message

/-- What a machine consists of. -/
def Machine.lines (style : Style) (m : Machine) : List String :=
  [style.bold "entry:" ++ " " ++ style.green m.entry, style.bold "states:"] ++
    m.states.flatMap (·.lines style) ++ m.warnings.map (·.line style) ++
    m.checksum.toList.map fun c => style.bold "checksum:" ++ " " ++ c.hex

end EventMachine
