import EventMachine.Json.Parser
import EventMachine.Machine.Error
import EventMachine.Text.WhiteSpace

/-!
# The lines of a session

A line holds a command, or the name of an event and perhaps its payload, a JSON object. An event
that is named like a command needs the command `emit`. Empty lines and those that begin with `#`
ask for nothing.
-/

namespace EventMachine

namespace Session

/-- What a line of a session asks for. -/
inductive Request
  | nothing
  | help
  | quit
  /-- Tell the current state. -/
  | state
  | move (destination : String)
  /-- Let an event happen, with the text of its payload. -/
  | emit (event payload : String)
deriving DecidableEq

/-- Why a line of a session fails. -/
inductive LineError
  /-- `move` without a state. -/
  | moveUsage
  /-- `emit` without an event. -/
  | emitUsage
  /-- The payload is not JSON. -/
  | malformedPayload
  /-- The payload is JSON of another kind. -/
  | payloadNotObject
  | runtime (cause : RuntimeError)
deriving DecidableEq

def LineError.message : LineError → String
  | moveUsage => "usage: move <state>"
  | emitUsage => "usage: emit <EVENT> [payload]"
  | malformedPayload => "payload is not valid JSON"
  | payloadNotObject => "payload must be a JSON object"
  | runtime cause => cause.message

namespace Request

/-- The first word of a text and what follows it, without white space around it. -/
def cutWord (text : String) : String × String :=
  match Text.splitWord text with
  | (word, some rest) => (word, Text.trim rest)
  | (word, none) => (word, "")

/-- What a line asks for, whose first word and the rest after it are given. -/
def ofWords (word rest : String) : Except LineError Request :=
  if word = "help" then .ok help
  else if word = "quit" ∨ word = "exit" then .ok quit
  else if word = "state" then .ok state
  else if word = "move" then if rest = "" then .error .moveUsage else .ok (move rest)
  else if word = "emit" then
    let (event, payload) := cutWord rest
    if event = "" then .error .emitUsage else .ok (emit event payload)
  else .ok (emit word rest)

/-- What a line asks for. -/
def ofLine (line : String) : Except LineError Request :=
  let line := Text.trim line
  match line.toList with
  | [] | '#' :: _ => .ok nothing
  | _ =>
    let (word, rest) := cutWord line
    ofWords word rest

/-- The commands, as the command `help` shows them. -/
def helpText : String :=
  "\n".intercalate
    ["Available commands:",
     "  help                     Show this help",
     "  state                    Show the current state",
     "  move <state>             Move to a state and run its init actions",
     "  <EVENT> [payload]        Emit an event, payload is a JSON object",
     "  emit <EVENT> [payload]   Emit an event named like a command",
     "  quit, exit               Exit the session",
     "",
     "The words help, state, move, emit, quit and exit are commands. Use the emit",
     "form for events with those names."]

end Request

end Session

/-- The payload that a text describes; an empty text describes one without data. The identities of
its values count from `identity`. -/
def Payload.ofText (identity : Nat) (text : String) : Except Session.LineError Payload :=
  if text = "" then .ok .empty
  else
    match Json.parse? text with
    | none => .error .malformedPayload
    | some json =>
      match Payload.ofJson? identity json with
      | none => .error .payloadNotObject
      | some payload => .ok payload

end EventMachine
