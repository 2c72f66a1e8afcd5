import EventMachine.Source.Line
import EventMachine.Text.Quoted
import EventMachine.Token

/-!
# Syntax errors

A diagnostic tells what would have been accepted at a place and what stands there instead.
-/

namespace EventMachine.Syntax

/-- The texts as `a`, `a or b`, or `a, b or c`; without any, `??`. -/
def alternatives : List String → String
  | [] => "??"
  | [text] => text
  | first :: second :: texts =>
    let all := first :: second :: texts
    ", ".intercalate all.dropLast ++ " or " ++ all.getLastD ""

/-- A token that the grammar does not allow where it stands. -/
structure Diagnostic where
  filename : String
  /-- What would have been accepted. -/
  expected : List String
  location : Location
  /-- The kind of the token that stands there. -/
  kind : TokenKind
  /-- The text of the token that stands there. -/
  text : String
deriving DecidableEq

def Diagnostic.message (d : Diagnostic) : String :=
  d.filename ++ ":" ++ d.location.text ++ ": expected " ++ alternatives d.expected ++ ", got " ++
    Text.quote d.text

/-- Why a source has no syntax tree. -/
inductive ParseError
  | unexpected (diagnostic : Diagnostic)
  | unreadable (filename : String) (cause : Source.ReadError)
deriving DecidableEq

namespace ParseError

def message : ParseError → String
  | unexpected d => d.message
  | unreadable filename cause => filename ++ ": I/O error: " ++ cause.message

/-- The place of the token that is not allowed. -/
def location? : ParseError → Option Location
  | unexpected d => some d.location
  | unreadable _ _ => none

end ParseError

end EventMachine.Syntax
