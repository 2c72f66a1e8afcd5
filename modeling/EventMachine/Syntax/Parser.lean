import EventMachine.Lexer.Basic
import EventMachine.Number.Decimal
import EventMachine.Syntax.Basic
import EventMachine.Syntax.Error
import EventMachine.Syntax.Escape
import EventMachine.Syntax.Production

/-!
# The grammar

```text
file        := entry*
entry       := state ';' | assignment
assignment  := identifier '=' value ';'
state       := 'state' identifier '{' init? trigger* '}'
init        := action (',' action)* ';'
trigger     := 'on' condition (',' condition)* '->' action (',' action)* ';'
condition   := identifier ('(' (param (',' param)* ','?)? ')')?
param       := identifier ('=' value)?
action      := 'move' identifier | call
call        := identifier ('(' (arg (',' arg)* ','?)? ')')?
arg         := identifier ('=' value)?
value       := string | int | float | bool | identifier
```

Each rule is a production. The first token that does not fit makes the whole source fail.
-/

namespace EventMachine.Syntax

open Number Production

/-- What may stand for a value. -/
def valueKinds : List Expectation :=
  [.kind .string, .kind .int, .kind .float, .kind .bool, .kind .identifier]

/-- The literal or name that a token stands for, or what would have been accepted. -/
def exprOfToken (t : Token) : Except (List Expectation) Expr :=
  match t.kind with
  | .string => .ok (.str (String.ofList (unescapeChars (t.text.toList.drop 1).dropLast)))
  | .int =>
    match readInt64? t.text.toList with
    | some n => .ok (.int n)
    | none => .error [.kind .int]
  | .float =>
    match readBinary64? t.text.toList with
    | some x => .ok (.float x)
    | none => .error [.kind .float]
  | .bool => .ok (.bool (t.text = "true"))
  | .identifier => .ok (.ref t.text)
  | _ => .error valueKinds

def value : Production Expr
  | t :: ts =>
    match exprOfToken t with
    | .ok e => .ok (e, ts)
    | .error expected => .error ⟨expected, t :: ts⟩
  | [] => .error ⟨valueKinds, []⟩

/-- Reads `= value`, if it comes next. -/
def assignedValue? : Production (Option Expr) := do
  if ← isAt "=" then
    let _ ← ofText "="
    return some (← value)
  else
    return none

def param : Production Param := do
  let name ← ofKind .identifier
  return ⟨name.text, ← assignedValue?, name.location⟩

/-- An argument without a value passes on what has the name of the argument. -/
def arg : Production Arg := do
  let name ← ofKind .identifier
  let value ← assignedValue?
  return ⟨name.text, value.getD (.ref name.text), name.location⟩

theorem shrinks_value : Shrinks value := by
  rintro (_ | ⟨t, ts⟩) a rest h
  · cases h
  · simp only [value] at h
    split at h
    · cases h; simp
    · cases h

theorem keeps_assignedValue? : Keeps assignedValue? :=
  (keeps_isAt _).bind fun _ => keeps_ite
    ((shrinks_ofText _).bind fun _ => shrinks_value.keeps.bind fun _ => keeps_pure _).keeps
    (keeps_pure _)

theorem shrinks_param : Shrinks param :=
  (shrinks_ofKind _).bind fun _ => keeps_assignedValue?.bind fun _ => keeps_pure _

theorem shrinks_arg : Shrinks arg :=
  (shrinks_ofKind _).bind fun _ => keeps_assignedValue?.bind fun _ => keeps_pure _

def condition : Production Condition := do
  let name ← ofKind .identifier
  let params ← parenthesised param shrinks_param
  return ⟨name.text, params, name.location⟩

def call : Production Call := do
  let name ← ofKind .identifier
  let args ← parenthesised arg shrinks_arg
  return ⟨name.text, args, name.location⟩

theorem shrinks_condition : Shrinks condition :=
  (shrinks_ofKind _).bind fun _ => (keeps_parenthesised _).bind fun _ => keeps_pure _

theorem shrinks_call : Shrinks call :=
  (shrinks_ofKind _).bind fun _ => (keeps_parenthesised _).bind fun _ => keeps_pure _

def statement : Production Statement := do
  if ← isAtKeyword "move" then
    let _ ← ofText "move"
    let destination ← ofKind .identifier
    return .move destination.text destination.location
  else if ← isAtKind .identifier then
    return .call (← call)
  else
    mismatch [.text "move", .kind .identifier]

theorem shrinks_statement : Shrinks statement :=
  (keeps_isAtKeyword _).bind_shrinks fun _ => shrinks_ite
    ((shrinks_ofText _).bind fun _ => (shrinks_ofKind _).keeps.bind fun _ => keeps_pure _)
    ((keeps_isAtKind _).bind_shrinks fun _ => shrinks_ite
      (shrinks_call.bind fun _ => keeps_pure _) (shrinks_mismatch _))

/-- Reads one or more statements and their semicolon. -/
def statements : Production (List Statement) := do
  let actions ← commaSeparated statement shrinks_statement
  let _ ← ofText ";"
  return actions

theorem shrinks_statements : Shrinks statements :=
  (shrinks_commaSeparated _).bind fun _ => (shrinks_ofText _).keeps.bind fun _ => keeps_pure _

def trigger : Production Trigger := do
  let location ← ofText "on"
  let conditions ← commaSeparated condition shrinks_condition
  let _ ← ofText "->"
  let actions ← statements
  return ⟨conditions, actions, location⟩

theorem shrinks_trigger : Shrinks trigger :=
  (shrinks_ofText _).bind fun _ => (shrinks_commaSeparated _).keeps.bind fun _ =>
    (shrinks_ofText _).keeps.bind fun _ => shrinks_statements.keeps.bind fun _ => keeps_pure _

/-- Reads the statements of a state's entry, if neither a trigger nor the end of the state comes
next. -/
def init : Production (List Statement) := do
  if (← isAt "on") || (← isAt "\x7d") then
    return []
  else
    statements

theorem keeps_init : Keeps init :=
  (keeps_isAt _).bind fun _ => (keeps_isAt _).bind fun _ =>
    keeps_ite (keeps_pure _) shrinks_statements.keeps

def state : Production State := do
  let _ ← ofText "state"
  let name ← ofKind .identifier
  let _ ← ofText "\x7b"
  let init ← init
  let triggers ← braceItems trigger shrinks_trigger
  return ⟨name.text, name.location, init, triggers⟩

theorem shrinks_state : Shrinks state :=
  (shrinks_ofText _).bind fun _ => (shrinks_ofKind _).keeps.bind fun _ =>
    (shrinks_ofText _).keeps.bind fun _ => keeps_init.bind fun _ =>
      (shrinks_braceItems _).keeps.bind fun _ => keeps_pure _

def assignment : Production Assignment := do
  let name ← ofKind .identifier
  let _ ← ofText "="
  let value ← value
  let _ ← ofText ";"
  return ⟨name.text, value, name.location⟩

theorem shrinks_assignment : Shrinks assignment :=
  (shrinks_ofKind _).bind fun _ => (shrinks_ofText _).keeps.bind fun _ =>
    shrinks_value.keeps.bind fun _ => (shrinks_ofText _).keeps.bind fun _ => keeps_pure _

def entry : Production Entry := do
  if ← isAtKeyword "state" then
    let state ← state
    let _ ← ofText ";"
    return .state state
  else if ← isAtKind .identifier then
    return .assign (← assignment)
  else
    mismatch [.kind .identifier, .text "state"]

theorem shrinks_entry : Shrinks entry :=
  (keeps_isAtKeyword _).bind_shrinks fun _ => shrinks_ite
    (shrinks_state.bind fun _ => (shrinks_ofText _).keeps.bind fun _ => keeps_pure _)
    ((keeps_isAtKind _).bind_shrinks fun _ => shrinks_ite
      (shrinks_assignment.bind fun _ => keeps_pure _) (shrinks_mismatch _))

/-- Reads a file from its tokens. -/
def file (tokens : List Token) : Except Mismatch File :=
  (untilEnd entry shrinks_entry tokens).map File.mk

/-- The error for a mismatch. The token that stands there is the first one left, or the terminal
one; when that one stands for a failure to read, the failure is the error. -/
def Mismatch.error (m : Mismatch) (filename : String) (terminal : Token)
    (failure : Option Source.ReadError) : ParseError :=
  let seen := m.remaining.headD terminal
  let diagnostic :=
    ParseError.unexpected ⟨filename, m.expected.map (·.label), seen.location, seen.kind, seen.text⟩
  if seen.kind = .error then (failure.map (.unreadable filename)).getD diagnostic else diagnostic

/-- Reads a file from its tokens and the terminal token. A source that ends in a failure to read
has no tree, also if the tokens before the failure have one. -/
def parseTokens (filename : String) (tokens : List Token) (terminal : Token)
    (failure : Option Source.ReadError) : Except ParseError File :=
  match file tokens with
  | .error m => .error (m.error filename terminal failure)
  | .ok tree =>
    if terminal.kind = .error then
      .error (Mismatch.error ⟨[.kind .identifier, .text "state"], []⟩ filename terminal failure)
    else .ok tree

/-- Reads a file from a lexer at its first token, and gives the lexer at the terminal token. -/
def parse (filename : String) (lexer : Lexer) : Except ParseError File × Lexer :=
  let (tokens, last) := lexer.run
  (parseTokens filename tokens last.token last.failure, last)

/-- The tree of a source in one text. -/
def parseText (filename source : String) : Except ParseError File :=
  (parse filename (.ofText source)).1

end EventMachine.Syntax
