/-!
# Tokens

A token has a kind, the text it was read from and the place of that text in the source.
-/

namespace EventMachine

/-- The kinds of tokens. The last two end every token sequence: one of them, once. -/
inductive TokenKind
  /-- A reserved word: `state`, `on` or `move`. -/
  | keyword
  /-- The name of a state, trigger, action, parameter or constant. -/
  | identifier
  /-- One of `{ } ( ) , ; =`. -/
  | punct
  | arrow
  /-- A text in double quotes, with its escapes. -/
  | string
  | int
  | float
  | bool
  /-- A character that begins no token. -/
  | illegal
  /-- The end of the source. -/
  | eof
  /-- The source cannot be read further. -/
  | error
deriving DecidableEq

namespace TokenKind

/-- The name of the kind in messages. -/
def name : TokenKind → String
  | keyword => "keyword"
  | identifier => "identifier"
  | punct => "punct"
  | arrow => "arrow"
  | string => "string"
  | int => "int"
  | float => "float"
  | bool => "bool"
  | illegal => "ILLEGAL"
  | eof => "EOF"
  | error => "ERROR"

/-- No token follows one of this kind. -/
def isTerminal : TokenKind → Bool
  | eof | error => true
  | _ => false

end TokenKind

/-- A place in the source: `line` counts from 1 and is the first physical line of a logical line,
`offset` and `length` count bytes of UTF-8 within that logical line. -/
structure Location where
  line : Nat
  offset : Nat
  length : Nat
deriving DecidableEq

namespace Location

/-- The offset just past the place. -/
def stop (l : Location) : Nat := l.offset + l.length

/-- The place as `line:offset-stop`. -/
def text (l : Location) : String :=
  toString l.line ++ ":" ++ toString l.offset ++ "-" ++ toString l.stop

end Location

/-- A token. -/
structure Token where
  kind : TokenKind
  text : String
  location : Location
deriving DecidableEq

namespace Token

/-- The token is the given punctuation or arrow. -/
def isPunct (t : Token) (text : String) : Bool :=
  (t.kind = .punct || t.kind = .arrow) && t.text = text

/-- The token is the given reserved word. -/
def isKeyword (t : Token) (word : String) : Bool := t.kind = .keyword && t.text = word

end Token

end EventMachine
