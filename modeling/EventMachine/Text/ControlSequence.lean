/-!
# Control sequences

Where a text goes to something that shows no colours, the sequences that control a terminal are
taken out of it, and with them all control characters but those that set lines and columns
(`withoutControls`). An escape character starts a sequence, whatever came before; what ends the
sequence depends on the character behind the escape.
-/

namespace EventMachine.Text

/-- How far a control sequence has come. -/
inductive Control
  /-- No sequence is open. -/
  | none
  /-- After the escape. -/
  | escape
  /-- After the escape and other characters, up to a letter or digit. -/
  | intermediate
  /-- After `[`, up to a letter. -/
  | parameters
  /-- After `]`, up to a bell. -/
  | command
  /-- After `P`, up to a letter, with a string after it. -/
  | device
  /-- In a string. -/
  | string
deriving DecidableEq

namespace Control

/-- A terminator of strings that is one byte of the character's UTF-8. -/
def endsString (c : Char) : Bool := (String.utf8EncodeChar c).contains 0x9C

/-- What a character makes of a control sequence. -/
def next (control : Control) (c : Char) : Control :=
  if c == '\x1b' then escape
  else if c == '\x18' || c == '\x1a' then none
  else
    match control with
    | none => none
    | escape =>
      if ' ' ≤ c && c ≤ '/' then intermediate
      else if c == '[' then parameters
      else if c == ']' then command
      else if c == 'P' then device
      else if c == 'X' || c == '^' || c == '_' then string
      else if '0' ≤ c && c ≤ '~' then none
      else escape
    | intermediate => if '0' ≤ c && c ≤ '~' then none else intermediate
    | parameters => if '@' ≤ c && c ≤ '~' then none else parameters
    | command => if c == '\x07' then none else command
    | device => if '@' ≤ c && c ≤ '~' then string else device
    | string => if endsString c then none else string

/-- The control characters that set lines and columns. -/
def isLayout (c : Char) : Bool := c == '\t' || c == '\n' || c == '\x0c' || c == '\r'

/-- A character that stays. One that sets lines and columns stays also inside a sequence, unless
that has a string. -/
def keeps (control : Control) (c : Char) : Bool :=
  match control with
  | none => (' ' ≤ c && c ≤ '~') || 0x80 ≤ c.toNat || isLayout c
  | escape | intermediate | parameters => isLayout c
  | command | device | string => false

end Control

/-- The characters that stay. After one that stays the next ones do too, up to a control
character; a sequence that was open before goes on behind that, unless a character beyond U+007F
has ended it. -/
def keepFrom (control : Control) (keeping : Bool) : List Char → List Char
  | [] => []
  | c :: cs =>
    let ended := if 0x80 ≤ c.toNat then .none else control
    if keeping && Control.none.keeps c then c :: keepFrom ended true cs
    else if control.keeps c then c :: keepFrom ended true cs
    else keepFrom (control.next c) false cs

/-- The text without control sequences and control characters, except those that set lines and
columns. -/
def withoutControls (s : String) : String := String.ofList (keepFrom .none false s.toList)

end EventMachine.Text
