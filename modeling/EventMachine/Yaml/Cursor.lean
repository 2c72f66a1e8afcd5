import EventMachine.Json.Parser

/-!
# Places in a YAML text, and scalars

A `Cursor` stands before a character and knows its line and column. Scalars run over line ends: a
line end between words becomes a space, further line ends stay.
-/

namespace EventMachine.Yaml

/-- A place in a text: what follows it, and how far it is from the start. -/
structure Cursor where
  rest : List Char
  line : Nat
  /-- The characters before it in its line. -/
  column : Nat
  /-- The bytes of UTF-8 before it. -/
  index : Nat

/-- A line end. -/
def isBreak (c : Char) : Bool := c == '\n' || c == '\u2028' || c == '\u2029'

/-- A space or tab. -/
def isBlank (c : Char) : Bool := c == ' ' || c == '\t'

/-- A space, a tab or a line end. -/
def isGap (c : Char) : Bool := isBlank c || isBreak c

/-- The text is at its end or starts with a space, a tab or a line end. -/
def startsWithGap : List Char → Bool
  | c :: _ => isGap c
  | [] => true

namespace Cursor

/-- The start of a text. -/
def start (text : List Char) : Cursor := ⟨text, 0, 0, 0⟩

/-- The place after the next character `c`, with `rest` behind it. -/
def pass (cursor : Cursor) (c : Char) (rest : List Char) : Cursor :=
  if isBreak c then ⟨rest, cursor.line + 1, 0, cursor.index + c.utf8Size⟩
  else ⟨rest, cursor.line, cursor.column + 1, cursor.index + c.utf8Size⟩

-- Sums begin with the core library's zero, also where another library has one.
attribute [local instance (2000)] Zero.ofOfNat0

/-- The place after `n` characters that are no line ends. -/
def skip (cursor : Cursor) (n : Nat) : Cursor :=
  ⟨cursor.rest.drop n, cursor.line, cursor.column + n,
    cursor.index + ((cursor.rest.take n).map Char.utf8Size).sum⟩

/-- A line that starts with three such characters and a gap divides documents. -/
def isDivider (cursor : Cursor) (c : Char) : Bool :=
  cursor.column == 0 && cursor.rest.take 3 == [c, c, c] && startsWithGap (cursor.rest.drop 3)

/-- The line divides documents. -/
def isAnyDivider (cursor : Cursor) : Bool := cursor.isDivider '-' || cursor.isDivider '.'

end Cursor

/-! ## Gaps inside scalars -/

/-- The spaces and line ends since the last word of a scalar. -/
structure Gap where
  /-- The spaces before the first line end, the last first. -/
  spaces : List Char
  /-- There is a line end. -/
  broken : Bool
  /-- The first line end, unless a backslash hides it. -/
  first : Option Char
  /-- The line ends after the first, the last first. -/
  more : List Char

namespace Gap

def empty : Gap := ⟨[], false, none, []⟩

/-- The gap with one more character. Spaces after a line end do not count. -/
def add (gap : Gap) (c : Char) : Gap :=
  if isBlank c then if gap.broken then gap else { gap with spaces := c :: gap.spaces }
  else if gap.broken then { gap with more := c :: gap.more }
  else ⟨[], true, some c, []⟩

/-- What stands for the gap in the scalar. -/
def text (gap : Gap) : List Char :=
  if !gap.broken then gap.spaces.reverse
  else
    match gap.first with
    | none => gap.more.reverse
    | some c =>
      if c ≠ '\n' then c :: gap.more.reverse
      else if gap.more.isEmpty then [' '] else gap.more.reverse

end Gap

/-- A scalar that was read, and the place after it and the gap behind it. -/
structure ScalarRead where
  text : List Char
  cursor : Cursor
  /-- The gap behind it has a line end. -/
  broken : Bool

/-- The character ends words in flow collections. -/
def isFlowPunct (c : Char) : Bool := c ∈ [',', '[', ']', '{', '}']

/-- Reads on in a plain scalar. `taken` is its text so far, the last character first, `gap` what
follows that, `indent` the least column of its further lines outside flow collections, and `rest`
the text at the cursor. -/
def plainFrom (inFlow : Bool) (indent : Int) (taken : List Char) (gap : Gap) (inGap : Bool)
    (cursor : Cursor) : (rest : List Char) → Option ScalarRead
  | [] => some ⟨taken.reverse, cursor, gap.broken⟩
  | c :: rest =>
    let stop : Option ScalarRead := some ⟨taken.reverse, cursor, gap.broken⟩
    if isGap c then
      if c == '\t' && gap.broken && cursor.column < indent then none
      else plainFrom inFlow indent taken (gap.add c) true (cursor.pass c rest) rest
    else if inGap && ((!inFlow && cursor.column < indent) || cursor.isAnyDivider || c == '#') then
      stop
    else if c == ':' && startsWithGap rest then stop
    else if inFlow && c == ':' && (rest.head?.any fun d => isFlowPunct d || d == '?') then none
    else if inFlow && isFlowPunct c then stop
    else
      plainFrom inFlow indent (c :: (gap.text.reverse ++ taken)) .empty false (cursor.pass c rest)
        rest

/-- Reads a plain scalar. -/
def readPlain? (inFlow : Bool) (indent : Int) (cursor : Cursor) : Option ScalarRead :=
  plainFrom inFlow indent [] .empty false cursor cursor.rest

/-! ## Quoted scalars -/

/-- The character that a backslash and this character stand for in double quotes. -/
def escaped? : Char → Option Char
  | '0' => some '\x00'
  | 'a' => some '\x07'
  | 'b' => some '\x08'
  | 't' => some '\t'
  | '\t' => some '\t'
  | 'n' => some '\n'
  | 'v' => some '\x0b'
  | 'f' => some '\x0c'
  | 'r' => some '\r'
  | 'e' => some '\x1b'
  | ' ' => some ' '
  | '"' => some '"'
  | '/' => some '/'
  | '\\' => some '\\'
  | 'N' => some '\u0085'
  | '_' => some '\u00a0'
  | 'L' => some '\u2028'
  | 'P' => some '\u2029'
  | _ => none

/-- The number of hexadecimal digits after a backslash and this character. -/
def escapeWidth? : Char → Option Nat
  | 'x' => some 2
  | 'u' => some 4
  | 'U' => some 8
  | _ => none

/-- The character of a number, if there is one. -/
def charOfNat? (n : Nat) : Option Char := if n.isValidChar then some (Char.ofNat n) else none

/-- Reads the character of an escape, after the backslash: its length, and the character. -/
def readEscape? : List Char → Option (Nat × Char)
  | [] => none
  | c :: rest =>
    match escapeWidth? c with
    | none => (escaped? c).map (1, ·)
    | some width => do
      let digits := rest.take width
      if digits.length < width then none
      else
        let n ← digits.foldlM (fun n d => (Json.hexValue? d).map (n * 16 + ·)) 0
        return (width + 1, ← charOfNat? n)

/-- Reads on in a quoted scalar; `fuel` bounds the number of its characters. -/
def quotedFrom (single : Bool) (taken : List Char) (gap : Gap) :
    (fuel : Nat) → Cursor → Option ScalarRead
  | 0, _ => none
  | fuel + 1, cursor =>
    let add (c : Char) (after : Cursor) :=
      quotedFrom single (c :: (gap.text.reverse ++ taken)) .empty fuel after
    if cursor.isAnyDivider then none
    else
      match cursor.rest with
      | [] => none
      | c :: rest =>
        if isGap c then quotedFrom single taken (gap.add c) fuel (cursor.pass c rest)
        else if single then
          if c != '\'' then add c (cursor.skip 1)
          else if rest.head? == some '\'' then add c (cursor.skip 2)
          else some ⟨(gap.text.reverse ++ taken).reverse, cursor.skip 1, false⟩
        else if c == '"' then some ⟨(gap.text.reverse ++ taken).reverse, cursor.skip 1, false⟩
        else if c == '\\' then
          match rest with
          | [] => none
          | d :: after =>
            if isBreak d then
              quotedFrom single (gap.text.reverse ++ taken) ⟨[], true, none, []⟩ fuel
                ((cursor.skip 1).pass d after)
            else
              match readEscape? rest with
              | none => none
              | some (length, e) => add e (cursor.skip (length + 1))
        else add c (cursor.skip 1)

/-- Reads a scalar in single or double quotes, from its opening quote on. -/
def readQuoted? (single : Bool) (cursor : Cursor) : Option ScalarRead :=
  quotedFrom single [] .empty cursor.rest.length (cursor.skip 1)

end EventMachine.Yaml
