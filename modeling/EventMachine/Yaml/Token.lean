import EventMachine.Yaml.Cursor

/-!
# The tokens of a YAML text

The indentation of block collections is turned into tokens of its own: a token opens a collection
where a line is indented further, and `blockEnd` closes it where a line is indented less. A scalar
or flow collection turns out to be a key only at the colon behind it, which has to be on the same
line; until then it is kept as a `PendingKey`.

Of YAML this covers collections in block and flow style, plain and quoted scalars, comments and
document dividers. Anchors, aliases, tags, directives and block scalars are refused.
-/

namespace EventMachine.Yaml

/-- A token. -/
inductive Token
  | documentStart
  | documentEnd
  | blockMappingStart
  | blockSequenceStart
  /-- The end of a block collection. -/
  | blockEnd
  | flowMappingStart
  | flowMappingEnd
  | flowSequenceStart
  | flowSequenceEnd
  /-- The comma between entries. -/
  | flowEntry
  /-- The dash before an entry. -/
  | blockEntry
  /-- Stands before a key. -/
  | key
  /-- The colon before a value. -/
  | value
  | scalar (text : String) (plain : Bool)
deriving DecidableEq

/-- A place that becomes a key if a colon follows. -/
structure PendingKey where
  /-- The number of tokens before it. -/
  position : Nat
  line : Nat
  column : Nat
  index : Nat
  /-- Nothing but a key may stand here. -/
  required : Bool

/-- How far the text is read. -/
structure Layout where
  cursor : Cursor
  /-- The tokens so far. -/
  tokens : List Token
  /-- The columns of the open block collections, the innermost first. -/
  indents : List Nat
  /-- The pending key of each open flow collection, the innermost first. -/
  flowKeys : List (Option PendingKey)
  /-- The pending key outside flow collections. -/
  blockKey : Option PendingKey
  /-- A key may start here. -/
  keyAllowed : Bool

namespace Layout

def inFlow (s : Layout) : Bool := !s.flowKeys.isEmpty

/-- The column of the innermost block collection, or minus one. -/
def indent (s : Layout) : Int :=
  match s.indents with
  | [] => -1
  | column :: _ => column

def emit (s : Layout) (t : Token) : Layout := { s with tokens := s.tokens ++ [t] }

/-- The pending key of the innermost flow collection, or the one outside. -/
def pending (s : Layout) : Option PendingKey :=
  match s.flowKeys with
  | key :: _ => key
  | [] => s.blockKey

def setPending (s : Layout) (key : Option PendingKey) : Layout :=
  match s.flowKeys with
  | _ :: keys => { s with flowKeys := key :: keys }
  | [] => { s with blockKey := key }

/-- Gives up the pending key, which must not be a required one. -/
def dropPending? (s : Layout) : Option Layout :=
  if s.pending.any (·.required) then none else some (s.setPending none)

/-- Notes that a key may start at the cursor. -/
def notePending? (s : Layout) : Option Layout :=
  if !s.keyAllowed then some s
  else
    let cursor := s.cursor
    let required := !s.inFlow && s.indent == cursor.column
    s.dropPending?.map (·.setPending
      (some ⟨s.tokens.length, cursor.line, cursor.column, cursor.index, required⟩))

/-- How many bytes of UTF-8 there may be from the start of a key to its colon. -/
def maxKeyLength : Nat := 1024

/-- The key can no longer be followed by its colon. -/
def isStale (cursor : Cursor) (key : PendingKey) : Bool :=
  key.line < cursor.line || key.index + maxKeyLength < cursor.index

/-- Gives up the pending keys that have become stale; a required one must not be among them. -/
def dropStale? (s : Layout) : Option Layout :=
  let keep (key : Option PendingKey) := key.filter fun k => !isStale s.cursor k
  if (s.blockKey :: s.flowKeys).any (·.any fun k => k.required && isStale s.cursor k) then none
  else some { s with flowKeys := s.flowKeys.map keep, blockKey := keep s.blockKey }

/-- Passes over blanks, comments and line ends, and a byte order mark at the start of a line. Where
a key may start, a tab is no blank. -/
def skipGaps (inFlow : Bool) (cursor : Cursor) (keyAllowed inComment : Bool) :
    (rest : List Char) → Cursor × Bool
  | [] => (cursor, keyAllowed)
  | c :: rest =>
    if isBreak c then skipGaps inFlow (cursor.pass c rest) (keyAllowed || !inFlow) false rest
    else if inComment || c == '#' then
      skipGaps inFlow (cursor.pass c rest) keyAllowed true rest
    else if c == ' ' || (c == '\t' && (inFlow || !keyAllowed)) ||
        (c == '\ufeff' && cursor.column == 0) then
      skipGaps inFlow (cursor.pass c rest) keyAllowed false rest
    else (cursor, keyAllowed)

/-- Closes the block collections that stand further in than the column. -/
def unindent (column : Int) : List Nat → List Token → List Nat × List Token
  | indent :: indents, tokens =>
    if column < indent then unindent column indents (tokens ++ [.blockEnd])
    else (indent :: indents, tokens)
  | [], tokens => ([], tokens)

/-- Closes the block collections that stand further in than the column; flow collections are not
bound by columns. -/
def close (s : Layout) (column : Int) : Layout :=
  if s.inFlow then s
  else
    let (indents, tokens) := unindent column s.indents s.tokens
    { s with indents, tokens }

/-- Opens a block collection at the column, unless there is one, with its token put before those
from `position` on. -/
def openBlock (s : Layout) (column position : Nat) (t : Token) : Layout :=
  if s.inFlow || column ≤ s.indent then s
  else
    { s with
      indents := column :: s.indents
      tokens := s.tokens.take position ++ t :: s.tokens.drop position }

/-- Passes over an indicator of `n` characters and emits its token. -/
def indicator (s : Layout) (t : Token) (n : Nat) (keyAllowed : Bool) : Layout :=
  { s.emit t with cursor := s.cursor.skip n, keyAllowed }

/-- Reads a document divider. -/
def divider? (s : Layout) (t : Token) : Option Layout :=
  (s.close (-1)).dropPending?.map (·.indicator t 3 false)

/-- Reads an opening bracket or brace. -/
def flowStart? (s : Layout) (t : Token) : Option Layout :=
  s.notePending?.map fun s => { s.indicator t 1 true with flowKeys := none :: s.flowKeys }

/-- Reads a closing bracket or brace. -/
def flowEnd? (s : Layout) (t : Token) : Option Layout :=
  s.dropPending?.map fun s => { s.indicator t 1 false with flowKeys := s.flowKeys.tail }

/-- Reads the dash before an entry. -/
def blockEntry? (s : Layout) : Option Layout :=
  if s.inFlow then s.dropPending?.map (·.indicator .blockEntry 1 true)
  else if !s.keyAllowed then none
  else
    (s.openBlock s.cursor.column s.tokens.length .blockSequenceStart).dropPending?.map
      (·.indicator .blockEntry 1 true)

/-- Reads the question mark before a key. -/
def explicitKey? (s : Layout) : Option Layout :=
  if !s.inFlow && !s.keyAllowed then none
  else
    (s.openBlock s.cursor.column s.tokens.length .blockMappingStart).dropPending?.map
      (·.indicator .key 1 (!s.inFlow))

/-- Reads the colon before a value; what is pending has been its key. -/
def value? (s : Layout) : Option Layout :=
  match s.pending with
  | some key =>
    let tokens := s.tokens.take key.position ++ .key :: s.tokens.drop key.position
    let s := { s.setPending none with tokens }
    some ((s.openBlock key.column key.position .blockMappingStart).indicator .value 1 false)
  | none =>
    if s.inFlow then some (s.indicator .value 1 false)
    else if !s.keyAllowed then none
    else
      some ((s.openBlock s.cursor.column s.tokens.length .blockMappingStart).indicator .value 1
        true)

/-- Reads a quoted scalar. -/
def quoted? (s : Layout) (single : Bool) : Option Layout := do
  let s ← s.notePending?
  let read ← readQuoted? single s.cursor
  return { s.emit (.scalar (String.ofList read.text) false) with
    cursor := read.cursor, keyAllowed := false }

/-- Reads a plain scalar. -/
def plain? (s : Layout) : Option Layout := do
  let s ← s.notePending?
  let read ← readPlain? s.inFlow (s.indent + 1) s.cursor
  return { s.emit (.scalar (String.ofList read.text) true) with
    cursor := read.cursor, keyAllowed := read.broken }

/-- The characters that begin no plain scalar. -/
def isIndicator (c : Char) : Bool :=
  c ∈ ['-', '?', ':', ',', '[', ']', '{', '}', '#', '&', '*', '!', '|', '>', '\'', '"', '%', '@',
    '\x60']

/-- A plain scalar starts with `c`, before `rest`. -/
def startsPlain (inFlow : Bool) (c : Char) (rest : List Char) : Bool :=
  !(isGap c || isIndicator c) || (c == '-' && !(rest.head?.any isBlank)) ||
    (!inFlow && (c == '?' || c == ':') && !startsWithGap rest)

/-- Reads the next token, which starts with `c`, before `rest`. -/
def token? (s : Layout) (c : Char) (rest : List Char) : Option Layout :=
  if s.cursor.isDivider '-' then s.divider? .documentStart
  else if s.cursor.isDivider '.' then s.divider? .documentEnd
  else if s.cursor.column == 0 && c == '%' then none
  else if c == '[' then s.flowStart? .flowSequenceStart
  else if c == '{' then s.flowStart? .flowMappingStart
  else if c == ']' then s.flowEnd? .flowSequenceEnd
  else if c == '}' then s.flowEnd? .flowMappingEnd
  else if c == ',' then s.dropPending?.map (·.indicator .flowEntry 1 true)
  else if c == '-' && startsWithGap rest then s.blockEntry?
  else if c == '?' && (s.inFlow || startsWithGap rest) then s.explicitKey?
  else if c == ':' && (s.inFlow || startsWithGap rest) then s.value?
  else if c == '\'' then s.quoted? true
  else if c == '"' then s.quoted? false
  else if startsPlain s.inFlow c rest then s.plain?
  else none

/-- Reads on up to the end of the text; `fuel` bounds the number of the tokens. -/
def finish? : (fuel : Nat) → Layout → Option (List Token)
  | 0, _ => none
  | fuel + 1, s => do
    let (cursor, keyAllowed) := skipGaps s.inFlow s.cursor s.keyAllowed false s.cursor.rest
    let s ← { s with cursor, keyAllowed }.dropStale?
    let s := s.close cursor.column
    match cursor.rest with
    | [] =>
      let s ← s.dropPending?
      return (s.close (-1)).tokens
    | c :: rest => finish? fuel (← s.token? c rest)

end Layout

/-- The text with each line end as one character. -/
def unifyBreaks : List Char → List Char
  | '\r' :: '\n' :: cs => '\n' :: unifyBreaks cs
  | c :: cs => (if c = '\r' ∨ c = '\u0085' then '\n' else c) :: unifyBreaks cs
  | [] => []

/-- The character may stand in a YAML text. -/
def isAllowed (c : Char) : Bool :=
  c == '\t' || c == '\n' || c == '\r' || (' ' ≤ c && c ≤ '~') || c == '\u0085' ||
    ('\u00a0' ≤ c && c ≤ '\ufffd') || 0x10000 ≤ c.toNat

/-- The tokens of a text, if it is well formed so far. -/
def tokens? (text : String) : Option (List Token) :=
  let cs := text.toList
  if !cs.all isAllowed then none
  else
    let cs := unifyBreaks cs
    Layout.finish? (cs.length + 1) ⟨.start cs, [], [], [], none, true⟩

end EventMachine.Yaml
