import EventMachine.Lexer.Rule
import EventMachine.Source.Line

/-!
# The lexer

A `Lexer` stands on a token. `Lexer.advance` moves it to the next one, reading the source one
logical line at a time; `Lexer.run` lists the tokens up to the terminal one. A character at which no
rule matches is an illegal token of its own.
-/

namespace EventMachine

open Source

-- Sums begin with the core library's zero, also where another library has one.
attribute [local instance (2000)] Zero.ofOfNat0

/-- The number of UTF-8 bytes of a text. -/
def byteLength (cs : List Char) : Nat := (cs.map Char.utf8Size).sum

/-- A token without its line: where it starts, what it is, and the text after it. -/
structure Lexeme where
  kind : TokenKind
  offset : Nat
  text : List Char
  rest : List Char

/-- The first token of `rest`, which starts at the byte `offset` of its logical line. -/
def nextLexeme? (offset : Nat) (rest : List Char) : Option Lexeme :=
  if _ : rest = [] then none
  else
    match _ : firstMatch? rules rest with
    | some (none, n) => nextLexeme? (offset + byteLength (rest.take n)) (rest.drop n)
    | some (some kind, n) => some ⟨kind, offset, rest.take n, rest.drop n⟩
    | none => some ⟨.illegal, offset, rest.take 1, rest.drop 1⟩
termination_by rest.length
decreasing_by
  have := List.length_pos_iff.2 ‹¬rest = []›
  have := firstMatch?_pos ‹_›
  simp only [List.length_drop]
  omega

/-- A token takes something away from its line. -/
theorem nextLexeme?_rest_lt {offset : Nat} {rest : List Char} {l : Lexeme}
    (h : nextLexeme? offset rest = some l) : l.rest.length < rest.length := by
  fun_induction nextLexeme? offset rest with
  | case1 => cases h
  | case2 offset rest hr n hm ih =>
    have := ih h
    simp only [List.length_drop] at this
    omega
  | case3 offset rest hr kind n hm =>
    cases h
    have := List.length_pos_iff.2 hr
    have := firstMatch?_pos hm
    simp only [List.length_drop]
    omega
  | case4 offset rest hr hm =>
    cases h
    have := List.length_pos_iff.2 hr
    simp only [List.length_drop]
    omega

/-- A lexer, standing on a token. -/
structure Lexer where
  reader : LineReader
  /-- The first physical line of the current logical line. -/
  line : Nat
  /-- The number of physical lines of the current logical line. -/
  physicalLines : Nat
  /-- The current logical line. -/
  text : List Char
  /-- The part of it after the current token. -/
  rest : List Char
  /-- The byte at which `rest` starts. -/
  offset : Nat
  token : Token
  failure : Option ReadError

namespace Lexer

/-- Moves to the next token, from a token that does not stand for a failure. -/
def next (lexer : Lexer) : Lexer :=
  match nextLexeme? lexer.offset lexer.rest with
  | some lexeme =>
    let length := byteLength lexeme.text
    { lexer with
      rest := lexeme.rest
      offset := lexeme.offset + length
      token := ⟨lexeme.kind, String.ofList lexeme.text, ⟨lexer.line, lexeme.offset, length⟩⟩ }
  | none =>
    let read := readLogical lexer.reader
    let line := lexer.line + lexer.physicalLines
    let lexer' : Lexer :=
      { reader := read.reader
        line
        physicalLines := read.physicalLines
        text := read.text
        rest := read.text
        offset := 0
        token := ⟨.eof, "", ⟨line, 0, 0⟩⟩
        failure := read.failure }
    if read.failure.isSome then
      { lexer' with rest := [], token := ⟨.error, "", ⟨line, 0, 0⟩⟩ }
    else if _ : read.text = [] then lexer'
    else lexer'.next
termination_by lexer.reader.pending.length
decreasing_by exact readLogical_pending_lt ‹_›

/-- Moves to the next token. A lexer that cannot read its source stays where it is. -/
def advance (lexer : Lexer) : Lexer :=
  if lexer.token.kind = .error then lexer else lexer.next

/-- A step to a token that is not terminal takes something away: from the source, or else from the
current line. -/
theorem next_decreases {lexer : Lexer} (h : lexer.next.token.kind.isTerminal = false) :
    lexer.next.reader.pending.length < lexer.reader.pending.length ∨
      lexer.next.reader.pending.length = lexer.reader.pending.length ∧
        lexer.next.rest.length < lexer.rest.length := by
  fun_induction next lexer with
  | case1 lexer lexeme hl => exact .inr ⟨rfl, nextLexeme?_rest_lt hl⟩
  | case2 => cases h
  | case3 => cases h
  | case4 lexer hl read line lexer' hf ht ih =>
    have hlt : lexer'.reader.pending.length < lexer.reader.pending.length := readLogical_pending_lt ht
    rcases ih h with ih | ih <;> omega

theorem advance_decreases {lexer : Lexer} (h : lexer.advance.token.kind.isTerminal = false) :
    lexer.advance.reader.pending.length < lexer.reader.pending.length ∨
      lexer.advance.reader.pending.length = lexer.reader.pending.length ∧
        lexer.advance.rest.length < lexer.rest.length := by
  unfold advance at h ⊢
  split at h
  · next he => simp [he, TokenKind.isTerminal] at h
  · next he => rw [if_neg he]; exact next_decreases h

/-- The tokens from the current one up to the terminal one, which is left out, and the lexer at the
terminal one. -/
def run (lexer : Lexer) : List Token × Lexer :=
  if lexer.token.kind.isTerminal then ([], lexer)
  else
    let following := lexer.advance
    if _ : following.token.kind.isTerminal then ([lexer.token], following)
    else
      let (tokens, last) := run following
      (lexer.token :: tokens, last)
termination_by (lexer.reader.pending.length, lexer.rest.length)
decreasing_by
  rcases advance_decreases (Bool.eq_false_iff.2 ‹_›) with h | ⟨h, h'⟩
  · exact Prod.Lex.left _ _ h
  · rw [h]; exact Prod.Lex.right _ h'

/-- The lexer at the first token of a source. -/
def ofReader (reader : Reader) : Lexer :=
  next
    { reader := .ofReader reader
      line := 1
      physicalLines := 0
      text := []
      rest := []
      offset := 0
      token := ⟨.eof, "", ⟨1, 0, 0⟩⟩
      failure := none }

/-- The lexer at the first token of a byte string. -/
def ofBytes (bytes : List UInt8) : Lexer := ofReader (.ofBytes bytes)

/-- The lexer at the first token of a text. -/
def ofText (text : String) : Lexer := ofBytes (encode text)

/-- Why the source could not be read, and the lexer without that notice: it is given once. -/
def takeFailure (lexer : Lexer) : Option ReadError × Lexer :=
  (lexer.failure, { lexer with failure := none })

end Lexer

end EventMachine
