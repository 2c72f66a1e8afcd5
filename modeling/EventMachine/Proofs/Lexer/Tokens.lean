import EventMachine.Proofs.Lexer.Words
import EventMachine.Proofs.Source.LogicalLine

/-!
# The tokens of a text

A lexer lists the tokens of one logical line after the other, and stands on the end of the text
after them (`Lexer.run_ofReader`). They depend on the text alone, not on how it is delivered.

1. `lineTokens` are the tokens of a line, one lexeme after the other.
2. `Lexer.Yields` tells what is still before a lexer: what is left of its line, and the logical
   lines after it. A step takes the first token away or comes to the end (`Yields.next`); by
   induction a run takes all of them (`Yields.run_next_eq`).
3. No step changes what the checksum of the whole source will be (`run_total`).
-/

namespace EventMachine

open Source

/-! ## Tokens of lines -/

theorem byteLength_eq (cs : List Char) : byteLength cs = (bytesOf cs).length := by
  unfold byteLength bytesOf
  rw [List.length_flatMap]
  simp only [String.length_utf8EncodeChar]

theorem byteLength_append (cs ds : List Char) :
    byteLength (cs ++ ds) = byteLength cs + byteLength ds := by
  unfold byteLength
  rw [List.map_append, List.sum_append]

/-- The lexeme as a token of the line with the number. -/
def Lexeme.token (number : Nat) (l : Lexeme) : Token :=
  ⟨l.kind, String.ofList l.text, ⟨number, l.offset, byteLength l.text⟩⟩

/-- The tokens of `rest`, which starts at the byte `offset` of the line with the number. -/
def lineTokens (number offset : Nat) (rest : List Char) : List Token :=
  match _ : nextLexeme? offset rest with
  | none => []
  | some lexeme =>
    lexeme.token number ::
      lineTokens number (lexeme.offset + byteLength lexeme.text) lexeme.rest
termination_by rest.length
decreasing_by exact nextLexeme?_rest_lt ‹_›

/-- The tokens of a logical line. -/
def Source.LogicalLine.tokens (l : LogicalLine) : List Token := lineTokens l.number 0 l.text

/-- The tokens of a text. -/
def tokensOf (text : String) : List Token :=
  (logicalLines text.toList).flatMap LogicalLine.tokens

/-- The end of a source, in the line with the number. -/
def endAt (number : Nat) : Token := ⟨.eof, "", ⟨number, 0, 0⟩⟩

/-- The line of the end of a text: the one after its logical lines. -/
def endNumber (text : String) : Nat :=
  ((logicalLines text.toList).flatMap LogicalLine.parts).length + 1

section Lines

variable {number offset : Nat} {rest : List Char}

theorem nextLexeme?_nil : nextLexeme? offset [] = none := by
  rw [nextLexeme?, dif_pos rfl]

theorem lineTokens_of_none (h : nextLexeme? offset rest = none) :
    lineTokens number offset rest = [] := by
  rw [lineTokens]
  split
  · rfl
  · next heq => rw [h] at heq; cases heq

theorem lineTokens_of_some {lexeme : Lexeme} (h : nextLexeme? offset rest = some lexeme) :
    lineTokens number offset rest = lexeme.token number ::
      lineTokens number (lexeme.offset + byteLength lexeme.text) lexeme.rest := by
  rw [lineTokens]
  split
  · next heq => rw [h] at heq; cases heq
  · next heq => rw [h] at heq; cases heq; rfl

/-- No rule reads a terminal token, nor an illegal one. -/
theorem kind_of_firstMatch? {cs : List Char} {kind : TokenKind} {n : Nat}
    (h : firstMatch? rules cs = some (some kind, n)) :
    kind.isTerminal = false ∧ kind ≠ .illegal := by
  have hrules : ∀ rule ∈ rules, ∀ kind ∈ rule.kind,
      kind.isTerminal = false ∧ kind ≠ .illegal := by decide
  obtain ⟨rule, hmem, hr⟩ := List.exists_of_findSome?_eq_some h
  dsimp only at hr
  split at hr
  · exact hrules rule hmem kind (Prod.mk.inj (Option.some.inj hr)).1
  · cases hr

theorem isTerminal_of_nextLexeme? {lexeme : Lexeme} (h : nextLexeme? offset rest = some lexeme) :
    lexeme.kind.isTerminal = false := by
  fun_induction nextLexeme? offset rest with
  | case1 => cases h
  | case2 _ _ _ _ _ ih => exact ih h
  | case3 offset rest hr kind n hm =>
    cases h
    exact (kind_of_firstMatch? hm).1
  | case4 =>
    cases h
    rfl

end Lines

namespace Lexer

/-! ## What is before a lexer -/

/-- The tokens `ts` are before the lexer and after them the end, in the line `stop`: what is left of
its own line, and the logical lines that the reader still has. -/
def Yields (lexer : Lexer) (ts : List Token) (stop : Nat) : Prop :=
  ∃ before lines, lexer.reader.Holds lines ∧
    lexer.line + lexer.physicalLines = before.length + 1 ∧
    ts = lineTokens lexer.line lexer.offset lexer.rest ++
      (logicalLinesFrom before [] lines).flatMap LogicalLine.tokens ∧
    stop = before.length +
      ((logicalLinesFrom before [] lines).flatMap LogicalLine.parts).length + 1

/-- The lexer stands on the end of the source, in the line `stop`, and has read all of it. -/
structure Ends (lexer : Lexer) (stop : Nat) : Prop where
  token : lexer.token = endAt stop
  failure : lexer.failure = none
  pending : lexer.reader.pending = []

variable {lexer : Lexer} {ts : List Token} {t : Token} {stop : Nat}

/-- The step to the first token that is left, or to the end: by induction on the logical lines
without a token that are passed over. -/
theorem Yields.next (h : lexer.Yields ts stop) :
    (∃ t ts', ts = t :: ts' ∧ lexer.next.token = t ∧ t.kind.isTerminal = false ∧
      lexer.next.Yields ts' stop) ∨
    ts = [] ∧ lexer.next.Ends stop := by
  fun_induction Lexer.next lexer generalizing ts stop with
  | case1 lexer lexeme hl =>
    obtain ⟨before, lines, hreader, hline, rfl, hstop⟩ := h
    rw [lineTokens_of_some hl]
    exact .inl ⟨_, _, rfl, rfl, isTerminal_of_nextLexeme? hl, before, lines, hreader, hline, rfl,
      hstop⟩
  | case2 lexer =>
    rename_i hfailure
    obtain ⟨before, lines, hreader, -⟩ := h
    obtain ⟨r', -, hread⟩ := hreader.readLogical_eq
    change (readLogical lexer.reader).failure.isSome = true at hfailure
    rw [hread] at hfailure
    cases hfailure
  | case3 lexer hl =>
    rename_i htext
    obtain ⟨before, lines, hreader, hline, rfl, rfl⟩ := h
    obtain ⟨r', hr', hread⟩ := hreader.readLogical_eq
    change (readLogical lexer.reader).text = [] at htext
    rw [hread] at htext
    have hrest := cutLogical_of_joinedText_eq_nil hreader.nil_not_mem htext
    rw [hrest] at hr'
    rw [lineTokens_of_none hl, logicalLinesFrom_eq before hreader.nil_not_mem, if_pos htext]
    refine .inr ⟨rfl, congrArg endAt hline, ?_, ?_⟩
    · show (readLogical lexer.reader).failure = none
      rw [hread]
    · show (readLogical lexer.reader).reader.pending = []
      rw [hread]
      exact hr'.pending
  | case4 lexer hl =>
    rename_i htext ih
    obtain ⟨before, lines, hreader, hline, rfl, rfl⟩ := h
    obtain ⟨r', hr', hread⟩ := hreader.readLogical_eq
    change ¬ (readLogical lexer.reader).text = [] at htext
    rw [hread] at htext
    rw [lineTokens_of_none hl, logicalLinesFrom_eq before hreader.nil_not_mem, if_neg htext]
    refine ih ⟨before ++ (cutLogical [] lines).1, (cutLogical [] lines).2, ?_, ?_, ?_, ?_⟩
    · show (readLogical lexer.reader).reader.Holds _
      rw [hread]
      exact hr'
    · show lexer.line + lexer.physicalLines + (readLogical lexer.reader).physicalLines = _
      rw [hread, hline, List.length_append]
      exact Nat.add_right_comm before.length 1 _
    · show _ = lineTokens (lexer.line + lexer.physicalLines) 0 (readLogical lexer.reader).text ++ _
      rw [hread, hline]
      rfl
    · rw [List.flatMap_cons, List.length_append, List.length_append, ← Nat.add_assoc]

/-- If every step gives the first of some tokens, or comes to an end after them, a run lists these
tokens and comes to that end; by induction on the tokens. -/
theorem run_next_of_steps {P : Lexer → List Token → Prop} {E : Lexer → Prop}
    (hstep : ∀ lexer ts, P lexer ts →
      (∃ t ts', ts = t :: ts' ∧ lexer.next.token = t ∧ t.kind.isTerminal = false ∧
        P lexer.next ts') ∨
      ts = [] ∧ E lexer.next)
    (hend : ∀ lexer, E lexer → lexer.token.kind.isTerminal = true) (h : P lexer ts) :
    lexer.next.run.1 = ts ∧ E lexer.next.run.2 := by
  induction ts generalizing lexer with
  | nil =>
    obtain ⟨_, _, ⟨⟩, -⟩ | ⟨-, hends⟩ := hstep _ _ h
    rw [run_of_isTerminal (hend _ hends)]
    exact ⟨rfl, hends⟩
  | cons t ts ih =>
    obtain ⟨_, _, ⟨⟩, rfl, hkind, hnext⟩ | ⟨⟨⟩, -⟩ := hstep _ _ h
    rw [run_eq_cons hkind]
    obtain ⟨hrun, hends⟩ := ih hnext
    exact ⟨congrArg (lexer.next.token :: ·) hrun, hends⟩

/-- The run lists all tokens that are before the lexer. -/
theorem Yields.run_next_eq (h : lexer.Yields ts stop) :
    lexer.next.run.1 = ts ∧ lexer.next.run.2.Ends stop := by
  refine run_next_of_steps (E := fun lexer => lexer.Ends stop) (fun lexer ts => Yields.next)
    (fun lexer hends => ?_) h
  rw [hends.token]
  rfl

end Lexer

/-! ## Whole texts -/

/-- The reader delivers the bytes of the text, all before any empty part. -/
structure Source.Reader.Delivers (r : Reader) (text : String) : Prop where
  steady : r.Steady
  pending : r.pending = encode text

theorem Source.Reader.delivers_ofBytes (text : String) :
    (Reader.ofBytes (encode text)).Delivers text :=
  ⟨Reader.steady_ofBytes _, Lexer.pending_ofBytes _⟩

theorem Source.Reader.Delivers.holds {r : Reader} {text : String} (h : r.Delivers text) :
    (LineReader.ofReader r).Holds (physicalLines text.toList) where
  steady := h.steady
  physical := congrArg physicalLines (flatten_physicalLines _)
  pending := by
    rw [flatten_physicalLines, ← encode_eq_bytesOf]
    exact h.pending

namespace Lexer

/-- The tokens of a text are listed, and then its end, whatever parts it is delivered in. -/
theorem run_ofReader {r : Reader} {text : String} (h : r.Delivers text) :
    (ofReader r).run.1 = tokensOf text ∧ (ofReader r).run.2.Ends (endNumber text) := by
  -- the lexer before its first token
  obtain ⟨lexer, hlexer, hyields⟩ : ∃ lexer : Lexer, ofReader r = lexer.next ∧
      lexer.Yields (tokensOf text) (endNumber text) := by
    refine ⟨_, rfl, [], Source.physicalLines text.toList, h.holds, rfl, ?_, ?_⟩
    · rw [lineTokens_of_none nextLexeme?_nil]
      rfl
    · exact congrArg (· + 1) (Nat.zero_add _).symm
  rw [hlexer]
  exact hyields.run_next_eq

theorem run_ofText_eq (text : String) :
    (ofText text).run.1 = tokensOf text ∧ (ofText text).run.2.Ends (endNumber text) :=
  run_ofReader (Reader.delivers_ofBytes text)

theorem isTerminal_of_mem_run {lexer : Lexer} {t : Token} (h : t ∈ lexer.run.1) :
    t.kind.isTerminal = false := by
  fun_induction run lexer with
  | case1 => cases h
  | case2 lexer hkind =>
    rw [List.mem_singleton.1 h]
    exact Bool.eq_false_iff.2 hkind
  | case3 lexer hkind =>
    rename_i hrun ih
    rw [hrun] at ih
    rcases List.mem_cons.1 h with rfl | h
    · exact Bool.eq_false_iff.2 hkind
    · exact ih h

/-- The lexer from which `n` tokens have been taken one after the other. -/
def taken (lexer : Lexer) : Nat → Lexer
  | 0 => lexer
  | n + 1 => taken lexer.advance n

/-- A run takes its tokens, and no more. -/
theorem run_eq_taken (lexer : Lexer) : lexer.run.2 = lexer.taken lexer.run.1.length := by
  fun_induction run lexer with
  | case1 => rfl
  | case2 => rfl
  | case3 lexer =>
    rename_i hrun ih
    rw [hrun] at ih
    exact ih

theorem taken_add (lexer : Lexer) (m n : Nat) :
    lexer.taken (m + n) = (lexer.taken m).taken n := by
  induction m generalizing lexer with
  | zero => rw [Nat.zero_add]; rfl
  | succ m ih =>
    rw [Nat.succ_add]
    exact ih lexer.advance

theorem advance_cases (lexer : Lexer) : lexer.advance = lexer ∨ lexer.advance = lexer.next := by
  unfold advance
  split
  · exact .inl rfl
  · exact .inr rfl

/-- What every step keeps is kept by any number of them. -/
theorem taken_of_next {P : Lexer → Prop} (hnext : ∀ lexer, P lexer → P lexer.next) (h : P lexer)
    (n : Nat) : P (lexer.taken n) := by
  induction n generalizing lexer with
  | zero => exact h
  | succ n ih =>
    have hadvance : P lexer.advance := by
      rcases lexer.advance_cases with heq | heq <;> rw [heq]
      · exact h
      · exact hnext lexer h
    exact ih hadvance

/-! ## The checksum of the source -/

theorem next_total (lexer : Lexer) :
    lexer.next.reader.reader.total = lexer.reader.reader.total := by
  fun_induction next lexer with
  | case1 => rfl
  | case2 lexer => exact readLogical_total lexer.reader
  | case3 lexer => exact readLogical_total lexer.reader
  | case4 lexer =>
    rename_i ih
    exact ih.trans (readLogical_total lexer.reader)

theorem run_total (lexer : Lexer) :
    lexer.run.2.reader.reader.total = lexer.reader.reader.total := by
  have advance_total (lexer : Lexer) :
      lexer.advance.reader.reader.total = lexer.reader.reader.total := by
    unfold advance
    split
    · rfl
    · exact lexer.next_total
  fun_induction run lexer with
  | case1 => rfl
  | case2 lexer => exact advance_total lexer
  | case3 lexer =>
    rename_i hrun ih
    rw [hrun] at ih
    exact ih.trans (advance_total lexer)

/-- Once all of a source has been read, its checksum is that of all that was to be delivered. -/
theorem Ends.digest_eq {lexer : Lexer} {stop : Nat} (h : lexer.Ends stop) :
    lexer.reader.reader.digest = lexer.reader.reader.total := by
  have hpending : lexer.reader.reader.pending = [] :=
    (List.append_eq_nil_iff.1 h.pending).2
  rw [Reader.total, hpending, Checksum.append_nil]

end Lexer

end EventMachine
