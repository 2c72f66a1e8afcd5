import EventMachine.Proofs.Lexer.Tokens
import EventMachine.Proofs.Source.InvalidBytes

/-!
# Where a source ends

Every source comes to a terminal token. It has at most as many tokens before that one as bytes, for
each token has bytes of its own (`Lexer.stopsAfter_run`). The terminal token is the end of the
source if the bytes are valid UTF-8, and otherwise stands for the failure to read them
(`Lexer.run_of_invalid`).

1. `Lexer.bytesLeft` counts the bytes that are still before a lexer. A step takes at least the bytes
   of its token away (`Lexer.next_bytesLeft`), also where it passes over lines without a token.
2. `Lexer.Breaks` tells what is still before a lexer that comes to invalid bytes: what is left of
   its line, and the logical lines that are complete before the invalid line.
-/

namespace EventMachine

open Source

/-! ## Bytes of lines -/

theorem byteLength_pos {cs : List Char} (h : cs ≠ []) : 0 < byteLength cs := by
  rw [byteLength_eq]
  exact List.length_pos_iff.2 fun hnil => h (bytesOf_eq_nil hnil)

/-- A token has bytes, which are taken from its line. -/
theorem byteLength_of_nextLexeme? {offset : Nat} {rest : List Char} {l : Lexeme}
    (h : nextLexeme? offset rest = some l) :
    0 < byteLength l.text ∧ byteLength l.text + byteLength l.rest ≤ byteLength rest := by
  have hsplit (n : Nat) (cs : List Char) :
      byteLength (cs.take n) + byteLength (cs.drop n) = byteLength cs := by
    rw [← byteLength_append, List.take_append_drop]
  have htake {n : Nat} (hn : 0 < n) {cs : List Char} (hcs : cs ≠ []) :
      0 < byteLength (cs.take n) :=
    byteLength_pos fun hnil => (List.take_eq_nil_iff.1 hnil).elim (Nat.ne_of_gt hn) hcs
  fun_induction nextLexeme? offset rest with
  | case1 => cases h
  | case2 offset rest hr n hm ih =>
    obtain ⟨hpos, hle⟩ := ih h
    have := hsplit n rest
    exact ⟨hpos, by omega⟩
  | case3 offset rest hr kind n hm =>
    cases h
    exact ⟨htake (firstMatch?_pos hm) hr, Nat.le_of_eq (hsplit n rest)⟩
  | case4 offset rest hr hm =>
    cases h
    exact ⟨htake Nat.one_pos hr, Nat.le_of_eq (hsplit 1 rest)⟩

namespace Source

theorem byteLength_of_joined? {line body : List Char} (h : joined? line = some body) :
    byteLength body ≤ byteLength line := by
  obtain ⟨e, -, rfl⟩ := joined?_eq_some_iff.1 h
  rw [byteLength_append]
  exact Nat.le_add_right _ _

/-- The bytes of a logical line are taken from the source. -/
theorem readLogicalFrom_bytes_le (start : List Char) (count : Nat) (r : LineReader) :
    byteLength (readLogicalFrom start count r).text +
        (readLogicalFrom start count r).reader.pending.length ≤
      byteLength start + r.pending.length := by
  have hline {r : LineReader} {line : List Char} (h : decode? r.readLine.1 = some line) :
      byteLength line + r.readLine.2.pending.length = r.pending.length := by
    rw [byteLength_eq, decode?_eq_some_iff.1 h, ← List.length_append, r.readLine_pending]
  fun_induction readLogicalFrom start count r with
  | case1 start count r => exact Nat.add_le_add_left (readLine_pending_le r) _
  | case2 start count r => exact Nat.add_le_add_left (readLine_pending_le r) _
  | case3 start count r next _ line hd body hj ih =>
    have hbytes : byteLength line + next.2.pending.length = r.pending.length := hline hd
    have hbody := byteLength_of_joined? hj
    rw [byteLength_append] at ih
    omega
  | case4 start count r next _ line hd hj =>
    have hbytes : byteLength line + next.2.pending.length = r.pending.length := hline hd
    dsimp only
    rw [byteLength_append]
    omega

end Source

namespace Lexer

/-! ## Steps to the terminal token -/

/-- The bytes that are still before the lexer: in its line, and in the source. -/
def bytesLeft (lexer : Lexer) : Nat := byteLength lexer.rest + lexer.reader.pending.length

/-- A step takes at least the bytes of its token away. -/
theorem next_bytesLeft (lexer : Lexer) :
    lexer.next.token.location.length + lexer.next.bytesLeft ≤ lexer.bytesLeft := by
  have hread (lexer : Lexer) : byteLength (readLogical lexer.reader).text +
      (readLogical lexer.reader).reader.pending.length ≤ lexer.bytesLeft := by
    have h := readLogicalFrom_bytes_le [] 0 lexer.reader
    exact Nat.le_trans h (Nat.add_le_add_right (Nat.zero_le _) _)
  fun_induction next lexer with
  | case1 lexer lexeme hl =>
    have hle := (byteLength_of_nextLexeme? hl).2
    unfold bytesLeft
    dsimp only
    omega
  | case2 lexer =>
    refine Nat.le_trans ?_ (hread lexer)
    show 0 + (0 + (readLogical lexer.reader).reader.pending.length) ≤ _
    omega
  | case3 lexer =>
    refine Nat.le_trans (Nat.le_of_eq ?_) (hread lexer)
    exact Nat.zero_add _
  | case4 lexer =>
    rename_i ih
    exact Nat.le_trans ih (hread lexer)

theorem length_pos_of_next {lexer : Lexer} (h : lexer.next.token.kind.isTerminal = false) :
    0 < lexer.next.token.location.length := by
  fun_induction next lexer with
  | case1 lexer lexeme hl => exact (byteLength_of_nextLexeme? hl).1
  | case2 => cases h
  | case3 => cases h
  | case4 =>
    rename_i ih
    exact ih h

/-- Only a lexer that cannot read its source has a failure. -/
theorem failure_of_next {lexer : Lexer} (h : lexer.failure = none)
    (hkind : lexer.next.token.kind.isTerminal = false) : lexer.next.failure = none := by
  fun_induction next lexer with
  | case1 => exact h
  | case2 => cases hkind
  | case3 => cases hkind
  | case4 lexer =>
    rename_i hfailure _ ih
    exact ih (Option.not_isSome_iff_eq_none.1 hfailure) hkind

/-- After `n` steps the lexer stands on a terminal token, and before that on others, which have
bytes of their own and come without a failure. -/
structure StopsAfter (lexer : Lexer) (n : Nat) : Prop where
  nonterminal : ∀ i < n, (lexer.taken i).token.kind.isTerminal = false
  length_pos : ∀ i < n, 0 < (lexer.taken i).token.location.length
  failure : ∀ i < n, (lexer.taken i).failure = none
  terminal : (lexer.taken n).token.kind.isTerminal = true

variable {lexer : Lexer} {n : Nat}

theorem StopsAfter.succ (h : lexer.next.StopsAfter n) (hkind : lexer.token.kind.isTerminal = false)
    (hlength : 0 < lexer.token.location.length) (hfailure : lexer.failure = none) :
    lexer.StopsAfter (n + 1) := by
  have hcases (p : Lexer → Prop) (hfirst : p lexer) (hrest : ∀ i < n, p (lexer.next.taken i)) :
      ∀ i < n + 1, p (lexer.taken i) := by
    rintro (_ | i) hi
    · exact hfirst
    · show p (lexer.advance.taken i)
      rw [advance_eq_next hkind]
      exact hrest i (Nat.lt_of_succ_lt_succ hi)
  refine ⟨hcases (fun lexer => lexer.token.kind.isTerminal = false) hkind h.nonterminal,
    hcases (fun lexer => 0 < lexer.token.location.length) hlength h.length_pos,
    hcases (fun lexer => lexer.failure = none) hfailure h.failure, ?_⟩
  show (lexer.advance.taken n).token.kind.isTerminal = true
  rw [advance_eq_next hkind]
  exact h.terminal

/-- After a step a run takes no more tokens than there were bytes; by induction on these. -/
theorem next_stopsAfter_run (lexer : Lexer) (h : lexer.failure = none) :
    lexer.next.run.1.length ≤ lexer.bytesLeft ∧
      lexer.next.StopsAfter lexer.next.run.1.length := by
  induction hn : lexer.bytesLeft using Nat.strongRecOn generalizing lexer with
  | ind n ih =>
    cases hkind : lexer.next.token.kind.isTerminal with
    | true =>
      rw [run_of_isTerminal hkind]
      exact ⟨Nat.zero_le _, ⟨nofun, nofun, nofun, hkind⟩⟩
    | false =>
      have hpos := length_pos_of_next hkind
      have hfailure := failure_of_next h hkind
      have hbytes := lexer.next_bytesLeft
      obtain ⟨hle, hstops⟩ := ih lexer.next.bytesLeft (by omega) lexer.next hfailure rfl
      rw [run_eq_cons hkind, List.length_cons]
      exact ⟨by omega, hstops.succ hkind hpos hfailure⟩

/-- Every source comes to a terminal token, after at most as many tokens as it has bytes. -/
theorem stopsAfter_run (r : Reader) :
    (ofReader r).run.1.length ≤ r.pending.length ∧
      (ofReader r).StopsAfter (ofReader r).run.1.length := by
  obtain ⟨lexer, hlexer, hfailure, hbytes⟩ : ∃ lexer : Lexer, ofReader r = lexer.next ∧
      lexer.failure = none ∧ lexer.bytesLeft = r.pending.length :=
    ⟨_, rfl, rfl, Nat.zero_add _⟩
  rw [hlexer, ← hbytes]
  exact lexer.next_stopsAfter_run hfailure

/-- A lexer that cannot read its source knows why. -/
theorem failure_of_run {r : Reader} (h : (ofReader r).run.2.token.kind = .error) :
    (ofReader r).run.2.failure.isSome = true := by
  have hnext (lexer : Lexer) (h : lexer.next.token.kind = .error) :
      lexer.next.failure.isSome = true := by
    fun_induction next lexer with
    | case1 lexer lexeme hl =>
      have hkind := isTerminal_of_nextLexeme? hl
      change lexeme.kind = .error at h
      rw [h] at hkind
      cases hkind
    | case2 =>
      rename_i hfailure
      exact hfailure
    | case3 => cases h
    | case4 =>
      rename_i ih
      exact ih h
  rw [run_eq_taken] at h ⊢
  exact taken_of_next (P := fun lexer => lexer.token.kind = .error → lexer.failure.isSome = true)
    (fun lexer _ => hnext lexer) (hnext _) _ h

/-! ## Up to invalid bytes -/

/-- The lexer cannot read further, and says why when it is asked for the first time. -/
structure FailsOnce (lexer : Lexer) (e : ReadError) : Prop where
  token : lexer.token.kind = .error
  given : lexer.takeFailure.1 = some e
  once : ∀ n, (lexer.takeFailure.2.taken n).takeFailure.1 = none

/-- A lexer that cannot read its source stays where it is. -/
theorem taken_of_error (h : lexer.token.kind = .error) (n : Nat) : lexer.taken n = lexer := by
  have hadvance : lexer.advance = lexer := if_pos h
  induction n with
  | zero => rfl
  | succ n ih =>
    show lexer.advance.taken n = lexer
    rw [hadvance, ih]

theorem failsOnce_of_failure {e : ReadError} (htoken : lexer.token.kind = .error)
    (hfailure : lexer.failure = some e) : lexer.FailsOnce e where
  token := htoken
  given := hfailure
  once n := by
    rw [@taken_of_error lexer.takeFailure.2 htoken]
    rfl

/-- The tokens `ts` are before the lexer and after them a line that is not valid: what is left of
its own line, and the logical lines that are complete before the invalid line. -/
def Breaks (lexer : Lexer) (ts : List Token) : Prop :=
  ∃ before lines bad, lexer.reader.Breaks lines bad ∧
    lexer.line + lexer.physicalLines = before.length + 1 ∧
    ts = lineTokens lexer.line lexer.offset lexer.rest ++
      (completedFrom before [] lines).flatMap LogicalLine.tokens

variable {ts : List Token}

/-- The step to the first token that is left, or to the failure: by induction on the logical lines
without a token that are passed over. -/
theorem Breaks.next (h : lexer.Breaks ts) :
    (∃ t ts', ts = t :: ts' ∧ lexer.next.token = t ∧ t.kind.isTerminal = false ∧
      lexer.next.Breaks ts') ∨
    ts = [] ∧ lexer.next.FailsOnce .invalidUtf8 := by
  fun_induction Lexer.next lexer generalizing ts with
  | case1 lexer lexeme hl =>
    obtain ⟨before, lines, bad, hreader, hline, rfl⟩ := h
    rw [lineTokens_of_some hl]
    exact .inl ⟨_, _, rfl, rfl, isTerminal_of_nextLexeme? hl, before, lines, bad, hreader, hline,
      rfl⟩
  | case2 lexer hl =>
    rename_i hfailure
    obtain ⟨before, lines, bad, hreader, hline, rfl⟩ := h
    change (readLogical lexer.reader).failure.isSome = true at hfailure
    rcases hreader.readLogical_cases before with ⟨hnone, hread⟩ | ⟨_, _, _, -, -, -, hread⟩
    · rw [lineTokens_of_none hl, hnone]
      exact .inr ⟨rfl, failsOnce_of_failure rfl hread⟩
    · rw [hread] at hfailure
      cases hfailure
  | case3 lexer hl =>
    rename_i hfailure htext
    obtain ⟨before, lines, bad, hreader, -⟩ := h
    change ¬ (readLogical lexer.reader).failure.isSome = true at hfailure
    change (readLogical lexer.reader).text = [] at htext
    rcases hreader.readLogical_cases before with ⟨-, hread⟩ | ⟨_, _, _, -, hne, -, hread⟩
    · rw [hread] at hfailure
      exact (hfailure rfl).elim
    · rw [hread] at htext
      exact (hne htext).elim
  | case4 lexer hl =>
    rename_i hfailure htext ih
    obtain ⟨before, lines, bad, hreader, hline, rfl⟩ := h
    change ¬ (readLogical lexer.reader).failure.isSome = true at hfailure
    rcases hreader.readLogical_cases before with
      ⟨-, hread⟩ | ⟨parts, rest, r', hsome, -, hr', hread⟩
    · rw [hread] at hfailure
      exact (hfailure rfl).elim
    · rw [lineTokens_of_none hl, hsome]
      refine ih ⟨before ++ parts, rest, bad, ?_, ?_, ?_⟩
      · show (readLogical lexer.reader).reader.Breaks _ _
        rw [hread]
        exact hr'
      · show lexer.line + lexer.physicalLines + (readLogical lexer.reader).physicalLines = _
        rw [hread, hline, List.length_append]
        exact Nat.add_right_comm before.length 1 _
      · show _ = lineTokens (lexer.line + lexer.physicalLines) 0
          (readLogical lexer.reader).text ++ _
        rw [hread, hline]
        rfl

/-- Of bytes that are not valid the tokens of the complete logical lines are listed, and then the
failure. -/
theorem run_of_invalid {r : Reader} (hr : r.Steady) (h : ¬ IsText r.pending) :
    (ofReader r).run.1 = (completedLines (validPart r.pending)).flatMap LogicalLine.tokens ∧
      (ofReader r).run.2.FailsOnce .invalidUtf8 := by
  obtain ⟨lines, bad, hbreaks, hcompleted⟩ := exists_breaks hr h
  obtain ⟨lexer, hlexer, hlexerBreaks⟩ : ∃ lexer : Lexer, ofReader r = lexer.next ∧
      lexer.Breaks ((completedLines (validPart r.pending)).flatMap LogicalLine.tokens) := by
    refine ⟨_, rfl, [], lines, bad, hbreaks, rfl, ?_⟩
    rw [lineTokens_of_none nextLexeme?_nil, hcompleted]
    rfl
  rw [hlexer]
  refine run_next_of_steps (E := fun lexer => lexer.FailsOnce .invalidUtf8)
    (fun lexer ts => Breaks.next) (fun lexer hfails => ?_) hlexerBreaks
  rw [hfails.token]
  rfl

/-- The terminal token is the end of the source exactly where the bytes are valid. -/
theorem run_of_isText {r : Reader} (hr : r.Steady) (h : IsText r.pending) :
    (ofReader r).run.2.token.kind = .eof ∧ (ofReader r).run.2.failure = none := by
  obtain ⟨text, htext⟩ := h
  obtain ⟨-, hends⟩ := run_ofReader ⟨hr, htext.symm⟩
  exact ⟨congrArg Token.kind hends.token, hends.failure⟩

end Lexer

end EventMachine
