import EventMachine.Proofs.Lexer.Lexeme

/-!
# One step of a lexer

A step takes the next lexeme from a line, the lexer's own or the next one that has one, or it comes
to an end (`Lexer.next_cases`). Each token of a run is what a step comes to, and the
tokens after it are a run from there (`Lexer.exists_next_of_run`).
-/

namespace EventMachine

open Source

namespace Lexer

/-- The lexer after the lexeme, in the same line. -/
def past (lexer : Lexer) (lexeme : Lexeme) : Lexer :=
  { lexer with
    rest := lexeme.rest
    offset := lexeme.offset + byteLength lexeme.text
    token := lexeme.token lexer.line }

/-- The lexer is at the beginning of its logical line. -/
structure AtStart (lexer : Lexer) : Prop where
  rest : lexer.rest = lexer.text
  offset : lexer.offset = 0

/-- The lexer is at the end of the source, or at a line that it could not read to its end. -/
structure AtEnd (lexer : Lexer) : Prop where
  terminal : lexer.token.kind.isTerminal = true
  token : lexer.token = ⟨lexer.token.kind, "", ⟨lexer.line, 0, 0⟩⟩
  rest : lexer.rest = []
  offset : lexer.offset = 0
  text : lexer.token.kind = .eof → lexer.text = []

variable {lexer : Lexer}

theorem next_of_some {lexeme : Lexeme} (h : nextLexeme? lexer.offset lexer.rest = some lexeme) :
    lexer.next = lexer.past lexeme := by
  rw [next]
  split <;> rename_i heq <;> rw [h] at heq <;> cases heq
  rfl

/-- What a step does: it takes the next lexeme from the line of the lexer or from a later line, or
it comes to an end. -/
theorem next_cases (lexer : Lexer) :
    (∃ line lexeme, (line = lexer ∨ line.AtStart) ∧
      nextLexeme? line.offset line.rest = some lexeme ∧ lexer.next = line.past lexeme) ∨
    lexer.next.AtEnd := by
  fun_induction next lexer with
  | case1 lexer lexeme hl => exact .inl ⟨lexer, lexeme, .inl rfl, hl, rfl⟩
  | case2 =>
    refine .inr ⟨rfl, rfl, rfl, rfl, fun hkind => ?_⟩
    cases hkind
  | case3 =>
    rename_i htext
    exact .inr ⟨rfl, rfl, htext, rfl, fun _ => htext⟩
  | case4 =>
    rename_i ih
    rcases ih with ⟨line, lexeme, hline, hl, heq⟩ | hend
    · refine .inl ⟨line, lexeme, .inr ?_, hl, heq⟩
      rcases hline with rfl | hline
      · exact ⟨rfl, rfl⟩
      · exact hline
    · exact .inr hend

/-- A step that comes to a token takes it from a line. -/
theorem exists_lexeme_of_next (h : lexer.next.token.kind.isTerminal = false) :
    ∃ line lexeme, (line = lexer ∨ line.AtStart) ∧
      nextLexeme? line.offset line.rest = some lexeme ∧ lexer.next = line.past lexeme := by
  rcases lexer.next_cases with hlexeme | hend
  · exact hlexeme
  · rw [hend.terminal] at h
    cases h

/-- A token that is not illegal is a lexeme before what is left of its line. -/
theorem isLexeme_of_next (h : lexer.next.token.kind.isTerminal = false)
    (hkind : lexer.next.token.kind ≠ .illegal) :
    IsLexeme lexer.next.token.kind lexer.next.token.text.toList lexer.next.rest := by
  obtain ⟨line, lexeme, -, hl, hnext⟩ := exists_lexeme_of_next h
  rw [hnext] at hkind ⊢
  show IsLexeme lexeme.kind (String.ofList lexeme.text).toList lexeme.rest
  rw [String.toList_ofList]
  exact isLexeme_of_nextLexeme? hl hkind

/-- A step comes to each token of a run, and a run from there goes on with those after it; by
induction on those before it. -/
theorem exists_next_of_run {before after : List Token} {t : Token}
    (h : lexer.next.run.1 = before ++ t :: after) :
    ∃ lexer' : Lexer, lexer'.next.token = t ∧ t.kind.isTerminal = false ∧
      lexer'.next.next.run.1 = after := by
  have hkind {lexer : Lexer} {ts : List Token} (h : lexer.next.run.1 = ts) (hne : ts ≠ []) :
      lexer.next.token.kind.isTerminal = false := by
    rw [← Bool.not_eq_true]
    intro hterminal
    rw [run_of_isTerminal hterminal] at h
    exact hne h.symm
  induction before generalizing lexer with
  | nil =>
    have hlexer := hkind h (List.cons_ne_nil _ _)
    rw [run_eq_cons hlexer] at h
    obtain ⟨rfl, hafter⟩ := List.cons.inj h
    exact ⟨lexer, rfl, hlexer, hafter⟩
  | cons s before ih =>
    rw [run_eq_cons (hkind h (List.cons_ne_nil _ _))] at h
    exact ih (List.cons.inj h).2

/-- A run lists the tokens that are taken one after the other. -/
theorem getElem?_run {n : Nat} (h : n < lexer.run.1.length) :
    lexer.run.1[n]? = some (lexer.taken n).token := by
  have hkind {lexer : Lexer} {n : Nat} (h : n < lexer.run.1.length) :
      lexer.token.kind.isTerminal = false := by
    rw [← Bool.not_eq_true]
    intro hterminal
    rw [run_of_isTerminal hterminal] at h
    exact Nat.not_lt_zero n h
  induction n generalizing lexer with
  | zero =>
    rw [run_eq_cons (hkind h)]
    rfl
  | succ n ih =>
    have hlexer := hkind h
    rw [run_eq_cons hlexer] at h ⊢
    rw [List.getElem?_cons_succ, ih (Nat.lt_of_succ_lt_succ h)]
    show _ = some (lexer.advance.taken n).token
    rw [advance_eq_next hlexer]

/-- A token of a source is a lexeme or illegal. -/
theorem isLexeme_of_mem_run {r : Reader} {t : Token} (ht : t ∈ (ofReader r).run.1)
    (hkind : t.kind ≠ .illegal) : ∃ after, IsLexeme t.kind t.text.toList after := by
  obtain ⟨before, after, hrun⟩ := List.append_of_mem ht
  obtain ⟨lexer, rfl, hterminal, -⟩ := exists_next_of_run hrun
  exact ⟨_, isLexeme_of_next hterminal hkind⟩

end Lexer

end EventMachine
