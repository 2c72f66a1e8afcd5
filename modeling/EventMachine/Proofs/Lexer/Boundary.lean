import EventMachine.Proofs.Lexer.Step

/-!
# Where a lexer stands

A scan of a line starts at its beginning and goes over one match after the other; where no rule
matches, it goes over one character (`Scans`).

1. A match does not reach beyond the text (`length_le_of_firstMatch?`). So a scan is always between
   two characters of its line, or at an end of it (`Scans.exists_before`).
2. A lexer stands where a scan of its line comes to, with its token before what is left
   (`Lexer.Placed`): a step keeps this (`Lexer.exists_placed_of_next`), and so does a run
   (`Lexer.exists_placed_taken`).
-/

namespace EventMachine

open Source

variable {text rest : List Char} {position n : Nat}

/-! ## Scans -/

/-- A scan of the line comes to the byte `position`, with the characters `rest` left. -/
inductive Scans (text : List Char) : Nat → List Char → Prop
  | start : Scans text 0 text
  | matched {position n : Nat} {rest : List Char} {kind : Option TokenKind}
      (h : Scans text position rest) (hm : firstMatch? rules rest = some (kind, n)) :
      Scans text (position + byteLength (rest.take n)) (rest.drop n)
  | illegal {position : Nat} {c : Char} {rest : List Char} (h : Scans text position (c :: rest))
      (hm : firstMatch? rules (c :: rest) = none) : Scans text (position + byteLength [c]) rest

/-- What has been scanned and what is left make up the line, and the position counts the bytes of
what has been scanned. -/
theorem Scans.exists_before (h : Scans text position rest) :
    ∃ before, text = before ++ rest ∧ position = byteLength before := by
  induction h with
  | start => exact ⟨[], rfl, rfl⟩
  | @matched _ n rest _ _ _ ih =>
    obtain ⟨before, rfl, rfl⟩ := ih
    refine ⟨before ++ rest.take n, ?_, (byteLength_append ..).symm⟩
    rw [List.append_assoc, List.take_append_drop]
  | @illegal _ c rest _ _ ih =>
    obtain ⟨before, rfl, rfl⟩ := ih
    exact ⟨before ++ [c], (List.append_assoc before [c] rest).symm, (byteLength_append ..).symm⟩

/-- A match does not reach beyond the text. -/
theorem length_le_of_firstMatch? {kind : Option TokenKind}
    (h : firstMatch? rules rest = some (kind, n)) : n ≤ rest.length := by
  cases kind with
  | some kind =>
    obtain ⟨text, after, rfl, rfl, -⟩ := firstMatch?_eq_some_iff.1 h
    exact List.length_append ▸ Nat.le_add_right _ _
  | none =>
    have hpos := firstMatch?_pos h
    rcases cases_of_firstMatch?_none h with rfl | rfl
    · exact (List.takeWhile_prefix _).length_le
    · obtain ⟨cs, rfl, hn⟩ := Rule.exists_comment hpos
      rw [hn, List.length_cons]
      exact Nat.succ_le_succ (List.takeWhile_prefix _).length_le

/-- A scan goes on over blanks up to the next token, and over the token. -/
theorem scans_of_nextLexeme? {offset : Nat} {l : Lexeme} (h : Scans text offset rest)
    (hl : nextLexeme? offset rest = some l) :
    Scans text l.offset (l.text ++ l.rest) ∧
      Scans text (l.offset + byteLength l.text) l.rest := by
  fun_induction nextLexeme? offset rest with
  | case1 => cases hl
  | case2 offset rest _ n hm ih => exact ih (h.matched hm) hl
  | case3 offset rest _ kind n hm =>
    cases hl
    rw [List.take_append_drop]
    exact ⟨h, h.matched hm⟩
  | case4 offset rest hne hm =>
    cases hl
    obtain ⟨c, rest, rfl⟩ := List.exists_cons_of_ne_nil hne
    exact ⟨h, h.illegal hm⟩

/-! ## Lexers -/

namespace Lexer

variable {lexer : Lexer}

/-- The token is before the text `after` in the line of the lexer, between two places that a scan of
the line comes to. The lexer goes on at the second one, unless it cannot read its source. -/
structure Placed (lexer : Lexer) (after : List Char) : Prop where
  start : Scans lexer.text lexer.token.location.offset (lexer.token.text.toList ++ after)
  stop : Scans lexer.text lexer.token.location.stop after
  goesOn : lexer.rest = after ∧ lexer.offset = lexer.token.location.stop ∨
    lexer.rest = [] ∧ lexer.token.kind = .error

/-- The location of the token says how long it is. -/
theorem Placed.length_eq {after : List Char} (h : lexer.Placed after) :
    lexer.token.location.length = byteLength lexer.token.text.toList := by
  obtain ⟨before, htext, hoffset⟩ := h.start.exists_before
  obtain ⟨before', htext', hstop⟩ := h.stop.exists_before
  rw [htext, ← List.append_assoc] at htext'
  rw [← List.append_cancel_right htext', byteLength_append, ← hoffset] at hstop
  exact Nat.add_left_cancel hstop

theorem exists_placed_of_next (h : Scans lexer.text lexer.offset lexer.rest ∨ lexer.rest = []) :
    ∃ after, lexer.next.Placed after := by
  rcases lexer.next_cases with ⟨line, lexeme, hline, hl, hnext⟩ | hend
  · have hscans : Scans line.text line.offset line.rest := by
      rcases hline with rfl | hline
      · refine h.resolve_right fun hnil => ?_
        rw [hnil, nextLexeme?_nil] at hl
        cases hl
      · rw [hline.rest, hline.offset]
        exact .start
    obtain ⟨hstart, hstop⟩ := scans_of_nextLexeme? hscans hl
    rw [hnext]
    refine ⟨lexeme.rest, ?_, hstop, .inl ⟨rfl, rfl⟩⟩
    show Scans line.text lexeme.offset ((String.ofList lexeme.text).toList ++ lexeme.rest)
    rwa [String.toList_ofList]
  · refine ⟨lexer.next.text, ?_, ?_, ?_⟩
    · rw [hend.token]
      exact .start
    · rw [hend.token]
      exact .start
    · cases hkind : lexer.next.token.kind with
      | eof =>
        refine .inl ⟨?_, ?_⟩
        · rw [hend.rest, hend.text hkind]
        · rw [hend.token, hend.offset]
          rfl
      | error => exact .inr ⟨hend.rest, rfl⟩
      | _ =>
        have hterminal := hend.terminal
        rw [hkind] at hterminal
        cases hterminal

/-- However far a source has been read, its lexer stands where a scan comes to. -/
theorem exists_placed_taken (r : Reader) (n : Nat) :
    ∃ after, ((ofReader r).taken n).Placed after := by
  refine taken_of_next (P := fun lexer => ∃ after, lexer.Placed after) (fun lexer h => ?_)
    (exists_placed_of_next (.inr rfl)) n
  obtain ⟨after, hplaced⟩ := h
  refine exists_placed_of_next (hplaced.goesOn.imp (fun ⟨hrest, hoffset⟩ => ?_) And.left)
  rw [hrest, hoffset]
  exact hplaced.stop

end Lexer

end EventMachine
