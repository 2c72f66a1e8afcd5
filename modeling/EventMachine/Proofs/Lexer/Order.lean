import EventMachine.Proofs.Lexer.Termination
import Mathlib.Data.List.Chain

/-!
# The places of tokens

Each token of a source starts behind the one before it, and the terminal token behind all of them
(`Lexer.pairwise_startsBefore_run`), whatever parts the source is delivered in and whether it can be
read to its end or not. So no two tokens of a source are in the same place.

`Lexer.Within` is what makes the next token start later: the lexer is already behind the beginning
of its token, and it has read a physical line at least.
-/

namespace EventMachine

open Source

/-- The first token starts before the second one: in an earlier line, or further left. -/
def Token.StartsBefore (s t : Token) : Prop :=
  s.location.line < t.location.line ∨
    s.location.line = t.location.line ∧ s.location.offset < t.location.offset

theorem Token.StartsBefore.trans {s t u : Token} (h : s.StartsBefore t) (h' : t.StartsBefore u) :
    s.StartsBefore u := by
  unfold Token.StartsBefore at *
  omega

instance : Trans Token.StartsBefore Token.StartsBefore Token.StartsBefore :=
  ⟨Token.StartsBefore.trans⟩

theorem Token.StartsBefore.location_ne {s t : Token} (h : s.StartsBefore t) :
    s.location ≠ t.location := by
  intro heq
  rw [Token.StartsBefore, heq] at h
  omega

theorem offset_le_of_nextLexeme? {offset : Nat} {rest : List Char} {l : Lexeme}
    (h : nextLexeme? offset rest = some l) : offset ≤ l.offset := by
  fun_induction nextLexeme? offset rest with
  | case1 => cases h
  | case2 _ _ _ _ _ ih => exact Nat.le_trans (Nat.le_add_right _ _) (ih h)
  | case3 | case4 =>
    cases h
    exact Nat.le_refl _

namespace Source

/-- A logical line counts its physical lines on from those that there were. -/
theorem count_le_readLogicalFrom (start : List Char) (count : Nat) (r : LineReader) :
    count ≤ (readLogicalFrom start count r).physicalLines := by
  fun_induction readLogicalFrom start count r with
  | case1 | case2 => exact Nat.le_refl _
  | case3 =>
    rename_i ih
    exact Nat.le_of_succ_le ih
  | case4 => exact Nat.le_succ _

/-- A logical line with a text has a physical line. -/
theorem physicalLines_pos_of_readLogical {r : LineReader} (h : (readLogical r).text ≠ []) :
    0 < (readLogical r).physicalLines := by
  unfold readLogical at h ⊢
  unfold readLogicalFrom at h ⊢
  dsimp only at h ⊢
  split
  · next hline => simp [hline] at h
  · next hline =>
    rw [dif_neg hline] at h
    split
    · next hdecode => simp [hdecode] at h
    · split
      · exact count_le_readLogicalFrom _ _ _
      · exact Nat.one_pos

end Source

namespace Lexer

variable {lexer : Lexer}

/-- The lexer is behind the beginning of its token, in a logical line that it has read. -/
structure Within (lexer : Lexer) : Prop where
  line : lexer.token.location.line = lexer.line
  offset : lexer.token.location.offset < lexer.offset
  physicalLines_pos : 0 < lexer.physicalLines

/-- The next token is in the rest of the line, or behind its physical lines. -/
theorem location_of_next (lexer : Lexer) :
    lexer.next.token.location.line = lexer.line ∧
        lexer.offset ≤ lexer.next.token.location.offset ∨
      lexer.line + lexer.physicalLines ≤ lexer.next.token.location.line := by
  fun_induction next lexer with
  | case1 lexer lexeme hl => exact .inl ⟨rfl, offset_le_of_nextLexeme? hl⟩
  | case2 | case3 => exact .inr (Nat.le_refl _)
  | case4 lexer hl read line =>
    rename_i ih
    change _ = line ∧ _ ∨ line + _ ≤ _ at ih
    right
    rcases ih with ⟨hline, -⟩ | hline
    · exact Nat.le_of_eq hline.symm
    · exact Nat.le_of_add_right_le hline

/-- The next token starts behind the current one. -/
theorem Within.startsBefore (h : lexer.Within) : lexer.token.StartsBefore lexer.next.token := by
  obtain ⟨hline, hoffset, hpos⟩ := h
  unfold Token.StartsBefore
  rcases lexer.location_of_next with ⟨hnext, hle⟩ | hnext <;> omega

/-- A step to a token goes behind its beginning. -/
theorem next_within (h : lexer.rest ≠ [] → 0 < lexer.physicalLines)
    (hkind : lexer.next.token.kind.isTerminal = false) : lexer.next.Within := by
  fun_induction next lexer with
  | case1 lexer lexeme hl =>
    refine ⟨rfl, Nat.lt_add_of_pos_right (byteLength_of_nextLexeme? hl).1, h fun hrest => ?_⟩
    rw [hrest, nextLexeme?_nil] at hl
    cases hl
  | case2 => cases hkind
  | case3 => cases hkind
  | case4 lexer =>
    rename_i htext ih
    exact ih (fun _ => physicalLines_pos_of_readLogical htext) hkind

/-- Each token of a run starts behind the one before it; by induction on the run. -/
theorem isChain_startsBefore_run (h : lexer.token.kind.isTerminal = false → lexer.Within) :
    (lexer.run.1 ++ [lexer.run.2.token]).IsChain Token.StartsBefore := by
  fun_induction run lexer with
  | case1 => exact .singleton _
  | case2 lexer hkind following =>
    have hkind := Bool.eq_false_iff.2 hkind
    have hfollowing : following = lexer.next := advance_eq_next hkind
    rw [hfollowing]
    exact .cons_cons (h hkind).startsBefore (.singleton _)
  | case3 lexer hkind following hnext tokens last hrun ih =>
    have hkind := Bool.eq_false_iff.2 hkind
    have hfollowing : following = lexer.next := advance_eq_next hkind
    have hwithin := h hkind
    have hchain := ih fun hterminal => by
      rw [hfollowing] at hterminal ⊢
      exact next_within (fun _ => hwithin.physicalLines_pos) hterminal
    rw [hrun] at hchain
    rw [run_eq_cons (Bool.eq_false_iff.2 hnext)] at hrun
    cases hrun
    refine .cons_cons ?_ hchain
    rw [hfollowing]
    exact hwithin.startsBefore

/-- The tokens of a source start one behind the other, and the terminal one behind all of them. -/
theorem pairwise_startsBefore_run (r : Reader) :
    ((ofReader r).run.1 ++ [(ofReader r).run.2.token]).Pairwise Token.StartsBefore := by
  refine List.isChain_iff_pairwise.1 (isChain_startsBefore_run fun hkind => ?_)
  exact next_within (fun hrest => (hrest rfl).elim) hkind

end Lexer

end EventMachine
