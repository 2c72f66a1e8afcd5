import EventMachine.Lexer.Basic
import EventMachine.Proofs.Lexer.Rule
import EventMachine.Proofs.Source.Line

/-!
# Lexing words

Words that stand, with single spaces between them, are the tokens of the text that they make up, if
it is one line (`run_ofText`). The lexer takes one word after the other; by induction on them.
-/

namespace EventMachine

open Source

/-- The text of words, with a space between each and the next. -/
def textOf (words : List Token.Word) : String := " ".intercalate (words.map (·.text))

/-- The characters of words, with a space before each. -/
def spaced (words : List Token.Word) : List Char := words.flatMap fun w => ' ' :: w.text.toList

variable {w : Token.Word} {words : List Token.Word} {after : List Char}

theorem toList_textOf_cons (w : Token.Word) (words : List Token.Word) :
    (textOf (w :: words)).toList = w.text.toList ++ spaced words := by
  induction words generalizing w with
  | nil =>
    unfold textOf
    rw [List.map_singleton, String.intercalate_singleton]
    exact (List.append_nil _).symm
  | cons w' words ih =>
    have hrest : " ".intercalate ((w' :: words).map (·.text)) = textOf (w' :: words) := rfl
    unfold textOf
    rw [List.map_cons, List.map_cons, String.intercalate_cons_cons, ← List.map_cons, hrest,
      String.toList_append, String.toList_append, ih, List.append_assoc]
    rfl

/-- The text of words ends with the last of them. -/
theorem exists_toList_textOf_append (words : List Token.Word) (w : Token.Word) :
    ∃ before, (textOf (words ++ [w])).toList = before ++ w.text.toList := by
  cases words with
  | nil => exact ⟨[], (toList_textOf_cons w []).trans (List.append_nil _)⟩
  | cons first words =>
    refine ⟨first.text.toList ++ (spaced words ++ [' ']), ?_⟩
    rw [List.cons_append, toList_textOf_cons, spaced, List.flatMap_append, List.flatMap_singleton]
    simp only [spaced, List.append_assoc, List.singleton_append]

theorem newline_not_mem_textOf (h : ∀ w ∈ words, '\n' ∉ w.text.toList) :
    '\n' ∉ (textOf words).toList := by
  cases words with
  | nil => exact List.not_mem_nil
  | cons w words =>
    rw [List.forall_mem_cons] at h
    rw [toList_textOf_cons, List.mem_append, not_or]
    refine ⟨h.1, fun hmem => ?_⟩
    obtain ⟨w', hw', hmem⟩ := List.mem_flatMap.1 hmem
    rcases List.mem_cons.1 hmem with heq | hmem
    · cases heq
    · exact h.2 w' hw' hmem

theorem separates_spaced (words : List Token.Word) : Separates (spaced words) := by
  cases words with
  | nil => exact separates_nil
  | cons w words => exact separates_space _

/-! ## One word -/

theorem Token.Word.Stands.firstMatch?_eq (hw : w.Stands) :
    firstMatch? rules w.text.toList = some (some w.kind, w.text.toList.length) := by
  have h := hw [] separates_nil
  rwa [List.append_nil] at h

theorem Token.Word.Stands.ne_nil (hw : w.Stands) : w.text.toList ≠ [] :=
  List.length_pos_iff.1 (firstMatch?_pos hw.firstMatch?_eq)

/-- No rule reads a terminal token. -/
theorem Token.Word.Stands.isTerminal (hw : w.Stands) : w.kind.isTerminal = false := by
  have hrules : ∀ rule ∈ rules, ∀ kind ∈ rule.kind, kind.isTerminal = false := by decide
  obtain ⟨rule, hmem, hr⟩ := List.exists_of_findSome?_eq_some hw.firstMatch?_eq
  dsimp only at hr
  split at hr
  · exact hrules rule hmem w.kind (Prod.mk.inj (Option.some.inj hr)).1
  · cases hr

theorem nextLexeme?_word (hw : w.Stands) (hafter : Separates after) (offset : Nat) :
    nextLexeme? offset (w.text.toList ++ after) = some ⟨w.kind, offset, w.text.toList, after⟩ := by
  rw [nextLexeme?, dif_neg fun h => hw.ne_nil (List.append_eq_nil_iff.1 h).1]
  split
  · next heq =>
    rw [hw after hafter] at heq
    cases heq
  · next heq =>
    rw [hw after hafter] at heq
    cases heq
    rw [List.take_left, List.drop_left]
  · next heq =>
    rw [hw after hafter] at heq
    cases heq

/-- A word does not begin with white space: that would be passed over. -/
theorem Token.Word.Stands.span_eq_zero (hw : w.Stands) (hafter : Separates after) :
    Rule.span Text.isWhiteSpace (w.text.toList ++ after) = 0 := by
  rcases Nat.eq_zero_or_pos (Rule.span Text.isWhiteSpace (w.text.toList ++ after)) with hzero | hpos
  · exact hzero
  · have hspace : firstMatch? rules (w.text.toList ++ after) = some (none, _) :=
      firstMatch?_cons_of_eq rfl hpos
    rw [hw after hafter] at hspace
    cases hspace

theorem nextLexeme?_space (hw : w.Stands) (hafter : Separates after) (offset : Nat) :
    nextLexeme? offset (' ' :: (w.text.toList ++ after)) =
      some ⟨w.kind, offset + 1, w.text.toList, after⟩ := by
  have hspan : Rule.span Text.isWhiteSpace (' ' :: (w.text.toList ++ after)) = 1 := by
    have hspace : Text.isWhiteSpace ' ' = true := by decide
    have hzero := hw.span_eq_zero hafter
    unfold Rule.span at hzero ⊢
    rw [List.takeWhile_cons_of_pos hspace, List.length_cons, hzero]
  have hmatch : firstMatch? rules (' ' :: (w.text.toList ++ after)) = some (none, 1) :=
    firstMatch?_cons_of_eq hspan Nat.one_pos
  rw [nextLexeme?, dif_neg (List.cons_ne_nil _ _)]
  split
  · next heq =>
    rw [hmatch] at heq
    cases heq
    exact nextLexeme?_word hw hafter _
  · next heq =>
    rw [hmatch] at heq
    cases heq
  · next heq =>
    rw [hmatch] at heq
    cases heq

/-! ## All of them -/

namespace Lexer

variable {lexer : Lexer}

theorem next_of_lexeme {lexeme : Lexeme} (h : nextLexeme? lexer.offset lexer.rest = some lexeme) :
    lexer.next.token.word = ⟨lexeme.kind, String.ofList lexeme.text⟩ ∧
      lexer.next.rest = lexeme.rest ∧ lexer.next.reader = lexer.reader := by
  rw [next]
  split
  · next heq =>
    rw [h] at heq
    cases heq
    exact ⟨rfl, rfl, rfl⟩
  · next heq =>
    rw [h] at heq
    cases heq

/-- At the end of its last line the lexer is at the end of the source, in the line after it. -/
theorem next_of_end (hp : lexer.reader.pending = []) (hr : lexer.rest = []) :
    ∃ r', r'.pending = [] ∧ lexer.next =
      { reader := r', line := lexer.line + lexer.physicalLines, physicalLines := 0, text := []
        rest := [], offset := 0
        token := ⟨.eof, "", ⟨lexer.line + lexer.physicalLines, 0, 0⟩⟩, failure := none } := by
  have hnone : nextLexeme? lexer.offset [] = none := by
    rw [nextLexeme?, dif_pos rfl]
  obtain ⟨r', hr', hread⟩ := readLogical_of_pending_eq_nil hp
  refine ⟨r', hr', ?_⟩
  rw [next, hr]
  split
  · next heq =>
    rw [hnone] at heq
    cases heq
  · simp [hread]

theorem kind_of_end (hp : lexer.reader.pending = []) (hr : lexer.rest = []) :
    lexer.next.token.kind = .eof := by
  obtain ⟨r', -, hnext⟩ := next_of_end hp hr
  rw [hnext]

/-- At the end of a line the lexer goes on with the next one. -/
theorem next_of_line (hr : lexer.rest = []) {text : List Char} {n : Nat} {r' : LineReader}
    (hread : readLogical lexer.reader = ⟨text, n, r', none⟩) (hne : text ≠ []) :
    ∃ lexer' : Lexer, lexer.next = lexer'.next ∧ lexer'.rest = text ∧ lexer'.reader = r' := by
  have hnone : nextLexeme? lexer.offset [] = none := by
    rw [nextLexeme?, dif_pos rfl]
  rw [next, hr]
  split
  · next heq =>
    rw [hnone] at heq
    cases heq
  · simp only [hread, Option.isSome_none, Bool.false_eq_true, if_false, dif_neg hne]
    exact ⟨_, rfl, rfl, rfl⟩

theorem run_of_isTerminal (h : lexer.token.kind.isTerminal = true) : lexer.run = ([], lexer) := by
  rw [run, if_pos h]

theorem advance_eq_next (h : lexer.token.kind.isTerminal = false) :
    lexer.advance = lexer.next := by
  unfold advance
  rw [if_neg]
  intro he
  rw [he] at h
  cases h

theorem run_eq_cons (h : lexer.token.kind.isTerminal = false) :
    lexer.run = (lexer.token :: lexer.next.run.1, lexer.next.run.2) := by
  rw [run, if_neg (by rw [h]; exact Bool.false_ne_true)]
  simp only [advance_eq_next h]
  split
  · next hterminal => rw [run_of_isTerminal hterminal]
  · rfl

/-- The words that are left of the last line are the tokens that follow. -/
theorem run_spaced (hwords : ∀ w ∈ words, w.Stands) (hp : lexer.reader.pending = [])
    (hr : lexer.rest = spaced words) (ht : lexer.token.kind.isTerminal = false) :
    lexer.run.1.map Token.word = lexer.token.word :: words ∧ lexer.run.2.token.kind = .eof := by
  induction words generalizing lexer with
  | nil =>
    have hend := kind_of_end hp hr
    have hterminal : lexer.next.token.kind.isTerminal = true := by
      rw [hend]
      rfl
    rw [run_eq_cons ht, run_of_isTerminal hterminal]
    exact ⟨rfl, hend⟩
  | cons w words ih =>
    rw [List.forall_mem_cons] at hwords
    have hnext : nextLexeme? lexer.offset lexer.rest =
        some ⟨w.kind, lexer.offset + 1, w.text.toList, spaced words⟩ := by
      rw [hr]
      exact nextLexeme?_space hwords.1 (separates_spaced words) _
    obtain ⟨hword, hrest, hreader⟩ := next_of_lexeme hnext
    rw [String.ofList_toList] at hword
    have hkind : lexer.next.token.kind = w.kind := congrArg Token.Word.kind hword
    obtain ⟨htokens, hlast⟩ := ih hwords.2 (hreader ▸ hp) hrest (hkind ▸ hwords.1.isTerminal)
    rw [run_eq_cons ht]
    refine ⟨?_, hlast⟩
    rw [List.map_cons, htokens, hword]

theorem pending_ofBytes (bytes : List UInt8) :
    (LineReader.ofReader (.ofBytes bytes)).pending = bytes :=
  List.append_nil bytes

/-- Words that make up one line are its tokens. -/
theorem run_ofText (hwords : ∀ w ∈ words, w.Stands) (hline : IsLine (textOf words)) :
    (ofText (textOf words)).run.1.map Token.word = words ∧
      (ofText (textOf words)).run.2.token.kind = .eof := by
  cases words with
  | nil =>
    have hbytes : encode (textOf []) = [] := by
      rw [encode_eq_flatMap]
      rfl
    have hend : (ofText (textOf [])).token.kind = .eof :=
      kind_of_end ((pending_ofBytes _).trans hbytes) rfl
    have hterminal : (ofText (textOf [])).token.kind.isTerminal = true := by
      rw [hend]
      rfl
    rw [run_of_isTerminal hterminal]
    exact ⟨rfl, hend⟩
  | cons w words =>
    rw [List.forall_mem_cons] at hwords
    have hne : (textOf (w :: words)).toList ≠ [] := by
      rw [toList_textOf_cons]
      exact fun h => hwords.1.ne_nil (List.append_eq_nil_iff.1 h).1
    let bytes := encode (textOf (w :: words))
    obtain ⟨r', hp, hread⟩ := readLogical_eq (r := .ofReader (.ofBytes bytes)) hline
      (fun h => hne (String.toList_eq_nil_iff.2 h)) (Reader.steady_ofBytes bytes)
      (pending_ofBytes bytes)
    obtain ⟨lexer', hnext, hrest, hreader⟩ : ∃ lexer' : Lexer,
        ofText (textOf (w :: words)) = lexer'.next ∧
          lexer'.rest = (textOf (w :: words)).toList ∧ lexer'.reader = r' :=
      next_of_line rfl hread hne
    have hlexeme : nextLexeme? lexer'.offset lexer'.rest =
        some ⟨w.kind, lexer'.offset, w.text.toList, spaced words⟩ := by
      rw [hrest, toList_textOf_cons]
      exact nextLexeme?_word hwords.1 (separates_spaced words) _
    obtain ⟨hword, hrest', hreader'⟩ := next_of_lexeme hlexeme
    rw [String.ofList_toList] at hword
    have hkind : lexer'.next.token.kind = w.kind := congrArg Token.Word.kind hword
    obtain ⟨htokens, hlast⟩ := run_spaced hwords.2 (by rw [hreader', hreader]; exact hp) hrest'
      (hkind ▸ hwords.1.isTerminal)
    rw [hnext]
    refine ⟨?_, hlast⟩
    rw [htokens, hword]

end Lexer

end EventMachine
