import EventMachine.Proofs.Lexer.Lexeme

/-!
# White space and comments

White space has no tokens, wherever it stands in a line (`lineTokens_space`), nor has a comment
(`lineTokens_comment`). White space at the end of a line changes none of its tokens
(`lineTokens_append_space`): no token ends in it or is longer before it.
-/

namespace EventMachine

open Source Rule

variable {number offset : Nat} {c : Char} {cs e rest text : List Char} {kind : TokenKind}

/-! ## At the beginning of a text -/

/-- White space at the beginning is passed over, as far as it goes. -/
theorem lineTokens_dropWhile (number offset : Nat) (cs : List Char) :
    lineTokens number offset cs =
      lineTokens number (offset + byteLength (cs.takeWhile Text.isWhiteSpace))
        (cs.dropWhile Text.isWhiteSpace) := by
  rcases Nat.eq_zero_or_pos (span Text.isWhiteSpace cs) with hzero | hpos
  · have hnil : cs.takeWhile Text.isWhiteSpace = [] := List.length_eq_zero_iff.1 hzero
    rw [← drop_span, hzero, hnil]
    rfl
  · have hspace : firstMatch? rules cs = some (none, span Text.isWhiteSpace cs) :=
      firstMatch?_cons_of_eq rfl hpos
    rw [lineTokens_of_passed hspace, take_span, drop_span]

/-- White space is passed over, whatever follows it. -/
theorem lineTokens_space (h : ∀ c ∈ text, Text.isWhiteSpace c = true) :
    lineTokens number offset (text ++ rest) =
      lineTokens number (offset + byteLength text) rest := by
  rw [lineTokens_dropWhile, List.takeWhile_append_of_pos h, List.dropWhile_append_of_pos h,
    byteLength_append, ← Nat.add_assoc, ← lineTokens_dropWhile]

theorem lineTokens_of_space (h : ∀ c ∈ cs, Text.isWhiteSpace c = true) :
    lineTokens number offset cs = [] := by
  rw [← List.append_nil cs, lineTokens_space h, lineTokens_of_none nextLexeme?_nil]

/-- A comment is passed over, up to the end of the line. -/
theorem lineTokens_comment (htext : '\n' ∉ text) (hrest : ∀ c ∈ rest.head?, c = '\n') :
    lineTokens number offset ('#' :: text ++ rest) =
      lineTokens number (offset + byteLength ('#' :: text)) rest := by
  have hspan : span (· ≠ '\n') (text ++ rest) = text.length := by
    refine span_append (fun c hc => ?_) fun c hc => ?_
    · simp only [ne_eq, decide_not, Bool.not_eq_true', decide_eq_false_iff_not]
      rintro rfl
      exact htext hc
    · simp [hrest c hc]
  have hlength : commentLength ('#' :: text ++ rest) = ('#' :: text).length := by
    show 1 + span (· ≠ '\n') (text ++ rest) = text.length + 1
    rw [hspan, Nat.add_comm]
  have hcomment : firstMatch? rules ('#' :: text ++ rest) = some (none, ('#' :: text).length) := by
    show firstMatch? (⟨none, commentLength⟩ :: rules.drop 2) _ = _
    exact firstMatch?_cons_of_eq hlength (Nat.succ_pos _)
  rw [lineTokens_of_passed hcomment, List.take_left, List.drop_left]

/-- A lexeme is the first token. -/
theorem IsLexeme.lineTokens_eq (h : IsLexeme kind text rest) :
    lineTokens number offset (text ++ rest) =
      ⟨kind, String.ofList text, ⟨number, offset, byteLength text⟩⟩ ::
        lineTokens number (offset + byteLength text) rest := by
  rw [lineTokens_of_some (nextLexeme?_of_token h.firstMatch?_eq), List.take_left, List.drop_left]
  rfl

/-! ## At the end of a line -/

/-- White space ends every word and number. -/
theorem IsLexeme.of_space (h : IsLexeme kind text []) (he : ∀ c ∈ e, Text.isWhiteSpace c = true) :
    IsLexeme kind text e := by
  refine h.of_after (fun hkind => ?_) fun c hc => ?_
  · subst hkind
    rcases h.isName_or_reserved with hname | ⟨-, _, hc, -⟩
    · exact hname
    · cases hc
  · have hspace := he c (List.mem_of_mem_head? hc)
    refine ⟨not_isWord_of_isWhiteSpace hspace, ?_⟩
    rintro rfl
    exact absurd hspace (by decide)

/-- A lexeme stays one if white space comes behind what follows it, and if it is taken away. -/
theorem isLexeme_append_space (he : ∀ c ∈ e, Text.isWhiteSpace c = true) :
    IsLexeme kind text (rest ++ e) ↔ IsLexeme kind text rest := by
  cases rest with
  | cons c rest => exact ⟨fun h => h.of_head?_eq rfl, fun h => h.of_head?_eq rfl⟩
  | nil =>
    refine ⟨fun h => h.of_after (fun hkind => ?_) nofun, fun h => h.of_space he⟩
    subst hkind
    rcases h.isName_or_reserved with hname | ⟨-, c, hc, hword, -⟩
    · exact hname
    · rw [not_isWord_of_isWhiteSpace (he c (List.mem_of_mem_head? hc))] at hword
      cases hword

/-- Where nothing is read, nothing is read either if white space comes behind the text. -/
theorem firstMatch?_append_space (he : ∀ c ∈ e, Text.isWhiteSpace c = true)
    (h : firstMatch? rules (c :: cs) = none) : firstMatch? rules (c :: cs ++ e) = none := by
  obtain ⟨hspace, hcomment, hlexeme⟩ := firstMatch?_eq_none_iff.1 h
  refine firstMatch?_eq_none_iff.2 ⟨hspace, hcomment, ?_⟩
  rintro ⟨kind, text, after, heq, htext⟩
  change c :: cs ++ e = text ++ after at heq
  rcases List.append_eq_append_iff.1 heq with ⟨more, rfl, rfl⟩ | ⟨more, hmore, rfl⟩
  · -- the lexeme would go on into the white space
    cases hlast : more.getLast? with
    | none =>
      rw [List.getLast?_eq_none_iff] at hlast
      subst hlast
      rw [List.append_nil] at htext
      have hempty : IsLexeme kind (c :: cs) ([] ++ ([] ++ after)) := htext
      exact hlexeme ⟨kind, c :: cs, [], (List.append_nil _).symm,
        (isLexeme_append_space he).1 hempty⟩
    | some d =>
      have hd : Text.isWhiteSpace d = true :=
        he d (List.mem_append_left _ (List.mem_of_getLast? hlast))
      rw [htext.not_isWhiteSpace_of_getLast? (by rw [List.getLast?_append, hlast]; rfl)] at hd
      cases hd
  · exact hlexeme ⟨kind, text, more, hmore, (isLexeme_append_space he).1 htext⟩

/-- White space at the end of a line changes none of its tokens; by induction on what the line is
divided into. -/
theorem lineTokens_append_space (he : ∀ c ∈ e, Text.isWhiteSpace c = true)
    (number offset : Nat) (cs : List Char) :
    lineTokens number offset (cs ++ e) = lineTokens number offset cs := by
  obtain ⟨pieces, hcovers, -⟩ := exists_covers offset cs
  induction hcovers with
  | nil => rw [List.nil_append, lineTokens_of_space he, lineTokens_of_none nextLexeme?_nil]
  | space _ hspace _ _ ih =>
    rw [List.append_assoc, lineTokens_space hspace, lineTokens_space hspace, ih]
  | @comment offset text rest pieces htext hrest _ ih =>
    cases rest with
    | nil =>
      -- a part of the white space may belong to the comment
      have hline : '\n' ∉ text ++ e.takeWhile (· ≠ '\n') := by
        rw [List.mem_append, not_or]
        exact ⟨htext, fun hmem => by simpa using List.all_eq_true.1 List.all_takeWhile _ hmem⟩
      have hrest : ∀ c ∈ (e.dropWhile (· ≠ '\n')).head?, c = '\n' := fun c hc => by
        simpa using of_mem_head?_drop_span (p := (· ≠ '\n')) (drop_span _ e ▸ hc)
      have hspace : ∀ c ∈ e.dropWhile (· ≠ '\n'), Text.isWhiteSpace c = true := fun c hc =>
        he c (List.dropWhile_subset _ hc)
      have hsplit : '#' :: text ++ [] ++ e =
          '#' :: (text ++ e.takeWhile (· ≠ '\n')) ++ e.dropWhile (· ≠ '\n') := by
        simp [List.takeWhile_append_dropWhile]
      have hempty : ∀ c ∈ ([] : List Char).head?, c = '\n' := nofun
      rw [hsplit, lineTokens_comment hline hrest, lineTokens_of_space hspace,
        lineTokens_comment htext hempty, lineTokens_of_none nextLexeme?_nil]
    | cons d rest =>
      have hmore : ∀ c ∈ (d :: rest ++ e).head?, c = '\n' := hrest
      rw [List.append_assoc, lineTokens_comment htext hmore, ih, lineTokens_comment htext hrest]
  | @token offset rest pieces kind n hm _ ih =>
    obtain ⟨text, after, rfl, rfl, hlexeme⟩ := firstMatch?_eq_some_iff.1 hm
    rw [List.take_left, List.drop_left] at ih
    rw [List.append_assoc, ((isLexeme_append_space he).2 hlexeme).lineTokens_eq,
      hlexeme.lineTokens_eq, ih]
  | illegal hnone _ ih =>
    have hm := firstMatch?_of_forall_eq_zero hnone
    have hme := firstMatch?_append_space he hm
    rw [List.cons_append] at hme ⊢
    rw [lineTokens_of_some (nextLexeme?_of_illegal hme),
      lineTokens_of_some (nextLexeme?_of_illegal hm)]
    exact congrArg _ ih

end EventMachine
