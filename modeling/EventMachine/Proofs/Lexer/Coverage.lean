import EventMachine.Proofs.Lexer.Tokens

/-!
# Tokens cover their lines

A logical line is divided into pieces: the tokens, white space and comments (`Covers`). Nothing is
left out and no piece overlaps another, so each byte of a source is in one piece of one logical
line, or belongs to a line join.

1. The rules divide every line, and its tokens are the pieces that have a kind (`exists_covers`).
2. From each piece on, the pieces divide what is left of the line (`Covers.exists_of_mem`). So a
   token is where its location says (`Covers.liesIn`), and no rule matches where it is illegal
   (`Covers.unmatched`).
-/

namespace EventMachine

open Source

/-- A part of a logical line: a token, with its kind, or what is passed over. -/
structure Piece where
  kind : Option TokenKind
  /-- The byte that it starts at. -/
  offset : Nat
  text : List Char

/-- The token that the piece is in the line with the number. -/
def Piece.token? (number : Nat) (p : Piece) : Option Token :=
  p.kind.map fun kind => ⟨kind, String.ofList p.text, ⟨number, p.offset, byteLength p.text⟩⟩

/-- The pieces divide the text, which starts at the byte `offset` of its line. What is passed over
is white space, as far as it goes, or a comment up to the end of the line; a token is what the first
rule that matches takes, and an illegal one is a character at which no rule matches. -/
inductive Covers : Nat → List Char → List Piece → Prop
  | nil {offset} : Covers offset [] []
  | space {offset text rest pieces} : text ≠ [] → (∀ c ∈ text, Text.isWhiteSpace c = true) →
      (∀ c ∈ rest.head?, Text.isWhiteSpace c = false) →
      Covers (offset + byteLength text) rest pieces →
      Covers offset (text ++ rest) (⟨none, offset, text⟩ :: pieces)
  | comment {offset text rest pieces} : '\n' ∉ text → (∀ c ∈ rest.head?, c = '\n') →
      Covers (offset + byteLength ('#' :: text)) rest pieces →
      Covers offset ('#' :: text ++ rest) (⟨none, offset, '#' :: text⟩ :: pieces)
  | token {offset rest pieces kind n} : firstMatch? rules rest = some (some kind, n) →
      Covers (offset + byteLength (rest.take n)) (rest.drop n) pieces →
      Covers offset rest (⟨some kind, offset, rest.take n⟩ :: pieces)
  | illegal {offset c rest pieces} : (∀ rule ∈ rules, rule.matchLength (c :: rest) = 0) →
      Covers (offset + byteLength [c]) rest pieces →
      Covers offset (c :: rest) (⟨some .illegal, offset, [c]⟩ :: pieces)

/-! ## The rules divide a line -/

namespace Rule

variable {p : Char → Bool} {cs : List Char}

theorem take_span (p : Char → Bool) (cs : List Char) : cs.take (span p cs) = cs.takeWhile p := by
  unfold span
  exact List.prefix_iff_eq_take.1 (List.takeWhile_prefix p) |>.symm

theorem drop_span (p : Char → Bool) (cs : List Char) : cs.drop (span p cs) = cs.dropWhile p := by
  have h := List.take_append_drop (span p cs) cs
  rw [take_span] at h
  exact List.append_cancel_left (h.trans (List.takeWhile_append_dropWhile).symm)

theorem of_mem_take_span {c : Char} (h : c ∈ cs.take (span p cs)) : p c = true := by
  rw [take_span] at h
  exact List.all_eq_true.1 List.all_takeWhile c h

theorem of_mem_head?_drop_span {c : Char} (h : c ∈ (cs.drop (span p cs)).head?) : p c = false := by
  have hhead := List.head?_dropWhile_not p cs
  rw [← drop_span, h] at hhead
  exact hhead

theorem exists_comment (h : 0 < commentLength cs) :
    ∃ rest, cs = '#' :: rest ∧ commentLength cs = span (· ≠ '\n') rest + 1 := by
  unfold commentLength at h ⊢
  split at h
  · next rest => exact ⟨rest, rfl, Nat.add_comm _ _⟩
  · exact (Nat.lt_irrefl 0 h).elim

end Rule

section Division

variable {number offset n : Nat} {rest : List Char}

theorem firstMatch?_eq_none (h : firstMatch? rules rest = none) :
    ∀ rule ∈ rules, rule.matchLength rest = 0 := by
  intro rule hrule
  have hnone := List.findSome?_eq_none_iff.1 h rule hrule
  dsimp only at hnone
  split at hnone
  · cases hnone
  · next hpos => exact Nat.eq_zero_of_not_pos hpos

/-- What is passed over is white space or a comment. -/
theorem cases_of_firstMatch?_none (h : firstMatch? rules rest = some (none, n)) :
    n = Rule.span Text.isWhiteSpace rest ∨ n = Rule.commentLength rest := by
  obtain ⟨rule, hmem, hr⟩ := List.exists_of_findSome?_eq_some h
  dsimp only at hr
  split at hr
  · obtain ⟨hkind, rfl⟩ := Prod.mk.inj (Option.some.inj hr)
    have hrules : ∀ rule ∈ rules, rule.kind = none →
        rule = ⟨none, Rule.span Text.isWhiteSpace⟩ ∨ rule = ⟨none, Rule.commentLength⟩ := by
      simp [rules]
    rcases hrules rule hmem hkind with rfl | rfl
    · exact .inl rfl
    · exact .inr rfl
  · cases hr

theorem nextLexeme?_of_passed (h : firstMatch? rules rest = some (none, n)) :
    nextLexeme? offset rest =
      nextLexeme? (offset + byteLength (rest.take n)) (rest.drop n) := by
  have hne : rest ≠ [] := by
    rintro rfl
    cases h
  rw [nextLexeme?, dif_neg hne]
  split <;> rename_i heq <;> rw [h] at heq <;> cases heq
  rfl

theorem nextLexeme?_of_token {kind : TokenKind}
    (h : firstMatch? rules rest = some (some kind, n)) :
    nextLexeme? offset rest = some ⟨kind, offset, rest.take n, rest.drop n⟩ := by
  have hne : rest ≠ [] := by
    rintro rfl
    cases h
  rw [nextLexeme?, dif_neg hne]
  split <;> rename_i heq <;> rw [h] at heq <;> cases heq
  rfl

theorem nextLexeme?_of_illegal {c : Char} (h : firstMatch? rules (c :: rest) = none) :
    nextLexeme? offset (c :: rest) = some ⟨.illegal, offset, [c], rest⟩ := by
  rw [nextLexeme?, dif_neg (List.cons_ne_nil c rest)]
  split <;> rename_i heq <;> rw [h] at heq <;> cases heq
  rfl

/-- What is passed over has no tokens. -/
theorem lineTokens_of_passed (h : firstMatch? rules rest = some (none, n)) :
    lineTokens number offset rest =
      lineTokens number (offset + byteLength (rest.take n)) (rest.drop n) := by
  have hnext : nextLexeme? offset rest = _ := nextLexeme?_of_passed h
  cases hl : nextLexeme? offset rest with
  | none => rw [lineTokens_of_none hl, lineTokens_of_none (hnext.symm.trans hl)]
  | some lexeme => rw [lineTokens_of_some hl, lineTokens_of_some (hnext.symm.trans hl)]

/-- White space is passed over as far as it goes, and a comment up to the end of the line. -/
theorem Covers.passed {pieces : List Piece} (h : firstMatch? rules rest = some (none, n))
    (hafter : Covers (offset + byteLength (rest.take n)) (rest.drop n) pieces) :
    Covers offset rest (⟨none, offset, rest.take n⟩ :: pieces) := by
  have hpos := firstMatch?_pos h
  rcases cases_of_firstMatch?_none h with rfl | rfl
  · have htext : rest.take (Rule.span Text.isWhiteSpace rest) ≠ [] := by
      rw [Rule.take_span]
      exact List.ne_nil_of_length_pos hpos
    have hspace := Covers.space htext (fun _ => Rule.of_mem_take_span)
      (fun _ => Rule.of_mem_head?_drop_span) hafter
    rwa [List.take_append_drop] at hspace
  · obtain ⟨cs, rfl, hn⟩ := Rule.exists_comment hpos
    rw [hn, List.take_succ_cons] at hafter ⊢
    have hcomment := Covers.comment (fun h => ?_) (fun c h => ?_) hafter
    · rwa [List.cons_append, List.drop_succ_cons, List.take_append_drop] at hcomment
    · simpa using Rule.of_mem_take_span h
    · simpa using Rule.of_mem_head?_drop_span h

/-- The rules divide every line, and its tokens are the pieces that have a kind; by induction on
the length of what is left, from which a match takes any number of characters. -/
theorem exists_covers (offset : Nat) (rest : List Char) :
    ∃ pieces, Covers offset rest pieces ∧
      ∀ number, lineTokens number offset rest = pieces.filterMap (Piece.token? number) := by
  induction hlength : rest.length using Nat.strongRecOn generalizing offset rest with
  | ind length ih =>
    subst hlength
    cases rest with
    | nil => exact ⟨[], .nil, fun number => lineTokens_of_none nextLexeme?_nil⟩
    | cons c cs =>
      have hdrop : ∀ {n}, 0 < n → ((c :: cs).drop n).length < (c :: cs).length := fun hn => by
        rw [List.length_drop]
        exact Nat.sub_lt (Nat.succ_pos _) hn
      cases hm : firstMatch? rules (c :: cs) with
      | none =>
        obtain ⟨pieces, hcovers, htokens⟩ :=
          ih _ (Nat.lt_succ_self _) (offset + byteLength [c]) cs rfl
        refine ⟨_, .illegal (firstMatch?_eq_none hm) hcovers, fun number => ?_⟩
        rw [lineTokens_of_some (nextLexeme?_of_illegal hm), htokens]
        rfl
      | some found =>
        obtain ⟨kind, n⟩ := found
        obtain ⟨pieces, hcovers, htokens⟩ :=
          ih _ (hdrop (firstMatch?_pos hm)) (offset + byteLength ((c :: cs).take n)) _ rfl
        cases kind with
        | none =>
          refine ⟨_, .passed hm hcovers, fun number => ?_⟩
          rw [lineTokens_of_passed hm, htokens]
          rfl
        | some kind =>
          refine ⟨_, .token hm hcovers, fun number => ?_⟩
          rw [lineTokens_of_some (nextLexeme?_of_token hm), htokens]
          rfl

end Division

/-! ## Where the pieces lie -/

theorem encode_ofList (cs : List Char) : encode (String.ofList cs) = bytesOf cs := by
  rw [encode_eq_bytesOf, String.toList_ofList]

namespace Covers

variable {offset : Nat} {rest : List Char} {p : Piece} {pieces : List Piece}

/-- The first piece stands at the beginning, and the others divide what follows it. -/
theorem head (h : Covers offset rest (p :: pieces)) :
    p.offset = offset ∧ p.text ≠ [] ∧
      ∃ after, rest = p.text ++ after ∧ Covers (offset + byteLength p.text) after pieces := by
  cases h with
  | space hne _ _ h => exact ⟨rfl, hne, _, rfl, h⟩
  | comment _ _ h => exact ⟨rfl, List.cons_ne_nil _ _, _, rfl, h⟩
  | token hm h =>
    refine ⟨rfl, fun hnil => ?_, _, (List.take_append_drop ..).symm, h⟩
    rcases List.take_eq_nil_iff.1 hnil with rfl | rfl
    · exact Nat.lt_irrefl 0 (firstMatch?_pos hm)
    · cases hm
  | illegal _ h => exact ⟨rfl, List.cons_ne_nil _ _, _, rfl, h⟩

theorem flatMap_text (h : Covers offset rest pieces) : pieces.flatMap Piece.text = rest := by
  induction pieces generalizing offset rest with
  | nil =>
    cases h
    rfl
  | cons p pieces ih =>
    obtain ⟨-, -, after, rfl, hafter⟩ := h.head
    rw [List.flatMap_cons, ih hafter]

/-- The pieces after some of them divide what is left of the text. -/
theorem append {later : List Piece} (h : Covers offset rest (pieces ++ later)) :
    Covers (offset + byteLength (pieces.flatMap Piece.text)) (later.flatMap Piece.text) later := by
  induction pieces generalizing offset rest with
  | nil =>
    rw [List.nil_append] at h
    rwa [h.flatMap_text]
  | cons p pieces ih =>
    obtain ⟨-, -, after, rfl, hafter⟩ := h.head
    rw [List.flatMap_cons, byteLength_append, ← Nat.add_assoc]
    exact ih hafter

/-- From a piece on, the pieces divide what is left of the text. -/
theorem exists_of_mem (h : Covers offset rest pieces) (hp : p ∈ pieces) :
    ∃ before after later, rest = before ++ after ∧
      Covers (offset + byteLength before) after (p :: later) := by
  obtain ⟨earlier, later, rfl⟩ := List.append_of_mem hp
  refine ⟨_, _, later, ?_, h.append⟩
  rw [← List.flatMap_append, h.flatMap_text]

/-- The pieces stand one after the other. -/
theorem pairwise (h : Covers offset rest pieces) :
    pieces.Pairwise fun p q => p.offset + byteLength p.text ≤ q.offset := by
  induction pieces generalizing offset rest with
  | nil => exact .nil
  | cons p pieces ih =>
    obtain ⟨hoffset, -, after, -, hafter⟩ := h.head
    refine List.pairwise_cons.2 ⟨fun q hq => ?_, ih hafter⟩
    obtain ⟨before, _, _, -, hq⟩ := hafter.exists_of_mem hq
    rw [hq.head.1, hoffset]
    exact Nat.le_add_right _ _

/-- An illegal piece is one character, at which no rule matches. -/
theorem of_illegal (h : Covers offset rest (p :: pieces)) (hp : p.kind = some .illegal) :
    ∃ c after, rest = c :: after ∧ p.text = [c] ∧
      ∀ rule ∈ rules, rule.matchLength (c :: after) = 0 := by
  cases h with
  | space | comment => cases hp
  | token hm =>
    cases hp
    exact ((kind_of_firstMatch? hm).2 rfl).elim
  | illegal hnone => exact ⟨_, _, rfl, rfl, hnone⟩

end Covers

/-- The token is in the logical line, where its location says. -/
structure Token.LiesIn (t : Token) (l : LogicalLine) : Prop where
  line : t.location.line = l.before.length + 1
  length_pos : 0 < t.location.length
  stop_le : t.location.offset + t.location.length ≤ (bytesOf l.text).length
  text : encode t.text = ((bytesOf l.text).drop t.location.offset).take t.location.length

/-- No rule matches where the token is, and it is the character there. -/
def Token.Unmatched (t : Token) (l : LogicalLine) : Prop :=
  ∃ before c after, l.text = before ++ c :: after ∧ t.text = String.ofList [c] ∧
    t.location.offset = (bytesOf before).length ∧ ∀ rule ∈ rules, rule.matchLength (c :: after) = 0

/-- The first token ends before the second one starts, in the same line or in an earlier one. -/
def Token.Precedes (s t : Token) : Prop :=
  s.location.line < t.location.line ∨ s.location.line = t.location.line ∧
    s.location.offset + s.location.length ≤ t.location.offset

section Lines

variable {l : LogicalLine} {pieces : List Piece} {t : Token}

theorem Covers.liesIn (h : Covers 0 l.text pieces)
    (ht : t ∈ pieces.filterMap (Piece.token? l.number)) : t.LiesIn l := by
  obtain ⟨p, hp, hpt⟩ := List.mem_filterMap.1 ht
  obtain ⟨kind, -, rfl⟩ := Option.map_eq_some_iff.1 hpt
  obtain ⟨before, _, later, htext, hlater⟩ := h.exists_of_mem hp
  obtain ⟨hoffset, hne, after, rfl, -⟩ := hlater.head
  rw [Nat.zero_add, byteLength_eq] at hoffset
  have hbytes : bytesOf l.text = bytesOf before ++ (bytesOf p.text ++ bytesOf after) := by
    rw [htext, bytesOf_append, bytesOf_append]
  refine ⟨rfl, ?_, ?_, ?_⟩
  · rw [byteLength_eq]
    exact List.length_pos_iff.2 fun hnil => hne (bytesOf_eq_nil hnil)
  · rw [hbytes, hoffset, byteLength_eq, List.length_append, List.length_append]
    exact Nat.add_le_add_left (Nat.le_add_right _ _) _
  · rw [hbytes, hoffset, byteLength_eq, encode_ofList, List.drop_left, List.take_left]

theorem Covers.unmatched (h : Covers 0 l.text pieces)
    (ht : t ∈ pieces.filterMap (Piece.token? l.number)) (hkind : t.kind = .illegal) :
    t.Unmatched l := by
  obtain ⟨p, hp, hpt⟩ := List.mem_filterMap.1 ht
  obtain ⟨kind, hk, rfl⟩ := Option.map_eq_some_iff.1 hpt
  obtain rfl : kind = .illegal := hkind
  obtain ⟨before, _, later, htext, hlater⟩ := h.exists_of_mem hp
  have hoffset := hlater.head.1
  obtain ⟨c, after, rfl, hc, hnone⟩ := hlater.of_illegal hk
  refine ⟨before, c, after, htext, congrArg String.ofList hc, ?_, hnone⟩
  rw [← byteLength_eq, ← Nat.zero_add (byteLength before)]
  exact hoffset

theorem Covers.pairwise_precedes (h : Covers 0 l.text pieces) :
    (pieces.filterMap (Piece.token? l.number)).Pairwise Token.Precedes := by
  refine h.pairwise.filterMap _ fun p q hpq s hs t ht => ?_
  obtain ⟨_, -, rfl⟩ := Option.map_eq_some_iff.1 hs
  obtain ⟨_, -, rfl⟩ := Option.map_eq_some_iff.1 ht
  exact .inr ⟨rfl, hpq⟩

end Lines

/-! ## A whole source -/

/-- Lexing a source loses nothing, and the locations are true. The physical lines are those of the
logical lines, one after the other, but for backslashes at the end of the source that join nothing.
Each logical line is divided into pieces, and the tokens are, in order, the pieces that have a kind.
A token is the text of its logical line from its offset on; it is illegal only where no rule
matches. -/
theorem tokens_cover_source (source : String) :
    let physical := physicalLines source.toList
    let logical := logicalLines source.toList
    let tokens := (Lexer.ofText source).run.1
    (physical.flatten = source.toList ∧ ∀ p ∈ physical, p ≠ [] ∧ '\n' ∉ p.dropLast) ∧
    (∃ rest, logical.flatMap LogicalLine.parts ++ rest = physical ∧
      ∀ p ∈ rest, joined? p = some []) ∧
    (∀ l ∈ logical, l.Within physical) ∧
    (∃ pieces : LogicalLine → List Piece,
      (∀ l, Covers 0 l.text (pieces l) ∧ (pieces l).flatMap Piece.text = l.text) ∧
      tokens = logical.flatMap fun l => (pieces l).filterMap (Piece.token? l.number)) ∧
    (∀ t ∈ tokens, ∃ l ∈ logical, t.LiesIn l ∧ (t.kind = .illegal → t.Unmatched l)) ∧
    tokens.Pairwise Token.Precedes ∧
    (Lexer.ofText source).run.2.token.kind = .eof := by
  intro physical logical tokens
  obtain ⟨htokens, hends⟩ := Lexer.run_ofText_eq source
  have hlogical : logical.Pairwise (·.number < ·.number) := pairwise_number [] [] physical
  obtain ⟨pieces, hpieces⟩ := Classical.skolem.1 fun l : LogicalLine => exists_covers 0 l.text
  have hcovers : ∀ l, Covers 0 l.text (pieces l) := fun l => (hpieces l).1
  have hlines : tokens = logical.flatMap fun l =>
      (pieces l).filterMap (Piece.token? l.number) := by
    refine htokens.trans ?_
    unfold tokensOf
    congr 1
    funext l
    exact (hpieces l).2 l.number
  refine ⟨⟨flatten_physicalLines _, fun p hp => ⟨?_, newline_not_mem_dropLast hp⟩⟩, ?_, ?_,
    ⟨pieces, fun l => ⟨hcovers l, (hcovers l).flatMap_text⟩, hlines⟩, ?_, ?_, ?_⟩
  · rintro rfl
    exact nil_not_mem_physicalLines _ hp
  · exact exists_flatMap_parts_append [] List.not_mem_nil (nil_not_mem_physicalLines _)
  · exact fun l hl => within_of_mem (fun p hp => (List.not_mem_nil hp).elim) hl
  · intro t ht
    rw [hlines] at ht
    obtain ⟨l, hl, ht⟩ := List.mem_flatMap.1 ht
    exact ⟨l, hl, (hcovers l).liesIn ht, (hcovers l).unmatched ht⟩
  · rw [hlines]
    refine List.pairwise_flatMap.2 ⟨fun l _ => (hcovers l).pairwise_precedes, ?_⟩
    refine hlogical.imp fun hlt s hs t ht => .inl ?_
    rw [((hcovers _).liesIn hs).line, ((hcovers _).liesIn ht).line]
    exact hlt
  · rw [hends.token]
    rfl

end EventMachine
