import EventMachine.Proofs.Lexer.Blank
import Mathlib.Data.List.Basic

/-!
# Tokens side by side

A part of a line that is divided into tokens and white space, where it is followed by some text, is
`Parted` from this text. Then the words of the two are those of the line
(`Parted.lineWords_append`), and any text may follow instead that begins with a character that ends
every word and number (`Parted.of_delimits`).

In a line without illegal tokens, all that stands before a token is parted from it
(`Covers.parted`). A backslash stands in strings only, with a quote after it: so what is before a
token joins its line with no other (`Parted.joined?_eq_none`).
-/

namespace EventMachine

open Source Rule

variable {number offset : Nat} {c : Char} {cs text before after after' rest : List Char}
  {kind : TokenKind} {pieces : List Piece}

/-! ## Words of a line -/

/-- The tokens of a line, without their places. -/
def lineWords (cs : List Char) : List Token.Word := (lineTokens 0 0 cs).map Token.word

/-- Where a line stands does not matter to what is read from it. -/
theorem nextLexeme?_of_offset {l : Lexeme} (h : nextLexeme? offset rest = some l) (offset' : Nat) :
    ∃ offset'', nextLexeme? offset' rest = some ⟨l.kind, offset'', l.text, l.rest⟩ := by
  fun_induction nextLexeme? offset rest generalizing offset' with
  | case1 => cases h
  | case2 offset rest _ n hm ih =>
    rw [nextLexeme?_of_passed hm]
    exact ih h _
  | case3 offset rest _ kind n hm =>
    cases h
    exact ⟨offset', nextLexeme?_of_token hm⟩
  | case4 offset rest hne hm =>
    cases h
    obtain ⟨c, rest, rfl⟩ := List.exists_cons_of_ne_nil hne
    exact ⟨offset', nextLexeme?_of_illegal hm⟩

theorem map_word_lineTokens (number offset : Nat) (cs : List Char) :
    (lineTokens number offset cs).map Token.word = lineWords cs := by
  have hsame (number' offset' : Nat) : (lineTokens number offset cs).map Token.word =
      (lineTokens number' offset' cs).map Token.word := by
    fun_induction lineTokens number offset cs generalizing offset' with
    | case1 offset cs h =>
      cases h' : nextLexeme? offset' cs with
      | none => rw [lineTokens_of_none h']
      | some l =>
        obtain ⟨offset'', h''⟩ := nextLexeme?_of_offset h' offset
        rw [h] at h''
        cases h''
    | case2 offset cs l h ih =>
      obtain ⟨offset'', h'⟩ := nextLexeme?_of_offset h offset'
      rw [lineTokens_of_some h', List.map_cons, List.map_cons, ih]
      rfl
  exact hsame 0 0

theorem lineWords_nil : lineWords [] = [] := by
  unfold lineWords
  rw [lineTokens_of_none nextLexeme?_nil]
  rfl

theorem lineWords_space (hc : Text.isWhiteSpace c = true) (cs : List Char) :
    lineWords (c :: cs) = lineWords cs := by
  unfold lineWords
  rw [← List.singleton_append, lineTokens_space (by simpa using hc), map_word_lineTokens]
  rfl

theorem lineWords_comment (htext : '\n' ∉ text) (hrest : ∀ c ∈ rest.head?, c = '\n') :
    lineWords ('#' :: text ++ rest) = lineWords rest := by
  unfold lineWords
  rw [lineTokens_comment htext hrest, map_word_lineTokens]
  rfl

theorem IsLexeme.lineWords_eq (h : IsLexeme kind text rest) :
    lineWords (text ++ rest) = ⟨kind, String.ofList text⟩ :: lineWords rest := by
  unfold lineWords
  rw [h.lineTokens_eq, List.map_cons, map_word_lineTokens]
  rfl

/-! ## Parted texts -/

/-- The characters `before` are divided into tokens and white space, where `after` follows them. No
reserved word is a name among these tokens. -/
inductive Parted : List Char → List Char → Prop
  | nil {after : List Char} : Parted [] after
  | space {c : Char} {before after : List Char} (hc : Text.isWhiteSpace c = true)
      (h : Parted before after) : Parted (c :: before) after
  | token {kind : TokenKind} {text before after : List Char}
      (htext : IsLexeme kind text (before ++ after))
      (hname : kind = .identifier → IsName (String.ofList text)) (h : Parted before after) :
      Parted (text ++ before) after

/-- The text is empty or begins with a character that ends every word and number. -/
def Delimits (after : List Char) : Prop :=
  ∀ c ∈ after.head?, Text.isWord c = false ∧ c ≠ '.'

theorem delimits_space (hc : Text.isWhiteSpace c = true) (cs : List Char) : Delimits (c :: cs) := by
  rintro _ ⟨⟩
  refine ⟨not_isWord_of_isWhiteSpace hc, ?_⟩
  rintro rfl
  exact absurd hc (by decide)

theorem delimits_comment (cs : List Char) : Delimits ('#' :: cs) := by
  rintro _ ⟨⟩
  decide

/-- A token is the same before other characters of which only the first may be new, if that one
ends it. -/
theorem IsLexeme.of_delimits (h : IsLexeme kind text (before ++ after))
    (hname : kind = .identifier → IsName (String.ofList text)) (hafter : Delimits after') :
    IsLexeme kind text (before ++ after') := by
  cases before with
  | nil => exact h.of_after hname hafter
  | cons c before => exact h.of_head?_eq rfl

namespace Parted

/-- Any text may follow that begins with a character that ends every word and number. -/
theorem of_delimits (h : Parted before after) (hafter : Delimits after') :
    Parted before after' := by
  induction h with
  | nil => exact .nil
  | space hc _ ih => exact .space hc ih
  | token htext hname _ ih => exact .token (htext.of_delimits hname hafter) hname ih

/-- Only the first character of the text that follows counts. -/
theorem of_head?_eq (h : Parted before after) (hhead : after'.head? = after.head?) :
    Parted before after' := by
  induction h with
  | nil => exact .nil
  | space hc _ ih => exact .space hc (ih hhead)
  | @token _ _ before _ htext hname _ ih =>
    refine .token (htext.of_head?_eq ?_) hname (ih hhead)
    rw [List.head?_append, List.head?_append, hhead]

theorem append_space (h : Parted before after) (hc : Text.isWhiteSpace c = true) :
    Parted (before ++ [c]) after := by
  induction h with
  | nil => exact .space hc .nil
  | space hd _ ih => exact .space hd ih
  | @token kind text before after htext hname _ ih =>
    rw [List.append_assoc]
    refine .token ?_ hname ih
    rw [List.append_assoc]
    exact htext.of_delimits hname (delimits_space hc after)

/-- The words of a line are those of its parts. -/
theorem lineWords_append (h : Parted before after) :
    lineWords (before ++ after) = lineWords before ++ lineWords after := by
  induction h with
  | nil =>
    rw [lineWords_nil]
    rfl
  | space hc _ ih => rw [List.cons_append, lineWords_space hc, lineWords_space hc, ih]
  | @token kind text before after htext hname _ ih =>
    have hbefore : IsLexeme kind text (before ++ []) := htext.of_delimits hname nofun
    rw [List.append_nil] at hbefore
    rw [List.append_assoc, htext.lineWords_eq, ih, hbefore.lineWords_eq, List.cons_append]

/-- A backslash is in a string, with the closing quote behind it. -/
theorem quote_mem (h : Parted before after) (hbefore : before = cs ++ '\\' :: rest) :
    '"' ∈ rest := by
  induction h generalizing cs with
  | nil => cases List.append_eq_nil_iff.1 hbefore.symm |>.2
  | @space c before _ hc _ ih =>
    cases cs with
    | nil =>
      obtain ⟨rfl, -⟩ := List.cons.inj hbefore
      exact absurd hc (by decide)
    | cons d cs => exact ih (List.cons.inj hbefore).2
  | @token kind text before _ htext _ _ ih =>
    rcases List.append_eq_append_iff.1 hbefore with ⟨more, -, hmore⟩ | ⟨more, hmore, hrest⟩
    · exact ih hmore
    · cases more with
      | nil =>
        have hbefore : before = [] ++ '\\' :: rest := hrest.symm
        exact ih hbefore
      | cons d more =>
        obtain ⟨rfl, rfl⟩ := List.cons.inj hrest
        refine List.mem_append_left _ ?_
        rcases htext.text_cases with ⟨body, htext, -⟩ | ⟨-, hmarks⟩
        · have hlast : (cs ++ '\\' :: more).getLast? = some '"' := by
            rw [← hmore, htext, List.getLast?_concat]
          rw [List.getLast?_append_cons] at hlast
          rcases List.mem_cons.1 (List.mem_of_getLast? hlast) with heq | hmem
          · cases heq
          · exact hmem
        · have hmark := hmarks '\\' (by rw [hmore]; simp)
          exact (hmark.2.2 rfl).elim

/-- What stands before a token joins its line with no other. -/
theorem joined?_eq_none (h : Parted (cs ++ rest) after) : joined? rest = none := by
  rw [Option.eq_none_iff_forall_ne_some]
  intro body hbody
  obtain ⟨e, he, rfl⟩ := joined?_eq_some_iff.1 hbody
  have hquote : '"' ∈ e := h.quote_mem (List.append_assoc ..).symm
  have hends : ∀ e ∈ lineEnds, '"' ∉ e := by decide
  exact hends e he hquote

end Parted

/-! ## Lines without illegal tokens -/

theorem mem_kind_of_firstMatch?_eq_none (h : Covers offset (c :: cs) pieces)
    (hm : firstMatch? rules (c :: cs) = none) : ∃ p ∈ pieces, p.kind = some .illegal := by
  obtain ⟨hspace, hcomment, -⟩ := firstMatch?_eq_none_iff.1 hm
  generalize hrest : c :: cs = rest at h
  cases h with
  | nil => cases hrest
  | @space _ text _ _ hne htext =>
    obtain ⟨d, text, rfl⟩ := List.exists_cons_of_ne_nil hne
    obtain ⟨rfl, -⟩ := List.cons.inj hrest
    rw [htext c List.mem_cons_self] at hspace
    cases hspace
  | comment => exact (hcomment (List.cons.inj hrest).1).elim
  | token hm' =>
    rw [← hrest, hm] at hm'
    cases hm'
  | illegal => exact ⟨_, List.mem_cons_self, rfl⟩

/-- Without illegal tokens, no reserved word is a name. -/
theorem isName_of_covers (h : IsLexeme .identifier text rest) (hcovers : Covers offset rest pieces)
    (hlegal : ∀ p ∈ pieces, p.kind ≠ some .illegal) : IsName (String.ofList text) := by
  rcases h.isName_or_reserved with hname | ⟨-, c, hc, hword, hle⟩
  · exact hname
  · obtain ⟨cs, rfl⟩ := List.head?_eq_some_iff.1 hc
    obtain ⟨p, hp, hkind⟩ := mem_kind_of_firstMatch?_eq_none hcovers
      (firstMatch?_eq_none_of_le hle (not_isWhiteSpace_of_isWord hword) cs)
    exact (hlegal p hp hkind).elim

theorem Parted.space_append (htext : ∀ c ∈ text, Text.isWhiteSpace c = true)
    (h : Parted before after) : Parted (text ++ before) after := by
  induction text with
  | nil => exact h
  | cons c text ih =>
    rw [List.forall_mem_cons] at htext
    exact .space htext.1 (ih htext.2)

/-- In a line without illegal tokens, what comes before some pieces is parted from them, unless they
begin with the end of the line: so far a comment would reach. -/
theorem Covers.parted {later : List Piece} (h : Covers offset rest (pieces ++ later))
    (hlegal : ∀ p ∈ pieces ++ later, p.kind ≠ some .illegal)
    (hnewline : '\n' ∉ pieces.flatMap Piece.text)
    (hnext : ∃ c ∈ (later.flatMap Piece.text).head?, c ≠ '\n') :
    Parted (pieces.flatMap Piece.text) (later.flatMap Piece.text) := by
  induction pieces generalizing offset rest with
  | nil => exact .nil
  | cons p pieces ih =>
    rw [List.cons_append] at h
    rw [List.cons_append, List.forall_mem_cons] at hlegal
    rw [List.flatMap_cons, List.mem_append, not_or] at hnewline
    rw [List.flatMap_cons]
    cases h with
    | space _ htext _ hrest => exact .space_append htext (ih hrest hlegal.2 hnewline.2)
    | @comment _ text rest _ _ hend hrest =>
      have hsplit : rest = pieces.flatMap Piece.text ++ later.flatMap Piece.text := by
        rw [← List.flatMap_append, hrest.flatMap_text]
      obtain ⟨c, hc, hne⟩ := hnext
      rw [hsplit] at hend
      cases hpieces : pieces.flatMap Piece.text with
      | nil =>
        rw [hpieces] at hend
        exact (hne (hend c hc)).elim
      | cons d ds =>
        rw [hpieces] at hend hnewline
        rw [hend d rfl] at hnewline
        exact (hnewline.2 List.mem_cons_self).elim
    | token hm hrest =>
      obtain ⟨text, after, rfl, rfl, htext⟩ := firstMatch?_eq_some_iff.1 hm
      rw [List.drop_left] at hrest
      rw [List.take_left]
      have hsplit : after = pieces.flatMap Piece.text ++ later.flatMap Piece.text := by
        rw [← List.flatMap_append, hrest.flatMap_text]
      refine .token (hsplit ▸ htext) (fun hkind => ?_) (ih hrest hlegal.2 hnewline.2)
      subst hkind
      exact isName_of_covers htext hrest hlegal.2
    | illegal => exact (hlegal.1 rfl).elim

end EventMachine
