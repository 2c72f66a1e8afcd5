import EventMachine.Proofs.Lexer.Step
import EventMachine.Proofs.Syntax.Diagnostic
import EventMachine.Proofs.Syntax.Printing

/-!
# Names in syntax trees

Reserved words are no names of a syntax tree (`reserved_words_are_no_names`), although the lexer
reads `stateé` as a name that is spelt `state`, and an illegal character.

1. Such a name is always followed by that illegal token (`Lexer.isName_or_illegal_of_next`), and the
   grammar has no illegal tokens. So the tokens of a file are proper ones
   (`proper_of_mem_tokens`).
2. A tree that is read off proper tokens is proper, rule by rule (`Grammar.proper_fileOf`).
-/

namespace EventMachine

open Source

/-! ## Tokens -/

/-- The illegal token of a character directly behind the token. -/
def Token.illegalAfter (t : Token) (c : Char) : Token :=
  ⟨.illegal, String.ofList [c], ⟨t.location.line, t.location.stop, c.utf8Size⟩⟩

/-- Names are proper, and floating-point numbers decimals. -/
structure Token.Proper (t : Token) : Prop where
  name : t.kind = .identifier → IsName t.text
  decimal : t.kind = .float → IsDecimal t.text.toList

namespace Lexer

variable {lexer : Lexer} {c : Char} {rest : List Char}

/-- A word character above U+007F is an illegal token. -/
theorem next_of_wide (lexer : Lexer) (hword : Text.isWord c = true) (hc : 128 ≤ c.toNat)
    (hrest : lexer.rest = c :: rest) :
    lexer.next.token = ⟨.illegal, String.ofList [c], ⟨lexer.line, lexer.offset, c.utf8Size⟩⟩ := by
  have hnext : nextLexeme? lexer.offset lexer.rest = some ⟨.illegal, lexer.offset, [c], rest⟩ := by
    rw [hrest]
    exact nextLexeme?_of_illegal
      (firstMatch?_eq_none_of_le hc (not_isWhiteSpace_of_isWord hword) rest)
  rw [next_of_some hnext]
  rfl

/-- What is read as a name is one, or a reserved word with an illegal token directly behind it. -/
theorem isName_or_illegal_of_next (h : lexer.next.token.kind = .identifier) :
    IsName lexer.next.token.text ∨ lexer.next.token.text ∈ keywords ++ truthWords ∧
      ∃ c, Text.isWord c = true ∧ 128 ≤ c.toNat ∧
        lexer.next.next.token = lexer.next.token.illegalAfter c := by
  obtain ⟨line, lexeme, -, hl, hnext⟩ := exists_lexeme_of_next (congrArg TokenKind.isTerminal h)
  rw [hnext] at h ⊢
  have hlexeme := isLexeme_of_nextLexeme? hl (h.trans_ne nofun)
  rw [show lexeme.kind = .identifier from h] at hlexeme
  rcases hlexeme.isName_or_reserved with hname | ⟨hreserved, c, hc, hword, hwide⟩
  · exact .inl hname
  · obtain ⟨rest, hrest⟩ := List.head?_eq_some_iff.1 hc
    exact .inr ⟨hreserved, c, hword, hwide,
      (line.past lexeme).next_of_wide hword hwide hrest⟩

/-- A reserved word before a word character above U+007F is read as a name. -/
theorem next_of_reserved {word : String} (hmem : word ∈ keywords ++ truthWords)
    (hword : Text.isWord c = true) (hc : 128 ≤ c.toNat)
    (hrest : lexer.rest = word.toList ++ c :: rest) :
    lexer.next.token.word = ⟨.identifier, word⟩ ∧
      lexer.next.next.token = lexer.next.token.illegalAfter c := by
  obtain ⟨hstart, hpart⟩ := written_of_reserved word hmem
  have hlexeme : IsLexeme .identifier word.toList (c :: rest) := by
    refine .identifier hstart hpart ?_ fun _ => ⟨c, rfl, hword⟩
    rintro _ ⟨⟩
    rw [← Bool.not_eq_true]
    intro h
    have := toNat_of_isNamePart h
    omega
  have hnext : nextLexeme? lexer.offset lexer.rest =
      some ⟨.identifier, lexer.offset, word.toList, c :: rest⟩ := by
    rw [hrest, nextLexeme?_of_token hlexeme.firstMatch?_eq, List.take_left, List.drop_left]
  rw [next_of_some hnext]
  refine ⟨?_, (lexer.past _).next_of_wide hword hc rfl⟩
  show Token.Word.mk .identifier (String.ofList word.toList) = _
  rw [String.ofList_toList]

end Lexer

/-! ## Trees -/

namespace Syntax

open Pattern

variable {P : Token → Prop}

namespace Pattern

/-- All tokens of the derivation have the property. -/
def ForAll (P : Token → Prop) (p : Pattern) (d : p.Tree) : Prop := ∀ t ∈ p.tokens d, P t

section Combining

variable {p q : Pattern} {s : Terminal}

theorem forAll_terminal {t : (terminal s).Tree} : (terminal s).ForAll P t ↔ P t.1 :=
  List.forall_mem_singleton

theorem forAll_both {d : (both p q).Tree} :
    (both p q).ForAll P d ↔ p.ForAll P d.1 ∧ q.ForAll P d.2 :=
  List.forall_mem_append

theorem forAll_inl {d : p.Tree} : (either p q).ForAll P (.inl d) ↔ p.ForAll P d := Iff.rfl

theorem forAll_inr {d : q.Tree} : (either p q).ForAll P (.inr d) ↔ q.ForAll P d := Iff.rfl

theorem forAll_some {d : p.Tree} : (maybe p).ForAll P (some d) ↔ p.ForAll P d := Iff.rfl

theorem forAll_many {ds : (many p).Tree} :
    (many p).ForAll P ds ↔ ∀ d ∈ (ds : List p.Tree), p.ForAll P d := by
  show (∀ t ∈ List.flatMap p.tokens ds, P t) ↔ _
  simp only [List.mem_flatMap]
  exact ⟨fun h d hd t ht => h t ⟨d, hd, ht⟩, fun h t ⟨d, hd, ht⟩ => h d hd t ht⟩

end Combining

end Pattern

namespace Grammar

section Lists

variable {α : Type} {p : Pattern} {item : p.Tree → α} {Q : α → Prop}

theorem forall_separatedOf (h : ∀ d, p.ForAll P d → Q (item d)) {s : Terminal}
    {d : (separated s p).Tree} (hd : (separated s p).ForAll P d) :
    ∀ a ∈ separatedOf item d, Q a := by
  obtain ⟨first, rest⟩ := d
  obtain ⟨hfirst, hrest⟩ := forAll_both.1 hd
  have hitems := forAll_many.1 hrest
  refine List.forall_mem_cons.2 ⟨h first hfirst, List.forall_mem_map.2 fun d hd => ?_⟩
  exact h d.2 (forAll_both.1 (hitems d hd)).2

theorem forall_parenthesisedOf (h : ∀ d, p.ForAll P d → Q (item d))
    {d : (parenthesised p).Tree} (hd : (parenthesised p).ForAll P d) :
    ∀ a ∈ parenthesisedOf item d, Q a := by
  rcases d with _ | ⟨opening, _ | ⟨d, ds, last⟩, closing⟩
  · exact nofun
  · exact nofun
  · obtain ⟨-, hlist⟩ := forAll_both.1 (forAll_some.1 hd)
    obtain ⟨hfirst, hrest⟩ := forAll_both.1 (forAll_some.1 (forAll_both.1 hlist).1)
    refine forall_separatedOf h (s := .mark ",") (d := (d, ds)) ?_
    exact forAll_both.2 ⟨hfirst, (forAll_both.1 hrest).1⟩

end Lists

theorem proper_exprOf (d : value.Tree) (h : value.ForAll Token.Proper d) : (exprOf d).Proper := by
  rcases d with t | t | t | t | t
  · trivial
  · trivial
  · obtain ⟨x, hx⟩ := Option.isSome_iff_exists.1 t.2.2
    rw [exprOf_float t hx]
    exact ⟨t.1.text, (forAll_terminal.1 h).decimal t.2.1, hx⟩
  · trivial
  · exact (forAll_terminal.1 h).name t.2

theorem isName_of_identifier {d : identifier.Tree} (h : identifier.ForAll Token.Proper d) :
    IsName d.1.text :=
  (forAll_terminal.1 h).name d.2

theorem proper_assignedOf {d : assigned.Tree} (h : assigned.ForAll Token.Proper d) :
    ∀ e ∈ assignedOf d, e.Proper := by
  cases d with
  | none => exact nofun
  | some d =>
    rintro _ ⟨⟩
    exact proper_exprOf d.2 (forAll_both.1 (forAll_some.1 h)).2

theorem proper_paramOf (d : param.Tree) (h : param.ForAll Token.Proper d) : (paramOf d).Proper := by
  obtain ⟨hname, hvalue⟩ := forAll_both.1 h
  exact ⟨isName_of_identifier hname, proper_assignedOf hvalue⟩

theorem proper_argOf (d : arg.Tree) (h : arg.ForAll Token.Proper d) : (argOf d).Proper := by
  obtain ⟨hname, hvalue⟩ := forAll_both.1 h
  refine ⟨isName_of_identifier hname, ?_⟩
  show ((assignedOf d.2).getD (.ref d.1.1.text)).Proper
  cases hassigned : assignedOf d.2 with
  | none => exact isName_of_identifier hname
  | some e => exact proper_assignedOf hvalue e hassigned

theorem proper_conditionOf (d : condition.Tree) (h : condition.ForAll Token.Proper d) :
    (conditionOf d).Proper := by
  obtain ⟨hname, hparams⟩ := forAll_both.1 h
  exact ⟨isName_of_identifier hname, forall_parenthesisedOf proper_paramOf hparams⟩

theorem proper_callOf (d : call.Tree) (h : call.ForAll Token.Proper d) : (callOf d).Proper := by
  obtain ⟨hname, hargs⟩ := forAll_both.1 h
  exact ⟨isName_of_identifier hname, forall_parenthesisedOf proper_argOf hargs⟩

theorem proper_actionOf (d : action.Tree) (h : action.ForAll Token.Proper d) :
    (actionOf d).Proper := by
  cases d with
  | inl d => exact isName_of_identifier (forAll_both.1 (forAll_inl.1 h)).2
  | inr d => exact proper_callOf d (forAll_inr.1 h)

theorem proper_actionsOf (d : init.Tree) (h : init.ForAll Token.Proper d) :
    ∀ s ∈ actionsOf d, s.Proper :=
  forall_separatedOf proper_actionOf (forAll_both.1 h).1

theorem proper_triggerOf (d : trigger.Tree) (h : trigger.ForAll Token.Proper d) :
    (triggerOf d).Proper := by
  obtain ⟨-, hrest⟩ := forAll_both.1 h
  obtain ⟨hconditions, hrest⟩ := forAll_both.1 hrest
  exact ⟨forall_separatedOf proper_conditionOf hconditions, List.cons_ne_nil _ _,
    proper_actionsOf _ (forAll_both.1 hrest).2, List.cons_ne_nil _ _⟩

theorem proper_initOf {d : (Pattern.maybe init).Tree}
    (h : (Pattern.maybe init).ForAll Token.Proper d) : ∀ s ∈ initOf d, s.Proper := by
  cases d with
  | none => exact nofun
  | some d => exact proper_actionsOf d (forAll_some.1 h)

theorem proper_definitionOf (d : definition.Tree) (h : definition.ForAll Token.Proper d) :
    (definitionOf d).Proper := by
  obtain ⟨hname, hrest⟩ := forAll_both.1 h
  obtain ⟨-, hrest⟩ := forAll_both.1 hrest
  obtain ⟨hinit, hrest⟩ := forAll_both.1 hrest
  have htriggers := forAll_many.1 (forAll_both.1 (forAll_both.1 hrest).1).1
  exact ⟨isName_of_identifier hname, proper_initOf hinit,
    List.forall_mem_map.2 fun d hd => proper_triggerOf d (htriggers d hd)⟩

theorem proper_entryOf (d : entry.Tree) (h : entry.ForAll Token.Proper d) :
    (entryOf d).Proper := by
  rcases d with d | d
  · exact proper_definitionOf d.2 (forAll_both.1 (forAll_inl.1 h)).2
  · obtain ⟨hname, hrest⟩ := forAll_both.1 (forAll_inr.1 h)
    obtain ⟨-, hrest⟩ := forAll_both.1 hrest
    exact ⟨isName_of_identifier hname, proper_exprOf _ (forAll_both.1 hrest).1⟩

theorem proper_fileOf (d : file.Tree) (h : file.ForAll Token.Proper d) : (fileOf d).Proper := by
  have hentries := forAll_many.1 h
  exact List.forall_mem_map.2 fun d hd => proper_entryOf d (hentries d hd)

/-- No rule has an illegal token. -/
theorem kind_ne_illegal_of_mem_tokens {d : file.Tree} {t : Token} (h : t ∈ file.tokens d) :
    t.kind ≠ .illegal := by
  have hkinds : ∀ s ∈ file.terminals, ∀ k ∈ s.kinds, k ≠ .illegal := by
    decide +kernel
  obtain ⟨s, hs, ht⟩ := exists_matches_of_mem_tokens h
  exact hkinds s hs t.kind ht.mem_kinds

end Grammar

/-! ## Trees of sources -/

theorem file_eq_ok_of_parse {filename : String} {lexer : Lexer} {tree : File}
    (h : (parse filename lexer).1 = .ok tree) : file lexer.run.1 = .ok tree := by
  change parseTokens filename lexer.run.1 lexer.run.2.token lexer.run.2.failure = .ok tree at h
  unfold parseTokens at h
  split at h
  · cases h
  · next hfile =>
    split at h
    · cases h
    · rw [hfile, Except.ok.inj h]

/-- The tokens of a source are proper if none of them is illegal. -/
theorem proper_of_mem_run {r : Reader} (h : ∀ t ∈ (Lexer.ofReader r).run.1, t.kind ≠ .illegal) :
    ∀ t ∈ (Lexer.ofReader r).run.1, t.Proper := by
  intro t ht
  obtain ⟨before, after, hrun⟩ := List.append_of_mem ht
  obtain ⟨lexer, rfl, hkind, rfl⟩ := Lexer.exists_next_of_run hrun
  refine ⟨fun hname => ?_, fun hfloat => ?_⟩
  · rcases Lexer.isName_or_illegal_of_next hname with hname | ⟨-, c, -, -, hillegal⟩
    · exact hname
    · have hnext : lexer.next.next.token.kind = .illegal := congrArg Token.kind hillegal
      refine (h lexer.next.next.token ?_ hnext).elim
      rw [hrun, Lexer.run_eq_cons (congrArg TokenKind.isTerminal hnext)]
      exact List.mem_append_right _ (List.mem_cons_of_mem _ List.mem_cons_self)
  · have hlexeme := Lexer.isLexeme_of_next hkind (hfloat.trans_ne nofun)
    rw [hfloat] at hlexeme
    exact hlexeme.isDecimal

/-- Reserved words are no names. Every name in a syntax tree is a letter or an underscore and then
letters, digits and underscores, and is no reserved word and no truth value; whatever parts the
source is delivered in. A token that is read as a name, and is none, is spelt like a reserved word,
and a word character above U+007F directly behind it is an illegal token. Before such a character
every reserved word is read so. -/
theorem reserved_words_are_no_names (r : Reader) (filename : String) :
    (∀ tree, (parse filename (.ofReader r)).1 = .ok tree → tree.Proper) ∧
    (∀ before t after, (Lexer.ofReader r).run.1 = before ++ t :: after → t.kind = .identifier →
      IsName t.text ∨ t.text ∈ keywords ++ truthWords ∧
        ∃ c, Text.isWord c = true ∧ 128 ≤ c.toNat ∧ after.head? = some (t.illegalAfter c)) ∧
    ∀ word ∈ keywords ++ truthWords, ∀ c, Text.isWord c = true → 128 ≤ c.toNat →
      ∀ (lexer : Lexer) (rest : List Char), lexer.rest = word.toList ++ c :: rest →
        lexer.next.token.word = ⟨.identifier, word⟩ ∧
          lexer.next.next.token = lexer.next.token.illegalAfter c := by
  refine ⟨fun tree h => ?_, fun before t after hrun hkind => ?_, fun word hmem c hword hc _ _ =>
    Lexer.next_of_reserved hmem hword hc⟩
  · have hfile := file_eq_ok_of_parse h
    obtain ⟨d, hd, rfl⟩ := file_eq_ok_iff.1 hfile
    have hlegal : ∀ t ∈ (Lexer.ofReader r).run.1, t.kind ≠ .illegal := fun t ht =>
      Grammar.kind_ne_illegal_of_mem_tokens (hd ▸ ht)
    exact Grammar.proper_fileOf d fun t ht => proper_of_mem_run hlegal t (hd ▸ ht)
  · obtain ⟨lexer, rfl, -, rfl⟩ := Lexer.exists_next_of_run hrun
    rcases Lexer.isName_or_illegal_of_next hkind with hname | ⟨hmem, c, hword, hc, hillegal⟩
    · exact .inl hname
    · refine .inr ⟨hmem, c, hword, hc, ?_⟩
      rw [Lexer.run_eq_cons (congrArg (·.kind.isTerminal) hillegal), hillegal]
      rfl

example : (Lexer.ofText "stateé").run.1 =
    [⟨.identifier, "state", ⟨1, 0, 5⟩⟩, ⟨.illegal, "é", ⟨1, 5, 2⟩⟩] := by
  rw [(Lexer.run_ofText_eq _).1]
  decide +kernel

end Syntax

end EventMachine
