import EventMachine.Proofs.Lexer.Coverage

/-!
# What the rules read

The rules read exactly the lexemes (`firstMatch?_eq_some_iff`). So it can be told from a text alone
whether a token begins it, and which.

1. Where a rule for tokens matches, some lexeme begins (`exists_isLexeme_of_rule`). It need not be
   of the kind of that rule: the digits before a point match the rule of whole numbers too.
2. A lexeme depends on the first character after it only (`IsLexeme.of_after`), and it does not end
   in white space (`IsLexeme.not_isWhiteSpace_of_getLast?`).
3. No token begins with a character above U+007F (`firstMatch?_eq_none_of_le`).
-/

namespace EventMachine

open Source Rule

variable {c : Char} {cs after after' : List Char} {kind : TokenKind} {n : Nat}

/-! ## Where a rule matches -/

/-- A lexeme begins the text. -/
def BeginsLexeme (cs : List Char) : Prop :=
  ∃ kind text after, cs = text ++ after ∧ IsLexeme kind text after

theorem exists_of_arrowLength (h : 0 < arrowLength cs) : BeginsLexeme cs := by
  unfold arrowLength at h
  split at h
  · next after => exact ⟨_, _, after, rfl, .arrow⟩
  · cases h

theorem exists_of_punctLength (h : 0 < punctLength cs) : BeginsLexeme cs := by
  unfold punctLength at h
  split at h
  · next c after =>
    split at h
    · next hc => exact ⟨_, [c], after, rfl, .punct hc⟩
    · cases h
  · cases h

/-- What is read up to the quote is the body of a string. -/
theorem exists_isStringBody (h : stringBodyLength? cs = some n) :
    ∃ body after, cs = body ++ '"' :: after ∧ IsStringBody body := by
  fun_induction stringBodyLength? cs generalizing n with
  | case1 => cases h
  | case2 => cases h
  | case3 c cs hc ih =>
    obtain ⟨m, hm, -⟩ := Option.map_eq_some_iff.1 h
    obtain ⟨body, after, rfl, hbody⟩ := ih hm
    exact ⟨'\\' :: c :: body, after, rfl, hbody.escaped hc⟩
  | case4 => cases h
  | case5 => exact ⟨[], _, rfl, isStringBody_nil⟩
  | case6 c cs _ hescape hlast hq ih =>
    obtain ⟨m, hm, -⟩ := Option.map_eq_some_iff.1 h
    obtain ⟨body, after, rfl, hbody⟩ := ih hm
    have hback : c ≠ '\\' := by
      intro hc
      cases hrest : body ++ '"' :: after with
      | nil => exact hlast hc hrest
      | cons d ds => exact hescape d ds hc hrest
    exact ⟨c :: body, after, rfl, hbody.cons hback hq⟩

theorem exists_of_stringLength (h : 0 < stringLength cs) : BeginsLexeme cs := by
  unfold stringLength at h
  split at h
  · next cs =>
    split at h
    · next n hn =>
      obtain ⟨body, after, rfl, hbody⟩ := exists_isStringBody hn
      exact ⟨_, '"' :: body ++ ['"'], after, by simp, .string hbody⟩
    · cases h
  · cases h

theorem exists_isNumeral (h : 0 < intLength cs) :
    ∃ text after, cs = text ++ after ∧ IsNumeral text ∧
      ∀ c ∈ after.head?, Number.isDigit c = false := by
  have hsign : cs.take (signLength cs) ∈ [[], ['+'], ['-']] := by
    unfold signLength
    split
    · split
      · next hc => simpa using hc
      · simp
    · simp
  let rest := cs.drop (signLength cs)
  have hdigits : rest.take (span Number.isDigit rest) ≠ [] := by
    intro hnil
    have hzero : span Number.isDigit rest = 0 := by
      rw [take_span] at hnil
      unfold span
      rw [hnil]
      rfl
    unfold intLength at h
    simp only [show cs.drop (signLength cs) = rest from rfl, hzero, if_true] at h
    exact Nat.lt_irrefl 0 h
  refine ⟨cs.take (signLength cs) ++ rest.take (span Number.isDigit rest),
    rest.drop (span Number.isDigit rest), ?_, .mk _ _ hsign hdigits fun _ => of_mem_take_span,
    fun _ => of_mem_head?_drop_span⟩
  rw [List.append_assoc, List.take_append_drop, List.take_append_drop]

/-- Digits are the beginning of a number, with a point or without one. -/
theorem exists_of_intLength (h : 0 < intLength cs) : BeginsLexeme cs := by
  obtain ⟨text, after, rfl, htext, hafter⟩ := exists_isNumeral h
  by_cases hpoint : after.head? = some '.'
  · obtain ⟨places, rfl⟩ := List.head?_eq_some_iff.1 hpoint
    refine ⟨_, text ++ '.' :: places.take (span Number.isDigit places),
      places.drop (span Number.isDigit places), ?_,
      .float (.mk text _ htext fun _ => of_mem_take_span) fun _ => of_mem_head?_drop_span⟩
    rw [List.append_assoc, List.cons_append, List.take_append_drop]
  · refine ⟨_, text, after, rfl, .int htext fun c hc => ⟨hafter c hc, ?_⟩⟩
    rintro rfl
    exact hpoint hc

theorem exists_of_floatLength (h : 0 < floatLength cs) : BeginsLexeme cs :=
  exists_of_intLength (Nat.pos_of_ne_zero fun hzero =>
    Nat.lt_irrefl 0 (floatLength_of_intLength hzero ▸ h))

theorem exists_word {words : List String} (h : 0 < wordLength words cs) :
    ∃ word ∈ words, ∃ after, cs = word.toList ++ after ∧
      ∀ c ∈ after.head?, Text.isWord c = false := by
  unfold wordLength at h
  split at h
  · next word hword =>
    have hprefix : word.toList.isPrefixOf cs = true :=
      List.find?_some (p := fun w : String => w.toList.isPrefixOf cs) hword
    obtain ⟨after, rfl⟩ := List.isPrefixOf_iff_prefix.1 hprefix
    refine ⟨word, List.mem_of_find?_eq_some hword, after, rfl, fun c hc => ?_⟩
    obtain ⟨rest, rfl⟩ := List.head?_eq_some_iff.1 hc
    rw [← String.length_toList, List.drop_left] at h
    dsimp only at h
    split at h
    · cases h
    · next hw => exact Bool.eq_false_iff.2 hw
  · cases h

theorem exists_of_nameLength (h : 0 < nameLength cs) : BeginsLexeme cs := by
  unfold nameLength at h
  split at h
  · next c cs =>
    split at h
    · next hc =>
      let name := String.ofList (c :: cs.take (span isNamePart cs))
      let after := cs.drop (span isNamePart cs)
      have htext : name.toList = c :: cs.take (span isNamePart cs) := String.toList_ofList
      have happend : c :: cs = name.toList ++ after := by
        rw [htext, List.cons_append, List.take_append_drop]
      have hafter : ∀ d ∈ after.head?, isNamePart d = false := fun _ => of_mem_head?_drop_span
      have hstart : name.toList.head?.any isNameStart = true := by
        rw [htext]
        exact hc
      have hpart : name.toList.all isNamePart = true := by
        rw [htext, List.all_cons, isNamePart_of_isNameStart hc, List.all_eq_true.2]
        · rfl
        · exact fun _ => of_mem_take_span
      rw [happend]
      by_cases hword : ∃ d ∈ after.head?, Text.isWord d = true
      · exact ⟨_, _, _, rfl, .identifier hstart hpart hafter fun _ => hword⟩
      · have hend : ∀ d ∈ after.head?, Text.isWord d = false := fun d hd =>
          Bool.eq_false_iff.2 fun h => hword ⟨d, hd, h⟩
        by_cases hkeyword : name ∈ keywords
        · exact ⟨_, _, _, rfl, .keyword hkeyword hend⟩
        · by_cases htruth : name ∈ truthWords
          · exact ⟨_, _, _, rfl, .bool htruth hend⟩
          · refine ⟨_, _, _, rfl, .identifier hstart hpart hafter fun hmem => ?_⟩
            exact ((List.mem_append.1 hmem).elim hkeyword htruth).elim
    · cases h
  · cases h

/-- Where a rule for tokens matches, a lexeme begins. -/
theorem exists_isLexeme_of_rule : ∀ rule ∈ rules, rule.kind ≠ none → 0 < rule.matchLength cs →
    BeginsLexeme cs := by
  have hword {words : List String} {kind : TokenKind}
      (h : ∀ {word after}, word ∈ words → (∀ c ∈ after.head?, Text.isWord c = false) →
        IsLexeme kind word.toList after) (hpos : 0 < wordLength words cs) : BeginsLexeme cs := by
    obtain ⟨word, hmem, after, heq, hafter⟩ := exists_word hpos
    exact ⟨kind, word.toList, after, heq, h hmem hafter⟩
  simp only [rules, List.forall_mem_cons]
  exact ⟨fun h => (h rfl).elim, fun h => (h rfl).elim, fun _ => exists_of_arrowLength,
    fun _ => exists_of_punctLength, fun _ => exists_of_stringLength, fun _ => exists_of_floatLength,
    fun _ => exists_of_intLength, fun _ => hword .bool, fun _ => hword .keyword,
    fun _ => exists_of_nameLength, List.forall_mem_nil _⟩

/-! ## The lexemes are what is read -/

theorem beginsLexeme_of_firstMatch? (h : firstMatch? rules cs = some (some kind, n)) :
    BeginsLexeme cs := by
  obtain ⟨rule, hrule, hr⟩ := List.exists_of_findSome?_eq_some h
  dsimp only at hr
  split at hr
  · next hpos =>
    refine exists_isLexeme_of_rule rule hrule (fun hnone => ?_) hpos
    cases hnone.symm.trans (Prod.mk.inj (Option.some.inj hr)).1
  · cases hr

/-- The rules read a token from a text exactly if it begins with that lexeme. -/
theorem firstMatch?_eq_some_iff : firstMatch? rules cs = some (some kind, n) ↔
    ∃ text after, cs = text ++ after ∧ n = text.length ∧ IsLexeme kind text after := by
  constructor
  · intro h
    obtain ⟨kind', text, after, rfl, hlexeme⟩ := beginsLexeme_of_firstMatch? h
    cases h.symm.trans hlexeme.firstMatch?_eq
    exact ⟨text, after, rfl, rfl, hlexeme⟩
  · rintro ⟨text, after, rfl, rfl, hlexeme⟩
    exact hlexeme.firstMatch?_eq

/-! ## The text of a lexeme -/

/-- The character is a visible one of ASCII, and no backslash. -/
def IsMark (c : Char) : Prop := 32 < c.toNat ∧ c.toNat < 127 ∧ c ≠ '\\'

instance (c : Char) : Decidable (IsMark c) := inferInstanceAs (Decidable (_ ∧ _))

theorem isMark_of_isNamePart (h : isNamePart c = true) : IsMark c := by
  have hc := toNat_of_isNamePart h
  refine ⟨by omega, by omega, ?_⟩
  rintro rfl
  simp at hc

theorem isNamePart_of_isDigit (h : Number.isDigit c = true) : isNamePart c = true := by
  have hdigit : c.isDigit = true := by
    simpa [Number.isDigit, Char.isDigit, Char.le_def] using h
  unfold isNamePart Char.isAlphanum
  rw [hdigit, Bool.or_true, Bool.true_or]

theorem IsNumeral.isMark (h : IsNumeral cs) : ∀ c ∈ cs, IsMark c := by
  obtain ⟨sign, digits, hsign, -, hdigits⟩ := h
  simp only [List.mem_cons, List.not_mem_nil, or_false] at hsign
  intro c hc
  rcases List.mem_append.1 hc with hc | hc
  · rcases hsign with rfl | rfl | rfl
    · cases hc
    · rw [List.mem_singleton.1 hc]
      decide
    · rw [List.mem_singleton.1 hc]
      decide
  · exact isMark_of_isNamePart (isNamePart_of_isDigit (hdigits c hc))

theorem IsDecimal.isMark (h : IsDecimal cs) : ∀ c ∈ cs, IsMark c := by
  obtain ⟨whole, places, hwhole, hplaces⟩ := h
  intro c hc
  rcases List.mem_append.1 hc with hc | hc
  · exact hwhole.isMark c hc
  · rcases List.mem_cons.1 hc with rfl | hc
    · decide
    · exact isMark_of_isNamePart (isNamePart_of_isDigit (hplaces c hc))

/-- A string has its quotes; any other token is made of marks. -/
theorem IsLexeme.text_cases (h : IsLexeme kind cs after) :
    (∃ body, cs = '"' :: body ++ ['"'] ∧ IsStringBody body) ∨ cs ≠ [] ∧ ∀ c ∈ cs, IsMark c := by
  have hname {name : String} (hstart : name.toList.head?.any isNameStart = true)
      (hpart : name.toList.all isNamePart = true) :
      name.toList ≠ [] ∧ ∀ c ∈ name.toList, IsMark c :=
    ⟨List.ne_nil_of_length_pos (length_pos_of_start hstart),
      fun c hc => isMark_of_isNamePart (List.all_eq_true.1 hpart c hc)⟩
  cases h with
  | arrow =>
    refine .inr ⟨List.cons_ne_nil _ _, fun c hc => ?_⟩
    simp only [List.mem_cons, List.not_mem_nil, or_false] at hc
    rcases hc with rfl | rfl <;> decide
  | @punct c _ hc =>
    refine .inr ⟨List.cons_ne_nil c [], fun d hd => ?_⟩
    rw [List.mem_singleton.1 hd]
    simp only [isPunct, List.mem_cons, List.not_mem_nil, or_false, decide_eq_true_eq] at hc
    rcases hc with rfl | rfl | rfl | rfl | rfl | rfl | rfl <;> decide
  | string hbody => exact .inl ⟨_, rfl, hbody⟩
  | float hcs => exact .inr ⟨List.ne_nil_of_length_pos hcs.length_pos, hcs.isMark⟩
  | int hcs => exact .inr ⟨List.ne_nil_of_length_pos hcs.length_pos, hcs.isMark⟩
  | @bool word _ hword =>
    obtain ⟨hstart, hpart⟩ := written_of_reserved word (List.mem_append_right _ hword)
    exact .inr (hname hstart hpart)
  | @keyword word _ hword =>
    obtain ⟨hstart, hpart⟩ := written_of_reserved word (List.mem_append_left _ hword)
    exact .inr (hname hstart hpart)
  | identifier hstart hpart => exact .inr (hname hstart hpart)

theorem IsLexeme.ne_nil (h : IsLexeme kind cs after) : cs ≠ [] := by
  rcases h.text_cases with ⟨body, rfl, -⟩ | ⟨hne, -⟩
  · exact List.cons_ne_nil _ _
  · exact hne

theorem IsLexeme.toNat_head_lt (h : IsLexeme kind (c :: cs) after) : c.toNat < 128 := by
  rcases h.text_cases with ⟨body, heq, -⟩ | ⟨-, hmarks⟩
  · rw [(List.cons.inj heq).1]
    decide
  · have := (hmarks c List.mem_cons_self).2.1
    omega

/-- No token ends in white space. -/
theorem IsLexeme.not_isWhiteSpace_of_getLast? (h : IsLexeme kind cs after)
    (hc : c ∈ cs.getLast?) : Text.isWhiteSpace c = false := by
  rcases h.text_cases with ⟨body, rfl, -⟩ | ⟨-, hmarks⟩
  · rw [List.getLast?_concat] at hc
    cases hc
    decide
  · obtain ⟨hlow, hhigh, -⟩ := hmarks c (List.mem_of_getLast? hc)
    exact not_isWhiteSpace ⟨hlow, hhigh⟩

/-! ## What follows a lexeme -/

/-- White space is not part of words. -/
theorem not_isWord_of_isWhiteSpace (h : Text.isWhiteSpace c = true) : Text.isWord c = false := by
  have hall : ∀ n ∈ List.range' 9 5 ++ List.range' 0x2000 11 ++
      [0x20, 0x85, 0xA0, 0x1680, 0x2028, 0x2029, 0x202F, 0x205F, 0x3000],
      Text.isWord (Char.ofNat n) = false := by
    decide +kernel
  rw [← Char.ofNat_toNat c]
  refine hall c.toNat ?_
  simp only [Text.isWhiteSpace, Bool.or_eq_true, Bool.and_eq_true, decide_eq_true_eq,
    beq_iff_eq] at h
  simp only [List.mem_append, List.mem_range'_1, List.mem_cons, List.not_mem_nil, or_false]
  omega

theorem not_isWhiteSpace_of_isWord (h : Text.isWord c = true) : Text.isWhiteSpace c = false := by
  rw [← Bool.not_eq_true]
  intro hspace
  rw [not_isWord_of_isWhiteSpace hspace] at h
  cases h

/-- A character that is neither part of a word nor a point ends every word and number. -/
theorem IsLexeme.of_after (h : IsLexeme kind cs after)
    (hname : kind = .identifier → IsName (String.ofList cs))
    (hafter : ∀ c ∈ after'.head?, Text.isWord c = false ∧ c ≠ '.') : IsLexeme kind cs after' := by
  have hword : ∀ c ∈ after'.head?, Text.isWord c = false := fun c hc => (hafter c hc).1
  have hpart : ∀ c ∈ after'.head?, isNamePart c = false := fun c hc =>
    not_isNamePart_of_not_isWord (hword c hc)
  have hdigit : ∀ c ∈ after'.head?, Number.isDigit c = false := fun c hc =>
    Bool.eq_false_iff.2 fun h => Bool.eq_false_iff.1 (hpart c hc) (isNamePart_of_isDigit h)
  cases h with
  | arrow => exact .arrow
  | punct hc => exact .punct hc
  | string hbody => exact .string hbody
  | float hcs => exact .float hcs hdigit
  | int hcs => exact .int hcs fun c hc => ⟨hdigit c hc, (hafter c hc).2⟩
  | bool hmem => exact .bool hmem hword
  | keyword hmem => exact .keyword hmem hword
  | identifier hstart hparts =>
    refine .identifier hstart hparts hpart fun hreserved => ?_
    have hfree := (hname rfl).free
    rw [String.ofList_toList] at hfree
    exact (hfree hreserved).elim

/-- Only the first character after a lexeme counts. -/
theorem IsLexeme.of_head?_eq (h : IsLexeme kind cs after) (hhead : after'.head? = after.head?) :
    IsLexeme kind cs after' := by
  cases h with
  | arrow => exact .arrow
  | punct hc => exact .punct hc
  | string hbody => exact .string hbody
  | float hcs hafter => exact .float hcs (hhead ▸ hafter)
  | int hcs hafter => exact .int hcs (hhead ▸ hafter)
  | bool hmem hafter => exact .bool hmem (hhead ▸ hafter)
  | keyword hmem hafter => exact .keyword hmem (hhead ▸ hafter)
  | identifier hstart hparts hafter hreserved =>
    exact .identifier hstart hparts (hhead ▸ hafter) (hhead ▸ hreserved)

/-- A reserved word is read as a name only where a word character above U+007F follows it. -/
theorem IsLexeme.isName_or_reserved (h : IsLexeme .identifier cs after) :
    IsName (String.ofList cs) ∨ String.ofList cs ∈ keywords ++ truthWords ∧
      ∃ c ∈ after.head?, Text.isWord c = true ∧ 128 ≤ c.toNat := by
  cases h with
  | @identifier name _ hstart hpart hafter hreserved =>
    rw [String.ofList_toList]
    by_cases hname : name ∈ keywords ++ truthWords
    · obtain ⟨c, hc, hword⟩ := hreserved hname
      refine .inr ⟨hname, c, hc, hword, Nat.le_of_not_lt fun hlt => ?_⟩
      unfold Text.isWord at hword
      rw [if_pos hlt] at hword
      exact Bool.eq_false_iff.1 (hafter c hc) hword
    · exact .inl ⟨hstart, hpart, hname⟩

theorem IsLexeme.isDecimal (h : IsLexeme .float cs after) : IsDecimal cs := by
  cases h
  assumption

theorem IsLexeme.isNumeral (h : IsLexeme .int cs after) : IsNumeral cs := by
  cases h
  assumption

theorem IsLexeme.exists_body (h : IsLexeme .string cs after) :
    ∃ body, cs = '"' :: body ++ ['"'] ∧ IsStringBody body := by
  cases h
  exact ⟨_, rfl, by assumption⟩

/-! ## Where nothing is read -/

theorem firstMatch?_of_forall_eq_zero (h : ∀ rule ∈ rules, rule.matchLength cs = 0) :
    firstMatch? rules cs = none := by
  refine List.findSome?_eq_none_iff.2 fun rule hrule => ?_
  simp only [h rule hrule, Nat.lt_irrefl, if_false]

/-- No rule matches at a character exactly if it is not blank and begins no lexeme. -/
theorem firstMatch?_eq_none_iff : firstMatch? rules (c :: cs) = none ↔
    Text.isWhiteSpace c = false ∧ c ≠ '#' ∧ ¬ BeginsLexeme (c :: cs) := by
  constructor
  · intro h
    have hzero := firstMatch?_eq_none h
    refine ⟨?_, ?_, ?_⟩
    · rw [← Bool.not_eq_true]
      intro hspace
      have hspan : span Text.isWhiteSpace (c :: cs) = 0 :=
        hzero ⟨none, span Text.isWhiteSpace⟩ (by simp [rules])
      unfold span at hspan
      rw [List.takeWhile_cons_of_pos hspace] at hspan
      cases hspan
    · rintro rfl
      have hcomment : 1 + span (· ≠ '\n') cs = 0 :=
        hzero ⟨none, commentLength⟩ (by simp [rules])
      omega
    · rintro ⟨kind, text, after, heq, hlexeme⟩
      rw [heq, hlexeme.firstMatch?_eq] at h
      cases h
  · rintro ⟨hspace, hcomment, hlexeme⟩
    cases h : firstMatch? rules (c :: cs) with
    | none => rfl
    | some found =>
      obtain ⟨_ | kind, n⟩ := found
      · have hpos := firstMatch?_pos h
        rcases cases_of_firstMatch?_none h with rfl | rfl
        · rw [span_cons_of_not hspace] at hpos
          cases hpos
        · rw [commentLength_cons hcomment] at hpos
          cases hpos
      · exact (hlexeme (beginsLexeme_of_firstMatch? h)).elim

/-- No rule matches at a character that is neither white space nor in ASCII. -/
theorem firstMatch?_eq_none_of_le (hc : 128 ≤ c.toNat) (hspace : Text.isWhiteSpace c = false)
    (cs : List Char) : firstMatch? rules (c :: cs) = none := by
  refine firstMatch?_eq_none_iff.2 ⟨hspace, ?_, ?_⟩
  · rintro rfl
    simp at hc
  · rintro ⟨kind, text, after, heq, hlexeme⟩
    obtain ⟨d, ds, rfl⟩ := List.exists_cons_of_ne_nil hlexeme.ne_nil
    obtain ⟨rfl, -⟩ := List.cons.inj heq
    have := hlexeme.toNat_head_lt
    omega

/-- A token of a line is a lexeme, or illegal. -/
theorem isLexeme_of_nextLexeme? {offset : Nat} {rest : List Char} {l : Lexeme}
    (h : nextLexeme? offset rest = some l) (hkind : l.kind ≠ .illegal) :
    IsLexeme l.kind l.text l.rest := by
  fun_induction nextLexeme? offset rest with
  | case1 => cases h
  | case2 _ _ _ _ _ ih => exact ih h
  | case3 offset rest _ kind n hm =>
    cases h
    obtain ⟨text, after, rfl, rfl, hlexeme⟩ := firstMatch?_eq_some_iff.1 hm
    rwa [List.take_left, List.drop_left]
  | case4 =>
    cases h
    exact (hkind rfl).elim

end EventMachine
