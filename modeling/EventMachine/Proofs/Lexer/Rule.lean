import EventMachine.Lexer.Rule

/-!
# How far the rules match

A lexeme is a text that is a token where it is followed by another text: a word that ends, a number
with all its digits, a string up to its quote (`IsLexeme`). The rules read it, and no more: the
rules before its own do not match (`firstMatch?_of_head`, `firstMatch?_of_start`), and its own ends
there (`IsLexeme.firstMatch?_eq`).

A word is a token as it is written. It stands when the rules read it before a space and at the end
of a text (`Token.Word.Stands`).
-/

namespace EventMachine

/-- A kind of tokens and a text. -/
structure Token.Word where
  kind : TokenKind
  text : String
deriving DecidableEq

/-- What a token is, without its place. -/
def Token.word (t : Token) : Token.Word := ⟨t.kind, t.text⟩

/-- The text is empty or begins with a space. -/
def Separates (after : List Char) : Prop := ∀ c ∈ after.head?, c = ' '

/-- The rules read the word from a text that begins with it, if a space or nothing follows. -/
def Token.Word.Stands (w : Token.Word) : Prop :=
  ∀ after, Separates after →
    firstMatch? rules (w.text.toList ++ after) = some (some w.kind, w.text.toList.length)

/-- The word can stand in a line: it is one token there, and has no newline in it. -/
structure Token.Word.Plain (w : Token.Word) : Prop where
  stands : w.Stands
  newline : '\n' ∉ w.text.toList

variable {c : Char} {cs after : List Char}

theorem separates_nil : Separates [] := nofun

theorem separates_space (cs : List Char) : Separates (' ' :: cs) := by
  rintro _ ⟨⟩
  rfl

theorem Separates.head? (h : Separates after) {p : Char → Bool} (hp : p ' ' = false) :
    ∀ c ∈ after.head?, p c = false := by
  intro c hc
  rw [h c hc, hp]

theorem Separates.cases (h : Separates after) : after = [] ∨ ∃ cs, after = ' ' :: cs := by
  cases after with
  | nil => exact .inl rfl
  | cons c cs => exact .inr ⟨cs, by rw [h c rfl]⟩

/-! ## One rule after the other -/

section Order

variable {kind : Option TokenKind} {length : List Char → Nat} {rules : List Rule} {n : Nat}

theorem firstMatch?_cons_of_eq_zero (h : length cs = 0) :
    firstMatch? (⟨kind, length⟩ :: rules) cs = firstMatch? rules cs := by
  unfold firstMatch?
  rw [List.findSome?_cons]
  simp only [h, Nat.lt_irrefl, if_false]

theorem firstMatch?_cons_of_eq (h : length cs = n) (hn : 0 < n) :
    firstMatch? (⟨kind, length⟩ :: rules) cs = some (kind, n) := by
  unfold firstMatch?
  rw [List.findSome?_cons]
  simp only [h, if_pos hn]

end Order

namespace Rule

theorem span_cons_of_not {p : Char → Bool} (h : p c = false) : span p (c :: cs) = 0 := by
  unfold span
  rw [List.takeWhile_cons_of_neg (Bool.not_eq_true _ ▸ h)]
  rfl

/-- A run of characters with a property ends where the property does. -/
theorem span_append {p : Char → Bool} (hcs : ∀ c ∈ cs, p c = true)
    (hafter : ∀ c ∈ after.head?, p c = false) : span p (cs ++ after) = cs.length := by
  unfold span
  rw [List.takeWhile_append_of_pos hcs]
  cases after with
  | nil => rw [List.takeWhile_nil, List.append_nil]
  | cons c after =>
    rw [List.takeWhile_cons_of_neg (by rw [hafter c rfl]; exact Bool.false_ne_true),
      List.append_nil]

theorem commentLength_cons (h : c ≠ '#') : commentLength (c :: cs) = 0 := by
  unfold commentLength
  split
  · next heq => exact (h (List.cons.inj heq).1).elim
  · rfl

theorem arrowLength_cons (h : c ≠ '-') : arrowLength (c :: cs) = 0 := by
  unfold arrowLength
  split
  · next heq => exact (h (List.cons.inj heq).1).elim
  · rfl

theorem punctLength_cons (h : isPunct c = false) : punctLength (c :: cs) = 0 := by
  show (if isPunct c = true then 1 else 0) = 0
  rw [h]
  rfl

theorem stringLength_cons (h : c ≠ '"') : stringLength (c :: cs) = 0 := by
  unfold stringLength
  split
  · next heq => exact (h (List.cons.inj heq).1).elim
  · rfl

end Rule

open Rule

theorem not_isWhiteSpace (hc : 32 < c.toNat ∧ c.toNat < 127) : Text.isWhiteSpace c = false := by
  rw [← Bool.not_eq_true]
  simp only [Text.isWhiteSpace, Bool.or_eq_true, Bool.and_eq_true, decide_eq_true_eq, beq_iff_eq]
  omega

/-- The first five rules do not match at a character that begins none of their texts. -/
theorem firstMatch?_of_head (hc : 32 < c.toNat ∧ c.toNat < 127)
    (hmark : c ∉ ['#', '"', '\x7b', '\x7d', '(', ')', ',', ';', '='])
    (harrow : arrowLength (c :: cs) = 0) :
    firstMatch? rules (c :: cs) = firstMatch? (rules.drop 5) (c :: cs) := by
  simp only [List.mem_cons, List.not_mem_nil, or_false, not_or] at hmark
  obtain ⟨hcomment, hstring, hmark⟩ := hmark
  have hpunct : isPunct c = false := by
    simpa [isPunct] using hmark
  unfold rules
  rw [firstMatch?_cons_of_eq_zero (span_cons_of_not (not_isWhiteSpace hc)),
    firstMatch?_cons_of_eq_zero (commentLength_cons hcomment), firstMatch?_cons_of_eq_zero harrow,
    firstMatch?_cons_of_eq_zero (punctLength_cons hpunct),
    firstMatch?_cons_of_eq_zero (stringLength_cons hstring)]
  rfl

/-! ## Names -/

/-- The text is a name: letters, digits and underscores, not with a digit first, and not one of the
words that have a meaning of their own. -/
structure IsName (name : String) : Prop where
  start : name.toList.head?.any isNameStart = true
  part : name.toList.all isNamePart = true
  free : name ∉ keywords ++ truthWords

instance (name : String) : Decidable (IsName name) :=
  decidable_of_iff (name.toList.head?.any isNameStart = true ∧ name.toList.all isNamePart = true ∧
      name ∉ keywords ++ truthWords)
    ⟨fun ⟨hstart, hpart, hfree⟩ => ⟨hstart, hpart, hfree⟩, fun h => ⟨h.start, h.part, h.free⟩⟩

theorem exists_cons_of_start (h : cs.head?.any isNameStart = true) :
    ∃ c ds, cs = c :: ds ∧ isNameStart c = true := by
  cases cs with
  | nil => cases h
  | cons c ds => exact ⟨c, ds, rfl, h⟩

theorem length_pos_of_start (h : cs.head?.any isNameStart = true) : 0 < cs.length := by
  obtain ⟨c, ds, rfl, -⟩ := exists_cons_of_start h
  exact Nat.succ_pos _

theorem IsName.isNamePart {name : String} (h : IsName name) {c : Char} (hc : c ∈ name.toList) :
    isNamePart c = true :=
  List.all_eq_true.1 h.part c hc

theorem not_mem_of_toNat (h : c.toNat ∉ cs.map Char.toNat) : c ∉ cs :=
  fun hc => h (List.mem_map_of_mem hc)

theorem isAlpha_eq_true_iff :
    c.isAlpha = true ↔ 65 ≤ c.toNat ∧ c.toNat ≤ 90 ∨ 97 ≤ c.toNat ∧ c.toNat ≤ 122 := by
  have hupper : c.isUpper = true ↔ 65 ≤ c.toNat ∧ c.toNat ≤ 90 :=
    decide_eq_true_iff.trans (and_congr UInt32.le_iff_toNat_le UInt32.le_iff_toNat_le)
  have hlower : c.isLower = true ↔ 97 ≤ c.toNat ∧ c.toNat ≤ 122 :=
    Bool.and_eq_true_iff.trans (and_congr (decide_eq_true_iff.trans UInt32.le_iff_toNat_le)
      (decide_eq_true_iff.trans UInt32.le_iff_toNat_le))
  exact Bool.or_eq_true_iff.trans (or_congr hupper hlower)

theorem toNat_of_isNameStart (h : isNameStart c = true) :
    65 ≤ c.toNat ∧ c.toNat ≤ 90 ∨ 97 ≤ c.toNat ∧ c.toNat ≤ 122 ∨ c.toNat = 95 := by
  simp only [isNameStart, Bool.or_eq_true, isAlpha_eq_true_iff, decide_eq_true_eq] at h
  rcases h with (h | h) | rfl
  · exact .inl h
  · exact .inr (.inl h)
  · exact .inr (.inr rfl)

theorem isNamePart_of_isNameStart (h : isNameStart c = true) : isNamePart c = true := by
  unfold isNameStart at h
  unfold isNamePart Char.isAlphanum
  rw [Bool.or_right_comm, h, Bool.true_or]

theorem toNat_of_isNamePart (h : isNamePart c = true) : 48 ≤ c.toNat ∧ c.toNat ≤ 57 ∨
    65 ≤ c.toNat ∧ c.toNat ≤ 90 ∨ 97 ≤ c.toNat ∧ c.toNat ≤ 122 ∨ c.toNat = 95 := by
  by_cases hstart : isNameStart c = true
  · exact .inr (toNat_of_isNameStart hstart)
  · simp only [isNameStart, Bool.or_eq_true, decide_eq_true_eq, not_or] at hstart
    simp only [isNamePart, Char.isAlphanum, Char.isDigit, Bool.or_eq_true, Bool.and_eq_true,
      decide_eq_true_eq, ge_iff_le, UInt32.le_iff_toNat_le] at h
    rcases h with (h | h) | h
    · exact (hstart.1 h).elim
    · exact .inl h
    · exact (hstart.2 h).elim

theorem isWord_of_isNamePart (h : isNamePart c = true) : Text.isWord c = true := by
  have hc := toNat_of_isNamePart h
  unfold Text.isWord
  rw [if_pos (by omega)]
  exact h

/-- The words that come before names are written like names. -/
theorem written_of_reserved : ∀ word ∈ keywords ++ truthWords,
    word.toList.head?.any isNameStart = true ∧ word.toList.all isNamePart = true := by
  decide

theorem disjoint_keywords_truthWords : ∀ {word}, word ∈ keywords → word ∉ truthWords := by
  decide

/-- No word begins with another one. -/
def PrefixFree (words : List String) : Prop :=
  ∀ v ∈ words, ∀ w ∈ words, v.toList <+: w.toList → v = w

theorem prefixFree_truthWords : PrefixFree truthWords := by
  unfold PrefixFree
  decide

theorem prefixFree_keywords : PrefixFree keywords := by
  unfold PrefixFree
  decide

namespace Rule

/-- A word ends where no word character follows it. -/
theorem wordLength_append_of_mem {words : List String} {word : String} (hwords : PrefixFree words)
    (hword : word ∈ words) (after : List Char) :
    wordLength words (word.toList ++ after) =
      if after.head?.any Text.isWord = true then 0 else word.toList.length := by
  have hprefix : word.toList <+: word.toList ++ after := List.prefix_append _ _
  have hfind : words.find? (fun w => w.toList.isPrefixOf (word.toList ++ after)) = some word := by
    cases hfound : words.find? (fun w => w.toList.isPrefixOf (word.toList ++ after)) with
    | none =>
      exact (List.find?_eq_none.1 hfound word hword (List.isPrefixOf_iff_prefix.2 hprefix)).elim
    | some w =>
      have hw : w.toList <+: word.toList ++ after :=
        List.isPrefixOf_iff_prefix.1 (List.find?_some
          (p := fun w : String => w.toList.isPrefixOf (word.toList ++ after)) hfound)
      have hmem := List.mem_of_find?_eq_some hfound
      rcases List.prefix_or_prefix_of_prefix hw hprefix with h | h
      · rw [hwords w hmem word hword h]
      · rw [hwords word hword w hmem h]
  unfold wordLength
  simp only [hfind, ← String.length_toList, List.drop_left]
  cases after <;> rfl

/-- A name that is none of the words does not end where one of them does. -/
theorem wordLength_append {words : List String} {name : String}
    (hwords : (words.all fun w => w.toList.all isNamePart) = true)
    (hname : name.toList.all isNamePart = true) (hfree : name ∉ words)
    (hafter : ∀ c ∈ after.head?, isNamePart c = false) :
    wordLength words (name.toList ++ after) = 0 := by
  unfold wordLength
  split
  · next w hw =>
    have hmem := List.mem_of_find?_eq_some hw
    have hne : w ≠ name := fun h => hfree (h ▸ hmem)
    have hprefix : w.toList.isPrefixOf (name.toList ++ after) = true :=
      List.find?_some (p := fun w : String => w.toList.isPrefixOf (name.toList ++ after)) hw
    obtain ⟨rest, hrest⟩ := List.isPrefixOf_iff_prefix.1 hprefix
    rcases List.append_eq_append_iff.1 hrest with ⟨more, hmore, -⟩ | ⟨more, hmore, hrest⟩
    · cases more with
      | nil => exact (hne (String.toList_inj.1 (by rw [hmore, List.append_nil]))).elim
      | cons d more =>
        have hd : Text.isWord d = true :=
          isWord_of_isNamePart (List.all_eq_true.1 hname d (by rw [hmore]; simp))
        rw [hmore, List.append_assoc, ← String.length_toList, List.drop_left]
        exact if_pos hd
    · cases more with
      | nil => exact (hne (String.toList_inj.1 (by rw [hmore, List.append_nil]))).elim
      | cons d more =>
        have hd := hafter d (by rw [hrest]; rfl)
        have hpart := List.all_eq_true.1 (List.all_eq_true.1 hwords w hmem) d (by rw [hmore]; simp)
        rw [hpart] at hd
        cases hd
  · rfl

theorem nameLength_append (hstart : cs.head?.any isNameStart = true)
    (hpart : cs.all isNamePart = true) (hafter : ∀ c ∈ after.head?, isNamePart c = false) :
    nameLength (cs ++ after) = cs.length := by
  obtain ⟨c, ds, rfl, hc⟩ := exists_cons_of_start hstart
  have hds : ∀ d ∈ ds, isNamePart d = true := fun d hd =>
    List.all_eq_true.1 hpart d (List.mem_cons_of_mem c hd)
  rw [List.cons_append]
  show (if isNameStart c = true then 1 + span isNamePart (ds ++ after) else 0) = _
  rw [if_pos hc, span_append hds hafter, List.length_cons, Nat.add_comm]

theorem intLength_cons (hsign : c ≠ '+' ∧ c ≠ '-') (hc : Number.isDigit c = false) :
    intLength (c :: cs) = 0 := by
  have hzero : signLength (c :: cs) = 0 := by
    show (if (c = '+' || c = '-') = true then 1 else 0) = 0
    rw [if_neg (by simpa using hsign)]
  unfold intLength
  simp only [hzero, List.drop_zero, span_cons_of_not hc, if_true]

theorem floatLength_of_intLength (h : intLength cs = 0) : floatLength cs = 0 := by
  unfold floatLength
  simp only [h, if_true]
  split <;> rfl

end Rule

theorem isDigit_iff : Number.isDigit c = true ↔ 48 ≤ c.toNat ∧ c.toNat ≤ 57 := by
  simp only [Number.isDigit, Bool.and_eq_true, decide_eq_true_eq, Char.le_def,
    UInt32.le_iff_toNat_le]
  exact Iff.rfl

/-- No rule before those of the words matches where a name begins. -/
theorem firstMatch?_of_start (hstart : cs.head?.any isNameStart = true) (after : List Char) :
    firstMatch? rules (cs ++ after) =
      firstMatch? [⟨some .bool, wordLength truthWords⟩, ⟨some .keyword, wordLength keywords⟩,
        ⟨some .identifier, nameLength⟩] (cs ++ after) := by
  obtain ⟨c, ds, rfl, h⟩ := exists_cons_of_start hstart
  rw [List.cons_append]
  generalize ds ++ after = cs
  show _ = firstMatch? (rules.drop 7) (c :: cs)
  have hnat := toNat_of_isNameStart h
  have hmark : c ∉ ['#', '"', '\x7b', '\x7d', '(', ')', ',', ';', '='] :=
    not_mem_of_toNat (by simp; omega)
  have hsign : c ∉ ['+', '-'] := not_mem_of_toNat (by simp; omega)
  simp only [List.mem_cons, List.not_mem_nil, or_false, not_or] at hsign
  have hdigit : Number.isDigit c = false := by
    rw [← Bool.not_eq_true, isDigit_iff]
    omega
  have hint : intLength (c :: cs) = 0 := intLength_cons hsign hdigit
  rw [firstMatch?_of_head (by omega) hmark (arrowLength_cons hsign.2)]
  show firstMatch? (⟨some .float, floatLength⟩ :: ⟨some .int, intLength⟩ :: rules.drop 7) _ = _
  rw [firstMatch?_cons_of_eq_zero (floatLength_of_intLength hint), firstMatch?_cons_of_eq_zero hint]

/-! ## Numbers -/

/-- Digits, perhaps after a sign. -/
inductive IsNumeral : List Char → Prop
  | mk (sign digits : List Char) (hsign : sign ∈ [[], ['+'], ['-']]) (hne : digits ≠ [])
      (hdigits : ∀ c ∈ digits, Number.isDigit c = true) : IsNumeral (sign ++ digits)

/-- Digits and a point, perhaps after a sign, and perhaps with digits after the point. -/
inductive IsDecimal : List Char → Prop
  | mk (whole places : List Char) (hwhole : IsNumeral whole)
      (hplaces : ∀ c ∈ places, Number.isDigit c = true) : IsDecimal (whole ++ '.' :: places)

theorem not_mem_of_isDigit (h : Number.isDigit c = true) :
    c ∉ ['+', '-', '>', '#', '"', '\x7b', '\x7d', '(', ')', ',', ';', '='] := by
  have := isDigit_iff.1 h
  exact not_mem_of_toNat (by simp; omega)

theorem signLength_append {sign digits : List Char} (hsign : sign ∈ [[], ['+'], ['-']])
    (hne : digits ≠ []) (hdigits : ∀ c ∈ digits, Number.isDigit c = true) :
    signLength (sign ++ (digits ++ after)) = sign.length := by
  simp only [List.mem_cons, List.not_mem_nil, or_false] at hsign
  rcases hsign with rfl | rfl | rfl
  · obtain ⟨d, digits, rfl⟩ := List.exists_cons_of_ne_nil hne
    have hd := not_mem_of_isDigit (hdigits d List.mem_cons_self)
    simp only [List.mem_cons, not_or] at hd
    show (if (d = '+' || d = '-') = true then 1 else 0) = 0
    rw [if_neg (by simpa using ⟨hd.1, hd.2.1⟩)]
  · rfl
  · rfl

theorem intLength_append (h : IsNumeral cs) (hafter : ∀ c ∈ after.head?, Number.isDigit c = false) :
    intLength (cs ++ after) = cs.length := by
  obtain ⟨sign, digits, hsign, hne, hdigits⟩ := h
  unfold intLength
  rw [List.append_assoc]
  simp only [signLength_append hsign hne hdigits, List.drop_left, span_append hdigits hafter,
    List.length_append]
  rw [if_neg fun hzero => hne (List.length_eq_zero_iff.1 hzero)]

theorem IsNumeral.length_pos (h : IsNumeral cs) : 0 < cs.length := by
  obtain ⟨sign, digits, -, hne, -⟩ := h
  have := List.length_pos_iff.2 hne
  rw [List.length_append]
  omega

theorem floatLength_append (h : IsDecimal cs)
    (hafter : ∀ c ∈ after.head?, Number.isDigit c = false) :
    floatLength (cs ++ after) = cs.length := by
  obtain ⟨whole, places, hwhole, hplaces⟩ := h
  have hint : intLength (whole ++ '.' :: (places ++ after)) = whole.length :=
    intLength_append hwhole (by rintro _ ⟨⟩; decide)
  unfold floatLength
  rw [List.append_assoc, List.cons_append]
  simp only [hint, List.drop_left, span_append hplaces hafter, List.length_append,
    List.length_cons]
  rw [if_neg (Nat.ne_of_gt hwhole.length_pos)]
  omega

/-- A numeral without a point is no decimal. -/
theorem floatLength_append_of_numeral (h : IsNumeral cs)
    (hafter : ∀ c ∈ after.head?, Number.isDigit c = false ∧ c ≠ '.') :
    floatLength (cs ++ after) = 0 := by
  unfold floatLength
  simp only [intLength_append h fun c hc => (hafter c hc).1, List.drop_left]
  split
  · next places => exact ((hafter '.' rfl).2 rfl).elim
  · rfl

/-- No rule before those of the numbers matches where a number begins. -/
theorem firstMatch?_of_isNumeral (h : IsNumeral cs) (after : List Char) :
    firstMatch? rules (cs ++ after) = firstMatch? (rules.drop 5) (cs ++ after) := by
  obtain ⟨sign, digits, hsign, hne, hdigits⟩ := h
  obtain ⟨d, digits, rfl⟩ := List.exists_cons_of_ne_nil hne
  have hd := hdigits d List.mem_cons_self
  have hnat := isDigit_iff.1 hd
  have hmark := not_mem_of_isDigit hd
  simp only [List.mem_cons, List.not_mem_nil, or_false] at hsign
  rcases hsign with rfl | rfl | rfl
  · refine firstMatch?_of_head (by omega) (fun hmem => hmark ?_) (arrowLength_cons ?_)
    · exact List.mem_cons_of_mem _ (List.mem_cons_of_mem _ (List.mem_cons_of_mem _ hmem))
    · rintro rfl
      exact hmark (by decide)
  · exact firstMatch?_of_head (by decide) (by decide) rfl
  · refine firstMatch?_of_head (by decide) (by decide) ?_
    unfold arrowLength
    split
    · next heq =>
      cases heq
      exact (hmark (by decide)).elim
    · rfl

/-! ## Strings -/

/-- The characters can stand between the quotes of a string. -/
def IsStringBody (body : List Char) : Prop :=
  ∀ after, stringBodyLength? (body ++ '"' :: after) = some (body.length + 1)

theorem stringBodyLength?_cons (hb : c ≠ '\\') (hq : c ≠ '"') (cs : List Char) :
    stringBodyLength? (c :: cs) = (stringBodyLength? cs).map (· + 1) := by
  rw [stringBodyLength?.eq_5 _ _ (fun _ h => (hb h).elim) (fun _ _ h => (hb h).elim)
    fun h => (hb h).elim, if_neg hq]

theorem isStringBody_nil : IsStringBody [] := fun _ => rfl

theorem IsStringBody.cons (h : IsStringBody cs) (hb : c ≠ '\\') (hq : c ≠ '"') :
    IsStringBody (c :: cs) := by
  intro after
  rw [List.cons_append, stringBodyLength?_cons hb hq, h]
  rfl

/-- A backslash takes the next character with it. -/
theorem IsStringBody.escaped (h : IsStringBody cs) (hn : c ≠ '\n') :
    IsStringBody ('\\' :: c :: cs) := by
  intro after
  rw [List.cons_append, List.cons_append, stringBodyLength?.eq_3 _ _ hn, h]
  rfl

/-! ## Lexemes -/

/-- The text is a token of the kind where it is followed by `after`: it has the form of the kind,
and cannot be longer. A word that is reserved is a name only where a word character follows that no
name has. -/
inductive IsLexeme : TokenKind → List Char → List Char → Prop
  | arrow {after : List Char} : IsLexeme .arrow ['-', '>'] after
  | punct {c : Char} {after : List Char} (hc : isPunct c = true) : IsLexeme .punct [c] after
  | string {body after : List Char} (hbody : IsStringBody body) :
      IsLexeme .string ('"' :: body ++ ['"']) after
  | float {cs after : List Char} (hcs : IsDecimal cs)
      (hafter : ∀ c ∈ after.head?, Number.isDigit c = false) : IsLexeme .float cs after
  | int {cs after : List Char} (hcs : IsNumeral cs)
      (hafter : ∀ c ∈ after.head?, Number.isDigit c = false ∧ c ≠ '.') : IsLexeme .int cs after
  | bool {word : String} {after : List Char} (hword : word ∈ truthWords)
      (hafter : ∀ c ∈ after.head?, Text.isWord c = false) : IsLexeme .bool word.toList after
  | keyword {word : String} {after : List Char} (hword : word ∈ keywords)
      (hafter : ∀ c ∈ after.head?, Text.isWord c = false) : IsLexeme .keyword word.toList after
  | identifier {name : String} {after : List Char}
      (hstart : name.toList.head?.any isNameStart = true)
      (hpart : name.toList.all isNamePart = true)
      (hafter : ∀ c ∈ after.head?, isNamePart c = false)
      (hreserved : name ∈ keywords ++ truthWords → ∃ c ∈ after.head?, Text.isWord c = true) :
      IsLexeme .identifier name.toList after

theorem IsDecimal.length_pos (h : IsDecimal cs) : 0 < cs.length := by
  obtain ⟨whole, places, -⟩ := h
  rw [List.length_append, List.length_cons]
  omega

theorem not_isNamePart_of_not_isWord (h : Text.isWord c = false) : isNamePart c = false := by
  rw [← Bool.not_eq_true] at h ⊢
  exact fun hc => h (isWord_of_isNamePart hc)

/-- A word that ends is read whole. -/
theorem wordLength_eq_length {words : List String} {word : String} (hwords : PrefixFree words)
    (hword : word ∈ words) (hafter : ∀ c ∈ after.head?, Text.isWord c = false) :
    wordLength words (word.toList ++ after) = word.toList.length := by
  rw [wordLength_append_of_mem hwords hword, if_neg]
  rw [Option.any_eq_true]
  rintro ⟨c, hc, hword⟩
  rw [hafter c hc] at hword
  cases hword

/-- The rules read a token where there is one. -/
theorem IsLexeme.firstMatch?_eq {kind : TokenKind} (h : IsLexeme kind cs after) :
    firstMatch? rules (cs ++ after) = some (some kind, cs.length) := by
  cases h with
  | arrow => rfl
  | punct hc =>
    simp only [isPunct, List.mem_cons, List.not_mem_nil, or_false, decide_eq_true_eq] at hc
    rcases hc with rfl | rfl | rfl | rfl | rfl | rfl | rfl <;> rfl
  | @string body _ hbody =>
    have htext : '"' :: body ++ ['"'] ++ after = '"' :: (body ++ '"' :: after) := by simp
    have hlength : stringLength ('"' :: (body ++ '"' :: after)) = body.length + 2 := by
      unfold stringLength
      simp only [hbody after]
    rw [htext]
    show firstMatch? (⟨some .string, stringLength⟩ :: rules.drop 5) _ = _
    rw [firstMatch?_cons_of_eq hlength (Nat.succ_pos _)]
    simp
  | float hcs hafter =>
    have hlength := floatLength_append hcs hafter
    have hpos := hcs.length_pos
    obtain ⟨whole, places, hwhole, -⟩ := hcs
    rw [List.append_assoc, firstMatch?_of_isNumeral hwhole, ← List.append_assoc]
    exact firstMatch?_cons_of_eq hlength hpos
  | int hcs hafter =>
    rw [firstMatch?_of_isNumeral hcs]
    show firstMatch? (⟨some .float, floatLength⟩ :: ⟨some .int, intLength⟩ :: rules.drop 7) _ = _
    rw [firstMatch?_cons_of_eq_zero (floatLength_append_of_numeral hcs hafter),
      firstMatch?_cons_of_eq (intLength_append hcs fun c hc => (hafter c hc).1) hcs.length_pos]
  | @bool word _ hword hafter =>
    obtain ⟨hstart, -⟩ := written_of_reserved word (List.mem_append_right _ hword)
    rw [firstMatch?_of_start hstart,
      firstMatch?_cons_of_eq (wordLength_eq_length prefixFree_truthWords hword hafter)
        (length_pos_of_start hstart)]
  | @keyword word _ hword hafter =>
    obtain ⟨hstart, hpart⟩ := written_of_reserved word (List.mem_append_left _ hword)
    have hother : word ∉ truthWords := disjoint_keywords_truthWords hword
    rw [firstMatch?_of_start hstart,
      firstMatch?_cons_of_eq_zero (wordLength_append rfl hpart hother fun c hc =>
        not_isNamePart_of_not_isWord (hafter c hc)),
      firstMatch?_cons_of_eq (wordLength_eq_length prefixFree_keywords hword hafter)
        (length_pos_of_start hstart)]
  | @identifier name _ hstart hpart hafter hreserved =>
    have hnone {words : List String} (hparts : (words.all fun w => w.toList.all isNamePart) = true)
        (hwords : PrefixFree words) (hsub : words ⊆ keywords ++ truthWords) :
        wordLength words (name.toList ++ after) = 0 := by
      by_cases hname : name ∈ words
      · rw [wordLength_append_of_mem hwords hname, if_pos ((Option.any_eq_true _ _).2 (hreserved (hsub hname)))]
      · exact wordLength_append hparts hpart hname hafter
    rw [firstMatch?_of_start hstart,
      firstMatch?_cons_of_eq_zero (hnone rfl prefixFree_truthWords (List.subset_append_right _ _)),
      firstMatch?_cons_of_eq_zero (hnone rfl prefixFree_keywords (List.subset_append_left _ _)),
      firstMatch?_cons_of_eq (nameLength_append hstart hpart hafter) (length_pos_of_start hstart)]

/-! ## Words that stand -/

/-- A word stands if it is a token before a space and at the end of a text. -/
theorem stands_of_isLexeme {w : Token.Word}
    (h : ∀ after, Separates after → IsLexeme w.kind w.text.toList after) : w.Stands :=
  fun after hafter => (h after hafter).firstMatch?_eq

theorem stands_name {name : String} (h : IsName name) : (Token.Word.mk .identifier name).Stands :=
  stands_of_isLexeme fun _ hafter => .identifier h.start h.part (hafter.head? (by decide))
    fun hreserved => (h.free hreserved).elim

theorem stands_int {text : String} (h : IsNumeral text.toList) :
    (Token.Word.mk .int text).Stands :=
  stands_of_isLexeme fun _ hafter => .int h fun c hc => by
    rw [hafter c hc]
    decide

theorem stands_float {text : String} (h : IsDecimal text.toList) :
    (Token.Word.mk .float text).Stands :=
  stands_of_isLexeme fun _ hafter => .float h (hafter.head? (by decide))

theorem stands_string {body : List Char} (h : IsStringBody body) :
    (Token.Word.mk .string (String.ofList ('"' :: body ++ ['"']))).Stands :=
  stands_of_isLexeme fun _ _ => by
    rw [String.toList_ofList]
    exact .string h

theorem stands_keyword {word : String} (h : word ∈ keywords) :
    (Token.Word.mk .keyword word).Stands :=
  stands_of_isLexeme fun _ hafter => .keyword h (hafter.head? (by decide))

theorem stands_truthWord {word : String} (h : word ∈ truthWords) :
    (Token.Word.mk .bool word).Stands :=
  stands_of_isLexeme fun _ hafter => .bool h (hafter.head? (by decide))

theorem stands_punct {c : Char} (h : isPunct c = true) :
    (Token.Word.mk .punct (String.ofList [c])).Stands :=
  stands_of_isLexeme fun _ _ => by
    rw [String.toList_ofList]
    exact .punct h

theorem stands_arrow : (Token.Word.mk .arrow "->").Stands :=
  stands_of_isLexeme fun _ _ => .arrow

end EventMachine
