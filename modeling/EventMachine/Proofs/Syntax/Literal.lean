import EventMachine.Proofs.Lexer.Rule
import EventMachine.Proofs.Syntax.Derivation

/-!
# Written values

A string is written in double quotes, with its backslashes, quotes and newlines escaped; a whole
number in decimal; a floating-point number as any decimal that reads as it. `Expr.Prints` says as
which word an expression is written. The rules read that word as one token
(`Expr.Prints.plain`), and the token stands for the expression (`Expr.Prints.exprOfToken_eq`).
-/

namespace EventMachine.Syntax

open Number

/-! ## Strings -/

/-- A character as it is written in a string. -/
def escapeChar : Char → List Char
  | '\\' => ['\\', '\\']
  | '"' => ['\\', '"']
  | '\n' => ['\\', 'n']
  | c => [c]

/-- A text as it is written between the quotes of a string. -/
def escaped (text : String) : List Char := text.toList.flatMap escapeChar

/-- The string that stands for a text. -/
def literal (text : String) : String := String.ofList ('"' :: escaped text ++ ['"'])

/-- A character is written with a backslash, or as it is. -/
theorem escapeChar_cases (c : Char) :
    (∃ d, escapeChar c = ['\\', d] ∧ d ≠ '\n' ∧ escape? d = some c) ∨
      escapeChar c = [c] ∧ c ≠ '\\' ∧ c ≠ '"' ∧ c ≠ '\n' := by
  unfold escapeChar
  split
  · exact .inl ⟨'\\', rfl, by decide, rfl⟩
  · exact .inl ⟨'"', rfl, by decide, rfl⟩
  · exact .inl ⟨'n', rfl, by decide, rfl⟩
  · next hb hq hn => exact .inr ⟨rfl, hb, hq, hn⟩

theorem unescapeChars_cons {c : Char} (hc : c ≠ '\\') (cs : List Char) :
    unescapeChars (c :: cs) = c :: unescapeChars cs :=
  unescapeChars.eq_4 c cs (fun h => (hc h).elim) fun _ _ h => (hc h).elim

theorem unescapeChars_flatMap (cs : List Char) : unescapeChars (cs.flatMap escapeChar) = cs := by
  induction cs with
  | nil => rfl
  | cons c cs ih =>
    rw [List.flatMap_cons]
    rcases escapeChar_cases c with ⟨d, heq, -, he⟩ | ⟨heq, hb, -⟩
    · rw [heq, List.cons_append, List.singleton_append, unescapeChars.eq_3]
      simp only [he, ih]
    · rw [heq, List.singleton_append, unescapeChars_cons hb, ih]

theorem isStringBody_escaped (text : String) : IsStringBody (escaped text) := by
  unfold escaped
  induction text.toList with
  | nil => exact isStringBody_nil
  | cons c cs ih =>
    rw [List.flatMap_cons]
    rcases escapeChar_cases c with ⟨d, heq, hd, -⟩ | ⟨heq, hb, hq, -⟩
    · rw [heq]
      exact ih.escaped hd
    · rw [heq]
      exact ih.cons hb hq

/-- A string has no newline in it. -/
theorem newline_not_mem_literal (text : String) : '\n' ∉ (literal text).toList := by
  have hbody : '\n' ∉ escaped text := by
    unfold escaped
    rw [List.mem_flatMap]
    rintro ⟨c, -, hmem⟩
    rcases escapeChar_cases c with ⟨d, heq, hd, -⟩ | ⟨heq, -, -, hn⟩
    · rw [heq] at hmem
      simp only [List.mem_cons, List.not_mem_nil, or_false] at hmem
      rcases hmem with h | h
      · cases h
      · exact hd h.symm
    · rw [heq, List.mem_singleton] at hmem
      exact hn hmem.symm
  unfold literal
  rw [String.toList_ofList]
  simpa using hbody

/-! ## Numbers -/

theorem digitsValue_toDigits (n : Nat) : digitsValue (Nat.toDigits 10 n) = n := by
  have hfold : digitsValue (Nat.toDigits 10 n) = Nat.ofDigitChars 10 (Nat.toDigits 10 n) 0 := by
    unfold digitsValue Nat.ofDigitChars
    congr 1
    funext value c
    rw [Nat.mul_comm]
    rfl
  rw [hfold, Nat.ofDigitChars_toDigits (by decide) (by decide)]

theorem isDigit_of_mem_toDigits {n : Nat} {c : Char} (h : c ∈ Nat.toDigits 10 n) :
    isDigit c = true := by
  have hc := Nat.isDigit_of_mem_toDigits (by decide) (by decide) h
  unfold isDigit
  simpa [Char.isDigit, Char.le_def] using hc

theorem splitSign_of_isDigit {digits : List Char} (hd : ∀ c ∈ digits, isDigit c = true) :
    splitSign digits = (false, digits) := by
  unfold splitSign
  split
  · exact (Bool.false_ne_true (hd '-' List.mem_cons_self)).elim
  · exact (Bool.false_ne_true (hd '+' List.mem_cons_self)).elim
  · rfl

theorem readInt?_toDigits (n : Nat) : readInt? (Nat.toDigits 10 n) = some (n : Int) := by
  have hd : ∀ c ∈ Nat.toDigits 10 n, isDigit c = true := fun _ => isDigit_of_mem_toDigits
  have hne : (Nat.toDigits 10 n).isEmpty = false := List.isEmpty_eq_false_iff.2 Nat.toDigits_ne_nil
  unfold readInt?
  rw [splitSign_of_isDigit hd]
  simp only [hne, List.all_eq_true.2 hd, digitsValue_toDigits]
  rfl

theorem readInt?_minus_toDigits (n : Nat) :
    readInt? ('-' :: Nat.toDigits 10 n) = some (-(n : Int)) := by
  have hd : ∀ c ∈ Nat.toDigits 10 n, isDigit c = true := fun _ => isDigit_of_mem_toDigits
  have hne : (Nat.toDigits 10 n).isEmpty = false := List.isEmpty_eq_false_iff.2 Nat.toDigits_ne_nil
  have hsign : splitSign ('-' :: Nat.toDigits 10 n) = (true, Nat.toDigits 10 n) := rfl
  unfold readInt?
  rw [hsign]
  simp only [hne, List.all_eq_true.2 hd, digitsValue_toDigits]
  rfl

/-- A whole number is written with the digits of its amount, after a minus if it is negative. -/
theorem toList_toString_cases (n : Int) :
    (∃ m : Nat, n = m ∧ (toString n).toList = Nat.toDigits 10 m) ∨
      ∃ m : Nat, n = -(m : Int) ∧ (toString n).toList = '-' :: Nat.toDigits 10 m := by
  cases n with
  | ofNat m => exact .inl ⟨m, rfl, Nat.toList_repr⟩
  | negSucc m =>
    refine .inr ⟨m + 1, rfl, ?_⟩
    show ("-" ++ (m + 1).repr).toList = _
    rw [String.toList_append, Nat.toList_repr]
    rfl

theorem readInt?_toString (n : Int) : readInt? (toString n).toList = some n := by
  rcases toList_toString_cases n with ⟨m, rfl, heq⟩ | ⟨m, rfl, heq⟩
  · rw [heq, readInt?_toDigits]
  · rw [heq, readInt?_minus_toDigits]

theorem isNumeral_toString (n : Int) : IsNumeral (toString n).toList := by
  have hdigits (m : Nat) : ∀ c ∈ Nat.toDigits 10 m, isDigit c = true :=
    fun _ => isDigit_of_mem_toDigits
  rcases toList_toString_cases n with ⟨m, -, heq⟩ | ⟨m, -, heq⟩
  · rw [heq]
    exact .mk [] _ (by simp) Nat.toDigits_ne_nil (hdigits m)
  · rw [heq]
    exact .mk ['-'] _ (by simp) Nat.toDigits_ne_nil (hdigits m)

/-- Digits, signs and points are no newline. -/
theorem newline_not_mem_of_isNumeral {cs : List Char} (h : IsNumeral cs) : '\n' ∉ cs := by
  obtain ⟨sign, digits, hsign, -, hdigits⟩ := h
  rw [List.mem_append]
  rintro (hmem | hmem)
  · simp only [List.mem_cons, List.not_mem_nil, or_false] at hsign
    rcases hsign with rfl | rfl | rfl <;> simp at hmem
  · exact Bool.false_ne_true (hdigits _ hmem)

theorem newline_not_mem_of_isDecimal {cs : List Char} (h : IsDecimal cs) : '\n' ∉ cs := by
  obtain ⟨whole, places, hwhole, hplaces⟩ := h
  rw [List.mem_append, List.mem_cons]
  rintro (hmem | hmem | hmem)
  · exact newline_not_mem_of_isNumeral hwhole hmem
  · cases hmem
  · exact Bool.false_ne_true (hplaces _ hmem)

/-! ## Expressions -/

/-- The word is how the expression is written. -/
inductive Expr.Prints : Expr → Token.Word → Prop
  | str (text : String) : Prints (.str text) ⟨.string, literal text⟩
  | int (n : Int64) : Prints (.int n) ⟨.int, toString n.toInt⟩
  | float {x : Binary64} {text : String} (hd : IsDecimal text.toList)
      (hx : readBinary64? text.toList = some x) : Prints (.float x) ⟨.float, text⟩
  | bool (b : Bool) : Prints (.bool b) ⟨.bool, toString b⟩
  | ref {name : String} (hn : IsName name) : Prints (.ref name) ⟨.identifier, name⟩

variable {e : Expr} {w : Token.Word}

theorem newline_not_mem_of_isName {name : String} (h : IsName name) : '\n' ∉ name.toList :=
  fun hmem => Bool.false_ne_true (h.isNamePart hmem)

theorem Expr.Prints.plain (h : e.Prints w) : w.Plain := by
  cases h with
  | str text =>
    exact ⟨stands_string (isStringBody_escaped text), newline_not_mem_literal text⟩
  | int n =>
    have hn := isNumeral_toString n.toInt
    exact ⟨stands_int hn, newline_not_mem_of_isNumeral hn⟩
  | float hd => exact ⟨stands_float hd, newline_not_mem_of_isDecimal hd⟩
  | bool b =>
    cases b
    · exact ⟨stands_truthWord (by decide), by decide⟩
    · exact ⟨stands_truthWord (by decide), by decide⟩
  | ref hn => exact ⟨stands_name hn, newline_not_mem_of_isName hn⟩

/-- A token of that word is read as the expression. -/
theorem Expr.Prints.exprOfToken_eq (h : e.Prints w) {t : Token} (ht : t.word = w) :
    exprOfToken t = .ok e := by
  obtain ⟨kind, text, location⟩ := t
  cases h with
  | str text =>
    obtain ⟨rfl, rfl⟩ := Token.Word.mk.inj ht
    unfold exprOfToken literal
    simp only [String.toList_ofList, List.cons_append, List.drop_one, List.tail_cons,
      List.dropLast_concat]
    rw [escaped, unescapeChars_flatMap, String.ofList_toList]
  | int n =>
    obtain ⟨rfl, rfl⟩ := Token.Word.mk.inj ht
    have hn : readInt64? (toString n.toInt).toList = some n :=
      readInt64?_eq_some_iff.2 ⟨n.toInt, readInt?_toString _, n.le_toInt, n.toInt_lt, n.ofInt_toInt⟩
    unfold exprOfToken
    simp only [hn]
  | float _ hx =>
    obtain ⟨rfl, rfl⟩ := Token.Word.mk.inj ht
    unfold exprOfToken
    simp only [hx]
  | bool b =>
    obtain ⟨rfl, rfl⟩ := Token.Word.mk.inj ht
    cases b <;> rfl
  | ref =>
    obtain ⟨rfl, rfl⟩ := Token.Word.mk.inj ht
    rfl

/-- Such a token derives from the rule of values, and the expression is read off. -/
theorem Expr.Prints.exists_tree (h : e.Prints w) {t : Token} (ht : t.word = w) :
    ∃ d, Grammar.value.tokens d = [t] ∧ Grammar.exprOf d = e :=
  exprOfToken_eq_ok_iff.1 (h.exprOfToken_eq ht)

end EventMachine.Syntax
