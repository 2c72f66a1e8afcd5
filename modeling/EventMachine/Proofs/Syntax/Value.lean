import EventMachine.Proofs.Lexer.Boundary
import EventMachine.Proofs.Syntax.Diagnostic
import EventMachine.Proofs.Syntax.Literal
import Mathlib.Data.Nat.Digits.Defs

/-!
# Values of tokens

What the reading of values takes for granted about the texts of tokens, and the lexer provides.

1. The body of a string does not end in the middle of an escape (`IsStringBody.endsInEscape`).
2. A token for a whole number writes one (`exists_writes`), and stands for it if it is within 64
   bits (`value_of_writes`). A token with a decimal point always stands for a number
   (`isSome_readBinary64?`).
3. A mismatch that expects a literal of one kind only is about a token of this kind that stands for
   nothing: `Mismatch.BlamesLiteral` holds of every production, as it does of its parts
   (`blamesLiteral_of_file`).
-/

namespace EventMachine

open Source Rule

/-! ## Strings -/

/-- The characters end in a backslash that takes nothing with it. -/
def endsInEscape : List Char → Bool
  | [] => false
  | ['\\'] => true
  | '\\' :: _ :: cs => endsInEscape cs
  | _ :: cs => endsInEscape cs

/-- What neither ends in a backslash nor begins with an escape begins with something else. -/
theorem ne_backslash {c : Char} {cs : List Char} (hlast : c = '\\' → cs = [] → False)
    (hescape : ∀ d ds, c = '\\' → cs = d :: ds → False) : c ≠ '\\' := by
  intro hc
  cases cs with
  | nil => exact hlast hc rfl
  | cons d ds => exact hescape d ds hc rfl

theorem endsInEscape_cons {c : Char} {cs : List Char} (hc : c ≠ '\\') :
    endsInEscape (c :: cs) = endsInEscape cs :=
  endsInEscape.eq_4 c cs (fun h => (hc h).elim) fun _ _ h => (hc h).elim

theorem not_isStringBody_backslash : ¬ IsStringBody ['\\'] := by
  intro h
  have hnone := h []
  rw [List.singleton_append, stringBodyLength?.eq_3 _ _ (by decide)] at hnone
  cases hnone

theorem IsStringBody.of_escaped {c : Char} {cs : List Char} (h : IsStringBody ('\\' :: c :: cs)) :
    IsStringBody cs := by
  intro after
  have hlength := h after
  by_cases hc : c = '\n'
  · subst hc
    cases hlength
  · rw [List.cons_append, List.cons_append, stringBodyLength?.eq_3 _ _ hc] at hlength
    obtain ⟨n, hn, hadd⟩ := Option.map_eq_some_iff.1 hlength
    rw [hn, Nat.add_right_cancel hadd]
    rfl

theorem IsStringBody.of_cons {c : Char} {cs : List Char} (h : IsStringBody (c :: cs))
    (hc : c ≠ '\\') : IsStringBody cs := by
  intro after
  have hlength := h after
  by_cases hq : c = '"'
  · subst hq
    have hone := Nat.succ.inj (Option.some.inj hlength)
    cases hone
  · rw [List.cons_append, stringBodyLength?_cons hc hq] at hlength
    obtain ⟨n, hn, hadd⟩ := Option.map_eq_some_iff.1 hlength
    rw [hn, Nat.add_right_cancel hadd]
    rfl

/-- A backslash at the end of the body would take the closing quote with it. -/
theorem IsStringBody.endsInEscape {body : List Char} (h : IsStringBody body) :
    endsInEscape body = false := by
  fun_induction EventMachine.endsInEscape body with
  | case1 => rfl
  | case2 => exact (not_isStringBody_backslash h).elim
  | case3 c cs ih => exact ih h.of_escaped
  | case4 c cs hlast hescape ih => exact ih (h.of_cons (ne_backslash hlast hescape))

namespace Syntax

open Number Production

/-! ## Whole numbers -/

/-- The number that digits write in decimal, the last one counting the ones. -/
def decimalValue (digits : List Char) : Nat := Nat.ofDigits 10 (digits.reverse.map digitValue)

/-- The characters write the whole number in decimal, perhaps with zeros in front. -/
inductive Writes : List Char → Int → Prop
  | unsigned {digits : List Char} (hne : digits ≠ []) (hd : ∀ c ∈ digits, isDigit c = true) :
      Writes digits (decimalValue digits)
  | plus {digits : List Char} (hne : digits ≠ []) (hd : ∀ c ∈ digits, isDigit c = true) :
      Writes ('+' :: digits) (decimalValue digits)
  | minus {digits : List Char} (hne : digits ≠ []) (hd : ∀ c ∈ digits, isDigit c = true) :
      Writes ('-' :: digits) (-(decimalValue digits : Int))

variable {cs : List Char} {n : Int}

theorem exists_writes (h : IsNumeral cs) : ∃ n, Writes cs n := by
  obtain ⟨sign, digits, hsign, hne, hdigits⟩ := h
  simp only [List.mem_cons, List.not_mem_nil, or_false] at hsign
  rcases hsign with rfl | rfl | rfl
  · exact ⟨_, .unsigned hne hdigits⟩
  · exact ⟨_, .plus hne hdigits⟩
  · exact ⟨_, .minus hne hdigits⟩

theorem digitsValue_eq_decimalValue (digits : List Char) :
    digitsValue digits = decimalValue digits := by
  unfold digitsValue decimalValue
  rw [Nat.ofDigits_eq_foldr, List.foldr_map, List.foldr_reverse]
  congr 1
  funext n c
  rw [Nat.cast_id, Nat.mul_comm, Nat.add_comm]

/-- What is read is the number that is written. -/
theorem readInt?_of_writes (h : Writes cs n) : readInt? cs = some n := by
  have hread {digits : List Char} (hne : digits ≠ []) (hd : ∀ c ∈ digits, isDigit c = true) :
      (digits.isEmpty || !digits.all isDigit) = false := by
    simp [hne, List.all_eq_true.2 hd]
  unfold readInt?
  cases h with
  | unsigned hne hd =>
    rw [splitSign_of_isDigit hd]
    simp only [hread hne hd, digitsValue_eq_decimalValue]
    rfl
  | plus hne hd =>
    simp only [splitSign, hread hne hd, digitsValue_eq_decimalValue]
    rfl
  | minus hne hd =>
    simp only [splitSign, hread hne hd, digitsValue_eq_decimalValue]
    rfl

/-- A token for a whole number is read as it if it is within 64 bits, and not read otherwise. -/
theorem value_of_writes {t : Token} (hkind : t.kind = .int) (h : Writes t.text.toList n)
    (ts : List Token) :
    (-2 ^ 63 ≤ n ∧ n < 2 ^ 63 → ∃ i : Int64, value (t :: ts) = .ok (.int i, ts) ∧ i.toInt = n) ∧
    (¬ (-2 ^ 63 ≤ n ∧ n < 2 ^ 63) → value (t :: ts) = .error ⟨[.kind .int], t :: ts⟩) := by
  have hread : readInt64? t.text.toList =
      if -2 ^ 63 ≤ n ∧ n < 2 ^ 63 then some (Int64.ofInt n) else none := by
    unfold readInt64?
    rw [readInt?_of_writes h]
  unfold value exprOfToken
  refine ⟨fun hn => ⟨Int64.ofInt n, ?_, Int64.toInt_ofInt_of_le hn.1 hn.2⟩, fun hn => ?_⟩
  · simp only [hkind, hread, if_pos hn]
  · simp only [hkind, hread, if_neg hn]

/-! ## Numbers with a decimal point -/

/-- Digits, a point and digits are read, as long as there is a digit in front of the point. -/
theorem isSome_read? {digits places : List Char} (hne : digits ≠ [])
    (hdigits : ∀ c ∈ digits, isDigit c = true) (hplaces : ∀ c ∈ places, isDigit c = true)
    (negative : Bool) : (Decimal.read? negative (digits ++ '.' :: places)).isSome = true := by
  have hpoint : ¬ isDigit '.' = true := by decide
  have hwhole : (digits ++ '.' :: places).takeWhile isDigit = digits := by
    rw [List.takeWhile_append_of_pos hdigits, List.takeWhile_cons_of_neg hpoint, List.append_nil]
  have hrest : (digits ++ '.' :: places).dropWhile isDigit = '.' :: places := by
    rw [List.dropWhile_append_of_pos hdigits, List.dropWhile_cons_of_neg hpoint]
  have hend : (places ++ []).dropWhile isDigit = [] := List.dropWhile_append_of_pos hplaces
  rw [List.append_nil] at hend
  unfold Decimal.read?
  rw [hwhole, hrest]
  simp only [hend, List.isEmpty_eq_false_iff.2 hne, Bool.false_and]
  rfl

/-- A sign goes first. -/
theorem exists_splitSign {sign digits : List Char} (hsign : sign ∈ [[], ['+'], ['-']])
    (hne : digits ≠ []) (hdigits : ∀ c ∈ digits, isDigit c = true) (cs : List Char) :
    ∃ negative, splitSign (sign ++ digits ++ cs) = (negative, digits ++ cs) := by
  simp only [List.mem_cons, List.not_mem_nil, or_false] at hsign
  rcases hsign with rfl | rfl | rfl
  · obtain ⟨c, ds, rfl⟩ := List.exists_cons_of_ne_nil hne
    have hc := not_mem_of_isDigit (hdigits c List.mem_cons_self)
    simp only [List.mem_cons, not_or] at hc
    refine ⟨false, ?_⟩
    show splitSign (c :: (ds ++ cs)) = _
    unfold splitSign
    split
    · next heq => exact (hc.2.1 (List.cons.inj heq).1).elim
    · next heq => exact (hc.1 (List.cons.inj heq).1).elim
    · rfl
  · exact ⟨false, rfl⟩
  · exact ⟨true, rfl⟩

theorem isSome_readBinary64? (h : IsDecimal cs) : (readBinary64? cs).isSome = true := by
  obtain ⟨_, places, ⟨sign, digits, hsign, hne, hdigits⟩, hplaces⟩ := h
  obtain ⟨negative, hsplit⟩ := exists_splitSign hsign hne hdigits ('.' :: places)
  unfold readBinary64? readFloat?
  rw [hsplit]
  dsimp only
  split
  · rfl
  · split
    · rfl
    · rw [Option.isSome_map]
      exact isSome_read? hne hdigits hplaces negative

/-! ## Mismatches -/

/-- If the mismatch expects nothing but a literal of some kind, then a token of this kind is there,
and it stands for no value. -/
def Mismatch.BlamesLiteral (m : Mismatch) : Prop :=
  ∀ k, m.expected = [.kind k] → k ≠ .identifier →
    ∃ t ∈ m.remaining.head?, t.kind = k ∧ exprOfToken t = .error [.kind k]

/-- Every mismatch of the production that expects nothing but a literal is about one. -/
def BlamesLiterals (p : Production α) : Prop := ∀ ts m, p ts = .error m → m.BlamesLiteral

section Productions

variable {α β : Type} {item p q : Production α} {f : α → Production β} {shrinks : Shrinks item}

theorem blamesLiteral_text (text : String) (ts : List Token) :
    Mismatch.BlamesLiteral ⟨[.text text], ts⟩ := by
  intro k hk
  cases hk

theorem blamesLiterals_pure (a : α) : BlamesLiterals (pure a : Production α) := nofun

theorem blamesLiterals_isAt (text : String) : BlamesLiterals (isAt text) := nofun

theorem blamesLiterals_isAtKeyword (word : String) : BlamesLiterals (isAtKeyword word) := nofun

theorem blamesLiterals_isAtKind (kind : TokenKind) : BlamesLiterals (isAtKind kind) := nofun

theorem blamesLiterals_ofText (text : String) : BlamesLiterals (ofText text) := by
  intro ts m h
  rw [ofText_eq_error h]
  exact blamesLiteral_text text ts

theorem blamesLiterals_identifier : BlamesLiterals (ofKind .identifier) := by
  intro ts m h
  rw [ofKind_eq_error h]
  rintro k hk hname
  cases hk
  exact (hname rfl).elim

/-- Several things are expected, not one. -/
theorem blamesLiterals_mismatch (x y : Expectation) :
    BlamesLiterals (mismatch [x, y] : Production α) := by
  rintro ts m h k hk
  cases h
  cases hk

theorem BlamesLiterals.bind (hp : BlamesLiterals p) (hf : ∀ a, BlamesLiterals (f a)) :
    BlamesLiterals (p >>= f) := by
  intro ts m h
  cases hr : p ts with
  | error =>
    change (p ts).bind _ = _ at h
    rw [hr] at h
    cases h
    exact hp ts m hr
  | ok r =>
    rw [bind_eq_of_eq_ok hr] at h
    exact hf r.1 r.2 m h

theorem BlamesLiterals.ite {c : Prop} [Decidable c] (hp : BlamesLiterals p)
    (hq : BlamesLiterals q) : BlamesLiterals (if c then p else q) := by
  split <;> assumption

theorem BlamesLiterals.commaSeparated (h : BlamesLiterals item) :
    BlamesLiterals (commaSeparated item shrinks) := by
  intro ts
  fun_induction Production.commaSeparated item shrinks ts with
  | case1 ts e he =>
    rintro m ⟨⟩
    exact h _ _ he
  | case2 ts a mid hm hc e he ih =>
    rintro m ⟨⟩
    exact ih _ he
  | case3 =>
    intro m hm
    cases hm
  | case4 =>
    intro m hm
    cases hm

theorem BlamesLiterals.parenthesisItems (h : BlamesLiterals item) :
    BlamesLiterals (parenthesisItems item shrinks) := by
  intro ts
  fun_induction Production.parenthesisItems item shrinks ts with
  | case1 =>
    intro m hm
    cases hm
  | case2 ts hs e he =>
    rintro m ⟨⟩
    exact h _ _ he
  | case3 ts hs a mid hm hc e he ih =>
    rintro m ⟨⟩
    exact ih _ he
  | case4 =>
    intro m hm
    cases hm
  | case5 ts hs a mid hm hc =>
    intro m hr
    cases ht : ofText ")" mid with
    | error e =>
      rw [ht] at hr
      cases hr
      exact blamesLiterals_ofText _ _ _ ht
    | ok r =>
      rw [ht] at hr
      cases hr

theorem BlamesLiterals.parenthesised (h : BlamesLiterals item) :
    BlamesLiterals (parenthesised item shrinks) :=
  (blamesLiterals_isAt _).bind fun _ =>
    ((blamesLiterals_ofText _).bind fun _ => h.parenthesisItems).ite (blamesLiterals_pure _)

theorem BlamesLiterals.braceItems (h : BlamesLiterals item) :
    BlamesLiterals (braceItems item shrinks) := by
  intro ts
  fun_induction Production.braceItems item shrinks ts with
  | case1 =>
    intro m hm
    cases hm
  | case2 ts hs e he =>
    rintro m ⟨⟩
    exact h _ _ he
  | case3 ts hs a mid hm e he ih =>
    rintro m ⟨⟩
    exact ih _ he
  | case4 =>
    intro m hm
    cases hm

theorem BlamesLiterals.untilEnd (h : BlamesLiterals item) {ts : List Token} {m : Mismatch}
    (hm : untilEnd item shrinks ts = .error m) : m.BlamesLiteral := by
  fun_induction Production.untilEnd item shrinks ts generalizing m with
  | case1 => cases hm
  | case2 ts hs e he =>
    cases hm
    exact h _ _ he
  | case3 ts hs a mid hi ih =>
    cases hr : Production.untilEnd item shrinks mid with
    | error e =>
      rw [hr] at hm
      cases hm
      exact ih hr
    | ok as =>
      rw [hr] at hm
      cases hm

theorem kind_of_exprOfToken {t : Token} {k : TokenKind}
    (h : exprOfToken t = .error [.kind k]) : t.kind = k := by
  unfold exprOfToken at h
  split at h
  · cases h
  · next hkind =>
    split at h <;> cases h
    exact hkind
  · next hkind =>
    split at h <;> cases h
    exact hkind
  all_goals cases h

theorem blamesLiterals_value : BlamesLiterals value := by
  intro ts m h k hk hname
  cases ts with
  | nil =>
    cases h
    cases hk
  | cons t ts =>
    simp only [value] at h
    split at h
    · cases h
    · next expected he =>
      cases h
      obtain rfl : expected = [.kind k] := hk
      exact ⟨t, rfl, kind_of_exprOfToken he, he⟩

theorem blamesLiterals_assignedValue? : BlamesLiterals assignedValue? :=
  (blamesLiterals_isAt _).bind fun _ =>
    ((blamesLiterals_ofText _).bind fun _ => blamesLiterals_value.bind fun _ =>
      blamesLiterals_pure _).ite (blamesLiterals_pure _)

theorem blamesLiterals_param : BlamesLiterals param :=
  blamesLiterals_identifier.bind fun _ => blamesLiterals_assignedValue?.bind fun _ =>
    blamesLiterals_pure _

theorem blamesLiterals_arg : BlamesLiterals arg :=
  blamesLiterals_identifier.bind fun _ => blamesLiterals_assignedValue?.bind fun _ =>
    blamesLiterals_pure _

theorem blamesLiterals_condition : BlamesLiterals condition :=
  blamesLiterals_identifier.bind fun _ => blamesLiterals_param.parenthesised.bind fun _ =>
    blamesLiterals_pure _

theorem blamesLiterals_call : BlamesLiterals call :=
  blamesLiterals_identifier.bind fun _ => blamesLiterals_arg.parenthesised.bind fun _ =>
    blamesLiterals_pure _

theorem blamesLiterals_statement : BlamesLiterals statement :=
  (blamesLiterals_isAtKeyword _).bind fun _ =>
    ((blamesLiterals_ofText _).bind fun _ => blamesLiterals_identifier.bind fun _ =>
      blamesLiterals_pure _).ite
    ((blamesLiterals_isAtKind _).bind fun _ =>
      (blamesLiterals_call.bind fun _ => blamesLiterals_pure _).ite (blamesLiterals_mismatch _ _))

theorem blamesLiterals_statements : BlamesLiterals statements :=
  blamesLiterals_statement.commaSeparated.bind fun _ => (blamesLiterals_ofText _).bind fun _ =>
    blamesLiterals_pure _

theorem blamesLiterals_trigger : BlamesLiterals trigger :=
  (blamesLiterals_ofText _).bind fun _ => blamesLiterals_condition.commaSeparated.bind fun _ =>
    (blamesLiterals_ofText _).bind fun _ => blamesLiterals_statements.bind fun _ =>
      blamesLiterals_pure _

theorem blamesLiterals_init : BlamesLiterals init :=
  (blamesLiterals_isAt _).bind fun _ => (blamesLiterals_isAt _).bind fun _ =>
    (blamesLiterals_pure _).ite blamesLiterals_statements

theorem blamesLiterals_state : BlamesLiterals state :=
  (blamesLiterals_ofText _).bind fun _ => blamesLiterals_identifier.bind fun _ =>
    (blamesLiterals_ofText _).bind fun _ => blamesLiterals_init.bind fun _ =>
      blamesLiterals_trigger.braceItems.bind fun _ => blamesLiterals_pure _

theorem blamesLiterals_assignment : BlamesLiterals assignment :=
  blamesLiterals_identifier.bind fun _ => (blamesLiterals_ofText _).bind fun _ =>
    blamesLiterals_value.bind fun _ => (blamesLiterals_ofText _).bind fun _ =>
      blamesLiterals_pure _

theorem blamesLiterals_entry : BlamesLiterals entry :=
  (blamesLiterals_isAtKeyword _).bind fun _ =>
    (blamesLiterals_state.bind fun _ => (blamesLiterals_ofText _).bind fun _ =>
      blamesLiterals_pure _).ite
    ((blamesLiterals_isAtKind _).bind fun _ =>
      (blamesLiterals_assignment.bind fun _ => blamesLiterals_pure _).ite
        (blamesLiterals_mismatch _ _))

theorem blamesLiteral_of_file {tokens : List Token} {m : Mismatch} (h : file tokens = .error m) :
    m.BlamesLiteral := by
  unfold file at h
  cases hr : Production.untilEnd entry shrinks_entry tokens with
  | error e =>
    rw [hr] at h
    cases h
    exact blamesLiterals_entry.untilEnd hr
  | ok =>
    rw [hr] at h
    cases h

end Productions

/-! ## Sources -/

/-- What the reading of values relies on about a token. A string has its quotes, and the text
between them is decoded whole. A number with a point is read. A whole number is read, as the number
that it writes, exactly if that is within 64 bits. -/
structure Readable (t : Token) : Prop where
  string : t.kind = .string → ∃ body, t.text = String.ofList ('"' :: body ++ ['"']) ∧
    endsInEscape body = false ∧ exprOfToken t = .ok (.str (unescape (String.ofList body)))
  float : t.kind = .float → ∃ x, readBinary64? t.text.toList = some x ∧
    exprOfToken t = .ok (.float x)
  int : t.kind = .int → ∃ n, Writes t.text.toList n ∧ ∀ ts,
    (-2 ^ 63 ≤ n ∧ n < 2 ^ 63 → ∃ i : Int64, value (t :: ts) = .ok (.int i, ts) ∧ i.toInt = n) ∧
    (¬ (-2 ^ 63 ≤ n ∧ n < 2 ^ 63) → value (t :: ts) = .error ⟨[.kind .int], t :: ts⟩)

section Sources

variable {r : Reader} {t : Token}

theorem readable_of_mem_run (ht : t ∈ (Lexer.ofReader r).run.1) : Readable t := by
  have hlexeme {k : TokenKind} (hk : t.kind = k) (hne : k ≠ .illegal) :
      ∃ after, IsLexeme k t.text.toList after :=
    hk ▸ Lexer.isLexeme_of_mem_run ht (hk ▸ hne)
  refine ⟨fun hk => ?_, fun hk => ?_, fun hk => ?_⟩
  · obtain ⟨after, h⟩ := hlexeme hk (by decide)
    obtain ⟨body, htext, hbody⟩ := h.exists_body
    refine ⟨body, ?_, hbody.endsInEscape, ?_⟩
    · rw [← htext, String.ofList_toList]
    · unfold exprOfToken unescape
      simp only [hk, htext, List.cons_append, List.drop_one, List.tail_cons, List.dropLast_concat,
        String.toList_ofList]
  · obtain ⟨after, h⟩ := hlexeme hk (by decide)
    obtain ⟨x, hx⟩ := Option.isSome_iff_exists.1 (isSome_readBinary64? h.isDecimal)
    refine ⟨x, hx, ?_⟩
    unfold exprOfToken
    simp only [hk, hx]
  · obtain ⟨after, h⟩ := hlexeme hk (by decide)
    obtain ⟨n, hn⟩ := exists_writes h.isNumeral
    exact ⟨n, hn, value_of_writes hk hn⟩

/-- Nothing else is named like a kind of tokens. -/
theorem eq_kind_of_label {x : Expectation} {k : TokenKind} (h : x.label = k.name) :
    x = .kind k := by
  cases x with
  | kind k' =>
    congr 1
    revert h
    cases k' <;> cases k <;> decide
  | text text =>
    have hquote : k.name.toList.head? ≠ some '"' := by
      cases k <;> decide
    refine (hquote ?_).elim
    rw [← h]
    show (String.ofList _).toList.head? = _
    rw [String.toList_ofList]
    rfl

/-- A syntax error that expects nothing but a literal is at a token of that kind that stands for no
value. -/
theorem exists_literal_of_error {filename : String} {d : Diagnostic} {k : TokenKind}
    (h : (parse filename (.ofReader r)).1 = .error (.unexpected d)) (hd : d.expected = [k.name])
    (hk : k ≠ .identifier) :
    ∃ t ∈ (Lexer.ofReader r).run.1, t.kind = k ∧ exprOfToken t = .error [.kind k] ∧
      d.location = t.location ∧ d.kind = t.kind ∧ d.text = t.text := by
  obtain ⟨m, hfile, herror⟩ := exists_mismatch Lexer.failure_of_run h
  have hremaining : ∀ t ∈ m.remaining, t ∈ (Lexer.ofReader r).run.1 ∧ t.kind ≠ .error :=
    fun _ => mem_of_mem_remaining (fun _ => Lexer.isTerminal_of_mem_run) hfile
  obtain ⟨-, rfl⟩ :=
    error_eq_unexpected Lexer.failure_of_run (fun t ht => (hremaining t ht).2) herror
  obtain ⟨x, hx, hlabel⟩ := List.map_eq_singleton_iff.1 hd
  rw [eq_kind_of_label hlabel] at hx
  obtain ⟨t, ht, hkind, hexpr⟩ := blamesLiteral_of_file hfile k hx hk
  refine ⟨t, (hremaining t (List.mem_of_mem_head? ht)).1, hkind, hexpr, ?_⟩
  have hseen : m.remaining.headD (Lexer.ofReader r).run.2.token = t := by
    rw [List.headD_eq_head?_getD, ht, Option.getD_some]
  rw [hseen]
  exact ⟨rfl, rfl, rfl⟩

end Sources

/-- Reading a source cannot fail but with an error. However far its tokens are taken, the lexer is
between two characters of its line, or at an end, and so are all places that it has passed over in
this line; no rule matches more than is left there. Every token stands for a value where one is
read, unless it is a whole number beyond 64 bits. So a number with a point is never all that is
expected, and a whole number only where one beyond 64 bits stands. -/
theorem front_end_is_safe (r : Reader) :
    (∀ n, ∃ after, ((Lexer.ofReader r).taken n).Placed after) ∧
    (∀ n position rest, Scans ((Lexer.ofReader r).taken n).text position rest →
      (∃ before, ((Lexer.ofReader r).taken n).text = before ++ rest ∧
        position = byteLength before) ∧
      ∀ kind length, firstMatch? rules rest = some (kind, length) → length ≤ rest.length) ∧
    (∀ t ∈ (Lexer.ofReader r).run.1, Readable t) ∧
    ∀ filename d, (parse filename (.ofReader r)).1 = .error (.unexpected d) →
      d.expected ≠ ["float"] ∧
      (d.expected = ["int"] → d.kind = .int ∧
        ∃ n, Writes d.text.toList n ∧ ¬ (-2 ^ 63 ≤ n ∧ n < 2 ^ 63)) := by
  refine ⟨Lexer.exists_placed_taken r, fun n position rest h => ⟨h.exists_before, ?_⟩,
    fun t => readable_of_mem_run, fun filename d h => ⟨fun hd => ?_, fun hd => ?_⟩⟩
  · exact fun kind length => length_le_of_firstMatch?
  · obtain ⟨t, ht, hkind, hexpr, -⟩ := exists_literal_of_error (k := .float) h hd (by decide)
    obtain ⟨x, -, hx⟩ := (readable_of_mem_run ht).float hkind
    cases hexpr.symm.trans hx
  · obtain ⟨t, ht, hkind, hexpr, -, hdkind, hdtext⟩ :=
      exists_literal_of_error (k := .int) h hd (by decide)
    obtain ⟨n, hn, hvalue⟩ := (readable_of_mem_run ht).int hkind
    rw [hdkind, hdtext]
    refine ⟨hkind, n, hn, fun hin => ?_⟩
    obtain ⟨i, hi, -⟩ := (hvalue []).1 hin
    simp only [value, hexpr] at hi
    cases hi

end Syntax

end EventMachine
