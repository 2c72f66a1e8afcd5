import EventMachine.Json.Parser
import EventMachine.Proofs.Text.Trim
import Mathlib.Data.List.TakeWhile

/-!
# How far a reader of JSON looks

What is read of a text depends on the characters that are taken and on the one behind them, if on
this one at all: the same is taken if the text ends there (`Local`). So white space around the
text of an object does not matter (`parse?_trim`).

1. Readers that are put together from local ones are local (`Local.bind`, `Local.cons`).
2. Some readers have fuel, which bounds how many characters they take; any fuel that is enough for
   these gives the same (`LocalBy`).
3. One lemma for each reader, up to `local_readValue?`, by induction on the room for nesting.
-/

namespace EventMachine.Json

open Number

variable {α β : Type} {c : Char} {cs rest more used : List Char}

/-- The text is empty, or begins like the other one. -/
def Behind (more rest : List Char) : Prop := ∀ c ∈ more.head?, c ∈ rest.head?

/-- Before every end that is empty or begins like `rest`, the reader takes `used` and gives the
value. -/
def Takes (p : List Char → Option (α × List Char)) (used rest : List Char) (a : α) : Prop :=
  ∀ more, Behind more rest → p (used ++ more) = some (a, more)

/-- The reader leaves an end of the text, and takes the same before an end that is empty or begins
like this one. -/
def Local (p : List Char → Option (α × List Char)) : Prop :=
  ∀ cs a rest, p cs = some (a, rest) → ∃ used, cs = used ++ rest ∧ Takes p used rest a

/-- The reader with fuel is local, with any fuel that is enough for the characters it takes. -/
def LocalBy (p : (fuel : Nat) → List Char → Option (α × List Char)) : Prop :=
  ∀ fuel cs a rest, p fuel cs = some (a, rest) →
    ∃ used, cs = used ++ rest ∧ ∀ fuel', used.length ≤ fuel' → Takes (p fuel') used rest a

section Combining

variable {p : (fuel : Nat) → List Char → Option (α × List Char)}

theorem Behind.append (h : Behind more rest) (used : List Char) :
    Behind (used ++ more) (used ++ rest) := by
  cases used with
  | nil => exact h
  | cons c used => exact fun _ => id

theorem Local.localBy {p : List Char → Option (α × List Char)} (hp : Local p) :
    LocalBy fun _ => p := by
  intro _ cs a rest h
  obtain ⟨used, rfl, htakes⟩ := hp cs a rest h
  exact ⟨used, rfl, fun _ _ => htakes⟩

/-- The length of a text is fuel enough for it. -/
theorem LocalBy.local (hp : LocalBy p) : Local fun cs => p (cs.length + 1) cs := by
  intro cs a rest h
  obtain ⟨used, rfl, htakes⟩ := hp _ cs a rest h
  refine ⟨used, rfl, fun more hmore => htakes _ ?_ more hmore⟩
  rw [List.length_append]
  omega

theorem local_some (a : α) : Local fun cs => some (a, cs) := by
  rintro cs _ rest ⟨⟩
  exact ⟨[], rfl, fun more _ => rfl⟩

theorem local_none : Local fun _ => (none : Option (α × List Char)) := nofun

theorem Local.ite {b : Prop} [Decidable b] {p q : List Char → Option (α × List Char)}
    (hp : Local p) (hq : Local q) : Local fun cs => if b then p cs else q cs := by
  split <;> assumption

theorem LocalBy.bind {f : α → (fuel : Nat) → List Char → Option (β × List Char)} (hp : LocalBy p)
    (hf : ∀ a, LocalBy (f a)) : LocalBy fun fuel cs => p fuel cs >>= fun r => f r.1 fuel r.2 := by
  intro fuel cs b rest h
  obtain ⟨⟨a, mid⟩, hfirst, hsecond⟩ := Option.bind_eq_some_iff.1 h
  obtain ⟨used, rfl, htakes⟩ := hp fuel cs a mid hfirst
  obtain ⟨used', rfl, htakes'⟩ := hf a fuel mid b rest hsecond
  refine ⟨used ++ used', (List.append_assoc ..).symm, fun fuel' hfuel more hmore => ?_⟩
  rw [List.length_append] at hfuel
  show p _ _ >>= _ = _
  rw [List.append_assoc, htakes fuel' (by omega) _ (hmore.append used')]
  exact htakes' fuel' (by omega) more hmore

theorem Local.bind {p : List Char → Option (α × List Char)}
    {f : α → List Char → Option (β × List Char)} (hp : Local p) (hf : ∀ a, Local (f a)) :
    Local fun cs => p cs >>= fun r => f r.1 r.2 :=
  (hp.localBy.bind fun a => (hf a).localBy).local

/-- A reader that looks whether a character of some kind comes first. -/
theorem LocalBy.ofHead {x : Char → Bool} {q : (fuel : Nat) → List Char → Option (α × List Char)}
    {f : Char → List Char → Option (α × List Char)} (hf : ∀ c, Local (f c)) (hq : LocalBy q)
    (hp : ∀ fuel cs, p fuel cs = match cs with
      | [] => q fuel []
      | c :: cs => if x c then f c cs else q fuel (c :: cs)) : LocalBy p := by
  have hother {fuel : Nat} {cs : List Char} (hx : ∀ c ∈ cs.head?, ¬ x c = true) :
      p fuel cs = q fuel cs := by
    rw [hp]
    cases cs with
    | nil => rfl
    | cons c cs => exact if_neg (hx c rfl)
  intro fuel cs a rest h
  by_cases hx : ∀ c ∈ cs.head?, ¬ x c = true
  · rw [hother hx] at h
    obtain ⟨used, rfl, htakes⟩ := hq fuel cs a rest h
    refine ⟨used, rfl, fun fuel' hfuel more hmore => ?_⟩
    rw [hother fun c hc => hx c (hmore.append used c hc)]
    exact htakes fuel' hfuel more hmore
  · cases cs with
    | nil => exact absurd nofun hx
    | cons c cs =>
      have hc : x c = true := by simpa using hx
      rw [hp] at h
      simp only [hc, if_true] at h
      obtain ⟨used, rfl, htakes⟩ := hf c cs a rest h
      refine ⟨c :: used, rfl, fun fuel' _ more hmore => ?_⟩
      rw [hp]
      simp only [List.cons_append, hc, if_true]
      exact htakes more hmore

theorem Local.ofHead {x : Char → Bool} {p q : List Char → Option (α × List Char)}
    {f : Char → List Char → Option (α × List Char)} (hf : ∀ c, Local (f c)) (hq : Local q)
    (hp : ∀ cs, p cs = match cs with
      | [] => q []
      | c :: cs => if x c then f c cs else q (c :: cs)) : Local p :=
  (LocalBy.ofHead (p := fun _ => p) hf hq.localBy fun _ => hp).local

/-- A reader that takes a character first. -/
theorem Local.cons {p : List Char → Option (α × List Char)}
    {f : Char → List Char → Option (α × List Char)} (hf : ∀ c, Local (f c))
    (hp : ∀ cs, p cs = match cs with
      | [] => none
      | c :: cs => f c cs) : Local p :=
  .ofHead (x := fun _ => true) hf local_none hp

/-- Fuel for what is taken is fuel for less and one more step. -/
theorem exists_fuel (used : List Char) {all : List Char} {fuel : Nat} (h : all.length ≤ fuel)
    (hlt : used.length < all.length) : ∃ k, fuel = k + 1 ∧ used.length ≤ k :=
  ⟨fuel - 1, by omega, by omega⟩

end Combining

/-! ## Runs of characters -/

/-- The longest beginning with a property is followed by something without it. -/
theorem takeWhile_append_of_behind {p : Char → Bool} (h : Behind more (cs.dropWhile p)) :
    (cs.takeWhile p ++ more).takeWhile p = cs.takeWhile p ∧
      (cs.takeWhile p ++ more).dropWhile p = more := by
  have hmore : ∀ c ∈ more.head?, p c = false := fun c hc => by
    have hhead := List.head?_dropWhile_not p cs
    rw [Option.mem_def.1 (h c hc)] at hhead
    exact hhead
  have hall : ∀ c ∈ cs.takeWhile p, p c = true := List.all_eq_true.1 List.all_takeWhile
  rw [List.takeWhile_append_of_pos hall, List.dropWhile_append_of_pos hall]
  cases more with
  | nil => exact ⟨List.append_nil _, rfl⟩
  | cons c more =>
    have hc : ¬ p c = true := by simp [hmore c rfl]
    rw [List.takeWhile_cons_of_neg hc, List.dropWhile_cons_of_neg hc, List.append_nil]
    exact ⟨rfl, rfl⟩

theorem local_span (p : Char → Bool) :
    Local fun cs => some (cs.takeWhile p, cs.dropWhile p) := by
  rintro cs _ rest ⟨⟩
  refine ⟨cs.takeWhile p, List.takeWhile_append_dropWhile.symm, fun more hmore => ?_⟩
  obtain ⟨htake, hdrop⟩ := takeWhile_append_of_behind hmore
  exact congrArg some (Prod.ext htake hdrop)

/-- What stands behind white space, and before something else. -/
theorem exists_blanks (h : skipBlanks cs = c :: rest) :
    ∃ blanks, cs = blanks ++ c :: rest ∧ ∀ more, skipBlanks (blanks ++ c :: more) = c :: more := by
  refine ⟨cs.takeWhile isBlank, ?_, fun more => ?_⟩
  · rw [← h]
    exact List.takeWhile_append_dropWhile.symm
  · refine (takeWhile_append_of_behind (p := isBlank) ?_).2
    rw [show cs.dropWhile isBlank = c :: rest from h]
    exact fun _ => id

/-- White space is not a part of what is read behind it. -/
theorem Local.skipBlanks {p : List Char → Option (α × List Char)} (hp : Local p) :
    Local fun cs => p (Json.skipBlanks cs) :=
  (local_span isBlank).bind fun _ => hp

/-! ## Strings -/

theorem local_dropWord? (word : List Char) (a : α) :
    Local fun cs => (dropWord? word cs).map (a, ·) := by
  induction word with
  | nil => exact local_some a
  | cons w word ih =>
    refine .cons (f := fun c cs => if w == c then (dropWord? word cs).map (a, ·) else none)
      (fun c => ih.ite local_none) fun cs => ?_
    cases cs with
    | nil => rfl
    | cons c cs =>
      show Option.map _ (if _ then _ else _) = if _ then _ else _
      split <;> rfl

theorem local_readHex4? : Local readHex4? := by
  intro cs n rest h
  unfold readHex4? at h
  split at h
  · next a b c d rest' =>
    simp only [Option.bind_eq_bind, Option.bind_eq_some_iff, Option.pure_def, Option.some.injEq,
      Prod.mk.injEq] at h
    obtain ⟨a', ha, b', hb, c', hc, d', hd, rfl, rfl⟩ := h
    refine ⟨[a, b, c, d], rfl, fun more _ => ?_⟩
    simp [readHex4?, ha, hb, hc, hd]
  · cases h

theorem local_readUnicode? : Local readUnicode? := by
  intro cs d rest h
  obtain ⟨⟨n, mid⟩, hn, hd⟩ := Option.bind_eq_some_iff.1 h
  obtain ⟨used, rfl, htakes⟩ := local_readHex4? _ _ _ hn
  simp only at hd
  split at hd
  · cases hd
  · next hlow =>
    split at hd
    · next hhigh =>
      -- the first half of a surrogate pair
      split at hd
      · next mid =>
        obtain ⟨⟨m, _⟩, hm, hd⟩ := Option.bind_eq_some_iff.1 hd
        simp only at hd
        split at hd
        · next hpair =>
          obtain ⟨rfl, rfl⟩ := Prod.mk.inj (Option.some.inj hd)
          obtain ⟨used', rfl, htakes'⟩ := local_readHex4? _ _ _ hm
          refine ⟨used ++ '\\' :: 'u' :: used', by simp, fun more hmore => ?_⟩
          have hfirst := htakes ('\\' :: 'u' :: (used' ++ more)) fun _ => id
          simp only [readUnicode?, List.append_assoc, List.cons_append, hfirst, hlow, hhigh,
            htakes' more hmore, hpair, Option.bind_eq_bind, Option.bind_some, and_self, if_true,
            if_false]
        · cases hd
      · cases hd
    · next hhigh =>
      cases hd
      refine ⟨used, rfl, fun more hmore => ?_⟩
      simp [readUnicode?, htakes more hmore, hlow, hhigh]

theorem localBy_readString? : LocalBy readString? := by
  intro fuel cs
  fun_induction readString? fuel cs with
  | case1 | case2 | case6 | case7 => nofun
  | case3 fuel c cs hc =>
    rintro text rest ⟨⟩
    refine ⟨[c], rfl, fun fuel' hfuel more _ => ?_⟩
    obtain ⟨k, rfl, -⟩ := exists_fuel [] hfuel (by simp)
    simp [readString?, hc]
  | case4 fuel c hc hb cs ih =>
    intro text rest h
    obtain ⟨⟨d, mid⟩, hd, h⟩ := Option.bind_eq_some_iff.1 h
    obtain ⟨⟨text', rest'⟩, htext, ⟨⟩⟩ := Option.bind_eq_some_iff.1 h
    obtain ⟨used, rfl, htakes⟩ := local_readUnicode? _ _ _ hd
    obtain ⟨used', rfl, htakes'⟩ := ih _ _ _ htext
    refine ⟨c :: 'u' :: used ++ used', by simp, fun fuel' hfuel more hmore => ?_⟩
    obtain ⟨k, rfl, hk⟩ := exists_fuel used' hfuel (by
      simp only [List.cons_append, List.length_cons, List.length_append]
      omega)
    simp [readString?, hc, hb, htakes _ (hmore.append used'), htakes' k hk more hmore]
  | case5 fuel c hc hb d cs hd ih =>
    intro text rest h
    obtain ⟨e, he, h⟩ := Option.bind_eq_some_iff.1 h
    obtain ⟨⟨text', rest'⟩, htext, ⟨⟩⟩ := Option.bind_eq_some_iff.1 h
    obtain ⟨used', rfl, htakes'⟩ := ih _ _ htext
    refine ⟨c :: d :: used', by simp, fun fuel' hfuel more hmore => ?_⟩
    obtain ⟨k, rfl, hk⟩ := exists_fuel used' hfuel (by simp only [List.length_cons]; omega)
    simp [readString?, hc, hb, he, htakes' k hk more hmore]
  | case8 fuel c cs hc hb hlow ih =>
    intro text rest h
    obtain ⟨⟨text', rest'⟩, htext, ⟨⟩⟩ := Option.bind_eq_some_iff.1 h
    obtain ⟨used', rfl, htakes'⟩ := ih _ _ htext
    refine ⟨c :: used', by simp, fun fuel' hfuel more hmore => ?_⟩
    obtain ⟨k, rfl, hk⟩ := exists_fuel used' hfuel (by simp)
    simp [readString?, hc, hb, hlow, htakes' k hk more hmore]

/-! ## Numbers -/

theorem local_splitSign : Local fun cs => some (splitSign cs) := by
  refine .ofHead (x := fun c => c == '-' || c == '+')
    (f := fun c cs => some (c == '-', cs)) (fun c => local_some _) (local_some false) fun cs => ?_
  show some (splitSign cs) = _
  unfold splitSign
  split
  · rfl
  · rfl
  · next hminus hplus =>
    cases cs with
    | nil => rfl
    | cons c cs =>
      have hm : c ≠ '-' := fun hc => hminus cs (by rw [hc])
      have hp : c ≠ '+' := fun hc => hplus cs (by rw [hc])
      simp [hm, hp]

theorem local_readPlaces? : Local readPlaces? := by
  refine .ofHead (x := (· == '.'))
    (f := fun _ cs => if (cs.takeWhile isDigit).isEmpty then none
      else some (some (cs.takeWhile isDigit), cs.dropWhile isDigit)) (fun c => ?_)
    (local_some none) fun cs => ?_
  · exact (local_span isDigit).bind
      (f := fun digits cs => if digits.isEmpty then none else some (some digits, cs))
      fun digits => local_none.ite (local_some (some digits))
  · unfold readPlaces?
    split
    · rfl
    · next hpoint =>
      cases cs with
      | nil => rfl
      | cons c cs =>
        have hc : c ≠ '.' := fun hc => hpoint cs (by rw [hc])
        simp [hc]

/-- Reads the digits of an exponent, whose sign is given. -/
def readPower? (negative : Bool) (cs : List Char) : Option (Option Int × List Char) :=
  let digits := cs.takeWhile isDigit
  if digits.isEmpty then none
  else
    let n : Int := digitsValue digits
    some (some (if negative then -n else n), cs.dropWhile isDigit)

theorem local_readPower? (negative : Bool) : Local (readPower? negative) := by
  have hdigits (digits : List Char) : Local fun cs => if digits.isEmpty then none
      else some (some (if negative then -(digitsValue digits : Int) else digitsValue digits), cs) :=
    local_none.ite (local_some _)
  have hrun := (local_span isDigit).bind hdigits
  exact hrun

theorem local_readExponent? : Local readExponent? := by
  refine .ofHead (x := fun c => c == 'e' || c == 'E')
    (f := fun _ cs => readPower? (splitSign cs).1 (splitSign cs).2) (fun c => ?_)
    (local_some none) fun cs => ?_
  · exact local_splitSign.bind local_readPower?
  · cases cs <;> rfl

/-- Reads what stands behind the sign of a number. -/
def readUnsigned? (negative : Bool) (cs : List Char) : Option (Json × List Char) := do
  let whole := cs.takeWhile isDigit
  let startsWithZero := whole.head? == some '0'
  if whole.isEmpty || (startsWithZero && 1 < whole.length) then none
  else
    let (places, rest) ← readPlaces? (cs.dropWhile isDigit)
    let (exponent, rest) ← readExponent? rest
    let value ← number? negative whole places exponent
    return (value, rest)

theorem local_readUnsigned? (negative : Bool) : Local (readUnsigned? negative) := by
  refine (local_span isDigit).bind
    (f := fun whole cs =>
      if whole.isEmpty || (whole.head? == some '0' && 1 < whole.length) then none
      else do
        let (places, rest) ← readPlaces? cs
        let (exponent, rest) ← readExponent? rest
        let value ← number? negative whole places exponent
        return (value, rest)) fun whole => local_none.ite ?_
  refine local_readPlaces?.bind (f := fun places cs => do
    let (exponent, rest) ← readExponent? cs
    let value ← number? negative whole places exponent
    return (value, rest)) fun places => ?_
  refine local_readExponent?.bind (f := fun exponent cs => do
    let value ← number? negative whole places exponent
    return (value, cs)) fun exponent => ?_
  cases number? negative whole places exponent with
  | none => exact local_none
  | some value => exact local_some value

theorem local_readNumber? : Local readNumber? := by
  refine .ofHead (x := (· == '-')) (f := fun _ => readUnsigned? true)
    (fun _ => local_readUnsigned? true) (local_readUnsigned? false) fun cs => ?_
  cases cs with
  | nil => rfl
  | cons c cs =>
    by_cases hc : c = '-'
    · subst hc
      rfl
    · simp only [beq_iff_eq, hc, if_false]
      unfold readNumber?
      split
      next heq =>
        split at heq
        · next hminus => exact absurd (List.cons.inj hminus).1 hc
        · cases heq
          rfl

/-! ## Arrays and objects -/

section Containers

variable {item : Reader}

/-- Takes white space and a character, and reads what follows. -/
def expect (d : Char) (q : List Char → Option (α × List Char)) (cs : List Char) :
    Option (α × List Char) :=
  if (skipBlanks cs).head? = some d then q (skipBlanks cs).tail else none

theorem Local.expect {q : List Char → Option (α × List Char)} (hq : Local q) (d : Char) :
    Local (expect d q) := by
  have hhead : Local fun cs => if cs.head? = some d then q cs.tail else none := by
    refine .cons (f := fun c cs => if c = d then q cs else none) (fun c => hq.ite local_none)
      fun cs => ?_
    cases cs with
    | nil => rfl
    | cons c cs => simp
  exact hhead.skipBlanks

/-- A reader of a list whose parts have a comma in front, up to a closing character. -/
theorem localBy_list (close : Char) {q : List Char → Option (α × List Char)}
    {p : (fuel : Nat) → List Char → Option (List α × List Char)} (hq : Local q)
    (hzero : ∀ cs, p 0 cs = none)
    (hsucc : ∀ fuel cs, p (fuel + 1) cs = match skipBlanks cs with
      | [] => none
      | c :: cs =>
        if c == close then some ([], cs)
        else if c == ',' then do
          let (a, rest) ← q cs
          let (as, rest) ← p fuel rest
          return (a :: as, rest)
        else none) : LocalBy p := by
  intro fuel
  induction fuel with
  | zero =>
    intro cs as rest h
    rw [hzero] at h
    cases h
  | succ fuel ih =>
    intro cs as rest h
    rw [hsucc] at h
    split at h
    · cases h
    · next c cs' hskip =>
      obtain ⟨blanks, rfl, hblanks⟩ := exists_blanks hskip
      split at h
      · next hclose =>
        cases h
        refine ⟨blanks ++ [c], by simp, fun fuel' hfuel more _ => ?_⟩
        obtain ⟨k, rfl, -⟩ := exists_fuel [] hfuel (by simp)
        rw [hsucc, List.append_assoc, List.singleton_append, hblanks]
        exact if_pos hclose
      · next hclose =>
        split at h
        · next hcomma =>
          obtain ⟨⟨a, mid⟩, ha, h⟩ := Option.bind_eq_some_iff.1 h
          obtain ⟨⟨as', rest'⟩, has, ⟨⟩⟩ := Option.bind_eq_some_iff.1 h
          obtain ⟨used, rfl, htakes⟩ := hq _ _ _ ha
          obtain ⟨used', rfl, htakes'⟩ := ih _ _ _ has
          refine ⟨blanks ++ c :: (used ++ used'), by simp, fun fuel' hfuel more hmore => ?_⟩
          obtain ⟨k, rfl, hk⟩ := exists_fuel used' hfuel (by
            simp only [List.length_cons, List.length_append]
            omega)
          rw [hsucc, List.append_assoc, List.cons_append, hblanks]
          simp [hclose, hcomma, htakes _ (hmore.append used'), htakes' k hk more hmore]
        · cases h

theorem expect_of_cons {d : Char} (q : List Char → Option (α × List Char))
    (h : skipBlanks cs = d :: rest) : expect d q cs = q rest := by
  rw [Json.expect, h]
  exact if_pos rfl

theorem expect_eq_none {d : Char} (q : List Char → Option (α × List Char))
    (h : ∀ rest, skipBlanks cs ≠ d :: rest) : expect d q cs = none := by
  refine if_neg fun hhead => ?_
  obtain ⟨rest, hskip⟩ := List.head?_eq_some_iff.1 hhead
  exact h rest hskip

theorem readMember?_eq (cs : List Char) :
    readMember? item cs = expect '"' (fun cs => readString? (cs.length + 1) cs >>= fun r =>
      expect ':' (fun cs => item cs >>= fun v =>
        some ((String.ofList r.1, v.1), v.2)) r.2) cs := by
  unfold readMember?
  split
  · next hskip =>
    rw [expect_of_cons _ hskip]
    refine congrArg _ (funext fun ⟨name, rest⟩ => ?_)
    simp only
    split
    · next hcolon =>
      rw [expect_of_cons _ hcolon]
      rfl
    · next hcolon => rw [expect_eq_none _ hcolon]
  · next hquote => rw [expect_eq_none _ hquote]

theorem local_readMember? (hitem : Local item) : Local (readMember? item) := by
  rw [funext readMember?_eq]
  have hvalue (name : List Char) : Local fun cs => item cs >>= fun v =>
      some ((String.ofList name, v.1), v.2) :=
    hitem.bind fun value => local_some (String.ofList name, value)
  exact (localBy_readString?.local.bind fun name => (hvalue name).expect ':').expect '"'

theorem localBy_readItems? (hitem : Local item) : LocalBy (readItems? item) := by
  refine localBy_list ']' hitem (fun _ => rfl) fun fuel cs => ?_
  rw [readItems?]
  split
  · next hskip => simp [hskip]
  · next hskip => simp [hskip]
  · next hclose hcomma =>
    split
    · rfl
    · next c cs' hskip =>
      have hne : c ≠ ']' := fun hc => hclose cs' (by rw [hskip, hc])
      have hne' : c ≠ ',' := fun hc => hcomma cs' (by rw [hskip, hc])
      simp [hne, hne']

theorem localBy_readMembers? (hitem : Local item) : LocalBy (readMembers? item) := by
  refine localBy_list '\x7d' (local_readMember? hitem) (fun _ => rfl) fun fuel cs => ?_
  rw [readMembers?]
  split
  · next hskip => simp [hskip]
  · next hskip => simp [hskip]
  · next hclose hcomma =>
    split
    · rfl
    · next c cs' hskip =>
      have hne : c ≠ '\x7d' := fun hc => hclose cs' (by rw [hskip, hc])
      have hne' : c ≠ ',' := fun hc => hcomma cs' (by rw [hskip, hc])
      simp [hne, hne']

/-- A reader of parts up to a closing character, of which the first has no comma in front. -/
theorem local_container (close : Char) (make : List β → Json) (empty : Json)
    {first : List Char → Option (β × List Char)}
    {more : (fuel : Nat) → List Char → Option (List β × List Char)}
    {p : List Char → Option (Json × List Char)} (hfirst : Local first) (hmore : LocalBy more)
    (hp : ∀ cs, p cs = match skipBlanks cs with
      | [] => do
        let (b, rest) ← first []
        let (bs, rest) ← more (cs.length + 1) rest
        return (make (b :: bs), rest)
      | c :: cs' =>
        if c == close then some (empty, cs')
        else do
          let (b, rest) ← first (c :: cs')
          let (bs, rest) ← more (cs.length + 1) rest
          return (make (b :: bs), rest)) : Local p := by
  have hopened : LocalBy fun fuel cs => match cs with
      | [] => do
        let (b, rest) ← first []
        let (bs, rest) ← more fuel rest
        return (make (b :: bs), rest)
      | c :: cs =>
        if c == close then some (empty, cs)
        else do
          let (b, rest) ← first (c :: cs)
          let (bs, rest) ← more fuel rest
          return (make (b :: bs), rest) := by
    refine .ofHead (x := (· == close)) (f := fun _ cs => some (empty, cs))
      (fun _ => local_some _) (hfirst.localBy.bind fun b => hmore.bind fun bs =>
        (local_some (make (b :: bs))).localBy) fun fuel cs => ?_
    cases cs <;> rfl
  rw [funext hp]
  exact ((local_span isBlank).localBy.bind fun _ => hopened).local

theorem local_readContainer? (hitem : Local item) (isArray : Bool) :
    Local (readContainer? item isArray) := by
  cases isArray with
  | true =>
    refine local_container ']' .array (.array []) hitem
      (localBy_readItems? hitem) fun cs => ?_
    rw [readContainer?, if_pos rfl]
    split
    · next hskip => simp [hskip]
    · next hclose =>
      split
      · next hskip => rw [hskip]
      · next c cs' hskip =>
        have hne : c ≠ ']' := fun hc => hclose cs' (by rw [hskip, hc])
        simp [hne, hskip]
  | false =>
    refine local_container '\x7d' ofMembers (.object [])
      (local_readMember? hitem) (localBy_readMembers? hitem) fun cs => ?_
    rw [readContainer?, if_neg nofun]
    split
    · next hskip => simp [hskip]
    · next hclose =>
      split
      · next hskip => rw [hskip]
      · next c cs' hskip =>
        have hne : c ≠ '\x7d' := fun hc => hclose cs' (by rw [hskip, hc])
        simp [hne, hskip]

end Containers

/-- What a value is read from that begins with a character, where `container` reads an array or
object. -/
def readFrom? (container : (isArray : Bool) → Reader) (c : Char) (rest : List Char) :
    Option (Json × List Char) :=
  if c == '[' || c == '\x7b' then container (c == '[') rest
  else if c == '"' then do
    let (text, rest) ← readString? (rest.length + 1) rest
    return (.string (String.ofList text), rest)
  else if c == 'n' then (dropWord? "ull".toList rest).map (.null, ·)
  else if c == 't' then (dropWord? "rue".toList rest).map (.bool true, ·)
  else (dropWord? "alse".toList rest).map (.bool false, ·)

theorem readValue?_eq (room : Nat) (cs : List Char) :
    readValue? room cs = match skipBlanks cs with
      | [] => none
      | c :: rest =>
        if "[\x7b\"ntf".toList.contains c then
          readFrom? (match room with
            | 0 => fun _ _ => none
            | room + 1 => readContainer? (readValue? room)) c rest
        else readNumber? (c :: rest) := by
  rw [readValue?]
  cases skipBlanks cs with
  | nil => rfl
  | cons c rest =>
    unfold readFrom?
    by_cases harray : c = '['
    · subst harray
      cases room <;> rfl
    by_cases hobject : c = '\x7b'
    · subst hobject
      cases room <;> rfl
    by_cases hquote : c = '"'
    · subst hquote
      rfl
    by_cases hn : c = 'n'
    · subst hn
      rfl
    by_cases ht : c = 't'
    · subst ht
      rfl
    by_cases hf : c = 'f'
    · subst hf
      rfl
    simp [harray, hobject, hquote, hn, ht, hf]

theorem local_readFrom? {container : (isArray : Bool) → Reader}
    (h : ∀ isArray, Local (container isArray)) (c : Char) : Local (readFrom? container c) := by
  have hstring : Local fun rest => do
      let (text, rest) ← readString? (rest.length + 1) rest
      return (Json.string (String.ofList text), rest) :=
    localBy_readString?.local.bind fun text => local_some (Json.string (String.ofList text))
  exact (h _).ite (hstring.ite ((local_dropWord? _ _).ite ((local_dropWord? _ _).ite
    (local_dropWord? _ _))))

theorem local_readValue? (room : Nat) : Local (readValue? room) := by
  have step {container : (isArray : Bool) → Reader} (h : ∀ isArray, Local (container isArray)) :
      Local fun cs => match cs with
        | [] => none
        | c :: rest =>
          if "[\x7b\"ntf".toList.contains c then readFrom? container c rest
          else readNumber? (c :: rest) := 
    .ofHead (local_readFrom? h) local_readNumber? fun cs => by cases cs <;> rfl
  induction room with
  | zero => 
    rw [funext (readValue?_eq 0)]
    exact (step fun _ => local_none).skipBlanks
  | succ room ih => 
    rw [funext (readValue?_eq (room + 1))]
    exact (step (local_readContainer? ih)).skipBlanks

/-! ## White space around an object -/

/-- The last character that is taken of an object is the closing brace. -/
theorem exists_of_readMembers? {item : Reader} (hitem : Local item) {fuel : Nat}
    {members : List (String × Json)} (h : readMembers? item fuel cs = some (members, rest)) :
    ∃ inner, cs = inner ++ '\x7d' :: rest := by
  fun_induction readMembers? item fuel cs generalizing members with
  | case1 | case4 => cases h
  | case2 _ cs rest' hskip =>
    cases h
    obtain ⟨blanks, rfl, -⟩ := exists_blanks hskip
    exact ⟨blanks, rfl⟩
  | case3 _ cs rest' hskip ih =>
    obtain ⟨blanks, rfl, -⟩ := exists_blanks hskip
    obtain ⟨⟨member, mid⟩, hmember, h⟩ := Option.bind_eq_some_iff.1 h
    obtain ⟨⟨members', rest''⟩, hmembers, ⟨⟩⟩ := Option.bind_eq_some_iff.1 h
    obtain ⟨used, rfl, -⟩ := local_readMember? hitem _ _ _ hmember
    obtain ⟨inner, rfl⟩ := ih _ hmembers
    exact ⟨blanks ++ ',' :: (used ++ inner), by simp⟩

theorem exists_of_readContainer? {item : Reader} (hitem : Local item) {value : Json}
    (h : readContainer? item false cs = some (value, rest)) :
    ∃ inner, cs = inner ++ '\x7d' :: rest := by
  rw [readContainer?, if_neg nofun] at h
  split at h
  · next hskip =>
    cases h
    obtain ⟨blanks, rfl, -⟩ := exists_blanks hskip
    exact ⟨blanks, rfl⟩
  · obtain ⟨⟨member, mid⟩, hmember, h⟩ := Option.bind_eq_some_iff.1 h
    obtain ⟨⟨members, rest'⟩, hmembers, ⟨⟩⟩ := Option.bind_eq_some_iff.1 h
    obtain ⟨used, hcs, -⟩ := (local_readMember? hitem) _ _ _ hmember
    obtain ⟨inner, rfl⟩ := exists_of_readMembers? hitem hmembers
    refine ⟨cs.takeWhile isBlank ++ (used ++ inner), ?_⟩
    calc cs = cs.takeWhile isBlank ++ skipBlanks cs := List.takeWhile_append_dropWhile.symm
      _ = cs.takeWhile isBlank ++ (used ++ inner) ++ '\x7d' :: rest := by rw [hcs]; simp

/-- Numbers are no objects. -/
theorem number?_ne_object {negative : Bool} {whole : List Char} {places : Option (List Char)}
    {exponent : Option Int} {members : List (String × Json)} :
    number? negative whole places exponent ≠ some (.object members) := by
  unfold number?
  intro h
  dsimp only at h
  split at h
  · split at h
    · cases h
    · split at h <;> cases h
  · obtain ⟨x, -, hx⟩ := Option.map_eq_some_iff.1 h
    cases hx

theorem readNumber?_ne_object {members : List (String × Json)} :
    readNumber? cs ≠ some (.object members, rest) := by
  intro h
  obtain ⟨negative, cs', h⟩ : ∃ negative cs',
      readUnsigned? negative cs' = some (.object members, rest) := by
    unfold readNumber? at h
    split at h
    exact ⟨_, _, h⟩
  simp only [readUnsigned?] at h
  split at h
  · cases h
  · obtain ⟨_, -, h⟩ := Option.bind_eq_some_iff.1 h
    obtain ⟨_, -, h⟩ := Option.bind_eq_some_iff.1 h
    obtain ⟨value, hvalue, h⟩ := Option.bind_eq_some_iff.1 h
    obtain ⟨rfl, -⟩ := Prod.mk.inj (Option.some.inj h)
    exact number?_ne_object hvalue

/-- Arrays are no objects. -/
theorem readContainer?_ne_object {item : Reader} {members : List (String × Json)} :
    readContainer? item true cs ≠ some (.object members, rest) := by
  intro h
  rw [readContainer?, if_pos rfl] at h
  split at h
  · cases h
  · obtain ⟨_, -, h⟩ := Option.bind_eq_some_iff.1 h
    obtain ⟨_, -, h⟩ := Option.bind_eq_some_iff.1 h
    cases h

/-- An object is read from a text in braces, with white space in front. -/
theorem exists_of_readValue?_object {room : Nat} {members : List (String × Json)}
    (h : readValue? room cs = some (.object members, rest)) :
    ∃ inner, skipBlanks cs = '\x7b' :: inner ++ '\x7d' :: rest := by
  rw [readValue?_eq] at h
  split at h
  · cases h
  · next c rest' hskip =>
    split at h
    · unfold readFrom? at h
      split at h
      · next hopens =>
        cases room with
        | zero => cases h
        | succ room =>
          by_cases harray : c = '['
          · subst harray
            cases readContainer?_ne_object h
          · have hbrace : c = '\x7b' := by simpa [harray] using hopens
            subst hbrace
            obtain ⟨inner, rfl⟩ := exists_of_readContainer? (local_readValue? room) h
            exact ⟨inner, hskip⟩
      · split at h
        · obtain ⟨_, -, h⟩ := Option.bind_eq_some_iff.1 h
          cases h
        · -- the words that stand for a value
          have hword (word : List Char) (value : Json) (hne : value ≠ .object members) :
              (dropWord? word rest').map (value, ·) ≠ some (.object members, rest) := by
            intro hmap
            obtain ⟨_, -, heq⟩ := Option.map_eq_some_iff.1 hmap
            exact hne (Prod.mk.inj heq).1
          split at h
          · cases hword _ _ (by simp) h
          · split at h
            · cases hword _ _ (by simp) h
            · cases hword _ _ (by simp) h
    · cases readNumber?_ne_object h

theorem isWhiteSpace_of_isBlank (h : isBlank c = true) : Text.isWhiteSpace c = true := by
  simp only [isBlank, Bool.or_eq_true, beq_iff_eq] at h
  obtain ((rfl | rfl) | rfl) | rfl := h <;> rfl

/-- What is read does not depend on white space in front. -/
theorem readValue?_congr {room : Nat} {cs cs' : List Char} (h : skipBlanks cs = skipBlanks cs') :
    readValue? room cs = readValue? room cs' := by
  rw [readValue?_eq, readValue?_eq, h]

/-- White space around the text of an object does not matter. -/
theorem parse?_trim {text : String} {members : List (String × Json)}
    (h : parse? text = some (.object members)) :
    parse? (Text.trim text) = some (.object members) := by
  obtain ⟨⟨value, rest⟩, hvalue, hrest⟩ := Option.bind_eq_some_iff.1 h
  obtain ⟨hblank, hval⟩ : skipBlanks rest = [] ∧ value = .object members := by simpa using hrest
  subst hval
  obtain ⟨inner, hinner⟩ := exists_of_readValue?_object hvalue
  -- the braces are what the text is trimmed to
  have hcut : text.toList =
      text.toList.takeWhile isBlank ++ ('\x7b' :: inner ++ ['\x7d']) ++ rest := by
    calc text.toList = text.toList.takeWhile isBlank ++ skipBlanks text.toList :=
          List.takeWhile_append_dropWhile.symm
      _ = _ := by rw [hinner]; simp
  have htrim : Text.trimChars text.toList = '\x7b' :: inner ++ ['\x7d'] := by
    rw [hcut]
    refine Text.trimChars_append (fun c hc => ?_) ⟨?_, ?_⟩ fun c hc => ?_
    · exact isWhiteSpace_of_isBlank (List.all_eq_true.1 List.all_takeWhile c hc)
    · rintro _ ⟨⟩
      rfl
    · intro c hc
      rw [List.getLast?_append, Option.mem_def] at hc
      cases hc
      rfl
    · exact isWhiteSpace_of_isBlank (List.dropWhile_eq_nil_iff.1 hblank c hc)
  obtain ⟨used, hused, htakes⟩ := local_readValue? maxDepth _ _ _ hvalue
  have hread : readValue? maxDepth ('\x7b' :: inner ++ ['\x7d']) = some (.object members, []) := by
    have hsame : used = text.toList.takeWhile isBlank ++ ('\x7b' :: inner ++ ['\x7d']) :=
      List.append_cancel_right (hused.symm.trans hcut)
    rw [← htakes [] nofun, List.append_nil, hsame]
    refine readValue?_congr ?_
    rw [skipBlanks, skipBlanks,
      List.dropWhile_append_of_pos (List.all_eq_true.1 List.all_takeWhile)]
  rw [parse?, Text.trim, String.toList_ofList, htrim, hread]
  rfl

end EventMachine.Json
