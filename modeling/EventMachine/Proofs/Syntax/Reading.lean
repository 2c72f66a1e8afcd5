import EventMachine.Proofs.Syntax.Grammar
import EventMachine.Syntax.Production

/-!
# Productions that read patterns

A production reads a pattern (`Reads`) when it succeeds exactly on the tokens of derivations, takes
all of them and gives what is read off the derivation. That it takes all of them is asked where the
tokens after them do not go on with the pattern.

1. `ofText` and `ofKind` read terminals (`reads_ofText`, `reads_ofKind`).
2. Productions one after the other read patterns one after the other (`Reads.bind`), and those that
   look at the next token read options and alternatives (`Reads.maybe`, `Reads.word`,
   `Reads.leftOut`).
3. The productions of lists read the patterns of lists (`reads_commaSeparated`,
   `reads_parenthesised`, `reads_braceItems`, `untilEnd_eq_ok_iff`).
-/

namespace EventMachine.Syntax

open Production Pattern

/-- The production reads derivations from the pattern, and gives what `read` makes of them. -/
structure Reads (p : Production α) (g : Pattern) (read : g.Tree → α) : Prop where
  sound : ∀ ts a rest, p ts = .ok (a, rest) → ∃ d, g.tokens d ++ rest = ts ∧ read d = a
  complete : ∀ d rest, ¬ Begins g.further rest → p (g.tokens d ++ rest) = .ok (read d, rest)

theorem Reads.congr {p : Production α} {g : Pattern} {read read' : g.Tree → α}
    (hp : Reads p g read) (hr : ∀ d, read d = read' d) : Reads p g read' := by
  have h : read = read' := funext hr
  exact h ▸ hp

/-- The production tells whether the next token is what the terminal asks for, and takes none. -/
def Looks (test : Production Bool) (s : Terminal) : Prop :=
  ∀ ts, ∃ b, test ts = .ok (b, ts) ∧ (b = true ↔ Begins [s] ts)

/-! ## Single tokens -/

theorem matches_mark_iff {text : String} {t : Token} :
    (Terminal.mark text).Matches t ↔ (t.isPunct text || t.isKeyword text) = true := by
  unfold Terminal.Matches Terminal.Accepts Token.isPunct Token.isKeyword
  simp only [Bool.or_eq_true, Bool.and_eq_true, decide_eq_true_eq]
  rw [← or_and_right, or_assoc]

theorem begins_singleton {s : Terminal} {ts : List Token} :
    Begins [s] ts ↔ ∃ t rest, ts = t :: rest ∧ s.Matches t := by
  cases ts with
  | nil =>
    refine ⟨fun h => (not_begins_nil _ h).elim, ?_⟩
    rintro ⟨t, rest, h, -⟩
    cases h
  | cons t rest => simp [begins_cons]

theorem startsWith_iff {text : String} {ts : List Token} :
    startsWith text ts = true ↔ Begins [.mark text] ts := by
  cases ts with
  | nil => exact iff_of_false Bool.false_ne_true (not_begins_nil _)
  | cons t rest => simp [startsWith, begins_cons, matches_mark_iff]

theorem ofText_eq_ok_iff {text : String} {ts rest : List Token} {l : Location} :
    ofText text ts = .ok (l, rest) ↔
      ∃ t, (Terminal.mark text).Matches t ∧ ts = t :: rest ∧ t.location = l := by
  cases ts with
  | nil => simp [ofText]
  | cons t ts =>
    simp only [ofText]
    by_cases h : startsWith text (t :: ts)
    · have hm : (Terminal.mark text).Matches t := matches_mark_iff.2 h
      rw [if_pos h]
      simp only [Except.ok.injEq, Prod.mk.injEq, List.cons.injEq]
      constructor
      · rintro ⟨rfl, rfl⟩
        exact ⟨t, hm, ⟨rfl, rfl⟩, rfl⟩
      · rintro ⟨t', -, ⟨rfl, rfl⟩, rfl⟩
        exact ⟨rfl, rfl⟩
    · rw [if_neg h]
      simp only [reduceCtorEq, List.cons.injEq, false_iff]
      rintro ⟨t', hm, ⟨rfl, -⟩, -⟩
      exact h (matches_mark_iff.1 hm)

theorem ofKind_eq_ok_iff {kind : TokenKind} {ts rest : List Token} {t : Token} :
    ofKind kind ts = .ok (t, rest) ↔ t.kind = kind ∧ ts = t :: rest := by
  cases ts with
  | nil => simp [ofKind]
  | cons t' ts =>
    simp only [ofKind]
    by_cases h : t'.kind = kind
    · rw [if_pos h]
      simp only [Except.ok.injEq, Prod.mk.injEq, List.cons.injEq]
      constructor
      · rintro ⟨rfl, rfl⟩
        exact ⟨h, rfl, rfl⟩
      · rintro ⟨-, rfl, rfl⟩
        exact ⟨rfl, rfl⟩
    · rw [if_neg h]
      simp only [reduceCtorEq, List.cons.injEq, false_iff]
      rintro ⟨ht, rfl, -⟩
      exact h ht

theorem reads_ofText (text : String) :
    Reads (ofText text) (.terminal (.mark text)) fun t => t.1.location := by
  constructor
  · intro ts l rest h
    obtain ⟨t, hm, rfl, rfl⟩ := ofText_eq_ok_iff.1 h
    exact ⟨⟨t, hm⟩, rfl, rfl⟩
  · intro t rest _
    exact ofText_eq_ok_iff.2 ⟨t.1, t.2, rfl, rfl⟩

theorem reads_ofKind (kind : TokenKind) :
    Reads (ofKind kind) (.terminal (.kind kind)) fun t => t.1 := by
  constructor
  · intro ts t rest h
    obtain ⟨hk, rfl⟩ := ofKind_eq_ok_iff.1 h
    exact ⟨⟨t, hk⟩, rfl, rfl⟩
  · intro t rest _
    exact ofKind_eq_ok_iff.2 ⟨t.2, rfl⟩

theorem looks_isAt (text : String) : Looks (isAt text) (.mark text) :=
  fun _ => ⟨_, rfl, startsWith_iff⟩

theorem looks_isAtKeyword (word : String) : Looks (isAtKeyword word) (.word word) := by
  intro ts
  refine ⟨_, rfl, ?_⟩
  cases ts with
  | nil => exact iff_of_false Bool.false_ne_true (not_begins_nil _)
  | cons t rest => simp [begins_cons, Token.isKeyword, Terminal.Matches, Terminal.Accepts]

theorem looks_isAtKind (kind : TokenKind) : Looks (isAtKind kind) (.kind kind) := by
  intro ts
  refine ⟨_, rfl, ?_⟩
  cases ts with
  | nil => exact iff_of_false Bool.false_ne_true (not_begins_nil _)
  | cons t rest => simp [begins_cons, Terminal.Matches, Terminal.Accepts]

/-! ## Productions put together -/

theorem bind_eq_of_eq_ok {p : Production α} {f : α → Production β} {ts rest : List Token} {a : α}
    (h : p ts = .ok (a, rest)) : (p >>= f) ts = f a rest := by
  show (p ts >>= fun r => f r.1 r.2) = f a rest
  rw [h]
  rfl

theorem Looks.bind_of_begins {test : Production Bool} {s : Terminal} {ts : List Token}
    (ht : Looks test s) (h : Begins [s] ts) (f : Bool → Production α) :
    (test >>= f) ts = f true ts := by
  obtain ⟨b, hb, hiff⟩ := ht ts
  rw [bind_eq_of_eq_ok hb, hiff.2 h]

theorem Looks.bind_of_not_begins {test : Production Bool} {s : Terminal} {ts : List Token}
    (ht : Looks test s) (h : ¬ Begins [s] ts) (f : Bool → Production α) :
    (test >>= f) ts = f false ts := by
  obtain ⟨b, hb, hiff⟩ := ht ts
  rw [bind_eq_of_eq_ok hb, Bool.eq_false_iff.2 fun hb => h (hiff.1 hb)]

section Combining

variable {g h : Pattern} {p : Production α} {read : g.Tree → α}

theorem Reads.bind {f : α → Production β} {readNext : α → h.Tree → β} (hp : Reads p g read)
    (hf : ∀ a, Reads (f a) h (readNext a)) (ha : Apart h.first g.further) :
    Reads (p >>= f) (.both g h) fun d => readNext (read d.1) d.2 := by
  constructor
  · intro ts b rest hr
    obtain ⟨a, mid, hpa, hfa⟩ := bind_eq_ok hr
    obtain ⟨d, rfl, rfl⟩ := hp.sound _ _ _ hpa
    obtain ⟨d', rfl, rfl⟩ := (hf _).sound _ _ _ hfa
    exact ⟨(d, d'), List.append_assoc .., rfl⟩
  · intro d rest hr
    obtain ⟨hg, hh⟩ := not_begins_further_both ha d.2 hr
    rw [tokens, List.append_assoc, bind_eq_of_eq_ok (hp.complete d.1 _ hg)]
    exact (hf _).complete d.2 rest hh

theorem Reads.map (hp : Reads p g read) (k : α → β) :
    Reads (p >>= fun a => pure (k a)) g fun d => k (read d) := by
  constructor
  · intro ts b rest hr
    obtain ⟨a, mid, hpa, hk⟩ := bind_eq_ok hr
    obtain ⟨d, rfl, rfl⟩ := hp.sound _ _ _ hpa
    cases hk
    exact ⟨d, rfl, rfl⟩
  · intro d rest hr
    rw [bind_eq_of_eq_ok (hp.complete d rest hr)]
    rfl

variable {test : Production Bool} {s : Terminal}

/-- A production that is tried where the pattern begins. -/
theorem Reads.maybe (hp : Reads p g read) (ht : Looks test s) (hs : g.first = [s])
    (hn : g.nullable = false) (e : α) :
    Reads (test >>= fun b => if b = true then p else pure e) (.maybe g) fun d => d.elim e read := by
  constructor
  · intro ts a rest hr
    by_cases hb : Begins [s] ts
    · rw [ht.bind_of_begins hb, if_pos rfl] at hr
      obtain ⟨d, rfl, rfl⟩ := hp.sound _ _ _ hr
      exact ⟨some d, rfl, rfl⟩
    · rw [ht.bind_of_not_begins hb, if_neg Bool.false_ne_true] at hr
      cases hr
      exact ⟨none, rfl, rfl⟩
  · intro d rest hr
    unfold further at hr
    rw [begins_append, not_or, hs] at hr
    cases d with
    | none =>
      show (test >>= _) rest = _
      rw [ht.bind_of_not_begins hr.1, if_neg Bool.false_ne_true]
      rfl
    | some d =>
      have hb := begins_tokens hn d rest
      rw [hs] at hb
      show (test >>= _) (g.tokens d ++ rest) = _
      rw [ht.bind_of_begins hb, if_pos rfl]
      exact hp.complete d rest hr.2

/-- A production that is only tried where the pattern begins. -/
theorem Reads.guarded (hp : Reads p g read) (ht : Looks test s) (hs : g.first = [s])
    (hn : g.nullable = false) (expected : List Expectation) :
    Reads (test >>= fun b => if b = true then p else mismatch expected) g read := by
  constructor
  · intro ts a rest hr
    by_cases hb : Begins [s] ts
    · rw [ht.bind_of_begins hb, if_pos rfl] at hr
      exact hp.sound _ _ _ hr
    · rw [ht.bind_of_not_begins hb, if_neg Bool.false_ne_true] at hr
      cases hr
  · intro d rest hr
    have hb := begins_tokens hn d rest
    rw [hs] at hb
    rw [ht.bind_of_begins hb, if_pos rfl]
    exact hp.complete d rest hr

section LeftOut

variable {test' : Production Bool} {s' : Terminal}

theorem Looks.or_of_begins (ht : Looks test s) (ht' : Looks test' s') {ts : List Token}
    (hb : Begins [s, s'] ts) (p q : Production β) :
    (test >>= fun a => test' >>= fun a' => if (a || a') = true then p else q) ts = p ts := by
  obtain ⟨a, ha, hiff⟩ := ht ts
  obtain ⟨a', ha', hiff'⟩ := ht' ts
  have hor : (a || a') = true := by
    rw [Bool.or_eq_true, hiff, hiff']
    exact begins_append.1 hb
  rw [bind_eq_of_eq_ok ha, bind_eq_of_eq_ok ha', if_pos hor]

theorem Looks.or_of_not_begins (ht : Looks test s) (ht' : Looks test' s') {ts : List Token}
    (hb : ¬ Begins [s, s'] ts) (p q : Production β) :
    (test >>= fun a => test' >>= fun a' => if (a || a') = true then p else q) ts = q ts := by
  obtain ⟨a, ha, hiff⟩ := ht ts
  obtain ⟨a', ha', hiff'⟩ := ht' ts
  have hor : ¬ (a || a') = true := by
    rw [Bool.or_eq_true, hiff, hiff']
    exact fun h => hb (begins_append.2 h)
  rw [bind_eq_of_eq_ok ha, bind_eq_of_eq_ok ha', if_neg hor]

/-- Something that is left out where what comes after it begins. -/
theorem Reads.leftOut {f : α → Production β} {readNext : α → h.Tree → β} (hp : Reads p g read)
    (ht : Looks test s) (ht' : Looks test' s') (hf : ∀ a, Reads (f a) h (readNext a))
    (hs : h.first = [s, s']) (hn : h.nullable = false) (hng : g.nullable = false)
    (hgh : Apart g.first h.first) (ha : Apart h.first g.further) (e : α) :
    Reads ((test >>= fun a => test' >>= fun a' => if (a || a') = true then pure e else p) >>= f)
      (.both (.maybe g) h) fun d => readNext ((d.1.map read).getD e) d.2 := by
  constructor
  · intro ts b rest hr
    obtain ⟨a, mid, hpa, hfa⟩ := bind_eq_ok hr
    obtain ⟨d', rfl, rfl⟩ := (hf a).sound _ _ _ hfa
    by_cases hb : Begins [s, s'] ts
    · rw [ht.or_of_begins ht' hb] at hpa
      cases hpa
      exact ⟨(none, d'), rfl, rfl⟩
    · rw [ht.or_of_not_begins ht' hb] at hpa
      obtain ⟨d, rfl, rfl⟩ := hp.sound _ _ _ hpa
      exact ⟨(some d, d'), List.append_assoc .., rfl⟩
  · rintro ⟨d, d'⟩ rest hr
    have hd' : ¬ Begins h.further rest := fun hb => hr (begins_append.2 (.inl hb))
    have hnext := begins_tokens hn d' rest
    cases d with
    | none =>
      have hempty := ht.or_of_begins ht' (hs ▸ hnext) (pure e) p
      exact (bind_eq_of_eq_ok hempty).trans ((hf e).complete d' rest hd')
    | some d =>
      have hb : ¬ Begins [s, s'] (g.tokens d ++ (h.tokens d' ++ rest)) :=
        hs ▸ (begins_tokens hng d _).not_begins hgh
      have hitem := ht.or_of_not_begins ht' hb (pure e) p
      rw [hp.complete d _ (hnext.not_begins ha)] at hitem
      show (_ >>= f) (g.tokens d ++ h.tokens d' ++ rest) = _
      rw [List.append_assoc, bind_eq_of_eq_ok hitem]
      exact (hf (read d)).complete d' rest hd'

end LeftOut

theorem matches_mark_of_matches_word {w : String} {t : Token} (h : (Terminal.word w).Matches t) :
    (Terminal.mark w).Matches t :=
  ⟨.inr (.inr h.1), h.2⟩

/-- A production for what a reserved word begins, and another for what it does not begin. -/
theorem Reads.word {w : String} {q : Production α} (read : g.Tree → α) {readOther : h.Tree → α}
    (hp : Reads p (.both (.terminal (.mark w)) g) fun d => read d.2) (hq : Reads q h readOther)
    (hn : h.nullable = false) (ha : Apart h.first [.word w]) :
    Reads (isAtKeyword w >>= fun b => if b = true then p else q)
      (.either (.both (.terminal (.word w)) g) h) (Sum.elim (fun d => read d.2) readOther) := by
  have ht := looks_isAtKeyword w
  constructor
  · intro ts a rest hr
    by_cases hb : Begins [.word w] ts
    · rw [ht.bind_of_begins hb, if_pos rfl] at hr
      obtain ⟨⟨t, d⟩, rfl, rfl⟩ := hp.sound _ _ _ hr
      obtain ⟨t', rest', heq, hm⟩ := begins_singleton.1 hb
      obtain ⟨ht', -⟩ := List.cons.inj heq
      exact ⟨.inl (⟨t.1, ht' ▸ hm⟩, d), rfl, rfl⟩
    · rw [ht.bind_of_not_begins hb, if_neg Bool.false_ne_true] at hr
      obtain ⟨d, rfl, rfl⟩ := hq.sound _ _ _ hr
      exact ⟨.inr d, rfl, rfl⟩
  · intro d rest hr
    unfold further at hr
    rw [begins_append, not_or] at hr
    rcases d with ⟨t, d⟩ | d
    · have hb : Begins [.word w] (t.1 :: (g.tokens d ++ rest)) :=
        begins_leaf t _
      show (isAtKeyword w >>= _) (t.1 :: (g.tokens d ++ rest)) = _
      rw [ht.bind_of_begins hb, if_pos rfl]
      exact hp.complete (⟨t.1, matches_mark_of_matches_word t.2⟩, d) rest hr.1
    · have hb : ¬ Begins [.word w] (h.tokens d ++ rest) :=
        not_begins_tokens_of_nullable hn ha d rest
      show (isAtKeyword w >>= _) (h.tokens d ++ rest) = _
      rw [ht.bind_of_not_begins hb, if_neg Bool.false_ne_true]
      exact hq.complete d rest hr.2

end Combining

/-! ## Lists -/

section Lists

variable {item : Production α} {shrinks : Shrinks item} {g : Pattern} {read : g.Tree → α}
  {ts mid rest : List Token} {a : α} {as : List α}

theorem commaSeparated_eq (ts : List Token) :
    commaSeparated item shrinks ts = (item >>= fun a rest =>
      if startsWith "," rest then
        (commaSeparated item shrinks rest.tail).map fun r => (a :: r.1, r.2)
      else .ok ([a], rest)) ts := by
  rw [commaSeparated]
  show _ = (item ts).bind _
  cases item ts with
  | error e => rfl
  | ok r =>
    show (if startsWith "," r.2 = true then _ else _) = if startsWith "," r.2 = true then _ else _
    cases commaSeparated item shrinks r.2.tail <;> rfl

theorem commaSeparated_of_comma (hi : item ts = .ok (a, mid)) (hc : startsWith "," mid = true)
    (hr : commaSeparated item shrinks mid.tail = .ok (as, rest)) :
    commaSeparated item shrinks ts = .ok (a :: as, rest) := by
  rw [commaSeparated_eq, bind_eq_of_eq_ok hi, if_pos hc, hr]
  rfl

theorem commaSeparated_of_not_comma (hi : item ts = .ok (a, mid))
    (hc : ¬ startsWith "," mid = true) : commaSeparated item shrinks ts = .ok ([a], mid) := by
  rw [commaSeparated_eq, bind_eq_of_eq_ok hi, if_neg hc]

theorem eq_cons_of_startsWith {text : String} (h : startsWith text ts = true) :
    ∃ t, (Terminal.mark text).Matches t ∧ ts = t :: ts.tail := by
  obtain ⟨t, rest, rfl, ht⟩ := begins_singleton.1 (startsWith_iff.1 h)
  exact ⟨t, ht, rfl⟩

theorem not_startsWith_iff {text : String} :
    ¬ startsWith text ts = true ↔ ¬ Begins [.mark text] ts :=
  not_congr startsWith_iff

theorem separated_tokens_cons (d : g.Tree) (x : (Pattern.both (Grammar.mark ",") g).Tree)
    (xs : (many (Pattern.both (Grammar.mark ",") g)).Tree) (rest : List Token) :
    (separated (.mark ",") g).tokens (d, x :: xs) ++ rest =
      g.tokens d ++ (x.1.1 :: ((separated (.mark ",") g).tokens (x.2, xs) ++ rest)) := by
  simp only [tokens, List.flatMap_cons, List.append_assoc, List.cons_append, List.nil_append]

theorem reads_commaSeparated (hi : Reads item g read) (ha : Apart [.mark ","] g.further) :
    Reads (commaSeparated item shrinks) (separated (.mark ",") g) (Grammar.separatedOf read) := by
  constructor
  · intro ts
    fun_induction commaSeparated item shrinks ts with
    | case1 | case2 =>
      intro as rest h
      cases h
    | case3 ts a mid hm hc as last hl ih =>
      rintro bs rest ⟨⟩
      obtain ⟨d, rfl, rfl⟩ := hi.sound _ _ _ hm
      obtain ⟨t, ht, hmid⟩ := eq_cons_of_startsWith hc
      obtain ⟨⟨d', ds⟩, hts, rfl⟩ := ih _ _ hl
      refine ⟨(d, (⟨t, ht⟩, d') :: ds), ?_, rfl⟩
      rw [hmid, ← hts]
      simp only [tokens, List.flatMap_cons, List.append_assoc, List.cons_append, List.nil_append]
    | case4 ts a mid hm hc =>
      rintro bs rest ⟨⟩
      obtain ⟨d, rfl, rfl⟩ := hi.sound _ _ _ hm
      refine ⟨(d, []), ?_, rfl⟩
      simp only [tokens, List.flatMap_nil, List.append_nil]
  · rintro ⟨d, ds⟩ rest hr
    have hfurther : (separated (.mark ",") g).further =
        [.mark ","] ++ (Pattern.both (Grammar.mark ",") g).further ++ g.further := rfl
    rw [hfurther, begins_append, begins_append, not_or, not_or] at hr
    obtain ⟨⟨hcomma, -⟩, hg⟩ := hr
    induction ds generalizing d with
    | nil =>
      have hitem := hi.complete d rest hg
      have ht : (separated (.mark ",") g).tokens (d, []) ++ rest = g.tokens d ++ rest := by
        simp only [tokens, List.flatMap_nil, List.append_nil]
      rw [ht]
      exact commaSeparated_of_not_comma hitem (not_startsWith_iff.2 hcomma)
    | cons x xs ih =>
      have hb : Begins [.mark ","]
          (x.1.1 :: ((separated (.mark ",") g).tokens (x.2, xs) ++ rest)) :=
        begins_leaf x.1 _
      rw [separated_tokens_cons]
      exact commaSeparated_of_comma (hi.complete d _ (hb.not_begins ha)) (startsWith_iff.2 hb)
        (ih x.2)

/-! ### In parentheses -/

theorem parenthesisItems_of_end (hs : startsWith ")" ts = true) :
    parenthesisItems item shrinks ts = .ok ([], ts.tail) := by
  rw [parenthesisItems, if_pos hs]

theorem parenthesisItems_eq (hs : ¬ startsWith ")" ts = true) :
    parenthesisItems item shrinks ts = (item >>= fun a rest =>
      if startsWith "," rest then
        (parenthesisItems item shrinks rest.tail).map fun r => (a :: r.1, r.2)
      else (ofText ")" rest).map fun r => ([a], r.2)) ts := by
  rw [parenthesisItems, if_neg hs]
  show _ = (item ts).bind _
  cases item ts with
  | error e => rfl
  | ok r =>
    show (if startsWith "," r.2 = true then _ else _) = if startsWith "," r.2 = true then _ else _
    cases parenthesisItems item shrinks r.2.tail <;> rfl

theorem parenthesisItems_of_comma (hs : ¬ startsWith ")" ts = true)
    (hi : item ts = .ok (a, mid)) (hc : startsWith "," mid = true)
    (hr : parenthesisItems item shrinks mid.tail = .ok (as, rest)) :
    parenthesisItems item shrinks ts = .ok (a :: as, rest) := by
  rw [parenthesisItems_eq hs, bind_eq_of_eq_ok hi, if_pos hc, hr]
  rfl

theorem parenthesisItems_of_not_comma (hs : ¬ startsWith ")" ts = true)
    (hi : item ts = .ok (a, mid)) (hc : ¬ startsWith "," mid = true)
    (hend : startsWith ")" mid = true) :
    parenthesisItems item shrinks ts = .ok ([a], mid.tail) := by
  obtain ⟨t, ht, hmid⟩ := eq_cons_of_startsWith hend
  have hclose : ofText ")" mid = .ok (t.location, mid.tail) :=
    ofText_eq_ok_iff.2 ⟨t, ht, hmid, rfl⟩
  rw [parenthesisItems_eq hs, bind_eq_of_eq_ok hi, if_neg hc, hclose]
  rfl

theorem startsWith_close (t : (Grammar.mark ")").Tree) (rest : List Token) :
    startsWith ")" (t.1 :: rest) = true :=
  startsWith_iff.2 (begins_leaf t rest)

/-- The items of a derivation are read; by induction on those after the first. -/
theorem parenthesisItems_closing (hi : Reads item g read) (hn : g.nullable = false)
    (hf : Apart [.mark ",", .mark ")"] g.further) (hc : Apart g.first [.mark ")"]) (d : g.Tree)
    (ds : (many (Pattern.both (Grammar.mark ",") g)).Tree) (last : (Grammar.mark ",").maybe.Tree)
    (t : (Grammar.mark ")").Tree) (rest : List Token) :
    parenthesisItems item shrinks (g.tokens d ++ closing g (.mark ",") (.mark ")") ds last t rest) =
      .ok (read d :: ds.map fun d => read d.2, rest) := by
  have hopen : ∀ d tail, ¬ startsWith ")" (g.tokens d ++ tail) = true := fun d tail =>
    not_startsWith_iff.2 (not_begins_tokens_of_nullable hn hc d tail)
  have hitem := hi.complete d _ ((begins_closing ds last t rest).not_begins hf)
  induction ds generalizing d with
  | nil =>
    cases last with
    | none =>
      have hcomma : ¬ startsWith "," (t.1 :: rest) = true := by
        have hb : Begins [.mark ")"] (t.1 :: rest) := startsWith_iff.1 (startsWith_close t rest)
        exact not_startsWith_iff.2 (hb.not_begins (by decide))
      exact parenthesisItems_of_not_comma (hopen d _) hitem hcomma (startsWith_close t rest)
    | some comma =>
      have hb : Begins [.mark ","] (comma.1 :: t.1 :: rest) :=
        begins_leaf comma _
      exact parenthesisItems_of_comma (hopen d _) hitem (startsWith_iff.2 hb)
        (parenthesisItems_of_end (startsWith_close t rest))
  | cons x xs ih =>
    have hnext := hi.complete x.2 _ ((begins_closing xs last t rest).not_begins hf)
    rw [closing_cons] at hitem ⊢
    have hb : Begins [.mark ","]
        (x.1.1 :: (g.tokens x.2 ++ closing g (.mark ",") (.mark ")") xs last t rest)) :=
      begins_leaf x.1 _
    exact parenthesisItems_of_comma (hopen d _) hitem (startsWith_iff.2 hb) (ih x.2 hnext)

theorem reads_parenthesisItems (hi : Reads item g read) (hn : g.nullable = false)
    (hf : Apart [.mark ",", .mark ")"] g.further) (hc : Apart g.first [.mark ")"]) :
    Reads (parenthesisItems item shrinks) (closedList (.mark ",") (.mark ")") g)
      (Grammar.closedListOf read) := by
  constructor
  · intro ts
    fun_induction parenthesisItems item shrinks ts with
    | case1 ts hs =>
      rintro bs rest ⟨⟩
      obtain ⟨t, ht, hts⟩ := eq_cons_of_startsWith hs
      exact ⟨(none, ⟨t, ht⟩), hts.symm, rfl⟩
    | case2 | case3 =>
      intro as rest h
      cases h
    | case4 ts hs a mid hm hc as last hl ih =>
      rintro bs rest ⟨⟩
      obtain ⟨d, rfl, rfl⟩ := hi.sound _ _ _ hm
      obtain ⟨t, ht, hmid⟩ := eq_cons_of_startsWith hc
      obtain ⟨⟨_ | ⟨d', ds, o⟩, close⟩, hts, rfl⟩ := ih _ _ hl
      · refine ⟨(some (d, [], some ⟨t, ht⟩), close), ?_, rfl⟩
        rw [closedList_tokens_some, hmid, ← hts]
        rfl
      · refine ⟨(some (d, (⟨t, ht⟩, d') :: ds, o), close), ?_, rfl⟩
        rw [closedList_tokens_some, closing_cons, hmid, ← hts, closedList_tokens_some]
    | case5 ts hs a mid hm hc =>
      intro bs rest hr
      obtain ⟨d, rfl, rfl⟩ := hi.sound _ _ _ hm
      cases hclose : ofText ")" mid with
      | error e =>
        rw [hclose] at hr
        cases hr
      | ok r =>
        rw [hclose] at hr
        cases hr
        obtain ⟨t, ht, rfl, -⟩ := ofText_eq_ok_iff.1 hclose
        refine ⟨(some (d, [], none), ⟨t, ht⟩), ?_, rfl⟩
        rw [closedList_tokens_some]
        rfl
  · rintro ⟨_ | ⟨d, ds, o⟩, t⟩ rest -
    · exact parenthesisItems_of_end (startsWith_close t rest)
    · rw [closedList_tokens_some]
      exact parenthesisItems_closing hi hn hf hc d ds o t rest

/-! ### In braces, and to the end -/

theorem braceItems_of_end (hs : startsWith "\x7d" ts = true) :
    braceItems item shrinks ts = .ok ([], ts.tail) := by
  rw [braceItems, if_pos hs]

theorem braceItems_eq (hs : ¬ startsWith "\x7d" ts = true) :
    braceItems item shrinks ts = (item >>= fun a rest =>
      (braceItems item shrinks rest).map fun r => (a :: r.1, r.2)) ts := by
  rw [braceItems, if_neg hs]
  show _ = (item ts).bind _
  cases item ts with
  | error e => rfl
  | ok r =>
    dsimp only
    show _ = (braceItems item shrinks r.2).map _
    cases braceItems item shrinks r.2 <;> rfl

theorem braceItems_of_item (hs : ¬ startsWith "\x7d" ts = true) (hi : item ts = .ok (a, mid))
    (hr : braceItems item shrinks mid = .ok (as, rest)) :
    braceItems item shrinks ts = .ok (a :: as, rest) := by
  rw [braceItems_eq hs, bind_eq_of_eq_ok hi, hr]
  rfl

theorem reads_braceItems (hi : Reads item g read) (hn : g.nullable = false)
    (ha : Apart g.first g.further) (hf : Apart [.mark "\x7d"] g.further)
    (hc : Apart g.first [.mark "\x7d"]) :
    Reads (braceItems item shrinks) (.both (.many g) (Grammar.mark "\x7d"))
      fun d => d.1.map read := by
  constructor
  · intro ts
    fun_induction braceItems item shrinks ts with
    | case1 ts hs =>
      rintro bs rest ⟨⟩
      obtain ⟨t, ht, hts⟩ := eq_cons_of_startsWith hs
      exact ⟨([], ⟨t, ht⟩), hts.symm, rfl⟩
    | case2 | case3 =>
      intro as rest h
      cases h
    | case4 ts hs a mid hm as last hl ih =>
      rintro bs rest ⟨⟩
      obtain ⟨d, rfl, rfl⟩ := hi.sound _ _ _ hm
      obtain ⟨⟨ds, t⟩, rfl, rfl⟩ := ih _ _ hl
      refine ⟨(d :: ds, t), ?_, rfl⟩
      simp only [tokens, List.flatMap_cons, List.append_assoc]
  · rintro ⟨ds, t⟩ rest -
    have hb : Begins [.mark "\x7d"] (t.1 :: rest) := begins_leaf t rest
    have htokens : ∀ ds, (Pattern.both (.many g) (Grammar.mark "\x7d")).tokens (ds, t) ++ rest =
        (many g).tokens ds ++ t.1 :: rest := fun ds => by
      simp only [tokens, List.append_assoc, List.cons_append, List.nil_append]
    rw [htokens]
    induction ds with
    | nil => exact braceItems_of_end (startsWith_iff.2 hb)
    | cons d ds ih =>
      have hnext : ¬ Begins g.further ((many g).tokens ds ++ t.1 :: rest) :=
        not_begins_tokens (p := many g) ha ds fun _ => hb.not_begins hf
      rw [tokens_cons, List.append_assoc]
      exact braceItems_of_item (not_startsWith_iff.2 (not_begins_tokens_of_nullable hn hc d _))
        (hi.complete d _ hnext) ih

theorem untilEnd_nil : untilEnd item shrinks [] = .ok [] := by
  rw [untilEnd]
  rfl

theorem untilEnd_cons (t : Token) (ts : List Token) :
    untilEnd item shrinks (t :: ts) =
      (item (t :: ts)).bind fun r => (untilEnd item shrinks r.2).map (r.1 :: ·) := by
  have hne : ¬ (t :: ts).isEmpty = true := Bool.false_ne_true
  rw [untilEnd, if_neg hne]
  cases item (t :: ts) <;> rfl

theorem untilEnd_of_item {t : Token} (ht : ts = t :: rest) (hi : item ts = .ok (a, mid))
    (hr : untilEnd item shrinks mid = .ok as) : untilEnd item shrinks ts = .ok (a :: as) := by
  subst ht
  rw [untilEnd_cons, hi]
  show (untilEnd item shrinks mid).map _ = _
  rw [hr]
  rfl

theorem exists_cons_of_begins {ss : List Terminal} (h : Begins ss ts) :
    ∃ t rest, ts = t :: rest := by
  cases ts with
  | nil => exact (not_begins_nil ss h).elim
  | cons t rest => exact ⟨t, rest, rfl⟩

theorem untilEnd_eq_ok_iff (hi : Reads item g read) (hn : g.nullable = false)
    (ha : Apart g.first g.further) :
    untilEnd item shrinks ts = .ok as ↔ ∃ ds, (many g).tokens ds = ts ∧ ds.map read = as := by
  constructor
  · fun_induction untilEnd item shrinks ts generalizing as with
    | case1 ts he =>
      rintro ⟨⟩
      exact ⟨[], (List.isEmpty_iff.1 he).symm, rfl⟩
    | case2 => nofun
    | case3 ts he a mid hm ih =>
      intro h
      cases hu : untilEnd item shrinks mid with
      | error e =>
        rw [hu] at h
        cases h
      | ok bs =>
        rw [hu] at h
        cases h
        obtain ⟨d, rfl, rfl⟩ := hi.sound _ _ _ hm
        obtain ⟨ds, rfl, rfl⟩ := ih hu
        exact ⟨d :: ds, tokens_cons g d ds, rfl⟩
  · rintro ⟨ds, rfl, rfl⟩
    induction ds with
    | nil => exact untilEnd_nil
    | cons d ds ih =>
      have hnext : ¬ Begins g.further ((many g).tokens ds) := by
        have h := not_begins_tokens (p := many g) ha ds fun _ => not_begins_nil _
        rwa [List.append_nil] at h
      rw [tokens_cons]
      obtain ⟨t, rest, ht⟩ := exists_cons_of_begins (begins_tokens hn d ((many g).tokens ds))
      exact untilEnd_of_item ht (hi.complete d _ hnext) ih

theorem reads_parenthesised (hi : Reads item g read) (hn : g.nullable = false)
    (hf : Apart [.mark ",", .mark ")"] g.further) (hc : Apart g.first [.mark ")"]) :
    Reads (parenthesised item shrinks) (Grammar.parenthesised g)
      (Grammar.parenthesisedOf read) := by
  have hlist : Reads (ofText "(" >>= fun _ => parenthesisItems item shrinks)
      (.both (Grammar.mark "(") (closedList (.mark ",") (.mark ")") g))
      fun d => Grammar.closedListOf read d.2 :=
    (reads_ofText "(").bind (fun _ => reads_parenthesisItems hi hn hf hc) (apart_nil _)
  refine (hlist.maybe (looks_isAt "(") rfl rfl []).congr fun d => ?_
  cases d <;> rfl

end Lists

end EventMachine.Syntax
