import EventMachine.Proofs.Syntax.Reading
import EventMachine.Proofs.Syntax.Viable

/-!
# Productions that stop at the first token that does not fit

A production follows a pattern (`Follows`) when it takes tokens as long as they are viable: whether
it succeeds or fails, the next token is one that cannot come next, and what it says it expected
could have come.

1. A production that takes a single token follows its pattern (`Reads.follows_of_single`), and so do
   productions one after the other (`Halts.bind`) and those that look at the next token
   (`Follows.maybe`, `Follows.word`, `Follows.leftOut`).
2. The productions of lists follow the patterns of lists (`follows_commaSeparated`,
   `follows_parenthesised`, `follows_braceItems`, `halts_untilEnd`).
-/

namespace EventMachine.Syntax

open Production Pattern

/-- The token is one that the expectation names. -/
def Expectation.Names : Expectation → Token → Prop
  | kind k, t => t.kind = k
  | text s, t => (Terminal.mark s).Matches t

/-- The tokens that a result leaves. -/
def left : Except Mismatch (α × List Token) → List Token
  | .ok r => r.2
  | .error m => m.remaining

/-- What was expected instead of the tokens that are left; after a success nothing was. -/
def wanted : Except Mismatch (α × List Token) → List Expectation
  | .ok _ => []
  | .error m => m.expected

/-- The used tokens are viable, and not so with the first of the rest. With a token of any
expectation they would be. -/
structure Stops (g : Pattern) (used rest : List Token) (expected : List Expectation) : Prop where
  viable : g.Viable used
  first : ∀ t ∈ rest.head?, ¬ g.Viable (used ++ [t])
  expects : ∀ x ∈ expected, ∃ t, x.Names t ∧ g.Viable (used ++ [t])

/-- The result leaves what comes after the longest beginning of the tokens that is viable. -/
def Halts (g : Pattern) (ts : List Token) (r : Except Mismatch (α × List Token)) : Prop :=
  ∃ used, used ++ left r = ts ∧ Stops g used (left r) (wanted r)

/-- The production stops at the first token that the pattern does not allow. -/
def Follows (p : Production α) (g : Pattern) : Prop := ∀ ts, Halts g ts (p ts)

/-! ## From one pattern to another -/

section Transfer

variable {g g' : Pattern} {ts : List Token} {r : Except Mismatch (α × List Token)}

theorem halts_map (k : α → β) (hr : Halts g ts r) :
    Halts g ts (r.map fun a => (k a.1, a.2)) := by
  cases r <;> exact hr

/-- What is viable for the one pattern is so for the other, and the other way round where the tokens
begin as the given ones do. -/
theorem Halts.mono (hr : Halts g ts r) (hsub : ∀ xs, g.Viable xs → g'.Viable xs)
    (hback : ∀ t xs, t ∈ ts.head? → g'.Viable (t :: xs) → g.Viable (t :: xs)) :
    Halts g' ts r := by
  obtain ⟨used, hused, hviable, hfirst, hexpects⟩ := hr
  refine ⟨used, hused, hsub _ hviable, fun t ht hv => hfirst t ht ?_, fun x hx => ?_⟩
  · rw [Option.mem_def, List.head?_eq_some_iff] at ht
    obtain ⟨rest, hrest⟩ := ht
    cases used with
    | nil => exact hback t [] (by rw [← hused, hrest]; rfl) hv
    | cons u us => exact hback u _ (by rw [← hused]; rfl) hv
  · obtain ⟨t, hn, hv⟩ := hexpects x hx
    exact ⟨t, hn, hsub _ hv⟩

/-- One more token in front. -/
theorem Halts.cons {t : Token} (hr : Halts g ts r)
    (h : ∀ xs, g'.Viable (t :: xs) ↔ g.Viable xs) : Halts g' (t :: ts) r := by
  obtain ⟨used, hused, hviable, hfirst, hexpects⟩ := hr
  refine ⟨t :: used, congrArg (t :: ·) hused, (h _).2 hviable, fun t' ht' hv => ?_, fun x hx => ?_⟩
  · exact hfirst t' ht' ((h _).1 hv)
  · obtain ⟨t', hn, hv⟩ := hexpects x hx
    exact ⟨t', hn, (h _).2 hv⟩

/-- Nothing is taken, for what comes next does not begin the pattern. -/
theorem halts_of_not_begins (hl : left r = ts) (hb : ¬ Begins g.first ts)
    (hx : ∀ x ∈ wanted r, ∃ t, x.Names t ∧ g.Viable [t]) : Halts g ts r := by
  refine ⟨[], hl, viable_nil g, fun t ht hv => hb ?_, hx⟩
  rw [hl] at ht
  obtain ⟨rest, rfl⟩ := List.head?_eq_some_iff.1 ht
  exact begins_cons.2 (begins_cons.1 hv.begins)

end Transfer

section Combining

variable {g h : Pattern} {p : Production α} {read : g.Tree → α} {ts : List Token}

/-! ## Single tokens -/

/-- A production that takes one token or none. -/
theorem Reads.follows_of_single (hp : Reads p g read) (hfurther : g.further = [])
    (hs : ∀ d, ∃ t, g.tokens d = [t])
    (herror : ∀ ts m, p ts = .error m → m.remaining = ts ∧
      ∀ x ∈ m.expected, ∃ t, x.Names t ∧ g.Viable [t]) : Follows p g := by
  have hone {t : Token} {xs : List Token} (hv : g.Viable (t :: xs)) :
      xs = [] ∧ ∃ d, g.tokens d = [t] := by
    obtain ⟨d, hd⟩ := hv
    obtain ⟨t', ht'⟩ := hs d
    rw [ht'] at hd
    obtain ⟨rfl, hnil⟩ := List.cons_prefix_cons.1 hd
    exact ⟨List.prefix_nil.1 hnil, d, ht'⟩
  intro ts
  cases hr : p ts with
  | ok r =>
    obtain ⟨d, hd, -⟩ := hp.sound _ _ _ hr
    obtain ⟨t, ht⟩ := hs d
    rw [ht] at hd
    refine ⟨[t], hd, ht ▸ viable_tokens d, fun t' _ hv => ?_, nofun⟩
    cases (hone hv).1
  | error m =>
    obtain ⟨hremaining, hexpects⟩ := herror ts m hr
    refine ⟨[], hremaining, viable_nil g, fun t ht hv => ?_, hexpects⟩
    obtain ⟨rest, hrest⟩ := List.head?_eq_some_iff.1 ht
    obtain ⟨-, d, hd⟩ := hone hv
    have hok := hp.complete d rest (hfurther ▸ fun hb => by
      obtain ⟨_, _, _, hmem, -⟩ := hb
      cases hmem)
    have hts : ts = g.tokens d ++ rest := by
      rw [hd, ← hremaining]
      exact hrest
    rw [← hts, hr] at hok
    cases hok

/-! ## Productions put together -/

/-- Tokens after those of a derivation that another derivation has too go on with the pattern. -/
theorem begins_further_of_tokens_eq (hu : g.Unambiguous) {d d' : g.Tree} {rest : List Token}
    (hne : rest ≠ []) (heq : g.tokens d ++ rest = g.tokens d') : Begins g.further rest := by
  refine Classical.byContradiction fun hb => ?_
  have hsame := hu d d' rest [] hb (not_begins_nil _) (by rw [heq, List.append_nil])
  exact hne hsame.2

/-- Tokens of a derivation are read as such if what comes next is viable for the other pattern. -/
theorem Reads.complete_of_viable (hp : Reads p g read) (ha : Apart h.first g.further) (d : g.Tree)
    {y : Token} {ys : List Token} (hv : h.Viable (y :: ys)) (rest : List Token) :
    p (g.tokens d ++ (y :: ys ++ rest)) = .ok (read d, y :: ys ++ rest) :=
  hp.complete d _ (hv.begins.append.not_begins ha)

/-- The first production fails: nothing that is viable for both patterns goes further. -/
theorem Stops.both_of_error {m : Mismatch} {used : List Token} (hp : Reads p g read)
    (ha : Apart h.first g.further) (herror : p (used ++ m.remaining) = .error m)
    (hstops : Stops g used m.remaining m.expected) :
    Stops (.both g h) used m.remaining m.expected := by
  refine ⟨hstops.viable.both_left h, fun t ht hv => ?_, fun x hx => ?_⟩
  · rcases viable_both_cases hv with hv | ⟨d, y, ys, heq, hv⟩
    · exact hstops.first t ht hv
    · obtain ⟨rest, hrest⟩ := List.head?_eq_some_iff.1 ht
      have hsplit : used ++ m.remaining = g.tokens d ++ (y :: ys ++ rest) := by
        rw [hrest, ← List.append_assoc, ← heq, List.append_assoc, List.singleton_append]
      rw [hsplit, hp.complete_of_viable ha d hv] at herror
      cases herror
  · obtain ⟨t, hn, hv⟩ := hstops.expects x hx
    exact ⟨t, hn, hv.both_left h⟩

/-- The first production reads a derivation, and the other one stops after it. -/
theorem Stops.both_of_ok {d : g.Tree} {mid used rest : List Token} {expected : List Expectation}
    (hp : Reads p g read) (hu : g.Unambiguous) (ha : Apart h.first g.further)
    (hok : p (g.tokens d ++ mid) = .ok (read d, mid))
    (hfirst : ∀ t ∈ mid.head?, ¬ g.Viable (g.tokens d ++ [t])) (hmid : used ++ rest = mid)
    (hstops : Stops h used rest expected) :
    Stops (.both g h) (g.tokens d ++ used) rest expected := by
  refine ⟨hstops.viable.both_right d, fun t ht hv => ?_, fun x hx => ?_⟩
  · obtain ⟨after, rfl⟩ := List.head?_eq_some_iff.1 ht
    rcases viable_both_cases hv with ⟨d', tail, heq⟩ | ⟨d', y, ys, heq, hv⟩
    · cases used with
      | nil => exact hfirst t (hmid ▸ rfl) ⟨d', tail, by simpa using heq⟩
      | cons u us =>
        rw [List.append_assoc, List.append_assoc] at heq
        have hfurther := begins_further_of_tokens_eq hu (by simp) heq
        have hbegins : Begins h.first (u :: us ++ ([t] ++ tail)) := hstops.viable.begins.append
        exact hbegins.not_begins ha hfurther
    · -- the other derivation is the one that was read
      have hsplit : g.tokens d ++ mid = g.tokens d' ++ (y :: ys ++ after) := by
        rw [← hmid, ← List.append_assoc (g.tokens d'), ← heq]
        simp
      rw [hsplit, hp.complete_of_viable ha d' hv] at hok
      obtain ⟨-, hsame⟩ := Prod.mk.inj (Except.ok.inj hok)
      have htail : used ++ [t] ++ after = y :: ys ++ after := by
        rw [hsame, ← hmid, List.append_assoc, List.singleton_append]
      exact hstops.first t ht (List.append_cancel_right htail ▸ hv)
  · obtain ⟨t, hn, hv⟩ := hstops.expects x hx
    exact ⟨t, hn, by rw [List.append_assoc]; exact hv.both_right d⟩

theorem Halts.bind {f : α → Production β} (hts : Halts g ts (p ts)) (hp : Reads p g read)
    (hu : g.Unambiguous) (hf : ∀ a mid, p ts = .ok (a, mid) → Halts h mid (f a mid))
    (ha : Apart h.first g.further) : Halts (.both g h) ts ((p >>= f) ts) := by
  obtain ⟨used, hused, hstops⟩ := hts
  cases hpts : p ts with
  | error m =>
    have hbind : (p >>= f) ts = .error m := by
      show (p ts >>= fun r => f r.1 r.2) = _
      rw [hpts]
      rfl
    rw [hpts] at hused hstops
    rw [hbind]
    exact ⟨used, hused, hstops.both_of_error hp ha (by rw [← hpts]; exact congrArg p hused)⟩
  | ok r =>
    obtain ⟨a, mid⟩ := r
    obtain ⟨d, rfl, rfl⟩ := hp.sound _ _ _ hpts
    rw [hpts] at hused hstops
    obtain rfl : used = g.tokens d := List.append_cancel_right hused
    rw [bind_eq_of_eq_ok hpts]
    obtain ⟨used', hused', hstops'⟩ := hf _ mid hpts
    exact ⟨g.tokens d ++ used', by rw [List.append_assoc, hused'],
      hstops'.both_of_ok hp hu ha hpts hstops.first hused'⟩

theorem Follows.bind {f : α → Production β} (hfollows : Follows p g) (hp : Reads p g read)
    (hu : g.Unambiguous) (hf : ∀ a, Follows (f a) h) (ha : Apart h.first g.further) :
    Follows (p >>= f) (.both g h) :=
  fun ts => (hfollows ts).bind hp hu (fun a mid _ => hf a mid) ha

theorem Follows.map (hfollows : Follows p g) (k : α → β) :
    Follows (p >>= fun a => pure (k a)) g := by
  intro ts
  have hmap := halts_map k (hfollows ts)
  show Halts g ts (p ts >>= fun r => .ok (k r.1, r.2))
  cases hr : p ts <;> rw [hr] at hmap <;> exact hmap

theorem ofText_eq_error {text : String} {ts : List Token} {m : Mismatch}
    (h : ofText text ts = .error m) : m = ⟨[.text text], ts⟩ := by
  cases ts with
  | nil => exact (Except.error.inj h).symm
  | cons t ts =>
    simp only [ofText] at h
    split at h
    · cases h
    · exact (Except.error.inj h).symm

theorem ofKind_eq_error {kind : TokenKind} {ts : List Token} {m : Mismatch}
    (h : ofKind kind ts = .error m) : m = ⟨[.kind kind], ts⟩ := by
  cases ts with
  | nil => exact (Except.error.inj h).symm
  | cons t ts =>
    simp only [ofKind] at h
    split at h
    · cases h
    · exact (Except.error.inj h).symm

/-- A production for a terminal that expects what the terminal asks for. -/
theorem Reads.follows_terminal {s : Terminal} {read : (terminal s).Tree → α} {x : Expectation}
    (hp : Reads p (terminal s) read) (hx : ∀ t, s.Matches t → x.Names t)
    (herror : ∀ ts m, p ts = .error m → m = ⟨[x], ts⟩) : Follows p (terminal s) := by
  refine hp.follows_of_single rfl (fun d => ⟨d.1, rfl⟩) fun ts m h => ?_
  obtain rfl := herror ts m h
  refine ⟨rfl, fun y hy => ?_⟩
  obtain rfl := List.mem_singleton.1 hy
  obtain ⟨t, ht⟩ := exists_matches s
  exact ⟨t, hx t ht, viable_terminal_iff.2 ⟨ht, rfl⟩⟩

theorem follows_ofText (text : String) : Follows (ofText text) (.terminal (.mark text)) :=
  (reads_ofText text).follows_terminal (x := .text text) (fun _ ht => ht)
    fun _ _ => ofText_eq_error

theorem follows_ofKind (kind : TokenKind) : Follows (ofKind kind) (.terminal (.kind kind)) :=
  (reads_ofKind kind).follows_terminal (x := .kind kind) (fun _ ht => ht)
    fun _ _ => ofKind_eq_error

/-! ## Productions that look at the next token -/

variable {test : Production Bool} {s : Terminal}

theorem Follows.maybe (hp : Follows p g) (ht : Looks test s) (hs : g.first = [s]) (e : α) :
    Follows (test >>= fun b => if b = true then p else pure e) (.maybe g) := by
  intro ts
  by_cases hb : Begins [s] ts
  · rw [ht.bind_of_begins hb, if_pos rfl]
    exact (hp ts).mono (fun _ => viable_maybe_iff.2) fun _ _ _ => viable_maybe_iff.1
  · rw [ht.bind_of_not_begins hb, if_neg Bool.false_ne_true]
    exact halts_of_not_begins rfl (hs ▸ hb) nofun

/-- A production for what a reserved word begins, and another that is only tried where its pattern
begins. -/
theorem Follows.word {w : String} {f : Location → Production α} {q : Production α}
    {expected : List Expectation} (hf : ∀ l, Follows (f l) g) (hq : Follows q h)
    (ht : Looks test s) (hs : h.first = [s]) (ha : Apart [s] [.word w])
    (hx : ∀ x ∈ expected, ∃ t, x.Names t ∧
      (either (both (terminal (.word w)) g) h).Viable [t]) :
    Follows (isAtKeyword w >>= fun b => if b = true then ofText w >>= f
        else test >>= fun b => if b = true then q else mismatch expected)
      (.either (.both (.terminal (.word w)) g) h) := by
  have hw := looks_isAtKeyword w
  intro ts
  by_cases hb : Begins [.word w] ts
  · rw [hw.bind_of_begins hb, if_pos rfl]
    obtain ⟨t, rest, rfl, hm⟩ := begins_singleton.1 hb
    have hword : ofText w (t :: rest) = .ok (t.location, rest) :=
      ofText_eq_ok_iff.2 ⟨t, matches_mark_of_matches_word hm, rfl, rfl⟩
    rw [bind_eq_of_eq_ok hword]
    refine (hf t.location rest).cons fun xs => ?_
    have hother : ¬ h.Viable (t :: xs) := fun hv =>
      (hs ▸ hv.begins : Begins [s] (t :: xs)).not_begins ha (begins_cons.2 ⟨_, by simp, hm⟩)
    rw [viable_either_iff, viable_both_terminal_iff, or_iff_left hother, and_iff_right hm]
  · rw [hw.bind_of_not_begins hb, if_neg Bool.false_ne_true]
    by_cases hb' : Begins [s] ts
    · rw [ht.bind_of_begins hb', if_pos rfl]
      refine (hq ts).mono (fun xs hv => viable_either_iff.2 (.inr hv)) fun t xs hmem hv => ?_
      refine (viable_either_iff.1 hv).resolve_left fun hv => hb ?_
      exact ⟨t, hmem, .word w, by simp, (viable_both_terminal_iff.1 hv).1⟩
    · rw [ht.bind_of_not_begins hb', if_neg Bool.false_ne_true]
      refine halts_of_not_begins rfl (fun hfirst => ?_) hx
      have hfirsts : Begins ([.word w] ++ h.first) ts := hfirst
      rw [begins_append, hs] at hfirsts
      exact hfirsts.elim hb hb'

/-- Something that is left out where what comes after it begins. -/
theorem Follows.leftOut {test' : Production Bool} {s' : Terminal} {f : α → Production β}
    (hfollows : Follows p g) (hp : Reads p g read) (hu : g.Unambiguous) (ht : Looks test s)
    (ht' : Looks test' s') (hf : ∀ a, Follows (f a) h) (hs : h.first = [s, s'])
    (hng : g.nullable = false) (hgh : Apart g.first h.first) (ha : Apart h.first g.further)
    (e : α) :
    Follows ((test >>= fun a => test' >>= fun a' => if (a || a') = true then pure e else p) >>= f)
      (.both (.maybe g) h) := by
  intro ts
  by_cases hb : Begins [s, s'] ts
  · have hempty := ht.or_of_begins ht' hb (pure e) p
    rw [bind_eq_of_eq_ok (hempty.trans rfl)]
    refine (hf e ts).mono (fun xs hv => viable_both_maybe_iff.2 (.inl hv)) fun t xs hmem hv => ?_
    refine (viable_both_maybe_iff.1 hv).resolve_right fun hv => ?_
    refine (hv.begins_both hng).not_begins hgh ?_
    rw [hs]
    obtain ⟨t', hmem', hm⟩ := hb
    cases hmem.symm.trans hmem'
    exact begins_cons.2 hm
  · have hsame : ((test >>= fun a => test' >>= fun a' =>
        if (a || a') = true then pure e else p) >>= f) ts = (p >>= f) ts :=
      congrArg (fun r : Except Mismatch (α × List Token) => r >>= fun r => f r.1 r.2)
        (ht.or_of_not_begins ht' hb (pure e) p)
    rw [hsame]
    refine (hfollows.bind hp hu hf ha ts).mono
      (fun xs hv => viable_both_maybe_iff.2 (.inr hv)) fun t xs hmem hv => ?_
    refine (viable_both_maybe_iff.1 hv).resolve_left fun hv => hb ?_
    rw [← hs]
    exact ⟨t, hmem, begins_cons.1 hv.begins⟩

end Combining

/-! ## Lists -/

section Lists

variable {item : Production α} {shrinks : Shrinks item} {g : Pattern} {read : g.Tree → α}
  {ts : List Token}

theorem follows_commaSeparated (hfollows : Follows item g) (hi : Reads item g read)
    (hu : g.Unambiguous) (ha : Apart [.mark ","] g.further) :
    Follows (commaSeparated item shrinks) (separated (.mark ",") g) := by
  intro ts
  induction hn : ts.length using Nat.strongRecOn generalizing ts with
  | ind n ih =>
    rw [commaSeparated_eq]
    refine (hfollows ts).bind hi hu (fun a mid hmid => ?_) ha
    by_cases hb : Begins [.mark ","] mid
    · obtain ⟨t, rest, rfl, ht⟩ := begins_singleton.1 hb
      rw [if_pos (startsWith_iff.2 hb)]
      have hlt := shrinks _ _ _ hmid
      rw [List.length_cons] at hlt
      refine (halts_map _ (ih rest.length (by omega) rest rfl)).cons fun xs => ?_
      rw [viable_many_separated_iff, and_iff_right ht]
    · rw [if_neg (not_startsWith_iff.2 hb)]
      exact halts_of_not_begins rfl hb nofun

/-- A token that ends the list is taken, and nothing after it. -/
theorem halts_end {a : α} {t : Token} {rest : List Token} (hv : g.Viable [t])
    (hend : ∀ xs, g.Viable (t :: xs) → xs = []) : Halts g (t :: rest) (.ok (a, rest)) := by
  refine ⟨[t], rfl, hv, fun t' _ hv' => ?_, nofun⟩
  cases hend _ hv'

theorem follows_parenthesisItems (hfollows : Follows item g) (hi : Reads item g read)
    (hu : g.Unambiguous) (hn : g.nullable = false) (hf : Apart [.mark ",", .mark ")"] g.further)
    (hc : Apart g.first [.mark ")"]) :
    Follows (parenthesisItems item shrinks) (closedList (.mark ",") (.mark ")") g) := by
  have hsc : Apart [.mark ","] [.mark ")"] := by decide
  intro ts
  induction hlength : ts.length using Nat.strongRecOn generalizing ts with
  | ind n ih =>
    by_cases hend : Begins [.mark ")"] ts
    · obtain ⟨t, rest, rfl, ht⟩ := begins_singleton.1 hend
      rw [parenthesisItems_of_end (startsWith_iff.2 hend)]
      exact halts_end (viable_tokens (g := closedList (.mark ",") (.mark ")") g) (none, ⟨t, ht⟩))
        fun xs => viable_closedList_of_matches hn hc ht
    · rw [parenthesisItems_eq (not_startsWith_iff.2 hend)]
      have hafter : Apart (afterItem (.mark ",") (.mark ")") g).first g.further :=
        fun s hs => hf s (by simpa [first, nullable] using hs)
      refine ((hfollows ts).bind hi hu (fun a mid hmid => ?_) hafter).mono
        (fun xs => Viable.closedList) fun t xs hmem => ?_
      · by_cases hb : Begins [.mark ","] mid
        · obtain ⟨t, rest, rfl, ht⟩ := begins_singleton.1 hb
          rw [if_pos (startsWith_iff.2 hb)]
          have hlt := shrinks _ _ _ hmid
          rw [List.length_cons] at hlt
          exact (halts_map _ (ih rest.length (by omega) rest rfl)).cons fun xs =>
            viable_afterItem_iff hsc ht
        · rw [if_neg (not_startsWith_iff.2 hb)]
          refine (halts_map (fun _ => [a]) (follows_ofText ")" mid)).mono
            (fun xs => Viable.afterItem) fun t xs hmem =>
              viable_afterItem_of_not_matches fun ht => hb ?_
          exact ⟨t, hmem, .mark ",", by simp, ht⟩
      · refine viable_closedList_of_not_matches fun ht => hend ?_
        exact ⟨t, hmem, .mark ")", by simp, ht⟩

theorem follows_parenthesised (hfollows : Follows item g) (hi : Reads item g read)
    (hu : g.Unambiguous) (hn : g.nullable = false) (hf : Apart [.mark ",", .mark ")"] g.further)
    (hc : Apart g.first [.mark ")"]) :
    Follows (parenthesised item shrinks) (Grammar.parenthesised g) :=
  ((follows_ofText "(").bind (reads_ofText "(") (unambiguous_terminal _)
    (fun _ => follows_parenthesisItems hfollows hi hu hn hf hc) (apart_nil _)).maybe
      (looks_isAt "(") rfl []

theorem follows_braceItems (hfollows : Follows item g) (hi : Reads item g read)
    (hu : g.Unambiguous) (hn : g.nullable = false) (ha : Apart g.first g.further)
    (hf : Apart [.mark "\x7d"] g.further) (hc : Apart g.first [.mark "\x7d"]) :
    Follows (braceItems item shrinks) (.both (.many g) (Grammar.mark "\x7d")) := by
  have hafter : Apart (Pattern.both (.many g) (Grammar.mark "\x7d")).first g.further :=
    fun s hs => (List.mem_append.1 hs).elim (ha s) (hf s)
  intro ts
  induction hlength : ts.length using Nat.strongRecOn generalizing ts with
  | ind n ih =>
    by_cases hend : Begins [.mark "\x7d"] ts
    · obtain ⟨t, rest, rfl, ht⟩ := begins_singleton.1 hend
      rw [braceItems_of_end (startsWith_iff.2 hend)]
      refine halts_end (viable_both_many_iff.2 (.inl (viable_terminal_iff.2 ⟨ht, rfl⟩)))
        fun xs hv => ?_
      rcases viable_both_many_iff.1 hv with hv | hv
      · exact (viable_terminal_iff.1 hv).2
      · exact ((hv.begins_both hn).not_begins hc (begins_cons.2 ⟨_, by simp, ht⟩)).elim
    · rw [braceItems_eq (not_startsWith_iff.2 hend)]
      have hitem := (hfollows ts).bind hi hu (fun a mid hmid =>
        halts_map (fun as => a :: as) (ih mid.length (hlength ▸ shrinks _ _ _ hmid) mid rfl)) hafter
      refine hitem.mono (fun xs hv => viable_both_many_iff.2 (.inr hv)) fun t xs hmem hv => ?_
      refine (viable_both_many_iff.1 hv).resolve_left fun hv => hend ?_
      exact ⟨t, hmem, .mark "\x7d", by simp, (viable_terminal_iff.1 hv).1⟩

theorem halts_untilEnd (hfollows : Follows item g) (hi : Reads item g read)
    (hu : g.Unambiguous) (ha : Apart g.first g.further) (ts : List Token) :
    Halts (many g) ts ((untilEnd item shrinks ts).map fun as => (as, [])) := by
  induction hlength : ts.length using Nat.strongRecOn generalizing ts with
  | ind n ih =>
    cases ts with
    | nil =>
      rw [untilEnd_nil]
      exact halts_of_not_begins rfl (not_begins_nil _) nofun
    | cons t ts =>
      have hstep : (untilEnd item shrinks (t :: ts)).map (fun as => (as, [])) =
          (item >>= fun a mid => ((untilEnd item shrinks mid).map fun as => (as, [])).map
            fun r => (a :: r.1, r.2)) (t :: ts) := by
        rw [untilEnd_cons]
        show _ = (item (t :: ts)).bind _
        cases item (t :: ts) with
        | error m => rfl
        | ok r =>
          show ((untilEnd item shrinks r.2).map (r.1 :: ·)).map _ =
            ((untilEnd item shrinks r.2).map _).map _
          cases untilEnd item shrinks r.2 <;> rfl
      rw [hstep]
      have hitem := (hfollows (t :: ts)).bind hi hu (h := many g) (fun a mid hmid =>
        halts_map (fun as => a :: as) (ih mid.length (hlength ▸ shrinks _ _ _ hmid) mid rfl)) ha
      exact hitem.mono (fun xs => Viable.many) fun t xs _ => viable_many_cons_iff.1

end Lists

end EventMachine.Syntax
