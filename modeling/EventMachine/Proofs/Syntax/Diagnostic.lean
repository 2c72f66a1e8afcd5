import EventMachine.Proofs.Lexer.Order
import EventMachine.Proofs.Syntax.FirstMismatch

/-!
# What a diagnostic says

A diagnostic stands at the first token of a source that cannot come next, and lists tokens that
could have come there instead (`diagnostic_points_at_first_offending`). The end of the source counts
as a token: it is the one that cannot come next where the tokens are viable but derive no file.

1. The end of the source goes on with the tokens of a file and with no others
   (`viable_source_append_iff`), for no rule of the grammar has it (`isTerminal_of_mem_tokens`).
2. A mismatch that leaves no tokens is at the terminal token. If this one stands for a failure to
   read, the lexer has the failure (`Lexer.failure_of_run`), which is then the error.
-/

namespace EventMachine

open Source

namespace Syntax

open Pattern

/-! ## The end of the source -/

namespace Pattern

/-- The terminals of a pattern. -/
def terminals : Pattern → List Terminal
  | terminal s => [s]
  | both p q | either p q => p.terminals ++ q.terminals
  | maybe p | many p => p.terminals

/-- Every token is derived from a terminal. -/
theorem exists_matches_of_mem_tokens {g : Pattern} {d : g.Tree} {t : Token} (h : t ∈ g.tokens d) :
    ∃ s ∈ g.terminals, s.Matches t := by
  induction g with
  | terminal s =>
    obtain rfl := List.mem_singleton.1 h
    exact ⟨s, List.mem_singleton.2 rfl, d.2⟩
  | both p q ihp ihq =>
    simp only [terminals, List.mem_append, or_and_right, exists_or]
    exact (List.mem_append.1 h).imp ihp ihq
  | either p q ihp ihq =>
    simp only [terminals, List.mem_append, or_and_right, exists_or]
    cases d with
    | inl d => exact .inl (ihp h)
    | inr d => exact .inr (ihq h)
  | maybe p ih =>
    cases d with
    | none => cases h
    | some d => exact ih h
  | many p ih =>
    obtain ⟨d, -, h⟩ := List.mem_flatMap.1 h
    exact ih h

end Pattern

namespace Grammar

/-- `file` and then the end of the source. -/
abbrev source : Pattern := .both file (.terminal (.kind .eof))

/-- No rule has a terminal token. -/
theorem isTerminal_of_mem_tokens {d : file.Tree} {t : Token} (h : t ∈ file.tokens d) :
    t.kind.isTerminal = false := by
  have hkinds : ∀ s ∈ file.terminals, ∀ k ∈ s.kinds, k.isTerminal = false := by
    decide +kernel
  obtain ⟨s, hs, ht⟩ := exists_matches_of_mem_tokens h
  exact hkinds s hs t.kind ht.mem_kinds

variable {ts : List Token} {t : Token}

theorem isTerminal_of_viable (h : file.Viable (ts ++ [t])) : t.kind.isTerminal = false := by
  obtain ⟨d, hd⟩ := h
  exact isTerminal_of_mem_tokens (hd.subset (by simp))

/-- A token that is not terminal may come next in a source where it may in a file. -/
theorem viable_source_append_iff (ht : t.kind.isTerminal = false) :
    source.Viable (ts ++ [t]) ↔ file.Viable (ts ++ [t]) := by
  refine ⟨fun h => ?_, fun h => h.both_left _⟩
  rcases viable_both_cases h with h | ⟨d, y, ys, heq, hend⟩
  · exact h
  · obtain ⟨hy, rfl⟩ := viable_terminal_iff.1 hend
    obtain rfl : t = y := by simpa using (List.append_inj' heq rfl).2
    have hkind : t.kind = .eof := hy
    rw [hkind] at ht
    cases ht

/-- A terminal token may come next where it is the end and the tokens before it are a file. -/
theorem exists_tokens_of_viable_source (ht : t.kind.isTerminal = true)
    (h : source.Viable (ts ++ [t])) : ∃ d, file.tokens d = ts := by
  rcases viable_both_cases h with h | ⟨d, y, ys, heq, hend⟩
  · rw [isTerminal_of_viable h] at ht
    cases ht
  · obtain ⟨-, rfl⟩ := viable_terminal_iff.1 hend
    exact ⟨d, (List.append_inj' heq rfl).1.symm⟩

end Grammar

/-! ## Diagnostics -/

/-- The diagnostic is about the token `t` after the tokens `before`: it cannot come next there, and
what is expected could. -/
structure Diagnostic.PointsAt (d : Diagnostic) (before : List Token) (t : Token) : Prop where
  viable : Grammar.source.Viable before
  not_viable : ¬ Grammar.source.Viable (before ++ [t])
  location : d.location = t.location
  kind : d.kind = t.kind
  text : d.text = t.text
  expects : ∀ label ∈ d.expected, ∃ x : Expectation, x.label = label ∧
    ∃ t', x.Names t' ∧ Grammar.source.Viable (before ++ [t'])

section Errors

variable {filename : String} {tokens : List Token} {last : Token} {failure : Option ReadError}
  {m : Mismatch} {d : Diagnostic}

/-- Where the terminal token does not stand for a failure, or the failure is known, a mismatch has a
diagnostic only of a token that does not stand for a failure. -/
theorem error_eq_unexpected (hfailure : last.kind = .error → failure.isSome = true)
    (htokens : ∀ t ∈ m.remaining, t.kind ≠ .error)
    (h : m.error filename last failure = .unexpected d) :
    (m.remaining.headD last).kind ≠ .error ∧
      d = ⟨filename, m.expected.map (·.label), (m.remaining.headD last).location,
        (m.remaining.headD last).kind, (m.remaining.headD last).text⟩ := by
  unfold Mismatch.error at h
  simp only at h
  split at h
  · next hkind =>
    exfalso
    have hlast : last.kind = .error := by
      cases hrest : m.remaining with
      | nil => simpa [hrest] using hkind
      | cons t rest =>
        refine (htokens t (by simp [hrest]) ?_).elim
        simpa [hrest] using hkind
    obtain ⟨e, rfl⟩ := Option.isSome_iff_exists.1 (hfailure hlast)
    cases h
  · next hkind => exact ⟨hkind, (ParseError.unexpected.inj h).symm⟩

/-- What a mismatch leaves are tokens of the source, which do not stand for a failure. -/
theorem mem_of_mem_remaining (htokens : ∀ t ∈ tokens, t.kind.isTerminal = false)
    (h : file tokens = .error m) {t : Token} (ht : t ∈ m.remaining) :
    t ∈ tokens ∧ t.kind ≠ .error := by
  obtain ⟨used, rfl, -⟩ := stops_of_file_eq_error h
  have hmem := List.mem_append_right used ht
  refine ⟨hmem, fun hkind => ?_⟩
  have hterminal := htokens t hmem
  rw [hkind] at hterminal
  cases hterminal

/-- The tokens are those before the first that cannot come next, that one, and more. -/
theorem exists_stops (htokens : ∀ t ∈ tokens, t.kind.isTerminal = false)
    (hlast : last.kind.isTerminal = true) (h : file tokens = .error m) :
    ∃ before after, tokens ++ [last] = before ++ m.remaining.headD last :: after ∧
      Stops Grammar.source before [m.remaining.headD last] m.expected := by
  obtain ⟨used, rfl, hstops⟩ := stops_of_file_eq_error h
  have hexpects : ∀ x ∈ m.expected, ∃ t, x.Names t ∧ Grammar.source.Viable (used ++ [t]) := by
    intro x hx
    obtain ⟨t, hnames, hviable⟩ := hstops.expects x hx
    exact ⟨t, hnames, hviable.both_left _⟩
  cases hrest : m.remaining with
  | nil =>
    rw [hrest, List.append_nil] at h
    refine ⟨used, [], by simp, hstops.viable.both_left _, fun t ht hviable => ?_, hexpects⟩
    obtain rfl : last = t := Option.some.inj ht
    obtain ⟨d, rfl⟩ := Grammar.exists_tokens_of_viable_source hlast hviable
    rw [file_eq_ok_iff.2 ⟨d, rfl, rfl⟩] at h
    cases h
  | cons t rest =>
    refine ⟨used, rest ++ [last], by simp, hstops.viable.both_left _, fun t' ht hviable => ?_,
      hexpects⟩
    obtain rfl : t = t' := Option.some.inj ht
    have hkind := htokens t (by simp [hrest])
    exact hstops.first t (by rw [hrest]; rfl)
      ((Grammar.viable_source_append_iff hkind).1 hviable)

/-- A diagnostic is that of a mismatch in the tokens. -/
theorem exists_mismatch (hfailure : last.kind = .error → failure.isSome = true)
    (h : parseTokens filename tokens last failure = .error (.unexpected d)) :
    ∃ m, file tokens = .error m ∧ m.error filename last failure = .unexpected d := by
  unfold parseTokens at h
  cases hfile : file tokens with
  | error m =>
    rw [hfile] at h
    exact ⟨m, rfl, Except.error.inj h⟩
  | ok tree =>
    simp only [hfile] at h
    split at h
    · next hlast =>
      exact ((error_eq_unexpected hfailure (fun _ ht => (List.not_mem_nil ht).elim)
        (Except.error.inj h)).1 hlast).elim
    · cases h

end Errors

/-- Every syntax error of a source is about the first token that cannot come next, the end of the
source included, and never about a failure to read. No other token of the source is in the same
place. Each token that it says it expected could have come there. -/
theorem diagnostic_points_at_first_offending {filename : String} {r : Reader} {d : Diagnostic}
    (h : (parse filename (.ofReader r)).1 = .error (.unexpected d)) :
    ∃ before t after,
      (Lexer.ofReader r).run.1 ++ [(Lexer.ofReader r).run.2.token] = before ++ t :: after ∧
      d.PointsAt before t ∧ (∀ s ∈ before ++ after, s.location ≠ d.location) ∧
      d.kind ≠ .error ∧ d.filename = filename := by
  have htokens : ∀ t ∈ (Lexer.ofReader r).run.1, t.kind.isTerminal = false :=
    fun _ => Lexer.isTerminal_of_mem_run
  have hlast : (Lexer.ofReader r).run.2.token.kind.isTerminal = true := by
    rw [Lexer.run_eq_taken]
    exact (Lexer.stopsAfter_run r).2.terminal
  have horder := Lexer.pairwise_startsBefore_run r
  obtain ⟨m, hfile, herror⟩ := exists_mismatch Lexer.failure_of_run h
  obtain ⟨before, after, hsplit, hstops⟩ := exists_stops htokens hlast hfile
  have hremaining : ∀ t ∈ m.remaining, t.kind ≠ .error := fun t ht =>
    (mem_of_mem_remaining htokens hfile ht).2
  obtain ⟨hkind, rfl⟩ := error_eq_unexpected Lexer.failure_of_run hremaining herror
  rw [hsplit, List.pairwise_append, List.pairwise_cons] at horder
  obtain ⟨-, ⟨hafter, -⟩, hbefore⟩ := horder
  refine ⟨before, _, after, hsplit, ⟨hstops.viable, hstops.first _ rfl, rfl, rfl, rfl, ?_⟩, ?_,
    hkind, rfl⟩
  · intro label hlabel
    obtain ⟨x, hx, rfl⟩ := List.mem_map.1 hlabel
    exact ⟨x, rfl, hstops.expects x hx⟩
  · intro s hs
    rcases List.mem_append.1 hs with hs | hs
    · exact (hbefore s hs _ List.mem_cons_self).location_ne
    · exact (hafter s hs).location_ne.symm

namespace Turnstile

/-- A state without the semicolon after it, and a constant. -/
def unfinished : String := "state Locked \x7b\x7d\ncoins = 1;"

/-- The first token of the second line. -/
def coinsToken : Token := ⟨.identifier, "coins", ⟨2, 0, 5⟩⟩

/-- The semicolon could have stood there. -/
def missingSemicolon : Diagnostic := ⟨"turnstile", ["\";\""], ⟨2, 0, 5⟩, .identifier, "coins"⟩

/-- The tokens of the first line are viable, but not with the name of the constant. -/
theorem points_at_coins :
    (parse "turnstile" (.ofText unfinished)).1 = .error (.unexpected missingSemicolon) ∧
    ∃ before after, (Lexer.ofText unfinished).run.1 ++ [(Lexer.ofText unfinished).run.2.token] =
      before ++ coinsToken :: after ∧ missingSemicolon.PointsAt before coinsToken := by
  have herror : (parse "turnstile" (.ofText unfinished)).1 =
      .error (.unexpected missingSemicolon) := by
    refine (parseText_eq "turnstile" unfinished).trans ?_
    decide +kernel
  obtain ⟨before, t, after, hsplit, hpoints, -⟩ := diagnostic_points_at_first_offending herror
  obtain rfl : t = coinsToken := by
    obtain ⟨kind, text, location⟩ := t
    obtain ⟨-, -, rfl, rfl, rfl, -⟩ := hpoints
    rfl
  exact ⟨herror, before, after, hsplit, hpoints⟩

end Turnstile

end Syntax

end EventMachine
