import EventMachine.Proofs.Lexer.Termination
import EventMachine.Proofs.Syntax.FirstMismatch
import Mathlib.Data.List.Basic

/-!
# Sources that are not valid UTF-8

A source that cannot be read to its end has no tree. Its error is the failure to read, unless a
token before it cannot come next: then that token is the error (`invalid_bytes_are_reported`). The
tokens before the failure are those of the logical lines that are complete by then.
-/

namespace EventMachine.Syntax

open Pattern Source

/-- The result of a source that has these tokens, after which it cannot be read. -/
structure FailsAfter (result : Except ParseError File) (filename : String) (ts : List Token)
    (e : ReadError) : Prop where
  not_ok : ∀ f, result ≠ .ok f
  unreadable_iff : result = .error (.unreadable filename e) ↔ Grammar.file.Viable ts
  unexpected : ¬ Grammar.file.Viable ts → ∃ t expected, Grammar.file.FirstOffending ts t ∧
    result = .error (.unexpected ⟨filename, expected, t.location, t.kind, t.text⟩)

theorem failsAfter_of_viable {filename : String} {ts : List Token} (e : ReadError)
    (h : Grammar.file.Viable ts) :
    FailsAfter (.error (.unreadable filename e)) filename ts e where
  not_ok := nofun
  unreadable_iff := iff_of_true rfl h
  unexpected hnot := (hnot h).elim

theorem parseTokens_failsAfter (filename : String) {tokens : List Token} {last : Token}
    (e : ReadError) (htokens : ∀ t ∈ tokens, t.kind.isTerminal = false)
    (hlast : last.kind = .error) :
    FailsAfter (parseTokens filename tokens last (some e)) filename tokens e := by
  have herror (m : Mismatch) (hm : m.remaining = []) :
      m.error filename last (some e) = .unreadable filename e := by
    unfold Mismatch.error
    simp only [hm, List.headD_nil, hlast, if_true]
    rfl
  unfold parseTokens
  cases hfile : file tokens with
  | ok tree =>
    simp only [hlast, if_true]
    rw [herror _ rfl]
    exact failsAfter_of_viable e (viable_of_file_eq_ok hfile)
  | error m =>
    dsimp only
    rcases file_error_cases hfile with ⟨hm, hviable⟩ | ⟨t, rest, hm, hfirst⟩
    · rw [herror m hm]
      exact failsAfter_of_viable e hviable
    · have hkind : t.kind ≠ .error := by
        obtain ⟨before, after, rfl, -⟩ := hfirst
        intro hkind
        have hterminal := htokens t (by simp)
        rw [hkind] at hterminal
        cases hterminal
      have hdiagnostic : m.error filename last (some e) = .unexpected
          ⟨filename, m.expected.map (·.label), t.location, t.kind, t.text⟩ := by
        unfold Mismatch.error
        simp only [hm, List.headD_cons, if_neg hkind]
      rw [hdiagnostic]
      exact ⟨nofun, iff_of_false nofun hfirst.not_viable, fun _ => ⟨t, _, hfirst, rfl⟩⟩

/-- A lexer comes to a terminal token after at most as many tokens as the source has bytes. That
token is the end of the source if the bytes are valid UTF-8. Otherwise it stands for the failure to
read them, which is given once, and the source has no tree: the failure is its error if the tokens
of the logical lines that are complete before the first invalid byte are viable, and otherwise the
first of these that cannot come next. -/
theorem invalid_bytes_are_reported {r : Reader} (hr : r.Steady) (filename : String) :
    ∃ n ≤ r.pending.length, (Lexer.ofReader r).StopsAfter n ∧
      (IsText r.pending → ((Lexer.ofReader r).taken n).token.kind = .eof ∧
        ((Lexer.ofReader r).taken n).failure = none) ∧
      (¬ IsText r.pending → ((Lexer.ofReader r).taken n).FailsOnce .invalidUtf8 ∧
        FailsAfter (parse filename (.ofReader r)).1 filename
          ((completedLines (validPart r.pending)).flatMap LogicalLine.tokens) .invalidUtf8) := by
  obtain ⟨hle, hstops⟩ := Lexer.stopsAfter_run r
  refine ⟨_, hle, hstops, fun h => ?_, fun h => ?_⟩
  · rw [← Lexer.run_eq_taken]
    exact Lexer.run_of_isText hr h
  · obtain ⟨htokens, hfails⟩ := Lexer.run_of_invalid hr h
    rw [← Lexer.run_eq_taken]
    refine ⟨hfails, ?_⟩
    have hfailure : (Lexer.ofReader r).run.2.failure = some .invalidUtf8 := hfails.given
    rw [← htokens]
    unfold parse
    simp only [hfailure]
    exact parseTokens_failsAfter filename .invalidUtf8 (fun _ => Lexer.isTerminal_of_mem_run)
      hfails.token


namespace Turnstile

/-- A constant in a line of its own, and the beginning of a state in a line that is not valid. -/
def garbled : List UInt8 := encode "coins = 1;\nstate " ++ [0xFF]

/-- The tokens of the first line. -/
def firstTokens : List Token :=
  [⟨.identifier, "coins", ⟨1, 0, 5⟩⟩, ⟨.punct, "=", ⟨1, 6, 1⟩⟩, ⟨.int, "1", ⟨1, 8, 1⟩⟩,
    ⟨.punct, ";", ⟨1, 9, 1⟩⟩]

/-- The first line is read, and the second one is not: the failure is the error. -/
theorem reports_garbled_line :
    ¬ IsText garbled ∧
    (completedLines (validPart garbled)).flatMap LogicalLine.tokens = firstTokens ∧
    (parse "turnstile" (.ofBytes garbled)).1 =
      .error (.unreadable "turnstile" .invalidUtf8) := by
  have hpending : (Reader.ofBytes garbled).pending = garbled := List.append_nil garbled
  have hinvalid : ¬ IsText garbled := by decide +kernel
  have htokens : (completedLines (validPart garbled)).flatMap LogicalLine.tokens = firstTokens := by
    decide +kernel
  have hviable : Grammar.file.Viable firstTokens :=
    viable_of_file_eq_ok (f := ⟨[.assign ⟨"coins", .int 1, ⟨1, 0, 5⟩⟩]⟩) (by decide +kernel)
  obtain ⟨_, -, -, -, hreported⟩ :=
    invalid_bytes_are_reported (Reader.steady_ofBytes garbled) "turnstile"
  rw [hpending, htokens] at hreported
  exact ⟨hinvalid, htokens, (hreported hinvalid).2.unreadable_iff.2 hviable⟩

end Turnstile

end EventMachine.Syntax
