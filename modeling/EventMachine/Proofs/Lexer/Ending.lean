import EventMachine.Proofs.Lexer.Step
import EventMachine.Proofs.Lexer.Termination
import EventMachine.Proofs.Syntax.Continuation

/-!
# After the terminal token

Further steps from a terminal token come to terminal tokens only. They are all the same but for the
line: each is the first one, moved down by as many lines as the text has physical lines after its
last logical line (`Lexer.terminal_token_stays`). It is the first step from the end of a source that
passes these lines.

1. `Lexer.Numbered` counts physical lines: those up to a lexer's logical line and those that are
   still before it are always as many. A step keeps the count (`Numbered.next`), hence so does any
   number of them (`Numbered.taken`).
2. From the end of a source the next step has counted all physical lines (`Ends.advance`), and then
   the end stays where it is (`Ends.taken`).
-/

namespace EventMachine

open Source

namespace Source

/-! ## Lines that hang -/

theorem cutLogical_append (parts lines : List (List Char)) :
    (cutLogical parts lines).1 ++ (cutLogical parts lines).2 = parts ++ lines := by
  induction lines generalizing parts with
  | nil => rfl
  | cons line lines ih =>
    unfold cutLogical
    split
    · simpa using ih (parts ++ [line])
    · simp

/-- The number of physical lines after the last logical line, of bytes that are a text. -/
def hangingCount (bytes : List UInt8) : Nat :=
  (decode? bytes).elim 0 fun cs => (hangingLines cs).length

theorem endNumber_add_hangingCount (text : String) :
    endNumber text + hangingCount (encode text) = (physicalLines text.toList).length + 1 := by
  have hlines := congrArg List.length
    (flatMap_parts_append_hangingFrom [] [] (physicalLines text.toList))
  rw [List.length_append, List.nil_append] at hlines
  have hcount : hangingCount (encode text) = (hangingLines text.toList).length := by
    unfold hangingCount
    rw [decode?_encode]
    rfl
  rw [hcount]
  unfold endNumber logicalLines hangingLines
  omega

theorem hangingCount_of_invalid {bytes : List UInt8} (h : ¬ IsText bytes) :
    hangingCount bytes = 0 := by
  unfold hangingCount
  cases hdecode : decode? bytes with
  | none => rfl
  | some cs => exact (h (isText_iff.2 ⟨cs, (decode?_eq_some_iff.1 hdecode)⟩)).elim

end Source

namespace Lexer

variable {lexer : Lexer} {stop total : Nat}

/-- At a terminal token nothing is left of the logical line. -/
theorem rest_of_next (h : lexer.next.token.kind.isTerminal = true) : lexer.next.rest = [] := by
  rcases lexer.next_cases with ⟨line, lexeme, -, hl, hnext⟩ | hend
  · rw [hnext] at h
    exact (Bool.false_ne_true ((isTerminal_of_nextLexeme? hl).symm.trans h)).elim
  · exact hend.rest

/-! ## Counting lines -/

/-- The physical lines up to the lexer's logical line, and those that its reader still has, reach to
the line `total`. -/
def Numbered (lexer : Lexer) (total : Nat) : Prop :=
  ∃ lines, lexer.reader.Holds lines ∧ lexer.line + lexer.physicalLines + lines.length = total

theorem Numbered.next (h : lexer.Numbered total) : lexer.next.Numbered total := by
  -- the physical lines of the logical line that is read go over to the lexer
  have hread {lexer : Lexer} (h : lexer.Numbered total) :
      ∃ lines, (readLogical lexer.reader).reader.Holds lines ∧
        lexer.line + lexer.physicalLines + (readLogical lexer.reader).physicalLines +
          lines.length = total := by
    obtain ⟨lines, hreader, rfl⟩ := h
    obtain ⟨r', hr', heq⟩ := hreader.readLogical_eq
    have hlength := congrArg List.length (cutLogical_append [] lines)
    rw [List.length_append, List.nil_append] at hlength
    rw [heq]
    refine ⟨_, hr', ?_⟩
    dsimp only
    omega
  fun_induction Lexer.next lexer with
  | case1 => exact h
  | case2 => exact hread h
  | case3 => exact hread h
  | case4 =>
    rename_i ih
    exact ih (hread h)

theorem Numbered.taken (h : lexer.Numbered total) (n : Nat) : (lexer.taken n).Numbered total :=
  taken_of_next (P := fun lexer => lexer.Numbered total) (fun _ => Numbered.next) h n

/-! ## Steps from the end -/

/-- The next step from the end of a source comes to the end again, behind all physical lines. -/
theorem Ends.advance (h : lexer.Ends stop) (hrest : lexer.rest = [])
    (hnumbered : lexer.Numbered total) :
    lexer.advance.Ends total ∧ lexer.advance.rest = [] := by
  obtain ⟨lines, hreader, htotal⟩ := hnumbered
  have hlines : lines = [] := by
    have hbytes : bytesOf lines.flatten = [] := hreader.pending.symm.trans h.pending
    rw [← hreader.physical, bytesOf_eq_nil hbytes]
    rfl
  rw [hlines, List.length_nil, Nat.add_zero] at htotal
  have hkind : ¬ lexer.token.kind = .error := by
    rw [h.token]
    exact nofun
  obtain ⟨r', hr', hnext⟩ := next_of_end h.pending hrest
  rw [Lexer.advance, if_neg hkind, hnext, htotal]
  exact ⟨⟨rfl, rfl, hr'⟩, rfl⟩

/-- After it the end stays where it is; by induction on the steps. -/
theorem Ends.taken (h : lexer.Ends total) (hrest : lexer.rest = [])
    (hnumbered : lexer.Numbered total) (n : Nat) : (lexer.taken n).Ends total := by
  induction n generalizing lexer with
  | zero => exact h
  | succ n ih =>
    obtain ⟨hends, hrest'⟩ := h.advance hrest hnumbered
    exact ih hends hrest' (hnumbered.taken 1)

variable {r : Reader}

/-- The terminal tokens of a text: the first stands behind its logical lines, and the others behind
all its physical lines. -/
theorem run_taken_of_delivers {text : String} (h : r.Delivers text) :
    (ofReader r).run.2.token = endAt (endNumber text) ∧
      ∀ n, ((ofReader r).run.2.taken (n + 1)).token =
        endAt (endNumber text + hangingCount r.pending) := by
  obtain ⟨lexer, hlexer, hlexerNumbered⟩ : ∃ lexer : Lexer, ofReader r = lexer.next ∧
      lexer.Numbered (endNumber text + hangingCount r.pending) := by
    refine ⟨_, rfl, Source.physicalLines text.toList, h.holds, ?_⟩
    rw [h.pending, endNumber_add_hangingCount]
    exact Nat.add_comm _ _
  obtain ⟨-, hends⟩ := run_ofReader h
  have hnumbered : (ofReader r).run.2.Numbered (endNumber text + hangingCount r.pending) := by
    rw [run_eq_taken, hlexer]
    exact hlexerNumbered.next.taken _
  have hrest : (ofReader r).run.2.rest = [] := by
    have hkind : (ofReader r).run.2.token.kind.isTerminal = true := by
      rw [hends.token]
      rfl
    rw [run_eq_taken, hlexer] at hkind ⊢
    exact taken_of_next (P := fun lexer => lexer.token.kind.isTerminal = true → lexer.rest = [])
      (fun _ _ => rest_of_next) rest_of_next _ hkind
  refine ⟨hends.token, fun n => ?_⟩
  obtain ⟨hadvance, hrest'⟩ := hends.advance hrest hnumbered
  exact (hadvance.taken hrest' (hnumbered.taken 1) n).token

/-- Every terminal token after the first is the first one, moved down by the lines that hang. -/
theorem run_taken (hr : r.Steady) (n : Nat) :
    ((ofReader r).run.2.taken (n + 1)).token =
      (ofReader r).run.2.token.mapLocation (.mapLine (· + hangingCount r.pending)) := by
  by_cases h : IsText r.pending
  · obtain ⟨text, htext⟩ := h
    obtain ⟨hfirst, hlater⟩ := run_taken_of_delivers ⟨hr, htext.symm⟩
    rw [hfirst, hlater]
    rfl
  · obtain ⟨-, hfails⟩ := run_of_invalid hr h
    rw [taken_of_error hfails.token, hangingCount_of_invalid h]
    rfl

/-- From the first terminal token on a lexer comes to terminal tokens only, and all of them are this
one but for the line: those after it are as many lines further down as the text has physical lines
after its last logical line. -/
theorem terminal_token_stays (hr : r.Steady) :
    ∃ m, (∀ n, ((ofReader r).taken n).token.kind.isTerminal = true ↔ m ≤ n) ∧
      ∀ n, m < n → ((ofReader r).taken n).token =
        ((ofReader r).taken m).token.mapLocation (.mapLine (· + hangingCount r.pending)) := by
  obtain ⟨-, hstops⟩ := stopsAfter_run r
  have hlater {n : Nat} (hn : (ofReader r).run.1.length < n) : ((ofReader r).taken n).token =
      ((ofReader r).taken (ofReader r).run.1.length).token.mapLocation
        (.mapLine (· + hangingCount r.pending)) := by
    obtain ⟨k, rfl⟩ := Nat.exists_eq_add_of_lt hn
    rw [Nat.add_assoc, taken_add, ← run_eq_taken]
    exact run_taken hr k
  refine ⟨_, fun n => ⟨fun hkind => ?_, fun hn => ?_⟩, fun n => hlater⟩
  · refine Nat.le_of_not_lt fun hn => ?_
    rw [hstops.nonterminal n hn] at hkind
    cases hkind
  · rcases Nat.eq_or_lt_of_le hn with rfl | hn
    · exact hstops.terminal
    · rw [hlater hn]
      exact hstops.terminal

end Lexer

namespace Turnstile

/-- A constant in a line with its newline. -/
def coins : String := "coins = 1;\n"

/-- No line hangs: the end is in the second line, and stays there. -/
theorem stays_in_second_line :
    (Reader.ofBytes (encode coins)).Steady ∧
    ∀ n, 4 ≤ n → ((Lexer.ofText coins).taken n).token = endAt 2 := by
  have hsteady := Reader.steady_ofBytes (encode coins)
  have hhanging : hangingCount (Reader.ofBytes (encode coins)).pending = 0 := by decide +kernel
  have hfirst : ((Lexer.ofText coins).taken 4).token = endAt 2 := by decide +kernel
  have hthird : ((Lexer.ofText coins).taken 3).token.kind = .punct := by decide +kernel
  obtain ⟨m, hterminal, hlater⟩ := Lexer.terminal_token_stays hsteady
  obtain rfl : m = 4 := by
    refine Nat.le_antisymm ((hterminal 4).1 (congrArg (·.kind.isTerminal) hfirst))
      (Nat.lt_of_not_le fun h => ?_)
    have := (congrArg TokenKind.isTerminal hthird).symm.trans ((hterminal 3).2 h)
    cases this
  refine ⟨hsteady, fun n hn => ?_⟩
  rcases Nat.eq_or_lt_of_le hn with rfl | hn
  · exact hfirst
  · have htoken := hlater n hn
    rw [hhanging] at htoken
    exact htoken.trans (congrArg _ hfirst)

/-- A backslash alone in the only line of a text makes up no logical line: the end is in the first
line, and after one more step in the second one. -/
theorem moves_behind_backslash :
    (Lexer.ofText "\\\n").token = endAt 1 ∧ (Lexer.ofText "\\\n").advance.token = endAt 2 := by
  decide +kernel

end Turnstile

end EventMachine
