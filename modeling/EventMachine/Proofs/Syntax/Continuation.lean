import EventMachine.Proofs.Source.Continuation
import EventMachine.Proofs.Syntax.Relocation
import Mathlib.Data.List.Basic

/-!
# Sources with a line break that is joined again

A backslash and a newline that are put into a source change no token, not even within one, but for
the line numbers of what comes after them (`flatMap_tokens_of_map_heading`). So they change the
syntax tree in these numbers only (`toOption_parseText_of_tokens`).
-/

namespace EventMachine

open Source

/-! ## Tokens in other lines -/

/-- The location in another line. -/
def Location.mapLine (f : Nat → Nat) (l : Location) : Location := { l with line := f l.line }

theorem lineTokens_mapLine (f : Nat → Nat) (number offset : Nat) (rest : List Char) :
    lineTokens (f number) offset rest =
      (lineTokens number offset rest).map (Token.mapLocation (.mapLine f)) := by
  fun_induction lineTokens number offset rest with
  | case1 offset rest h => exact lineTokens_of_none h
  | case2 offset rest lexeme h ih =>
    rw [lineTokens_of_some h, ih]
    rfl

/-- All tokens of a logical line have its number. -/
theorem Source.LogicalLine.line_of_mem_tokens {l : LogicalLine} {t : Token} (h : t ∈ l.tokens) :
    t.location.line = l.number := by
  have hmap := lineTokens_mapLine (fun _ => l.number) l.number 0 l.text
  unfold LogicalLine.tokens at h
  rw [hmap] at h
  obtain ⟨t', -, rfl⟩ := List.mem_map.1 h
  rfl

/-- The tokens of a logical line, from what they depend on. -/
def headingTokens (heading : Nat × List Char) : List Token := lineTokens heading.1 0 heading.2

/-- The tokens of lines that come later are the same tokens in the later lines. -/
theorem flatMap_tokens_of_map_heading {last : Nat} {lines lines' : List LogicalLine}
    (h : lines'.map LogicalLine.heading = lines.map (LogicalLine.headingAfter last)) :
    lines'.flatMap LogicalLine.tokens =
      (lines.flatMap LogicalLine.tokens).map (Token.mapLocation (.mapLine (shiftAfter last))) := by
  have htokens : ∀ l : LogicalLine, headingTokens (l.headingAfter last) =
      l.tokens.map (Token.mapLocation (.mapLine (shiftAfter last))) := fun l =>
    lineTokens_mapLine (shiftAfter last) l.number 0 l.text
  calc
    lines'.flatMap LogicalLine.tokens = (lines'.map LogicalLine.heading).flatMap headingTokens := by
      rw [List.flatMap_map]
      rfl
    _ = lines.flatMap fun l => headingTokens (l.headingAfter last) := by
      rw [h, List.flatMap_map]
    _ = (lines.flatMap LogicalLine.tokens).map
        (Token.mapLocation (.mapLine (shiftAfter last))) := by
      rw [funext htokens, List.map_flatMap]

/-! ## Trees in other lines -/

/-- The line number before the line behind `last` had come in. -/
def unshiftAfter (last number : Nat) : Nat := if number ≤ last then number else number - 1

theorem unshiftAfter_shiftAfter (last number : Nat) :
    unshiftAfter last (shiftAfter last number) = number := by
  unfold unshiftAfter
  rcases Nat.lt_or_ge last number with h | h
  · rw [shiftAfter_of_lt h, if_neg (Nat.not_le.2 (Nat.lt_succ_of_lt h))]
    rfl
  · rw [shiftAfter_of_le h, if_pos h]

theorem map_mapLine_unshiftAfter (last : Nat) (tokens : List Token) :
    (tokens.map (Token.mapLocation (.mapLine (shiftAfter last)))).map
      (Token.mapLocation (.mapLine (unshiftAfter last))) = tokens := by
  rw [List.map_map]
  refine List.map_id'' (fun t => ?_) tokens
  exact congrArg (fun line => Token.mk t.kind t.text ⟨line, t.location.offset, t.location.length⟩)
    (unshiftAfter_shiftAfter last t.location.line)

namespace Syntax

/-- A source whose tokens come later has the same tree in later lines, or none either. -/
theorem toOption_parseText_of_tokens {last : Nat} {source source' : String} (filename : String)
    (h : tokensOf source' = (tokensOf source).map (Token.mapLocation (.mapLine (shiftAfter last)))) :
    (parseText filename source').toOption =
      (parseText filename source).toOption.map (File.mapLocation (.mapLine (shiftAfter last))) := by
  have h' : tokensOf source =
      (tokensOf source').map (Token.mapLocation (.mapLine (unshiftAfter last))) := by
    rw [h, map_mapLine_unshiftAfter]
  exact toOption_parseText_of_map filename h h'

end Syntax

/-! ## The line break -/

/-- A backslash and a newline may be put anywhere into a source, unless a backslash or a carriage
return stands before them: the tokens stay the same, also the one that they are put into, and so
does the syntax tree, if there is one, but what is in a logical line that starts after the place is
one line later. -/
theorem line_break_is_transparent {u v : String}
    (h : ∀ c ∈ u.toList.getLast?, c ≠ '\\' ∧ c ≠ '\r') :
    let plain := Lexer.ofText (u ++ v)
    let broken := Lexer.ofText (u ++ "\\\n" ++ v)
    let lines := logicalLines (u ++ v).toList
    ∃ f : Nat → Nat,
      (∀ l ∈ lines, f l.number = if l.start ≤ u.toList.length then l.number else l.number + 1) ∧
      (∀ t ∈ plain.run.1, ∃ l ∈ lines, t ∈ l.tokens ∧ t.location.line = l.number) ∧
      broken.run.1 = plain.run.1.map (Token.mapLocation (.mapLine f)) ∧
      (∃ n, broken.run.2.token = plain.run.2.token.mapLocation (.mapLine fun _ => n)) ∧
      ∀ filename, (Syntax.parseText filename (u ++ "\\\n" ++ v)).toOption =
        (Syntax.parseText filename (u ++ v)).toOption.map
          (Syntax.File.mapLocation (.mapLine f)) := by
  intro plain broken lines
  have hplain : (u ++ v).toList = u.toList ++ v.toList := String.toList_append
  have hbroken : (u ++ "\\\n" ++ v).toList = u.toList ++ '\\' :: '\n' :: v.toList := by
    rw [String.toList_append, String.toList_append, List.append_assoc]
    rfl
  obtain ⟨htokens, hends⟩ := Lexer.run_ofText_eq (u ++ v)
  obtain ⟨htokens', hends'⟩ := Lexer.run_ofText_eq (u ++ "\\\n" ++ v)
  obtain ⟨last, hheading, hlast⟩ := exists_map_heading_splice v.toList h
  rw [← hplain, ← hbroken] at hheading
  rw [← hplain] at hlast
  have hsame := flatMap_tokens_of_map_heading hheading
  refine ⟨shiftAfter last, fun l hl => ?_, fun t ht => ?_, ?_,
    ⟨endNumber (u ++ "\\\n" ++ v), ?_⟩, fun filename =>
    Syntax.toOption_parseText_of_tokens filename hsame⟩
  · unfold shiftAfter
    simp only [hlast l hl]
  · rw [htokens] at ht
    obtain ⟨l, hl, htl⟩ := List.mem_flatMap.1 ht
    exact ⟨l, hl, htl, LogicalLine.line_of_mem_tokens htl⟩
  · rw [htokens, htokens']
    exact hsame
  · rw [hends.token, hends'.token]
    rfl

namespace Turnstile

/-- The beginning of a state's definition, up to within the name. -/
def opening : String := "state Lo"

/-- The rest of it, and a constant in the next line. -/
def closing : String := "cked \x7b\x7d;\ncoins = 1;"

/-- The tree, where the constant is in the given line. -/
def declared (line : Nat) : Syntax.File :=
  ⟨[.state ⟨"Locked", ⟨1, 6, 6⟩, [], []⟩, .assign ⟨"coins", .int 1, ⟨line, 0, 5⟩⟩]⟩

theorem parseText_opening_closing :
    Syntax.parseText "turnstile" (opening ++ closing) = .ok (declared 2) := by
  rw [Syntax.parseText_eq_ok_iff]
  decide +kernel

theorem logicalLines_opening_closing : logicalLines (opening ++ closing).toList =
    [⟨[], ["state Locked \x7b\x7d;\n".toList]⟩,
      ⟨["state Locked \x7b\x7d;\n".toList], ["coins = 1;".toList]⟩] := by
  rfl

/-- A line break within a name: the constant after it is in the third line. -/
theorem parses_broken_name :
    (∀ c ∈ opening.toList.getLast?, c ≠ '\\' ∧ c ≠ '\r') ∧
    (Syntax.parseText "turnstile" (opening ++ "\\\n" ++ closing)).toOption =
      some (declared 3) := by
  have hopening : ∀ c ∈ opening.toList.getLast?, c ≠ '\\' ∧ c ≠ '\r' := by
    intro c hc
    obtain rfl : 'o' = c := Option.some.inj hc
    decide
  obtain ⟨f, hf, -, -, -, hparse⟩ := line_break_is_transparent (v := closing) hopening
  rw [logicalLines_opening_closing] at hf
  have hfirst : f 1 = 1 := hf _ List.mem_cons_self
  have hsecond : f 2 = 3 := hf _ (List.mem_cons_of_mem _ List.mem_cons_self)
  refine ⟨hopening, (hparse "turnstile").trans ?_⟩
  rw [parseText_opening_closing]
  have hlines : (declared 2).mapLocation (.mapLine f) =
      ⟨[.state ⟨"Locked", ⟨f 1, 6, 6⟩, [], []⟩, .assign ⟨"coins", .int 1, ⟨f 2, 0, 5⟩⟩]⟩ := rfl
  show some ((declared 2).mapLocation (.mapLine f)) = _
  rw [hlines, hfirst, hsecond]
  rfl

end Turnstile

end EventMachine
