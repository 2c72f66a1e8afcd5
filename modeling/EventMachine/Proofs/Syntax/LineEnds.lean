import EventMachine.Proofs.Lexer.Blank
import EventMachine.Proofs.Lexer.Ending
import EventMachine.Proofs.Lexer.Step

/-!
# Lines that end in a carriage return and a newline

A carriage return before every newline of a source changes none of its tokens, and no location
(`crlf_lexes_alike`).

1. The physical lines stay as many, and are joined as before (`joined?_withReturns`): a carriage
   return at the end of a joined line is taken out with the newline.
2. At the end of any other line it is white space, which changes no token of the logical line
   (`lineTokens_append_space`). By induction on the lines, the logical lines have the same tokens
   and as many parts (`map_outline_withReturns`).
-/

namespace EventMachine

open Source

namespace Source

/-- The characters with a carriage return before every newline. -/
def withReturns (cs : List Char) : List Char :=
  cs.flatMap fun c => if c = '\n' then ['\r', '\n'] else [c]

variable {c : Char} {cs line : List Char} {lines : List (List Char)}

theorem withReturns_append (cs ds : List Char) :
    withReturns (cs ++ ds) = withReturns cs ++ withReturns ds :=
  List.flatMap_append

theorem withReturns_of_not_mem (h : '\n' ∉ cs) : withReturns cs = cs := by
  induction cs with
  | nil => rfl
  | cons c cs ih =>
    rw [List.mem_cons, not_or] at h
    unfold withReturns at ih ⊢
    rw [List.flatMap_cons, if_neg (Ne.symm h.1), ih h.2, List.singleton_append]

/-! ## Physical lines -/

theorem physicalLines_withReturns (cs : List Char) :
    physicalLines (withReturns cs) = (physicalLines cs).map withReturns := by
  induction cs with
  | nil => rfl
  | cons c cs ih =>
    by_cases hc : c = '\n'
    · subst hc
      show glue ['\r'] (['\n'] :: physicalLines (withReturns cs)) =
        List.map withReturns (['\n'] :: physicalLines cs)
      rw [ih]
      rfl
    · have hcons (ds : List Char) : withReturns (c :: ds) = c :: withReturns ds := by
        rw [← List.singleton_append, withReturns_append,
          withReturns_of_not_mem (by simpa using Ne.symm hc), List.singleton_append]
      rw [hcons, physicalLines, physicalLines, if_neg hc, if_neg hc, ih]
      cases physicalLines cs with
      | nil => exact congrArg (fun line => [line]) (hcons []).symm
      | cons line lines => exact congrArg (· :: lines.map withReturns) (hcons line).symm

/-- A line without a newline stays; another one gets its carriage return. -/
theorem withReturns_cases (hline : '\n' ∉ line.dropLast) :
    withReturns line = line ∨
      ∃ body, '\n' ∉ body ∧ line = body ++ ['\n'] ∧ withReturns line = body ++ ['\r', '\n'] := by
  by_cases hmem : '\n' ∈ line
  · have hne : line ≠ [] := List.ne_nil_of_mem hmem
    have hlast : line.getLast hne = '\n' := by
      rw [← List.dropLast_concat_getLast hne, List.mem_append, List.mem_singleton] at hmem
      exact (hmem.resolve_left hline).symm
    have hsplit : line = line.dropLast ++ ['\n'] := by
      rw [← hlast, List.dropLast_concat_getLast hne]
    refine .inr ⟨line.dropLast, hline, hsplit, ?_⟩
    conv_lhs => rw [hsplit, withReturns_append, withReturns_of_not_mem hline]
    rfl
  · exact .inl (withReturns_of_not_mem hmem)

/-- A line is joined with the next one as before. -/
theorem joined?_withReturns (hline : '\n' ∉ line.dropLast) (hreturn : '\r' ∉ line) :
    joined? (withReturns line) = joined? line := by
  rcases withReturns_cases hline with h | ⟨body, hbody, rfl, h⟩
  · rw [h]
  · rw [h]
    rw [List.mem_append, not_or] at hreturn
    obtain rfl | ⟨body, c, rfl⟩ := List.eq_nil_or_concat body
    · rfl
    · rw [List.concat_eq_append] at hbody hreturn ⊢
      by_cases hc : c = '\\'
      · subst hc
        rw [joined?_eq_some_iff.2 ⟨['\r', '\n'], by decide, List.append_assoc body _ _⟩,
          joined?_eq_some_iff.2 ⟨['\n'], by decide, List.append_assoc body _ _⟩]
      · have hopen : joined? (body ++ [c]) = none := by
          refine joined?_eq_none (fun d hd => ?_) hbody
          rw [List.getLast?_concat] at hd
          cases hd
          refine ⟨hc, ?_⟩
          rintro rfl
          exact hreturn.1 (by simp)
        rw [joined?_append hopen, joined?_append hopen]
        rfl

/-! ## Logical lines -/

/-- How many physical lines a logical line is made of, and its tokens. -/
def LogicalLine.outline (l : LogicalLine) : Nat × List Token := (l.parts.length, l.tokens)

theorem lineTokens_withReturns (hline : '\n' ∉ line.dropLast) (number : Nat) (start : List Char) :
    lineTokens number 0 (start ++ withReturns line) = lineTokens number 0 (start ++ line) := by
  rcases withReturns_cases hline with h | ⟨body, -, rfl, h⟩
  · rw [h]
  · rw [h, ← List.append_assoc, ← List.append_assoc,
      lineTokens_append_space (e := ['\r', '\n']) (by simp [Text.isWhiteSpace]),
      lineTokens_append_space (e := ['\n']) (by simp [Text.isWhiteSpace])]

theorem map_outline_withReturns (hlines : ∀ line ∈ lines, '\n' ∉ line.dropLast ∧ '\r' ∉ line)
    {before before' parts parts' : List (List Char)} (hbefore : before'.length = before.length)
    (hparts : parts'.length = parts.length) (htext : joinedText parts' = joinedText parts) :
    (logicalLinesFrom before' parts' (lines.map withReturns)).map LogicalLine.outline =
      (logicalLinesFrom before parts lines).map LogicalLine.outline := by
  induction lines generalizing before before' parts parts' with
  | nil =>
    show List.map _ (if _ then _ else _) = List.map _ (if _ then _ else _)
    rw [htext]
    split
    · rfl
    · refine List.cons_eq_cons.2 ⟨Prod.ext hparts ?_, rfl⟩
      show lineTokens (before'.length + 1) 0 (joinedText parts') = _
      rw [hbefore, htext]
      rfl
  | cons line lines ih =>
    rw [List.forall_mem_cons] at hlines
    obtain ⟨⟨hline, hreturn⟩, hlines⟩ := hlines
    have hjoined := joined?_withReturns hline hreturn
    have hlength : (parts' ++ [withReturns line]).length = (parts ++ [line]).length := by
      simp [hparts]
    rw [List.map_cons, logicalLinesFrom, logicalLinesFrom, hjoined]
    cases hj : joined? line with
    | some body =>
      refine ih hlines hbefore hlength ?_
      rw [joinedText_append, joinedText_append, htext, joinedText_of_some (hjoined.trans hj),
        joinedText_of_some hj]
    | none =>
      refine List.cons_eq_cons.2 ⟨Prod.ext hlength ?_, ih hlines ?_ rfl rfl⟩
      · show lineTokens (before'.length + 1) 0 (joinedText (parts' ++ [withReturns line])) =
          lineTokens (before.length + 1) 0 (joinedText (parts ++ [line]))
        rw [joinedText_append, joinedText_append, htext, hbefore,
          joinedText_of_none (hjoined.trans hj), joinedText_of_none hj, lineTokens_withReturns hline]
      · rw [List.length_append, hlength, hbefore, ← List.length_append]

theorem outline_logicalLines_withReturns (h : '\r' ∉ cs) :
    (logicalLines (withReturns cs)).map LogicalLine.outline =
      (logicalLines cs).map LogicalLine.outline := by
  unfold logicalLines
  rw [physicalLines_withReturns]
  refine map_outline_withReturns (fun line hline => ⟨newline_not_mem_dropLast hline, ?_⟩) rfl rfl rfl
  rw [← flatten_physicalLines cs] at h
  exact fun hmem => h (List.mem_flatten_of_mem hline hmem)

end Source

/-! ## Sources -/

/-- The source with a carriage return before every newline. -/
def crlf (source : String) : String := String.ofList (withReturns source.toList)

section Sources

variable {source : String}

theorem tokensOf_crlf (h : '\r' ∉ source.toList) : tokensOf (crlf source) = tokensOf source := by
  have htokens (cs : List Char) : (logicalLines cs).flatMap LogicalLine.tokens =
      ((logicalLines cs).map LogicalLine.outline).flatMap Prod.snd := by
    rw [List.flatMap_map]
    rfl
  unfold tokensOf crlf
  rw [String.toList_ofList, htokens, htokens, outline_logicalLines_withReturns h]

theorem endNumber_crlf (h : '\r' ∉ source.toList) : endNumber (crlf source) = endNumber source := by
  have hlength (cs : List Char) : ((logicalLines cs).flatMap LogicalLine.parts).length =
      (((logicalLines cs).map LogicalLine.outline).map Prod.fst).sum := by
    rw [List.length_flatMap, List.map_map]
    rfl
  unfold endNumber crlf
  rw [String.toList_ofList, hlength, hlength, outline_logicalLines_withReturns h]

/-- As many physical lines as before are at the end and belong to no logical line. -/
theorem hangingCount_crlf (h : '\r' ∉ source.toList) :
    hangingCount (encode (crlf source)) = hangingCount (encode source) := by
  have hlines : (Source.physicalLines (crlf source).toList).length =
      (Source.physicalLines source.toList).length := by
    unfold crlf
    rw [String.toList_ofList, physicalLines_withReturns, List.length_map]
  have hcrlf := endNumber_add_hangingCount (crlf source)
  have hsource := endNumber_add_hangingCount source
  rw [hlines, endNumber_crlf h] at hcrlf
  omega

end Sources

namespace Lexer

/-- The tokens of a text and its end, one after the other. The first end is behind the logical
lines, and those after it are behind all physical lines. -/
theorem token_taken_eq {r : Reader} {text : String} (h : r.Delivers text) (n : Nat) :
    ((ofReader r).taken n).token = ((tokensOf text)[n]?).getD (endAt (endNumber text +
      if n = (tokensOf text).length then 0 else hangingCount (encode text))) := by
  obtain ⟨htokens, -⟩ := run_ofReader h
  obtain ⟨hend, hlater⟩ := run_taken_of_delivers h
  rw [run_eq_taken, htokens] at hend hlater
  rw [h.pending] at hlater
  rcases Nat.lt_trichotomy n (tokensOf text).length with hlt | rfl | hgt
  · have htoken := getElem?_run (htokens ▸ hlt)
    rw [htokens] at htoken
    rw [htoken]
    rfl
  · rw [hend, List.getElem?_eq_none (Nat.le_refl _), if_pos rfl]
    rfl
  · obtain ⟨k, rfl⟩ := Nat.exists_eq_add_of_lt hgt
    rw [List.getElem?_eq_none (Nat.le_of_lt hgt), if_neg (Nat.ne_of_gt hgt), Nat.add_assoc,
      taken_add, hlater]
    rfl

end Lexer

/-- A source with a carriage return before every newline has the same tokens in the same places as
without, the end of the source included, however far the lexers go on; and the same tree, or the
same error. -/
theorem crlf_lexes_alike {source : String} (h : '\r' ∉ source.toList) :
    (Lexer.ofText (crlf source)).run.1 = (Lexer.ofText source).run.1 ∧
    (Lexer.ofText (crlf source)).run.2.token = (Lexer.ofText source).run.2.token ∧
    (∀ n, ((Lexer.ofText (crlf source)).taken n).token =
      ((Lexer.ofText source).taken n).token) ∧
    ∀ filename, Syntax.parseText filename (crlf source) = Syntax.parseText filename source := by
  obtain ⟨hcrlf, hcrlfEnds⟩ := Lexer.run_ofText_eq (crlf source)
  obtain ⟨hsource, hsourceEnds⟩ := Lexer.run_ofText_eq source
  refine ⟨?_, ?_, fun n => ?_, fun filename => ?_⟩
  · rw [hcrlf, hsource, tokensOf_crlf h]
  · rw [hcrlfEnds.token, hsourceEnds.token, endNumber_crlf h]
  · have hn := Lexer.token_taken_eq (Reader.delivers_ofBytes (crlf source)) n
    rw [tokensOf_crlf h, endNumber_crlf h, hangingCount_crlf h,
      ← Lexer.token_taken_eq (Reader.delivers_ofBytes source)] at hn
    exact hn
  · rw [Syntax.parseText_eq, Syntax.parseText_eq, tokensOf_crlf h, endNumber_crlf h]

namespace Turnstile

/-- A constant in two joined lines, a string without its closing quote, and a comment that ends in
two backslashes, which takes the line after it with it. -/
def uneven : String := "coins = \\\n1; \"Locked\n# to do \\\\\nstate\n"

/-- The end of the source is in the fifth line, whichever ends its lines have. -/
theorem lexes_uneven_alike :
    '\r' ∉ uneven.toList ∧
    (Lexer.ofText (crlf uneven)).run.1 =
      [⟨.identifier, "coins", ⟨1, 0, 5⟩⟩, ⟨.punct, "=", ⟨1, 6, 1⟩⟩, ⟨.int, "1", ⟨1, 8, 1⟩⟩,
        ⟨.punct, ";", ⟨1, 9, 1⟩⟩, ⟨.illegal, "\"", ⟨1, 11, 1⟩⟩,
        ⟨.identifier, "Locked", ⟨1, 12, 6⟩⟩] ∧
    (Lexer.ofText (crlf uneven)).run.2.token = endAt 5 := by
  have hreturn : '\r' ∉ uneven.toList := by decide
  obtain ⟨htokens, hend, -⟩ := crlf_lexes_alike hreturn
  refine ⟨hreturn, ?_, ?_⟩
  · rw [htokens, (Lexer.run_ofText_eq _).1]
    decide +kernel
  · rw [hend, (Lexer.run_ofText_eq _).2.token]
    decide +kernel

end Turnstile

end EventMachine
