import EventMachine.Proofs.Source.LogicalLine

/-!
# A line break that is joined again

A backslash and a newline may be put anywhere into a text, unless the part before them ends in a
backslash or a carriage return: the logical lines stay the same, but those after the place are one
line later (`exists_map_heading_splice`).

1. The physical lines before the place stay (`physicalLines_flatten_append`), and so do the logical
   lines that they complete (`exists_logicalLinesFrom_append`).
2. The logical line with the place in it has one physical line more, and the same text
   (`map_heading_of_parts`). Those after it have one more before them (`map_heading_of_before`).
-/

namespace EventMachine.Source

/-! ## The ends of lines -/

theorem joined?_eq_none {us : List Char} (h : ∀ c ∈ us.getLast?, c ≠ '\\' ∧ c ≠ '\r')
    (hnewline : '\n' ∉ us) : joined? us = none := by
  rw [Option.eq_none_iff_forall_ne_some]
  intro body hbody
  obtain ⟨e, he, rfl⟩ := joined?_eq_some_iff.1 hbody
  simp only [lineEnds, List.mem_cons, List.not_mem_nil, or_false] at he
  rcases he with rfl | rfl | rfl | rfl
  · exact (h '\\' (by simp)).1 rfl
  · exact hnewline (by simp)
  · exact (h '\r' (by simp)).2 rfl
  · exact hnewline (by simp)

/-- A part of what may stand behind the backslash may stand there alone. -/
theorem mem_lineEnds_of_prefix {e e' : List Char} (h : e' <+: e) (he : e ∈ lineEnds) :
    e' ∈ lineEnds := by
  have htake : ∀ e ∈ lineEnds, e.length ≤ 2 ∧ ∀ n ≤ 2, e.take n ∈ lineEnds := by decide
  obtain ⟨hlength, htake⟩ := htake e he
  rw [List.prefix_iff_eq_take.1 h]
  exact htake _ (Nat.le_trans h.length_le hlength)

/-- Whether a line is joined with the next one depends on its end alone, unless a part of that end
joins it already. -/
theorem joined?_append {us : List Char} (h : joined? us = none) (vs : List Char) :
    joined? (us ++ vs) = (joined? vs).map (us ++ ·) := by
  ext body
  rw [joined?_eq_some_iff, Option.map_eq_some_iff]
  constructor
  · rintro ⟨e, he, heq⟩
    rcases List.append_eq_append_iff.1 heq with ⟨body', rfl, hvs⟩ | ⟨ws, rfl, hws⟩
    · exact ⟨body', joined?_eq_some_iff.2 ⟨e, he, hvs⟩, rfl⟩
    · cases ws with
      | nil => exact ⟨[], joined?_eq_some_iff.2 ⟨e, he, hws.symm⟩, by simp⟩
      | cons c e' =>
        obtain ⟨rfl, rfl⟩ := List.cons.inj hws
        have he' := mem_lineEnds_of_prefix (List.prefix_append e' vs) he
        rw [joined?_eq_some_iff.2 ⟨e', he', rfl⟩] at h
        cases h
  · rintro ⟨body', hbody, rfl⟩
    obtain ⟨e, he, rfl⟩ := joined?_eq_some_iff.1 hbody
    exact ⟨e, he, (List.append_assoc ..).symm⟩

theorem joinedText_singleton_append {us : List Char} (h : joined? us = none) (line : List Char) :
    joinedText [us ++ line] = us ++ joinedText [line] := by
  unfold joinedText
  rw [List.flatMap_singleton, List.flatMap_singleton, joined?_append h]
  cases joined? line <;> rfl

/-! ## Lines before the place -/

/-- A physical line with its newline. -/
def Ended (line : List Char) : Prop := ∃ body, '\n' ∉ body ∧ line = body ++ ['\n']

/-- Physical lines with their newlines stay, whatever follows them. -/
theorem physicalLines_flatten_append {lines : List (List Char)} (h : ∀ line ∈ lines, Ended line)
    (cs : List Char) : physicalLines (lines.flatten ++ cs) = lines ++ physicalLines cs := by
  induction lines with
  | nil => rfl
  | cons line lines ih =>
    obtain ⟨⟨body, hbody, rfl⟩, hlines⟩ := List.forall_mem_cons.1 h
    have hsplit : ((body ++ ['\n']) :: lines).flatten ++ cs =
        body ++ '\n' :: (lines.flatten ++ cs) := by
      simp
    rw [hsplit, physicalLines_append_of_not_mem hbody, physicalLines, if_pos rfl, ih hlines]
    rfl

/-- A text is some physical lines with their newlines, and the beginning of one. -/
theorem exists_flatten_append (us : List Char) :
    ∃ (lines : List (List Char)) (ws : List Char), (∀ line ∈ lines, Ended line) ∧ '\n' ∉ ws ∧
      lines.flatten ++ ws = us := by
  induction us with
  | nil => exact ⟨[], [], nofun, List.not_mem_nil, rfl⟩
  | cons c us ih =>
    obtain ⟨lines, ws, hended, hws, rfl⟩ := ih
    by_cases hc : c = '\n'
    · have hfirst : Ended ['\n'] := ⟨[], List.not_mem_nil, rfl⟩
      exact ⟨['\n'] :: lines, ws, List.forall_mem_cons.2 ⟨hfirst, hended⟩, hws, by simp [hc]⟩
    · cases lines with
      | nil =>
        refine ⟨[], c :: ws, nofun, ?_, rfl⟩
        rw [List.mem_cons, not_or]
        exact ⟨Ne.symm hc, hws⟩
      | cons line lines =>
        obtain ⟨⟨body, hbody, rfl⟩, hrest⟩ := List.forall_mem_cons.1 hended
        have hfirst : Ended (c :: (body ++ ['\n'])) :=
          ⟨c :: body, by simpa using ⟨Ne.symm hc, hbody⟩, rfl⟩
        exact ⟨_, ws, List.forall_mem_cons.2 ⟨hfirst, hrest⟩, hws, by simp⟩

/-- A physical line with another one after it has its newline. -/
theorem ended_of_physicalLines {cs line : List Char} {lines after : List (List Char)}
    (h : physicalLines cs = lines ++ line :: after) : ∀ l ∈ lines, Ended l := by
  obtain ⟨full, ws, hfull, hws, rfl⟩ := exists_flatten_append cs
  have hlast : (physicalLines ws).length ≤ 1 := by
    have hglue := physicalLines_append_of_not_mem hws []
    rw [List.append_nil] at hglue
    rw [hglue]
    show (if ws = [] then [] else [ws]).length ≤ 1
    split <;> simp
  rw [physicalLines_flatten_append hfull] at h
  have hbegins : lines <+: full := by
    refine List.prefix_of_prefix_length_le ⟨line :: after, h.symm⟩ (List.prefix_append _ _) ?_
    have hlength := congrArg List.length h
    simp only [List.length_append, List.length_cons] at hlength
    omega
  exact fun l hl => hfull l (hbegins.subset hl)

/-- Physical lines complete some logical lines and leave the beginning of one, whatever follows. -/
theorem exists_logicalLinesFrom_append (before parts lines : List (List Char)) :
    ∃ logical before' parts', before' ++ parts' = before ++ parts ++ lines ∧ before <+: before' ∧
      (∀ l ∈ logical, l.before <+: before') ∧
      ∀ rest, logicalLinesFrom before parts (lines ++ rest) =
        logical ++ logicalLinesFrom before' parts' rest := by
  induction lines generalizing before parts with
  | nil => exact ⟨[], before, parts, by simp, List.prefix_refl _, nofun, fun rest => rfl⟩
  | cons line lines ih =>
    cases hj : (joined? line).isSome with
    | true =>
      obtain ⟨logical, before', parts', happend, hprefix, hlogical, hrest⟩ :=
        ih before (parts ++ [line])
      refine ⟨logical, before', parts', by simpa using happend, hprefix, hlogical, fun rest => ?_⟩
      rw [List.cons_append, logicalLinesFrom, if_pos hj, hrest]
    | false =>
      obtain ⟨logical, before', parts', happend, hprefix, hlogical, hrest⟩ :=
        ih (before ++ (parts ++ [line])) []
      have hbefore : before <+: before' := (List.prefix_append _ _).trans hprefix
      refine ⟨⟨before, parts ++ [line]⟩ :: logical, before', parts', by simpa using happend,
        hbefore, ?_, fun rest => ?_⟩
      · rintro l (_ | ⟨_, hl⟩)
        · exact hbefore
        · exact hlogical l hl
      · rw [List.cons_append, logicalLinesFrom, if_neg (Bool.not_eq_true _ ▸ hj), hrest,
          List.cons_append]

/-! ## Lines after the place -/

/-- A line number after one more line has come in behind the line `last`. -/
def shiftAfter (last number : Nat) : Nat := if number ≤ last then number else number + 1

theorem shiftAfter_of_le {last number : Nat} (h : number ≤ last) :
    shiftAfter last number = number := if_pos h

theorem shiftAfter_of_lt {last number : Nat} (h : last < number) :
    shiftAfter last number = number + 1 := if_neg (Nat.not_le.2 h)

namespace LogicalLine

/-- What the tokens of a logical line depend on: its number and its text. -/
def heading (l : LogicalLine) : Nat × List Char := (l.number, l.text)

/-- The heading after one more physical line has come in behind the line `last`. -/
def headingAfter (last : Nat) (l : LogicalLine) : Nat × List Char :=
  (shiftAfter last l.number, l.text)

end LogicalLine

section Shift

variable {before before' parts parts' lines : List (List Char)} {last : Nat}

theorem number_eq_shiftAfter (h : before'.length = before.length + 1)
    (hlast : last ≤ before.length) :
    before'.length + 1 = shiftAfter last (before.length + 1) := by
  rw [shiftAfter_of_lt (Nat.lt_succ_of_le hlast), h]

/-- Logical lines are one later if one more physical line is before them. -/
theorem map_heading_of_before (parts lines : List (List Char))
    (h : before'.length = before.length + 1) (hlast : last ≤ before.length) :
    (logicalLinesFrom before' parts lines).map LogicalLine.heading =
      (logicalLinesFrom before parts lines).map (LogicalLine.headingAfter last) := by
  induction lines generalizing before before' parts with
  | nil =>
    unfold logicalLinesFrom
    split
    · rfl
    · exact congrArg (fun n => [(n, joinedText parts)]) (number_eq_shiftAfter h hlast)
  | cons line lines ih =>
    unfold logicalLinesFrom
    split
    · exact ih _ h hlast
    · refine List.cons_eq_cons.2
        ⟨congrArg (·, joinedText _) (number_eq_shiftAfter h hlast), ih _ ?_ ?_⟩
      · simp only [List.length_append, h]
        omega
      · rw [List.length_append]
        omega

/-- A logical line stays if one more physical line belongs to it and its text is the same, where
`us` is the text of that line and stands at the beginning of the next one otherwise. Those after it
are one later. -/
theorem map_heading_of_parts (before lines : List (List Char)) {us : List Char}
    (hus : joined? us = none)
    (htext : joinedText parts' = joinedText parts ++ us) (h : parts'.length = parts.length + 1) :
    (logicalLinesFrom before parts' lines).map LogicalLine.heading =
      (logicalLinesFrom before parts (glue us lines)).map
        (LogicalLine.headingAfter (before.length + 1)) := by
  have hnumber := (shiftAfter_of_le (Nat.le_refl (before.length + 1))).symm
  induction lines generalizing us parts parts' with
  | nil =>
    cases us with
    | nil =>
      rw [List.append_nil] at htext
      show List.map _ (if _ then _ else _) = List.map _ (if _ then _ else _)
      rw [htext]
      split
      · rfl
      · exact List.cons_eq_cons.2 ⟨Prod.ext hnumber htext, rfl⟩
    | cons c us =>
      have htext' : joinedText parts' = joinedText (parts ++ [c :: us]) := by
        rw [htext, joinedText_append, joinedText_of_none hus]
      have hne : joinedText parts' ≠ [] := by
        rw [htext]
        exact List.append_ne_nil_of_right_ne_nil _ (List.cons_ne_nil c us)
      show _ = (logicalLinesFrom before parts [c :: us]).map _
      unfold logicalLinesFrom
      rw [if_neg hne, hus]
      exact List.cons_eq_cons.2 ⟨Prod.ext hnumber htext', rfl⟩
  | cons line lines ih =>
    have htext' : joinedText (parts' ++ [line]) = joinedText (parts ++ [us ++ line]) := by
      rw [joinedText_append, joinedText_append, htext, joinedText_singleton_append hus,
        List.append_assoc]
    have hlength : (parts' ++ [line]).length = (parts ++ [us ++ line]).length + 1 := by
      rw [List.length_append, List.length_append, h]
      exact Nat.add_right_comm _ _ _
    show _ = (logicalLinesFrom before parts ((us ++ line) :: lines)).map _
    unfold logicalLinesFrom
    rw [joined?_append hus, Option.isSome_map]
    split
    · -- the next line has nothing put before it any more
      have hempty : joined? [] = none := rfl
      have hnext := ih hempty (htext'.trans (List.append_nil _).symm) hlength
      rwa [glue_nil] at hnext
    · refine List.cons_eq_cons.2 ⟨Prod.ext hnumber htext', map_heading_of_before _ _ ?_ ?_⟩
      · rw [List.length_append, hlength, ← Nat.add_assoc, ← List.length_append]
      · rw [List.length_append, List.length_append]
        exact Nat.add_le_add_left (Nat.le_add_left _ _) _

end Shift

/-! ## The place -/

theorem physicalLines_splice {us : List Char} (h : '\n' ∉ us) (vs : List Char) :
    physicalLines (us ++ '\\' :: '\n' :: vs) = (us ++ ['\\', '\n']) :: physicalLines vs := by
  have hmem : '\n' ∉ us ++ ['\\'] := by simpa using h
  have happend : us ++ '\\' :: '\n' :: vs = us ++ ['\\'] ++ '\n' :: vs := by simp
  rw [happend, physicalLines_append_of_not_mem hmem, physicalLines, if_pos rfl]
  exact congrArg (· :: physicalLines vs) (List.append_assoc us ['\\'] ['\n'])

theorem joined?_splice (us : List Char) : joined? (us ++ ['\\', '\n']) = some us :=
  joined?_eq_some_iff.2 ⟨['\n'], by decide, rfl⟩

theorem LogicalLine.start_le {l : LogicalLine} {lines : List (List Char)} (h : l.before <+: lines) :
    l.start ≤ lines.flatten.length := by
  obtain ⟨after, rfl⟩ := h
  rw [List.flatten_append, List.length_append]
  exact Nat.le_add_right _ _

/-- Lines of which more follow are longer than what has been put before them. -/
theorem length_lt_of_glue {ws : List Char} {lines more rest : List (List Char)} (hnil : [] ∉ lines)
    (h : more ++ rest = glue ws lines) (hmore : more ≠ []) (hrest : rest ≠ []) :
    ws.length < more.flatten.length := by
  obtain ⟨line, more, rfl⟩ := List.exists_cons_of_ne_nil hmore
  cases lines with
  | nil =>
    change line :: (more ++ rest) = if ws = [] then [] else [ws] at h
    split at h
    · exact (List.cons_ne_nil _ _ h).elim
    · exact (hrest (List.append_eq_nil_iff.1 (List.cons.inj h).2).2).elim
  | cons first lines =>
    obtain ⟨rfl, -⟩ := List.cons.inj h
    have hfirst : 0 < first.length := List.length_pos_iff.2 fun hempty =>
      hnil (hempty ▸ List.mem_cons_self)
    rw [List.flatten_cons, List.length_append, List.length_append]
    omega

/-- A backslash and a newline may be put after characters that do not end in a backslash or a
carriage return: the logical lines stay, but those that start after the place are one later. -/
theorem exists_map_heading_splice {us : List Char} (vs : List Char)
    (h : ∀ c ∈ us.getLast?, c ≠ '\\' ∧ c ≠ '\r') :
    ∃ last, (logicalLines (us ++ '\\' :: '\n' :: vs)).map LogicalLine.heading =
        (logicalLines (us ++ vs)).map (LogicalLine.headingAfter last) ∧
      ∀ l ∈ logicalLines (us ++ vs), l.number ≤ last ↔ l.start ≤ us.length := by
  -- `ws` is the part of the line of the place before it
  obtain ⟨lines, ws, hended, hws, rfl⟩ := exists_flatten_append us
  obtain ⟨logical, before, parts, rfl, -, hlogical, hafter⟩ :=
    exists_logicalLinesFrom_append [] [] lines
  have hopen : joined? ws = none := by
    refine joined?_eq_none (fun c hc => h c ?_) hws
    rw [List.getLast?_append, Option.mem_def.1 hc]
    rfl
  have hjoined : (joined? (ws ++ ['\\', '\n'])).isSome := by
    rw [joined?_splice]
    rfl
  have hplace : before.flatten.length ≤ ((before ++ parts).flatten ++ ws).length := by
    simp only [List.length_append, List.flatten_append]
    omega
  unfold logicalLines
  rw [List.append_assoc, List.append_assoc, physicalLines_flatten_append hended,
    physicalLines_flatten_append hended, hafter, hafter, physicalLines_splice hws, physicalLines_append_of_not_mem hws,
    logicalLinesFrom, if_pos hjoined]
  refine ⟨before.length + 1, ?_, fun l hl => ?_⟩
  · rw [List.map_append, List.map_append]
    congr 1
    · exact List.map_congr_left fun l hl =>
        Prod.ext (shiftAfter_of_le (Nat.succ_le_succ (hlogical l hl).length_le)).symm rfl
    · refine map_heading_of_parts _ _ hopen ?_ List.length_append
      rw [joinedText_append, joinedText_of_some (joined?_splice ws)]
  · have hearly : l.before <+: before → (l.number ≤ before.length + 1 ↔
        l.start ≤ ((before ++ parts).flatten ++ ws).length) := fun hprefix =>
      iff_of_true (Nat.succ_le_succ hprefix.length_le)
        (Nat.le_trans (LogicalLine.start_le hprefix) hplace)
    rcases List.mem_append.1 hl with hl | hl
    · exact hearly (hlogical l hl)
    · rcases before_cases hl with hl | ⟨more, rest, hmore, hrest, hglue, hl, -⟩
      · exact hearly (hl.symm ▸ List.prefix_refl before)
      · have hlt := length_lt_of_glue (nil_not_mem_physicalLines vs) hglue hmore hrest
        have hpos := List.length_pos_iff.2 hmore
        refine iff_of_false ?_ ?_
        · unfold LogicalLine.number
          rw [hl, List.length_append, List.length_append]
          omega
        · unfold LogicalLine.start
          rw [hl, List.flatten_append, List.length_append, List.length_append]
          omega

end EventMachine.Source
