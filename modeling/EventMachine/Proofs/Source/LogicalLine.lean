import EventMachine.Proofs.Source.Line

/-!
# The lines of a text

`physicalLines` cuts a text after every newline. `logicalLines` puts those together that are joined:
each logical line knows the physical lines before it (`LogicalLine.before`), hence its number, and
the physical lines that it is made of (`LogicalLine.parts`), hence its text.

1. The physical lines make up the text (`flatten_physicalLines`), and the logical lines take them
   one after the other (`within_of_mem`). Only backslashes at the end of the text may belong to no
   logical line (`exists_flatMap_parts_append`).
2. A reader that delivers the bytes of a text reads one physical line after the other, however the
   bytes come (`LineReader.Holds.readLine_cons`), and one logical line after the other
   (`LineReader.Holds.readLogicalFrom_eq`).
3. No reading changes what the checksum of all the bytes will be (`readLogical_total`).
-/

namespace EventMachine.Source

/-! ## Bytes of characters -/

/-- The UTF-8 bytes of characters. -/
def bytesOf (cs : List Char) : List UInt8 := cs.flatMap String.utf8EncodeChar

theorem encode_eq_bytesOf (text : String) : encode text = bytesOf text.toList :=
  encode_eq_flatMap text

theorem bytesOf_append (cs ds : List Char) : bytesOf (cs ++ ds) = bytesOf cs ++ bytesOf ds :=
  List.flatMap_append

theorem decode?_bytesOf (cs : List Char) : decode? (bytesOf cs) = some cs := by
  have h := decode?_encode (String.ofList cs)
  rwa [encode_eq_bytesOf, String.toList_ofList] at h

theorem bytesOf_eq_nil {cs : List Char} (h : bytesOf cs = []) : cs = [] := by
  have hdecode := decode?_bytesOf cs
  rw [h] at hdecode
  exact (Option.some.inj ((decode?_bytesOf []).symm.trans hdecode)).symm

/-! ## Physical lines -/

/-- Characters put before the first of several lines. Without lines they are one of their own. -/
def glue (cs : List Char) : List (List Char) → List (List Char)
  | [] => if cs = [] then [] else [cs]
  | line :: lines => (cs ++ line) :: lines

/-- The physical lines of a text, each with its newline. The last one may have none. -/
def physicalLines : List Char → List (List Char)
  | [] => []
  | c :: cs => if c = '\n' then ['\n'] :: physicalLines cs else glue [c] (physicalLines cs)

theorem glue_nil (lines : List (List Char)) : glue [] lines = lines := by
  cases lines <;> rfl

theorem flatten_glue (cs : List Char) (lines : List (List Char)) :
    (glue cs lines).flatten = cs ++ lines.flatten := by
  cases lines with
  | nil => cases cs <;> simp [glue]
  | cons line lines => simp [glue]

theorem flatten_physicalLines (cs : List Char) : (physicalLines cs).flatten = cs := by
  induction cs with
  | nil => rfl
  | cons c cs ih =>
    unfold physicalLines
    split
    · next h => rw [List.flatten_cons, ih, h, List.singleton_append]
    · rw [flatten_glue, ih, List.singleton_append]

theorem nil_not_mem_physicalLines (cs : List Char) : [] ∉ physicalLines cs := by
  induction cs with
  | nil => exact List.not_mem_nil
  | cons c cs ih =>
    unfold physicalLines
    split
    · simpa using ih
    · cases hlines : physicalLines cs with
      | nil => simp [glue]
      | cons line lines =>
        rw [hlines, List.mem_cons, not_or] at ih
        simpa [glue] using ih.2

/-- A physical line has no newline but at its end. -/
theorem newline_not_mem_dropLast {cs line : List Char} (h : line ∈ physicalLines cs) :
    '\n' ∉ line.dropLast := by
  induction cs generalizing line with
  | nil => cases h
  | cons c cs ih =>
    unfold physicalLines at h
    split at h
    · rcases List.mem_cons.1 h with rfl | h
      · exact List.not_mem_nil
      · exact ih h
    · next hc =>
      cases hlines : physicalLines cs with
      | nil =>
        rw [hlines] at h
        obtain rfl := List.mem_singleton.1 h
        exact List.not_mem_nil
      | cons first rest =>
        rw [hlines] at h ih
        rcases List.mem_cons.1 h with rfl | h
        · have hfirst : first ≠ [] := fun hnil =>
            nil_not_mem_physicalLines cs (hlines ▸ hnil ▸ List.mem_cons_self)
          rw [List.singleton_append, List.dropLast_cons_of_ne_nil hfirst, List.mem_cons, not_or]
          exact ⟨Ne.symm hc, ih List.mem_cons_self⟩
        · exact ih (List.mem_cons_of_mem first h)

/-- What follows the first physical line is cut as it would be alone. -/
theorem physicalLines_flatten_tail {cs line : List Char} {lines : List (List Char)}
    (h : physicalLines cs = line :: lines) : physicalLines lines.flatten = lines := by
  induction cs generalizing line with
  | nil => cases h
  | cons c cs ih =>
    unfold physicalLines at h
    split at h
    · cases h
      rw [flatten_physicalLines]
    · cases hlines : physicalLines cs with
      | nil =>
        rw [hlines] at h
        cases h
        rfl
      | cons first rest =>
        rw [hlines] at h
        cases h
        exact ih hlines

/-- Characters without a newline go into the line after them. -/
theorem physicalLines_append_of_not_mem {us : List Char} (h : '\n' ∉ us) (vs : List Char) :
    physicalLines (us ++ vs) = glue us (physicalLines vs) := by
  induction us with
  | nil =>
    rw [List.nil_append, glue_nil]
  | cons c us ih =>
    rw [List.mem_cons, not_or] at h
    rw [List.cons_append, physicalLines, if_neg (Ne.symm h.1), ih h.2]
    cases physicalLines vs with
    | nil => cases us <;> rfl
    | cons line lines => rfl

/-- The first line of the bytes of a text has the bytes of its first line. -/
theorem firstLine_bytesOf (cs : List Char) :
    firstLine (bytesOf cs) = bytesOf ((physicalLines cs).headD []) := by
  induction cs with
  | nil => rfl
  | cons c cs ih =>
    have hcons : bytesOf (c :: cs) = String.utf8EncodeChar c ++ bytesOf cs := List.flatMap_cons
    unfold physicalLines
    split
    · next h =>
      rw [hcons, h]
      rfl
    · next h =>
      have hnone : cutLine? (String.utf8EncodeChar c) = none :=
        cutLine?_eq_none fun hmem => h (eq_newline_of_mem_utf8EncodeChar hmem)
      rw [hcons, firstLine_append_of_none hnone, ih]
      cases physicalLines cs <;> simp [glue, bytesOf]

/-! ## Logical lines -/

/-- What physical lines that are joined make up: a line without its backslash and line end, if it
has a backslash there, and the whole line otherwise. -/
def joinedText (parts : List (List Char)) : List Char :=
  parts.flatMap fun line => (joined? line).getD line

/-- A logical line of a text. -/
structure LogicalLine where
  /-- The physical lines of the text that come before it. -/
  before : List (List Char)
  /-- The physical lines that it is made of. -/
  parts : List (List Char)

namespace LogicalLine

/-- The number of the first physical line, where the first of the text has number 1. -/
def number (l : LogicalLine) : Nat := l.before.length + 1

/-- The number of characters before it. -/
def start (l : LogicalLine) : Nat := l.before.flatten.length

def text (l : LogicalLine) : List Char := joinedText l.parts

end LogicalLine

/-- The logical line stands between other physical lines: all its own but the last are joined with
the next one, and the last is not, unless the text ends there. -/
def LogicalLine.Within (l : LogicalLine) (lines : List (List Char)) : Prop :=
  ∃ joined last after, l.parts = joined ++ [last] ∧ l.before ++ l.parts ++ after = lines ∧
    (∀ p ∈ joined, (joined? p).isSome) ∧ (joined? last = none ∨ after = [])

/-- The logical lines that physical lines make up, where the first of them goes on with `parts` and
those in `before` have been used up. Nothing that is joined with nothing at the end is no line. -/
def logicalLinesFrom (before parts : List (List Char)) : List (List Char) → List LogicalLine
  | [] => if joinedText parts = [] then [] else [⟨before, parts⟩]
  | line :: lines =>
    if (joined? line).isSome then logicalLinesFrom before (parts ++ [line]) lines
    else ⟨before, parts ++ [line]⟩ :: logicalLinesFrom (before ++ (parts ++ [line])) [] lines

/-- The logical lines of a text. -/
def logicalLines (cs : List Char) : List LogicalLine := logicalLinesFrom [] [] (physicalLines cs)

/-- The physical lines after the last of these logical lines: backslashes at the end that make up
nothing. -/
def hangingFrom (parts : List (List Char)) : List (List Char) → List (List Char)
  | [] => if joinedText parts = [] then parts else []
  | line :: lines =>
    if (joined? line).isSome then hangingFrom (parts ++ [line]) lines else hangingFrom [] lines

/-- The physical lines of a text after its last logical line. -/
def hangingLines (cs : List Char) : List (List Char) := hangingFrom [] (physicalLines cs)

theorem joinedText_append (parts parts' : List (List Char)) :
    joinedText (parts ++ parts') = joinedText parts ++ joinedText parts' :=
  List.flatMap_append

theorem joinedText_of_none {line : List Char} (h : joined? line = none) :
    joinedText [line] = line := by
  unfold joinedText
  rw [List.flatMap_singleton, h]
  rfl

theorem joinedText_of_some {line body : List Char} (h : joined? line = some body) :
    joinedText [line] = body := by
  unfold joinedText
  rw [List.flatMap_singleton, h]
  rfl

/-- What may stand between a backslash and the end of a physical line that is joined. -/
def lineEnds : List (List Char) := [[], ['\n'], ['\r'], ['\r', '\n']]

/-- A physical line is joined with the next one where it ends in a backslash. -/
theorem joined?_eq_some_iff {line body : List Char} :
    joined? line = some body ↔ ∃ e ∈ lineEnds, line = body ++ '\\' :: e := by
  constructor
  · intro h
    have hline : line = line.reverse.reverse := (List.reverse_reverse line).symm
    unfold joined? at h
    split at h <;> rename_i heq <;> cases h <;> rw [heq] at hline
    · exact ⟨['\r', '\n'], by decide, by simpa using hline⟩
    · exact ⟨['\n'], by decide, by simpa using hline⟩
    · exact ⟨['\r'], by decide, by simpa using hline⟩
    · exact ⟨[], by decide, by simpa using hline⟩
  · rintro ⟨e, he, rfl⟩
    simp only [lineEnds, List.mem_cons, List.not_mem_nil, or_false] at he
    rcases he with rfl | rfl | rfl | rfl <;> simp [joined?]

/-- Lines that make up nothing are joined with nothing. -/
theorem joined?_of_joinedText_eq_nil {parts : List (List Char)} (h : joinedText parts = [])
    (hne : [] ∉ parts) : ∀ p ∈ parts, joined? p = some [] := by
  intro p hp
  have hnil : (joined? p).getD p = [] := List.flatMap_eq_nil_iff.1 h p hp
  cases hj : joined? p with
  | none =>
    rw [hj] at hnil
    obtain rfl : p = [] := hnil
    exact (hne hp).elim
  | some body =>
    rw [hj] at hnil
    exact congrArg some hnil

section Division

variable {before parts lines : List (List Char)}

/-- The physical lines of the first logical line, which goes on with `parts`, and those after it. -/
def cutLogical (parts : List (List Char)) :
    List (List Char) → List (List Char) × List (List Char)
  | [] => (parts, [])
  | line :: lines =>
    if (joined? line).isSome then cutLogical (parts ++ [line]) lines else (parts ++ [line], lines)

/-- A line that is not joined with the next one has a text. -/
theorem joinedText_append_ne_nil (parts : List (List Char)) {line : List Char}
    (hj : joined? line = none) (hne : line ≠ []) : joinedText (parts ++ [line]) ≠ [] := by
  rw [joinedText_append, joinedText_of_none hj]
  exact fun h => hne (List.append_eq_nil_iff.1 h).2

/-- Only at the end of the text nothing is made up. -/
theorem cutLogical_of_joinedText_eq_nil (hlines : [] ∉ lines)
    (h : joinedText (cutLogical parts lines).1 = []) : (cutLogical parts lines).2 = [] := by
  induction lines generalizing parts with
  | nil => rfl
  | cons line lines ih =>
    rw [List.mem_cons, not_or] at hlines
    unfold cutLogical at h ⊢
    split at h
    · next hj =>
      rw [if_pos hj]
      exact ih hlines.2 h
    · next hj =>
      exact (joinedText_append_ne_nil parts (Option.not_isSome_iff_eq_none.1 hj)
        (Ne.symm hlines.1) h).elim

/-- The first logical line is the one that is cut off, if it has a text. -/
theorem logicalLinesFrom_eq (before : List (List Char)) {parts lines : List (List Char)}
    (hlines : [] ∉ lines) :
    logicalLinesFrom before parts lines =
      if joinedText (cutLogical parts lines).1 = [] then []
      else ⟨before, (cutLogical parts lines).1⟩ ::
        logicalLinesFrom (before ++ (cutLogical parts lines).1) [] (cutLogical parts lines).2 := by
  induction lines generalizing parts with
  | nil => rfl
  | cons line lines ih =>
    rw [List.mem_cons, not_or] at hlines
    rw [logicalLinesFrom, cutLogical]
    split
    · exact ih hlines.2
    · next hj =>
      have hne := joinedText_append_ne_nil parts (Option.not_isSome_iff_eq_none.1 hj)
        (Ne.symm hlines.1)
      exact (if_neg hne).symm

theorem within_of_mem {l : LogicalLine} (hparts : ∀ p ∈ parts, (joined? p).isSome)
    (hl : l ∈ logicalLinesFrom before parts lines) : l.Within (before ++ parts ++ lines) := by
  induction lines generalizing before parts with
  | nil =>
    unfold logicalLinesFrom at hl
    split at hl
    · cases hl
    · next hne =>
      obtain rfl := List.mem_singleton.1 hl
      obtain rfl | ⟨joined, last, rfl⟩ := List.eq_nil_or_concat parts
      · exact (hne rfl).elim
      · rw [List.concat_eq_append] at hparts ⊢
        exact ⟨joined, last, [], rfl, rfl, fun p hp => hparts p (List.mem_append_left _ hp),
          .inr rfl⟩
  | cons line lines ih =>
    unfold logicalLinesFrom at hl
    split at hl
    · next hj =>
      have hnext : ∀ p ∈ parts ++ [line], (joined? p).isSome := by
        simpa [or_imp, forall_and] using ⟨hparts, hj⟩
      have h := ih hnext hl
      simpa only [List.append_assoc, List.singleton_append] using h
    · next hj =>
      rcases List.mem_cons.1 hl with rfl | hl
      · refine ⟨parts, line, lines, rfl, ?_, hparts, .inl (Option.not_isSome_iff_eq_none.1 hj)⟩
        simp only [List.append_assoc, List.singleton_append]
      · have h := ih (fun p hp => (List.not_mem_nil hp).elim) hl
        simpa only [List.append_assoc, List.singleton_append, List.append_nil] using h

/-- The logical lines and the physical lines that hang take all physical lines, in their order. -/
theorem flatMap_parts_append_hangingFrom (before parts lines : List (List Char)) :
    (logicalLinesFrom before parts lines).flatMap LogicalLine.parts ++ hangingFrom parts lines =
      parts ++ lines := by
  induction lines generalizing before parts with
  | nil =>
    unfold logicalLinesFrom hangingFrom
    split <;> simp
  | cons line lines ih =>
    unfold logicalLinesFrom hangingFrom
    split
    · simpa using ih before (parts ++ [line])
    · simpa using ih (before ++ (parts ++ [line])) []

theorem joined?_of_mem_hangingFrom (hparts : [] ∉ parts) (hlines : [] ∉ lines) :
    ∀ p ∈ hangingFrom parts lines, joined? p = some [] := by
  induction lines generalizing parts with
  | nil =>
    unfold hangingFrom
    split
    · next h => exact joined?_of_joinedText_eq_nil h hparts
    · exact nofun
  | cons line lines ih =>
    rw [List.mem_cons, not_or] at hlines
    unfold hangingFrom
    split
    · exact ih (by simpa using ⟨hparts, Ne.symm hlines.1⟩) hlines.2
    · exact ih List.not_mem_nil hlines.2

/-- What belongs to no logical line are physical lines at the end that are joined with nothing. -/
theorem exists_flatMap_parts_append (before : List (List Char)) {parts lines : List (List Char)}
    (hparts : [] ∉ parts) (hlines : [] ∉ lines) :
    ∃ rest, (logicalLinesFrom before parts lines).flatMap LogicalLine.parts ++ rest =
      parts ++ lines ∧ ∀ p ∈ rest, joined? p = some [] :=
  ⟨_, flatMap_parts_append_hangingFrom before parts lines,
    joined?_of_mem_hangingFrom hparts hlines⟩

/-- A logical line has all lines before it that the first one has, or also some of those that
follow, though not all. In either case those before it are complete, whatever follows. -/
theorem before_cases {l : LogicalLine} (hl : l ∈ logicalLinesFrom before parts lines) :
    l.before = before ∨ ∃ more rest, more ≠ [] ∧ rest ≠ [] ∧ more ++ rest = lines ∧
      l.before = before ++ parts ++ more ∧ ∃ logical, ∀ rest',
        logicalLinesFrom before parts (more ++ rest') =
          logical ++ logicalLinesFrom l.before [] rest' := by
  induction lines generalizing before parts with
  | nil =>
    unfold logicalLinesFrom at hl
    split at hl
    · cases hl
    · cases List.mem_singleton.1 hl
      exact .inl rfl
  | cons line lines ih =>
    unfold logicalLinesFrom at hl
    split at hl
    · next hj =>
      rcases ih hl with h | ⟨more, rest, -, hrest, rfl, h, logical, hlogical⟩
      · exact .inl h
      · refine .inr ⟨line :: more, rest, List.cons_ne_nil _ _, hrest, rfl, by simpa using h,
          logical, fun rest' => ?_⟩
        rw [List.cons_append, logicalLinesFrom, if_pos hj, hlogical]
    · next hj =>
      rcases List.mem_cons.1 hl with rfl | hl
      · exact .inl rfl
      · right
        rcases ih hl with h | ⟨more, rest, -, hrest, rfl, h, logical, hlogical⟩
        · refine ⟨[line], lines, List.cons_ne_nil _ _, ?_, rfl, by simpa using h,
            [⟨before, parts ++ [line]⟩], fun rest' => ?_⟩
          · rintro rfl
            cases hl
          · rw [List.singleton_append, logicalLinesFrom, if_neg hj, h]
            rfl
        · refine ⟨line :: more, rest, List.cons_ne_nil _ _, hrest, rfl, by simpa using h,
            ⟨before, parts ++ [line]⟩ :: logical, fun rest' => ?_⟩
          rw [List.cons_append, logicalLinesFrom, if_neg hj, hlogical, List.cons_append]

/-- The logical lines before one of a text are the same whatever follows the physical lines before
it. -/
theorem exists_logicalLinesFrom_before {l : LogicalLine} (hl : l ∈ logicalLinesFrom [] [] lines) :
    ∃ logical, ∀ rest, logicalLinesFrom [] [] (l.before ++ rest) =
      logical ++ logicalLinesFrom l.before [] rest := by
  rcases before_cases hl with h | ⟨more, _, -, -, -, h, logical, hlogical⟩
  · exact ⟨[], fun rest => by rw [h]; rfl⟩
  · refine ⟨logical, fun rest => ?_⟩
    rw [← hlogical, h]
    rfl

theorem lt_number_of_mem {l : LogicalLine} (hl : l ∈ logicalLinesFrom before parts lines) :
    before.length < l.number := by
  refine Nat.lt_succ_of_le ?_
  rcases before_cases hl with h | ⟨more, _, -, -, -, h, -⟩
  · exact Nat.le_of_eq (congrArg List.length h).symm
  · rw [h, List.append_assoc, List.length_append]
    exact Nat.le_add_right _ _

/-- Logical lines are numbered in their order. -/
theorem pairwise_number (before parts lines : List (List Char)) :
    (logicalLinesFrom before parts lines).Pairwise (·.number < ·.number) := by
  induction lines generalizing before parts with
  | nil =>
    unfold logicalLinesFrom
    split <;> simp
  | cons line lines ih =>
    unfold logicalLinesFrom
    split
    · exact ih _ _
    · refine List.pairwise_cons.2 ⟨fun l hl => ?_, ih _ _⟩
      have := lt_number_of_mem hl
      rw [List.length_append, List.length_append, List.length_singleton] at this
      show before.length + 1 < l.number
      omega

end Division

/-! ## Reading lines -/

theorem LineReader.readLineFrom_steady (start : List UInt8) {r : LineReader}
    (h : r.reader.Steady) : (r.readLineFrom start).2.reader.Steady := by
  fun_induction LineReader.readLineFrom start r with
  | case1 => exact h
  | case2 => exact h
  | case3 => exact h.read _
  | case4 start r _ _ _ _ ih => exact ih (h.read _)

/-- The reader has these physical lines before it, all of them to be delivered. -/
structure LineReader.Holds (r : LineReader) (lines : List (List Char)) : Prop where
  steady : r.reader.Steady
  physical : physicalLines lines.flatten = lines
  pending : r.pending = bytesOf lines.flatten

namespace LineReader.Holds

variable {r : LineReader} {line : List Char} {lines : List (List Char)}

theorem nil_not_mem (h : r.Holds lines) : [] ∉ lines :=
  h.physical ▸ nil_not_mem_physicalLines _

theorem readLine_nil (h : r.Holds []) : r.readLine.1 = [] ∧ r.readLine.2.Holds [] := by
  obtain ⟨hline, hpending⟩ := readLine_of_pending_eq_nil h.pending
  exact ⟨hline, readLineFrom_steady [] h.steady, rfl, hpending⟩

theorem readLine_cons (h : r.Holds (line :: lines)) :
    r.readLine.1 = bytesOf line ∧ r.readLine.2.Holds lines := by
  have hline : r.readLine.1 = bytesOf line := by
    rw [readLine_eq h.steady, h.pending, firstLine_bytesOf, h.physical]
    rfl
  have hpending : r.readLine.2.pending = bytesOf lines.flatten := by
    have hall := r.readLine_pending
    rw [hline, h.pending, List.flatten_cons, bytesOf_append] at hall
    exact List.append_cancel_left hall
  exact ⟨hline, readLineFrom_steady [] h.steady, physicalLines_flatten_tail h.physical, hpending⟩

/-- A logical line is read as it is cut off the physical lines; by induction on these. -/
theorem readLogicalFrom_eq (h : r.Holds lines) (parts : List (List Char)) :
    ∃ r', r'.Holds (cutLogical parts lines).2 ∧
      readLogicalFrom (joinedText parts) parts.length r =
        ⟨joinedText (cutLogical parts lines).1, (cutLogical parts lines).1.length, r', none⟩ := by
  induction lines generalizing parts r with
  | nil =>
    obtain ⟨hline, hrest⟩ := h.readLine_nil
    refine ⟨r.readLine.2, hrest, ?_⟩
    rw [readLogicalFrom, dif_pos hline]
    rfl
  | cons line lines ih =>
    obtain ⟨hline, hrest⟩ := h.readLine_cons
    have hne : line ≠ [] := fun hnil => h.nil_not_mem (hnil ▸ List.mem_cons_self)
    have hbytes : r.readLine.1 ≠ [] := by
      rw [hline]
      exact fun hnil => hne (bytesOf_eq_nil hnil)
    have hlength : (parts ++ [line]).length = parts.length + 1 := List.length_append
    rw [readLogicalFrom, dif_neg hbytes]
    simp only [hline, decode?_bytesOf]
    unfold cutLogical
    cases hj : joined? line with
    | some body =>
      obtain ⟨r', hr', heq⟩ := ih hrest (parts ++ [line])
      rw [joinedText_append, joinedText_of_some hj, hlength] at heq
      exact ⟨r', hr', heq⟩
    | none =>
      refine ⟨r.readLine.2, hrest, ?_⟩
      simp only [Option.isSome_none, Bool.false_eq_true, if_false, joinedText_append,
        joinedText_of_none hj, hlength]

theorem readLogical_eq (h : r.Holds lines) :
    ∃ r', r'.Holds (cutLogical [] lines).2 ∧
      readLogical r =
        ⟨joinedText (cutLogical [] lines).1, (cutLogical [] lines).1.length, r', none⟩ :=
  h.readLogicalFrom_eq []

end LineReader.Holds

/-! ## The checksum of all that is delivered -/

/-- The checksum of what has been delivered and what is still to be. -/
def Reader.total (r : Reader) : Checksum := r.digest.append r.pending

theorem Reader.read_total (r : Reader) (n : Nat) : (r.read n).2.total = r.total := by
  unfold total
  rw [read_digest, ← Checksum.append_append, r.read_pending]

theorem LineReader.readLineFrom_total (start : List UInt8) (r : LineReader) :
    (r.readLineFrom start).2.reader.total = r.reader.total := by
  fun_induction LineReader.readLineFrom start r with
  | case1 => rfl
  | case2 => rfl
  | case3 => exact Reader.read_total _ _
  | case4 start r _ _ _ _ ih => exact ih.trans (Reader.read_total _ _)

theorem readLogicalFrom_total (start : List Char) (count : Nat) (r : LineReader) :
    (readLogicalFrom start count r).reader.reader.total = r.reader.total := by
  fun_induction readLogicalFrom start count r with
  | case3 start count r next _ line _ body _ ih =>
    exact ih.trans (LineReader.readLineFrom_total [] r)
  | _ => exact LineReader.readLineFrom_total [] _

theorem readLogical_total (r : LineReader) : (readLogical r).reader.reader.total = r.reader.total :=
  readLogicalFrom_total [] 0 r

end EventMachine.Source
