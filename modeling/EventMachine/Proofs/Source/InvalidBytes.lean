import EventMachine.Proofs.Source.Continuation

/-!
# Lines before invalid bytes

Bytes that are not valid UTF-8 begin with those of a text, the longest such text being their valid
part. A reader gives the logical lines that the valid part completes, and then fails.

1. `validPart` is the longest text whose bytes begin the given ones (`bytesOf_validPart_begins`,
   `length_le_validPart`). It ends in the line that is not valid (`exists_breaks`).
2. `completedLines` are the logical lines of a text that end with their newline. What follows the
   last newline of the text does not count (`completedFrom_append`).
3. `LineReader.Breaks` tells which physical lines are before a line that is not valid. Those that
   complete a logical line are read as such, and the rest with the failure
   (`LineReader.Breaks.readLogical_cases`).
-/

namespace EventMachine.Source

/-! ## The valid part of bytes -/

theorem decode?_eq_some_iff {bytes : List UInt8} {cs : List Char} :
    decode? bytes = some cs ↔ bytesOf cs = bytes := by
  constructor
  · intro h
    unfold decode? at h
    obtain ⟨text, htext, rfl⟩ := Option.map_eq_some_iff.1 h
    unfold String.fromUTF8? at htext
    split at htext
    · cases htext
      rw [← encode_eq_bytesOf]
      exact toList_eq_data _
    · cases htext
  · rintro rfl
    exact decode?_bytesOf cs

/-- The bytes are valid UTF-8. -/
def IsText (bytes : List UInt8) : Prop := ∃ text, encode text = bytes

theorem isText_iff {bytes : List UInt8} : IsText bytes ↔ ∃ cs, bytesOf cs = bytes := by
  constructor
  · rintro ⟨text, rfl⟩
    exact ⟨text.toList, (encode_eq_bytesOf text).symm⟩
  · rintro ⟨cs, rfl⟩
    exact ⟨String.ofList cs, by rw [encode_eq_bytesOf, String.toList_ofList]⟩

instance (bytes : List UInt8) : Decidable (IsText bytes) :=
  decidable_of_iff ((decode? bytes).isSome = true) <| by
    simp only [isText_iff, Option.isSome_iff_exists, decode?_eq_some_iff]

/-- The longest text that at most `n` bytes at the beginning are those of. -/
def validPartUpTo (bytes : List UInt8) : Nat → List Char
  | 0 => []
  | n + 1 => (decode? (bytes.take (n + 1))).getD (validPartUpTo bytes n)

/-- The longest text whose bytes begin the given ones. -/
def validPart (bytes : List UInt8) : List Char := validPartUpTo bytes bytes.length

section ValidPart

variable {bytes : List UInt8} {cs : List Char}

theorem bytesOf_validPartUpTo_begins (bytes : List UInt8) (n : Nat) :
    bytesOf (validPartUpTo bytes n) <+: bytes := by
  induction n with
  | zero => exact List.nil_prefix
  | succ n ih =>
    unfold validPartUpTo
    cases hd : decode? (bytes.take (n + 1)) with
    | none => exact ih
    | some ds =>
      rw [Option.getD_some, decode?_eq_some_iff.1 hd]
      exact List.take_prefix _ _

theorem length_le_validPartUpTo (h : bytesOf cs <+: bytes) {n : Nat}
    (hn : (bytesOf cs).length ≤ n) :
    (bytesOf cs).length ≤ (bytesOf (validPartUpTo bytes n)).length := by
  induction n with
  | zero => exact Nat.le_trans hn (Nat.zero_le _)
  | succ n ih =>
    unfold validPartUpTo
    cases hd : decode? (bytes.take (n + 1)) with
    | none =>
      -- as many bytes are not valid, so there are fewer
      rw [Option.getD_none]
      refine ih (Nat.le_of_lt_succ (Nat.lt_of_le_of_ne hn fun hlength => ?_))
      change _ = n + 1 at hlength
      rw [← hlength, ← List.prefix_iff_eq_take.1 h, decode?_bytesOf] at hd
      cases hd
    | some ds =>
      rw [Option.getD_some, decode?_eq_some_iff.1 hd, List.length_take]
      exact Nat.le_min.2 ⟨hn, h.length_le⟩

theorem bytesOf_validPart_begins (bytes : List UInt8) : bytesOf (validPart bytes) <+: bytes :=
  bytesOf_validPartUpTo_begins bytes bytes.length

theorem length_le_validPart (h : bytesOf cs <+: bytes) :
    (bytesOf cs).length ≤ (bytesOf (validPart bytes)).length :=
  length_le_validPartUpTo h h.length_le

end ValidPart

theorem newlineByte_not_mem_bytesOf {cs : List Char} (h : '\n' ∉ cs) :
    newlineByte ∉ bytesOf cs := by
  have hencode : newlineByte ∉ encode (String.ofList cs) :=
    newlineByte_not_mem_encode (by rwa [String.toList_ofList])
  rwa [encode_eq_bytesOf, String.toList_ofList] at hencode

theorem firstLine_begins (bytes : List UInt8) : firstLine bytes <+: bytes := by
  unfold firstLine
  split
  · next h => exact ⟨_, cutLine?_append h⟩
  · exact List.prefix_refl _

theorem firstLine_eq_nil {bytes : List UInt8} (h : firstLine bytes = []) : bytes = [] := by
  unfold firstLine at h
  split at h
  · next hcut =>
    have hpos := cutLine?_pos hcut
    rw [h] at hpos
    cases hpos
  · exact h

/-- The line after the lines of the valid part is not valid. -/
theorem decode?_firstLine_of_invalid {bytes rest : List UInt8} {before ws : List Char}
    (hinvalid : ¬ IsText bytes) (hvalid : before ++ ws = validPart bytes) (hws : '\n' ∉ ws)
    (hbytes : bytes = bytesOf before ++ (bytesOf ws ++ rest)) :
    decode? (firstLine (bytesOf ws ++ rest)) = none := by
  have hfirst : firstLine (bytesOf ws ++ rest) = bytesOf ws ++ firstLine rest :=
    firstLine_append_of_none (cutLine?_eq_none (newlineByte_not_mem_bytesOf hws)) rest
  cases hd : decode? (firstLine (bytesOf ws ++ rest)) with
  | none => rfl
  | some cs =>
    -- the text up to the end of this line would be longer than the valid part
    have hcs := decode?_eq_some_iff.1 hd
    have hprefix : bytesOf (before ++ cs) <+: bytes := by
      rw [bytesOf_append, hbytes, hcs]
      exact (List.prefix_append_right_inj _).2 (firstLine_begins _)
    have hlength := length_le_validPart hprefix
    rw [← hvalid, bytesOf_append, bytesOf_append, List.length_append, List.length_append, hcs,
      hfirst, List.length_append] at hlength
    have hnil : firstLine rest = [] := List.length_eq_zero_iff.1 (by omega)
    refine (hinvalid (isText_iff.2 ⟨before ++ ws, ?_⟩)).elim
    rw [hbytes, firstLine_eq_nil hnil, List.append_nil, bytesOf_append]

/-! ## Complete logical lines -/

/-- The logical line ends with its newline, and is not joined with a line after it. -/
def LogicalLine.isComplete (l : LogicalLine) : Bool :=
  l.parts.getLast?.any fun line => line.getLast? = some '\n' && (joined? line).isNone

/-- The logical lines that physical lines complete, as `logicalLinesFrom` has them. -/
def completedFrom (before parts lines : List (List Char)) : List LogicalLine :=
  (logicalLinesFrom before parts lines).filter LogicalLine.isComplete

/-- The logical lines of a text that it completes. -/
def completedLines (cs : List Char) : List LogicalLine := completedFrom [] [] (physicalLines cs)

section Completed

variable {before parts lines : List (List Char)}

theorem isComplete_append (before parts : List (List Char)) (line : List Char) :
    (LogicalLine.mk before (parts ++ [line])).isComplete =
      (line.getLast? = some '\n' && (joined? line).isNone) := by
  unfold LogicalLine.isComplete
  rw [List.getLast?_concat]
  rfl

theorem forall_joined_append {line : List Char} (hparts : ∀ p ∈ parts, (joined? p).isSome)
    (hline : (joined? line).isSome) : ∀ p ∈ parts ++ [line], (joined? p).isSome := by
  intro p hp
  rcases List.mem_append.1 hp with hp | hp
  · exact hparts p hp
  · rwa [List.mem_singleton.1 hp]

/-- Lines that are all joined with the next one complete nothing. -/
theorem completedFrom_of_joined (before : List (List Char))
    (hparts : ∀ p ∈ parts, (joined? p).isSome) (hlines : ∀ p ∈ lines, (joined? p).isSome) :
    completedFrom before parts lines = [] := by
  induction lines generalizing parts with
  | nil =>
    unfold completedFrom logicalLinesFrom
    split
    · rfl
    · obtain rfl | ⟨joined, last, rfl⟩ := List.eq_nil_or_concat parts
      · rfl
      · rw [List.concat_eq_append] at hparts ⊢
        have hlast := Option.isSome_iff_ne_none.1 (hparts last (by simp))
        refine List.filter_eq_nil_iff.2 fun l hl => ?_
        rw [List.mem_singleton.1 hl, isComplete_append]
        simp [hlast]
  | cons line lines ih =>
    obtain ⟨hline, hrest⟩ := List.forall_mem_cons.1 hlines
    unfold completedFrom logicalLinesFrom
    rw [if_pos hline]
    exact ih (forall_joined_append hparts hline) hrest

/-- The first line that is not joined completes a logical line. -/
theorem completedFrom_of_last (before parts : List (List Char)) {joined : List (List Char)}
    {last : List Char} (rest : List (List Char)) (hjoined : ∀ p ∈ joined, (joined? p).isSome)
    (hlast : joined? last = none) (hended : Ended last) :
    completedFrom before parts (joined ++ last :: rest) =
      ⟨before, parts ++ joined ++ [last]⟩ ::
        completedFrom (before ++ (parts ++ joined ++ [last])) [] rest := by
  induction joined generalizing parts with
  | nil =>
    obtain ⟨body, -, rfl⟩ := hended
    have hnot : ¬ (joined? (body ++ ['\n'])).isSome := by
      rw [hlast]
      exact Bool.false_ne_true
    unfold completedFrom
    rw [List.nil_append, logicalLinesFrom, if_neg hnot, List.append_nil, List.filter_cons_of_pos]
    rw [isComplete_append, hlast, List.getLast?_concat]
    rfl
  | cons line joined ih =>
    obtain ⟨hline, hrest⟩ := List.forall_mem_cons.1 hjoined
    have hnext := ih (parts ++ [line]) hrest
    unfold completedFrom at hnext ⊢
    rw [List.cons_append, logicalLinesFrom, if_pos hline, hnext]
    simp only [List.append_assoc, List.singleton_append]

theorem physicalLines_of_not_mem {ws : List Char} (hws : '\n' ∉ ws) :
    physicalLines ws = if ws = [] then [] else [ws] := by
  have happend := physicalLines_append_of_not_mem hws []
  rwa [List.append_nil] at happend

/-- What has no newline completes nothing. -/
theorem completedFrom_append {ws : List Char} (before lines : List (List Char))
    (hparts : ∀ p ∈ parts, (joined? p).isSome) (hws : '\n' ∉ ws) :
    completedFrom before parts (lines ++ physicalLines ws) = completedFrom before parts lines := by
  induction lines generalizing before parts with
  | nil =>
    rw [List.nil_append, physicalLines_of_not_mem hws]
    split
    · rfl
    · rw [completedFrom_of_joined before hparts (List.forall_mem_nil _)]
      cases hj : joined? ws with
      | some body =>
        exact completedFrom_of_joined before hparts (by simp [hj])
      | none =>
        have hlast : ws.getLast? ≠ some '\n' := fun h => hws (List.mem_of_getLast? h)
        have hnot : ¬ (joined? ws).isSome := by
          rw [hj]
          exact Bool.false_ne_true
        unfold completedFrom
        rw [logicalLinesFrom, if_neg hnot, List.filter_cons_of_neg]
        · rfl
        · rw [isComplete_append]
          simp [hlast]
  | cons line lines ih =>
    unfold completedFrom at ih ⊢
    rw [List.cons_append, logicalLinesFrom, logicalLinesFrom]
    split
    · next hline => exact ih before (forall_joined_append hparts hline)
    · rw [List.filter_cons, List.filter_cons, ih _ (List.forall_mem_nil _)]

end Completed

/-! ## Reading up to invalid bytes -/

/-- The reader has these physical lines before it, and after them a line that is not valid. -/
structure LineReader.Breaks (r : LineReader) (lines : List (List Char)) (bad : List UInt8) :
    Prop where
  steady : r.reader.Steady
  ended : ∀ line ∈ lines, Ended line
  pending : r.pending = bytesOf lines.flatten ++ bad
  invalid : decode? (firstLine bad) = none

/-- Bytes that are not valid are lines, which complete what the valid part does, and a line that is
not valid. -/
theorem exists_breaks {r : Reader} (hr : r.Steady) (h : ¬ IsText r.pending) :
    ∃ lines bad, (LineReader.ofReader r).Breaks lines bad ∧
      completedFrom [] [] lines = completedLines (validPart r.pending) := by
  obtain ⟨rest, hrest⟩ := bytesOf_validPart_begins r.pending
  obtain ⟨lines, ws, hended, hws, hvalid⟩ := exists_flatten_append (validPart r.pending)
  have hpending : r.pending = bytesOf lines.flatten ++ (bytesOf ws ++ rest) := by
    rw [← List.append_assoc, ← bytesOf_append, hvalid, hrest]
  refine ⟨lines, bytesOf ws ++ rest,
    ⟨hr, hended, hpending, decode?_firstLine_of_invalid h hvalid hws hpending⟩, ?_⟩
  unfold completedLines
  rw [← hvalid, physicalLines_flatten_append hended,
    completedFrom_append [] lines (List.forall_mem_nil _) hws]

namespace LineReader.Breaks

variable {r : LineReader} {line : List Char} {lines : List (List Char)} {bad : List UInt8}

theorem readLine_nil (h : r.Breaks [] bad) : r.readLine.1 ≠ [] ∧ decode? r.readLine.1 = none := by
  have hline : decode? r.readLine.1 = none := by
    rw [readLine_eq h.steady, h.pending]
    exact h.invalid
  refine ⟨fun hnil => ?_, hline⟩
  rw [hnil] at hline
  cases (decode?_bytesOf []).symm.trans hline

theorem readLine_cons (h : r.Breaks (line :: lines) bad) :
    r.readLine.1 = bytesOf line ∧ r.readLine.2.Breaks lines bad := by
  obtain ⟨⟨body, hbody, rfl⟩, hended⟩ := List.forall_mem_cons.1 h.ended
  have hpending : r.pending = bytesOf (body ++ ['\n']) ++ (bytesOf lines.flatten ++ bad) := by
    rw [h.pending, List.flatten_cons, bytesOf_append, List.append_assoc]
  have hline : r.readLine.1 = bytesOf (body ++ ['\n']) := by
    have hnone : cutLine? (bytesOf body) = none :=
      cutLine?_eq_none (newlineByte_not_mem_bytesOf hbody)
    rw [readLine_eq h.steady, hpending, bytesOf_append, List.append_assoc,
      firstLine_append_of_none hnone]
    rfl
  refine ⟨hline, readLineFrom_steady [] h.steady, hended, ?_, h.invalid⟩
  have hall := r.readLine_pending
  rw [hline, hpending] at hall
  exact List.append_cancel_left hall

/-- The first logical line is read up to the line that completes it. If no line does, the failure
comes first. The induction is on the physical lines. -/
theorem readLogicalFrom_cases (h : r.Breaks lines bad) (parts : List (List Char)) :
    (∀ p ∈ lines, (joined? p).isSome) ∧
        (readLogicalFrom (joinedText parts) parts.length r).failure = some .invalidUtf8 ∨
      ∃ joined last rest r', lines = joined ++ last :: rest ∧
        (∀ p ∈ joined, (joined? p).isSome) ∧ joined? last = none ∧ Ended last ∧
        r'.Breaks rest bad ∧ readLogicalFrom (joinedText parts) parts.length r =
            ⟨joinedText (parts ++ joined ++ [last]), (parts ++ joined ++ [last]).length, r',
              none⟩ := by
  induction lines generalizing parts r with
  | nil =>
    obtain ⟨hne, hline⟩ := h.readLine_nil
    refine .inl ⟨nofun, ?_⟩
    rw [readLogicalFrom, dif_neg hne]
    simp only [hline]
  | cons line lines ih =>
    obtain ⟨hline, hrest⟩ := h.readLine_cons
    have hended := h.ended line List.mem_cons_self
    have hbytes : r.readLine.1 ≠ [] := by
      obtain ⟨body, -, rfl⟩ := hended
      rw [hline]
      exact fun hnil => List.append_ne_nil_of_right_ne_nil body (by simp) (bytesOf_eq_nil hnil)
    have hlength : (parts ++ [line]).length = parts.length + 1 := List.length_append
    rw [readLogicalFrom, dif_neg hbytes]
    simp only [hline, decode?_bytesOf]
    cases hj : joined? line with
    | some body =>
      have hisSome : (joined? line).isSome := by
        rw [hj]
        rfl
      have hnext := ih hrest (parts ++ [line])
      rw [joinedText_append, joinedText_of_some hj, hlength] at hnext
      rcases hnext with
        ⟨hall, hfailure⟩ | ⟨joined, last, rest, r', rfl, hjoined, hlast, hend, hr', heq⟩
      · exact .inl ⟨List.forall_mem_cons.2 ⟨hisSome, hall⟩, hfailure⟩
      · refine .inr ⟨line :: joined, last, rest, r', rfl, List.forall_mem_cons.2 ⟨hisSome, hjoined⟩,
          hlast, hend, hr', ?_⟩
        simpa only [List.append_assoc, List.singleton_append] using heq
    | none =>
      refine .inr ⟨[], line, lines, r.readLine.2, rfl, nofun, hj, hended, hrest, ?_⟩
      simp only [List.append_nil, joinedText_append, joinedText_of_none hj, hlength]

/-- A reader fails where no logical line is complete, and otherwise reads the first one. -/
theorem readLogical_cases (h : r.Breaks lines bad) (before : List (List Char)) :
    completedFrom before [] lines = [] ∧ (readLogical r).failure = some .invalidUtf8 ∨
      ∃ parts rest r', completedFrom before [] lines =
          ⟨before, parts⟩ :: completedFrom (before ++ parts) [] rest ∧ joinedText parts ≠ [] ∧
        r'.Breaks rest bad ∧ readLogical r = ⟨joinedText parts, parts.length, r', none⟩ := by
  rcases h.readLogicalFrom_cases [] with
    ⟨hall, hfailure⟩ | ⟨joined, last, rest, r', rfl, hjoined, hlast, hended, hr', heq⟩
  · exact .inl ⟨completedFrom_of_joined before (List.forall_mem_nil _) hall, hfailure⟩
  · refine .inr ⟨joined ++ [last], rest, r',
      completedFrom_of_last before [] rest hjoined hlast hended, ?_, hr', heq⟩
    obtain ⟨body, -, rfl⟩ := hended
    exact joinedText_append_ne_nil joined hlast (by simp)

end LineReader.Breaks

end EventMachine.Source
