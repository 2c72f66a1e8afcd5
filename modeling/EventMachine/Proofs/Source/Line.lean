import EventMachine.Source.Line

/-!
# What is read of a source

Lines are cut from what a source delivers as a whole, however it is split into parts, as long as an
empty part is delivered at the end only (`LineReader.readLine_eq`). A text without a newline that
does not end in a backslash is one logical line (`readLogical_eq`).
-/

namespace EventMachine.Source

/-! ## Lines of bytes -/

/-- The bytes up to and with the first newline, or all of them. -/
def firstLine (bytes : List UInt8) : List UInt8 :=
  match cutLine? bytes with
  | some (line, _) => line
  | none => bytes

theorem cutLine?_append_of_some {bytes line rest : List UInt8}
    (h : cutLine? bytes = some (line, rest)) (more : List UInt8) :
    cutLine? (bytes ++ more) = some (line, rest ++ more) := by
  induction bytes generalizing line with
  | nil => cases h
  | cons b bytes ih =>
    unfold cutLine? at h
    rw [List.cons_append]
    unfold cutLine?
    split at h
    · next hb =>
      cases h
      rw [if_pos hb]
    · next hb =>
      obtain ⟨⟨line', rest'⟩, hcut, heq⟩ := Option.map_eq_some_iff.1 h
      cases heq
      rw [if_neg hb, ih hcut]
      rfl

theorem cutLine?_append_of_none {bytes : List UInt8} (h : cutLine? bytes = none)
    (more : List UInt8) :
    cutLine? (bytes ++ more) = (cutLine? more).map fun p => (bytes ++ p.1, p.2) := by
  induction bytes with
  | nil =>
    show cutLine? more = _
    cases cutLine? more <;> rfl
  | cons b bytes ih =>
    unfold cutLine? at h
    rw [List.cons_append, cutLine?]
    split at h
    · cases h
    · next hb =>
      rw [if_neg hb, ih (Option.map_eq_none_iff.1 h)]
      cases cutLine? more <;> rfl

theorem cutLine?_eq_none {bytes : List UInt8} (h : newlineByte ∉ bytes) :
    cutLine? bytes = none := by
  induction bytes with
  | nil => rfl
  | cons b bytes ih =>
    rw [List.mem_cons, not_or] at h
    rw [cutLine?, if_neg (Ne.symm h.1), ih h.2]
    rfl

theorem firstLine_append_of_some {bytes line rest : List UInt8}
    (h : cutLine? bytes = some (line, rest)) (more : List UInt8) :
    firstLine (bytes ++ more) = line := by
  unfold firstLine
  rw [cutLine?_append_of_some h]

theorem firstLine_append_of_none {bytes : List UInt8} (h : cutLine? bytes = none)
    (more : List UInt8) : firstLine (bytes ++ more) = bytes ++ firstLine more := by
  unfold firstLine
  rw [cutLine?_append_of_none h]
  cases cutLine? more <;> rfl

/-! ## Lines of a reader -/

/-- After an empty part nothing is delivered. -/
def Reader.Steady (r : Reader) : Prop :=
  ∀ before after, r.chunks = before ++ [] :: after → after.flatten = []

theorem Reader.steady_ofBytes (bytes : List UInt8) : (ofBytes bytes).Steady := by
  intro before after h
  have hlength := congrArg List.length h
  rw [List.length_append, List.length_cons] at hlength
  have hnil : after = [] :=
    List.length_eq_zero_iff.1 (by simp [ofBytes, ofChunks] at hlength; omega)
  rw [hnil]
  rfl

theorem Reader.Steady.read {r : Reader} (h : r.Steady) (n : Nat) : (r.read n).2.Steady := by
  unfold Reader.read
  split
  · exact h
  · next chunk chunks hc =>
    intro before after hsplit
    dsimp only at hsplit
    split at hsplit
    · exact h (chunk :: before) after (by rw [hc, hsplit]; rfl)
    · next hne =>
      cases before with
      | nil =>
        rw [List.nil_append, List.cons.injEq] at hsplit
        rw [hsplit.1] at hne
        exact (hne rfl).elim
      | cons first before =>
        rw [List.cons_append, List.cons.injEq] at hsplit
        exact h (chunk :: before) after (by rw [hc, hsplit.2]; rfl)

/-- An empty part is the end. -/
theorem Reader.Steady.pending_of_read {r : Reader} (h : r.Steady) {n : Nat} (hn : 0 < n)
    (hr : (r.read n).1 = []) : r.pending = [] := by
  unfold Reader.read at hr
  unfold Reader.pending
  split at hr
  · next hc =>
    rw [hc]
    rfl
  · next chunk chunks hc =>
    have hnil : chunk = [] := by
      rcases List.take_eq_nil_iff.1 hr with hzero | hnil
      · omega
      · exact hnil
    subst hnil
    rw [hc, List.flatten_cons, List.nil_append]
    exact h [] chunks hc

theorem LineReader.readLineFrom_eq (start : List UInt8) {r : LineReader} (h : r.reader.Steady) :
    (r.readLineFrom start).1 = start ++ firstLine r.pending := by
  fun_induction LineReader.readLineFrom start r with
  | case1 start r line rest hcut => rw [pending, firstLine_append_of_some hcut]
  | case2 start r hcut hc =>
    rw [pending, firstLine_append_of_none hcut, Reader.pending, hc]
    exact congrArg (start ++ ·) (List.append_nil _).symm
  | case3 start r hcut hc part hp =>
    rw [pending, firstLine_append_of_none hcut,
      h.pending_of_read (by decide) (List.isEmpty_iff.1 hp)]
    exact congrArg (start ++ ·) (List.append_nil _).symm
  | case4 start r hcut hc part hp ih =>
    rw [ih (h.read _), pending, pending, firstLine_append_of_none hcut, List.append_assoc]
    exact congrArg (fun bytes => start ++ (r.buffer ++ firstLine bytes))
      (r.reader.read_pending bufferSize)

/-- A line is the first of what is left of the source. -/
theorem LineReader.readLine_eq {r : LineReader} (h : r.reader.Steady) :
    r.readLine.1 = firstLine r.pending :=
  readLineFrom_eq [] h

theorem LineReader.readLine_of_pending_eq_nil {r : LineReader} (h : r.pending = []) :
    r.readLine.1 = [] ∧ r.readLine.2.pending = [] :=
  List.append_eq_nil_iff.1 (r.readLine_pending.trans h)

/-! ## Text -/

theorem toList_loop_eq (bytes : ByteArray) (i : Nat) (before : List UInt8) :
    ByteArray.toList.loop bytes i before = before.reverse ++ bytes.data.toList.drop i := by
  fun_induction ByteArray.toList.loop bytes i before with
  | case1 i before hi ih =>
    have hget : bytes.get! i = bytes.data.toList[i] := by
      show bytes.data[i]! = _
      rw [getElem!_pos bytes.data i hi, Array.getElem_toList]
    rw [ih, List.drop_eq_getElem_cons hi, List.reverse_cons, List.append_assoc, hget]
    rfl
  | case2 i before hi =>
    rw [List.drop_eq_nil_of_le (Nat.le_of_not_lt hi), List.append_nil]

theorem toList_eq_data (bytes : ByteArray) : bytes.toList = bytes.data.toList :=
  toList_loop_eq bytes 0 []

theorem decode?_encode (text : String) : decode? (encode text) = some text.toList := by
  unfold decode? encode
  rw [toList_eq_data]
  show (String.fromUTF8? text.toByteArray).map String.toList = _
  unfold String.fromUTF8?
  rw [dif_pos text.isValidUTF8]
  rfl

theorem encode_eq_flatMap (text : String) :
    encode text = text.toList.flatMap String.utf8EncodeChar := by
  unfold encode
  rw [toList_eq_data]
  show text.toByteArray.data.toList = _
  rw [← String.utf8Encode_toList]
  exact List.toList_data_toByteArray

/-- An ASCII byte occurs in the encoding of its own character only. -/
theorem eq_of_mem_utf8EncodeChar {c d : Char} (hd : d.toNat < 128)
    (h : UInt8.ofNat d.toNat ∈ String.utf8EncodeChar c) : c = d := by
  have hbyte {n : Nat} (hn : UInt8.ofNat d.toNat = UInt8.ofNat n) : d.toNat = n % 256 := by
    have := congrArg UInt8.toNat hn
    rw [UInt8.toNat_ofNat', UInt8.toNat_ofNat'] at this
    omega
  have hval : c.val.toNat = d.toNat := by
    unfold String.utf8EncodeChar at h
    simp only at h
    split at h
    · have := hbyte (List.mem_singleton.1 h)
      omega
    · exfalso
      split at h
      · simp only [List.mem_cons, List.not_mem_nil, or_false] at h
        rcases h with h | h <;> have := hbyte h <;> omega
      · split at h <;> simp only [List.mem_cons, List.not_mem_nil, or_false] at h
        · rcases h with h | h | h <;> have := hbyte h <;> omega
        · rcases h with h | h | h | h <;> have := hbyte h <;> omega
  exact Char.ext (UInt32.toNat_inj.1 hval)

/-- Only a newline is encoded with the newline byte. -/
theorem eq_newline_of_mem_utf8EncodeChar {c : Char} (h : newlineByte ∈ String.utf8EncodeChar c) :
    c = '\n' :=
  eq_of_mem_utf8EncodeChar (d := '\n') (by decide) h

theorem newlineByte_not_mem_encode {text : String} (h : '\n' ∉ text.toList) :
    newlineByte ∉ encode text := by
  rw [encode_eq_flatMap, List.mem_flatMap]
  rintro ⟨c, hc, hmem⟩
  exact h (eq_newline_of_mem_utf8EncodeChar hmem ▸ hc)

/-! ## Logical lines -/

/-- A text of one line that no other is joined to. -/
structure IsLine (text : String) : Prop where
  newline : '\n' ∉ text.toList
  joined : joined? text.toList = none

theorem readLogical_of_pending_eq_nil {r : LineReader} (h : r.pending = []) :
    ∃ r', r'.pending = [] ∧ readLogical r = ⟨[], 0, r', none⟩ := by
  obtain ⟨hline, hpending⟩ := LineReader.readLine_of_pending_eq_nil h
  refine ⟨r.readLine.2, hpending, ?_⟩
  unfold readLogical readLogicalFrom
  rw [dif_pos hline]

/-- All of a source that is one line is read at once. -/
theorem readLogical_eq {text : String} (ht : IsLine text) (hne : text ≠ "") {r : LineReader}
    (hr : r.reader.Steady) (hp : r.pending = encode text) :
    ∃ r', r'.pending = [] ∧ readLogical r = ⟨text.toList, 1, r', none⟩ := by
  have hline : r.readLine.1 = encode text := by
    rw [LineReader.readLine_eq hr, hp, firstLine,
      cutLine?_eq_none (newlineByte_not_mem_encode ht.newline)]
  have hpending : r.readLine.2.pending = [] := by
    have h := r.readLine_pending
    rw [hline, hp] at h
    exact List.append_right_eq_self.1 h
  have hbytes : encode text ≠ [] := by
    intro h
    have htext := congrArg decode? h
    rw [decode?_encode] at htext
    exact hne (String.toList_eq_nil_iff.1 (Option.some.inj htext))
  refine ⟨r.readLine.2, hpending, ?_⟩
  unfold readLogical readLogicalFrom
  rw [dif_neg (by rw [hline]; exact hbytes)]
  simp only [hline, decode?_encode, ht.joined]
  rfl

end EventMachine.Source
