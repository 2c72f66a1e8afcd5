import EventMachine.Proofs.Syntax.Value

/-!
# Escaping and unescaping

A text may be cut in two before its escapes are replaced, wherever the cut goes through no escape,
and nowhere else. However the characters of a text are written, some raw and some as escapes,
unescaping gives them back (`unescape_undoes_escaping`).

1. A text ends in the middle of an escape if its last backslash is the only thing left over
   (`endsInEscape_iff`). Cutting behind any other text changes nothing (`unescapeChars_append`).
2. `Encodes` puts a text together from the pieces that its characters are written as. No piece ends
   in the middle of an escape, so the first point takes the text apart into them.
3. An escape takes two bytes and stands for one.
-/

namespace EventMachine.Syntax

variable {c d : Char} {cs ds written text : List Char}

/-! ## Cutting a text -/

theorem unescapeChars_escaped (cs : List Char) :
    unescapeChars ('\\' :: c :: cs) = ((escape? c).elim ['\\', c] ([·])) ++ unescapeChars cs := by
  rw [unescapeChars.eq_3]
  cases escape? c <;> rfl

/-- The escapes of two texts that are put together are those of the first and of the second. -/
theorem unescapeChars_append (h : endsInEscape cs = false) (ds : List Char) :
    unescapeChars (cs ++ ds) = unescapeChars cs ++ unescapeChars ds := by
  fun_induction endsInEscape cs with
  | case1 => rfl
  | case2 => cases h
  | case3 c cs ih =>
    rw [List.cons_append, List.cons_append, unescapeChars_escaped, unescapeChars_escaped, ih h,
      List.append_assoc]
  | case4 c cs hlast hescape ih =>
    have hc := ne_backslash hlast hescape
    rw [List.cons_append, unescapeChars_cons hc, unescapeChars_cons hc, ih h, List.cons_append]

/-- Only a backslash at the very end can be left over. -/
theorem endsInEscape_iff :
    endsInEscape cs = true ↔ ∃ before, cs = before ++ ['\\'] ∧ endsInEscape before = false := by
  constructor
  · intro h
    fun_induction endsInEscape cs with
    | case1 => cases h
    | case2 => exact ⟨[], rfl, rfl⟩
    | case3 c cs ih =>
      obtain ⟨before, rfl, hbefore⟩ := ih h
      exact ⟨'\\' :: c :: before, rfl, hbefore⟩
    | case4 c cs hlast hescape ih =>
      obtain ⟨before, rfl, hbefore⟩ := ih h
      refine ⟨c :: before, rfl, ?_⟩
      rwa [endsInEscape_cons (ne_backslash hlast hescape)]
  · rintro ⟨before, rfl, hbefore⟩
    fun_induction endsInEscape before with
    | case1 => rfl
    | case2 => cases hbefore
    | case3 c cs ih => exact ih hbefore
    | case4 c cs hlast hescape ih =>
      rw [List.cons_append, endsInEscape_cons (ne_backslash hlast hescape), ih hbefore]

/-- An escape that is cut in two is read as two texts without it. -/
theorem unescapeChars_append_ne (h : endsInEscape cs = true) :
    unescapeChars (cs ++ ['n']) ≠ unescapeChars cs ++ unescapeChars ['n'] := by
  obtain ⟨before, rfl, hbefore⟩ := endsInEscape_iff.1 h
  rw [List.append_assoc, unescapeChars_append hbefore, unescapeChars_append hbefore,
    List.append_assoc]
  intro heq
  have hpieces := List.append_cancel_left heq
  revert hpieces
  decide

/-! ## Written texts -/

/-- The characters are a way to write the one character: as it is, unless it is a backslash, a quote
or a newline, or as an escape that stands for it. -/
inductive EncodesChar : List Char → Char → Prop
  | raw {c : Char} (hb : c ≠ '\\') (hq : c ≠ '"') (hn : c ≠ '\n') : EncodesChar [c] c
  | escape {c e : Char} (h : escape? e = some c) : EncodesChar ['\\', e] c

/-- The characters are a way to write the text, each of its characters in any of its ways. -/
inductive Encodes : List Char → List Char → Prop
  | nil : Encodes [] []
  | cons {piece written text : List Char} {c : Char} (first : EncodesChar piece c)
      (rest : Encodes written text) : Encodes (piece ++ written) (c :: text)

theorem EncodesChar.unescapeChars_eq {piece : List Char} (h : EncodesChar piece c) :
    endsInEscape piece = false ∧ unescapeChars piece = [c] := by
  cases h with
  | raw hb =>
    rw [endsInEscape_cons hb, unescapeChars_cons hb]
    exact ⟨rfl, rfl⟩
  | escape h =>
    rw [unescapeChars_escaped, h]
    exact ⟨rfl, rfl⟩

theorem Encodes.unescapeChars_eq (h : Encodes written text) : unescapeChars written = text := by
  induction h with
  | nil => rfl
  | cons first _ ih =>
    obtain ⟨hends, hpiece⟩ := first.unescapeChars_eq
    rw [unescapeChars_append hends, hpiece, ih, List.singleton_append]

/-- Every text can be written. -/
theorem encodes_escaped (cs : List Char) : Encodes (cs.flatMap escapeChar) cs := by
  induction cs with
  | nil => exact .nil
  | cons c cs ih =>
    refine .cons ?_ ih
    rcases escapeChar_cases c with ⟨d, heq, -, he⟩ | ⟨heq, hb, hq, hn⟩
    · exact heq ▸ .escape he
    · exact heq ▸ .raw hb hq hn

/-! ## Texts without escapes, and lengths -/

theorem unescapeChars_of_not_mem (h : '\\' ∉ cs) : unescapeChars cs = cs := by
  induction cs with
  | nil => rfl
  | cons c cs ih =>
    rw [List.mem_cons, not_or] at h
    rw [unescapeChars_cons (Ne.symm h.1), ih h.2]

/-- An escape stands for a character of one byte. -/
theorem utf8Size_of_escape? (h : escape? c = some d) : d.utf8Size = 1 := by
  unfold escape? at h
  split at h <;> cases h <;> rfl

theorem byteLength_cons (c : Char) (cs : List Char) :
    byteLength (c :: cs) = c.utf8Size + byteLength cs :=
  List.sum_cons

theorem byteLength_unescapeChars_le (cs : List Char) :
    byteLength (unescapeChars cs) ≤ byteLength cs := by
  fun_induction unescapeChars cs with
  | case1 | case2 => exact Nat.le_refl _
  | case3 c cs e he ih =>
    have hc := c.utf8Size_pos
    rw [byteLength_cons, byteLength_cons, byteLength_cons, utf8Size_of_escape? he]
    omega
  | case4 c cs _ ih =>
    simp only [byteLength_cons]
    omega
  | case5 c cs _ _ ih =>
    simp only [byteLength_cons]
    omega

/-- The escapes of two texts that are put together are those of the one and those of the other
exactly if the first does not end in the middle of an escape. Whichever of its characters are
written raw and which as escapes, a text is read as it was, and every text can be written. A text
without backslashes stays as it is, and none gets longer. -/
theorem unescape_undoes_escaping :
    (∀ a : String, endsInEscape a.toList = false ↔
      ∀ b, unescape (a ++ b) = unescape a ++ unescape b) ∧
    (∀ written text : String, Encodes written.toList text.toList → unescape written = text) ∧
    (∀ text : String, ∃ written : String, Encodes written.toList text.toList) ∧
    (∀ text : String, '\\' ∉ text.toList → unescape text = text) ∧
    ∀ text : String, (Source.encode (unescape text)).length ≤ (Source.encode text).length := by
  have happend (a b : String) : unescape (a ++ b) = unescape a ++ unescape b ↔
      unescapeChars (a.toList ++ b.toList) =
        unescapeChars a.toList ++ unescapeChars b.toList := by
    unfold unescape
    rw [String.toList_append, ← String.ofList_append, String.ofList_inj]
  refine ⟨fun a => ⟨fun h b => ?_, fun h => ?_⟩, fun written text h => ?_, fun text => ?_,
    fun text h => ?_, fun text => ?_⟩
  · exact (happend a b).2 (unescapeChars_append h b.toList)
  · rw [← Bool.not_eq_true]
    exact fun hends => unescapeChars_append_ne hends ((happend a "n").1 (h "n"))
  · unfold unescape
    rw [h.unescapeChars_eq, String.ofList_toList]
  · refine ⟨String.ofList (text.toList.flatMap escapeChar), ?_⟩
    rw [String.toList_ofList]
    exact encodes_escaped text.toList
  · unfold unescape
    rw [unescapeChars_of_not_mem h, String.ofList_toList]
  · unfold unescape
    rw [Source.encode_eq_bytesOf, Source.encode_eq_bytesOf, String.toList_ofList, ← byteLength_eq,
      ← byteLength_eq]
    exact byteLength_unescapeChars_le text.toList

example : unescape "\\" ++ unescape "n" = "\\n" ∧ unescape ("\\" ++ "n") = "\n" := by decide

namespace Turnstile

/-- A tab, a quote and a backslash. -/
def sign : String := "\t\"\\"

/-- The sign with the tab as it is. -/
def rawSign : String := "\t\\\"\\\\"

/-- The sign with the tab as an escape. -/
def escapedSign : String := "\\t\\\"\\\\"

/-- Both ways to write the sign are read as it, alone and before a text that begins like the name of
an escape. -/
theorem reads_both_signs :
    Encodes rawSign.toList sign.toList ∧ Encodes escapedSign.toList sign.toList ∧
    unescape rawSign = sign ∧ unescape escapedSign = sign ∧
    unescape (rawSign ++ "n") = sign ++ "n" ∧ unescape "n" = "n" := by
  obtain ⟨happend, hundo, -, hplain, -⟩ := unescape_undoes_escaping
  have hquote : EncodesChar ['\\', '"'] '"' := .escape rfl
  have hbackslash : EncodesChar ['\\', '\\'] '\\' := .escape rfl
  have hraw : Encodes rawSign.toList sign.toList :=
    .cons (.raw (c := '\t') (by decide) (by decide) (by decide))
      (.cons hquote (.cons hbackslash .nil))
  have hescaped : Encodes escapedSign.toList sign.toList :=
    .cons (.escape (e := 't') rfl) (.cons hquote (.cons hbackslash .nil))
  have hn : unescape "n" = "n" := hplain "n" (by decide)
  refine ⟨hraw, hescaped, hundo _ _ hraw, hundo _ _ hescaped, ?_, hn⟩
  rw [(happend rawSign).1 (by decide) "n", hundo _ _ hraw, hn]

end Turnstile

end EventMachine.Syntax
