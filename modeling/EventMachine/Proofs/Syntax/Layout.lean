import EventMachine.Proofs.Lexer.Order
import EventMachine.Proofs.Lexer.Parted
import EventMachine.Proofs.Syntax.Continuation

/-!
# Layout

White space and whole lines of comments may be put in front of any token of a source without illegal
tokens: the tokens stay the same but for their places, and so does the tree
(`layout_changes_places_only`).

1. The words of a text depend on the logical line that they go on with through its characters only
   (`wordsFrom`). So what comes before the place can be taken as the beginning of the line after it
   (`wordsFrom_glue`).
2. The characters before the token in its line are parted from it (`exists_parted`), and stay so with
   white space behind them. A newline or a comment ends their line; then there is nothing before the
   token. By induction on what is put in (`Parted.textWords_layout`).
3. Tokens that are the same words have the same tree up to their places, which all differ
   (`exists_map_mapLocation`).
-/

namespace EventMachine

open Source

/-- White space and whole lines of comments. A comment does not end as a line does that is joined
with the next one. -/
inductive Layout : List Char → Prop
  | nil : Layout []
  | space {c : Char} {cs : List Char} (hc : Text.isWhiteSpace c = true) (h : Layout cs) :
      Layout (c :: cs)
  | comment {text cs : List Char} (hnewline : '\n' ∉ text) (hbackslash : ¬ ['\\'] <:+ text)
      (hreturn : ¬ ['\\', '\r'] <:+ text) (h : Layout cs) : Layout ('#' :: text ++ '\n' :: cs)

/-- The token of the source starts behind the text `u`: in a physical line of its logical line,
after the characters `ws` of it, with a character that is not taken out where lines are joined. -/
def Token.StartsAt (t : Token) (source u : List Char) : Prop :=
  ∃ l ∈ logicalLines source, t ∈ l.tokens ∧ ∃ joined line more ws c after,
    l.parts = joined ++ line :: more ∧ joinedText [line] = ws ++ c :: after ∧
    t.location.offset = byteLength (joinedText joined ++ ws) ∧
    u = (l.before ++ joined).flatten ++ ws

variable {c : Char} {cs ws start text u v w : List Char} {lines : List (List Char)} {t : Token}

/-! ## Words of a text -/

/-- The words of the logical lines that physical lines make up, where the first of them begins with
`start`. -/
def wordsFrom (start : List Char) : List (List Char) → List Token.Word
  | [] => lineWords start
  | line :: lines =>
    match joined? line with
    | some body => wordsFrom (start ++ body) lines
    | none => lineWords (start ++ line) ++ wordsFrom [] lines

/-- The words of a text whose first logical line begins with `start`. -/
def textWords (start cs : List Char) : List Token.Word := wordsFrom start (physicalLines cs)

theorem map_word_logicalLinesFrom (before parts lines : List (List Char)) :
    ((logicalLinesFrom before parts lines).flatMap LogicalLine.tokens).map Token.word =
      wordsFrom (joinedText parts) lines := by
  induction lines generalizing before parts with
  | nil =>
    unfold logicalLinesFrom wordsFrom
    split
    · next h =>
      rw [h, lineWords_nil]
      rfl
    · rw [List.flatMap_singleton]
      exact map_word_lineTokens _ _ _
  | cons line lines ih =>
    unfold logicalLinesFrom wordsFrom
    cases hj : joined? line with
    | some body =>
      have hrest := ih before (parts ++ [line])
      rwa [joinedText_append, joinedText_of_some hj] at hrest
    | none =>
      have hfirst : (LogicalLine.tokens ⟨before, parts ++ [line]⟩).map Token.word =
          lineWords (joinedText (parts ++ [line])) := map_word_lineTokens _ _ _
      rw [joinedText_append, joinedText_of_none hj] at hfirst
      have hrest := ih (before ++ (parts ++ [line])) []
      simp only [Option.isSome_none, Bool.false_eq_true, if_false]
      rw [List.flatMap_cons, List.map_append, hfirst, hrest]
      rfl

/-- Lines that are joined are put behind each other. -/
theorem wordsFrom_append {joined : List (List Char)} (h : ∀ p ∈ joined, (joined? p).isSome)
    (start : List Char) (lines : List (List Char)) :
    wordsFrom start (joined ++ lines) = wordsFrom (start ++ joinedText joined) lines := by
  induction joined generalizing start with
  | nil =>
    show _ = wordsFrom (start ++ []) lines
    rw [List.append_nil]
    rfl
  | cons p joined ih =>
    rw [List.forall_mem_cons] at h
    obtain ⟨body, hbody⟩ := Option.isSome_iff_exists.1 h.1
    rw [← List.singleton_append, joinedText_append, joinedText_of_some hbody, ← List.append_assoc,
      ← ih h.2, List.append_assoc, List.singleton_append, wordsFrom]
    simp only [hbody]

/-- What comes before the place may be put into the line already. -/
theorem wordsFrom_glue (h : joined? ws = none) (start : List Char) (lines : List (List Char)) :
    wordsFrom start (glue ws lines) = wordsFrom (start ++ ws) lines := by
  cases lines with
  | nil =>
    cases ws with
    | nil =>
      rw [List.append_nil]
      rfl
    | cons c ws =>
      show wordsFrom start [c :: ws] = lineWords _
      rw [wordsFrom]
      simp only [h, wordsFrom, lineWords_nil, List.append_nil]
  | cons line lines =>
    rw [glue, wordsFrom, wordsFrom, joined?_append h]
    cases joined? line with
    | none => simp only [Option.map_none, List.append_assoc]
    | some body => simp only [Option.map_some, List.append_assoc]

/-- The text of the first logical line that physical lines make up. -/
def firstText : List (List Char) → List Char
  | [] => []
  | line :: lines =>
    match joined? line with
    | some body => body ++ firstText lines
    | none => line

/-- The words of the first logical line come first. -/
theorem exists_wordsFrom_eq (lines : List (List Char)) :
    ∃ later, ∀ start, wordsFrom start lines = lineWords (start ++ firstText lines) ++ later := by
  induction lines with
  | nil => exact ⟨[], fun start => by rw [firstText, List.append_nil, List.append_nil, wordsFrom]⟩
  | cons line lines ih =>
    unfold wordsFrom firstText
    cases joined? line with
    | some body =>
      obtain ⟨later, hlater⟩ := ih
      exact ⟨later, fun start => by simp only [hlater, List.append_assoc]⟩
    | none => exact ⟨_, fun start => rfl⟩

theorem textWords_newline (start cs : List Char) :
    textWords start ('\n' :: cs) = lineWords (start ++ ['\n']) ++ textWords [] cs := by
  have hopen : joined? ['\n'] = none := by decide
  unfold textWords
  rw [physicalLines, if_pos rfl, wordsFrom]
  simp only [hopen]

theorem textWords_append (hnewline : '\n' ∉ ws) (h : joined? ws = none) (start cs : List Char) :
    textWords start (ws ++ cs) = textWords (start ++ ws) cs := by
  unfold textWords
  rw [physicalLines_append_of_not_mem hnewline, wordsFrom_glue h]

/-! ## What is put in -/

theorem joined?_comment (hbackslash : ¬ ['\\'] <:+ text) (hreturn : ¬ ['\\', '\r'] <:+ text)
    (hnewline : '\n' ∉ text) : joined? ('#' :: text) = none := by
  rw [Option.eq_none_iff_forall_ne_some]
  intro body hbody
  obtain ⟨e, he, heq⟩ := joined?_eq_some_iff.1 hbody
  cases body with
  | nil => cases (List.cons.inj heq).1
  | cons d body =>
    obtain ⟨-, rfl⟩ := List.cons.inj heq
    simp only [lineEnds, List.mem_cons, List.not_mem_nil, or_false] at he
    rcases he with rfl | rfl | rfl | rfl
    · exact hbackslash (List.suffix_append _ _)
    · exact hnewline (by simp)
    · exact hreturn (List.suffix_append _ _)
    · exact hnewline (by simp)

theorem joined?_space (hc : Text.isWhiteSpace c = true) : joined? [c] = none := by
  rw [Option.eq_none_iff_forall_ne_some]
  intro body hbody
  obtain ⟨e, -, heq⟩ := joined?_eq_some_iff.1 hbody
  have hmem : '\\' ∈ [c] := by
    rw [heq]
    simp
  rw [← List.mem_singleton.1 hmem] at hc
  exact absurd hc (by decide)

/-- Where the text before a token is parted from it, the words stay the same with layout in front of
the token; by induction on the layout, which adds to the text before the token or ends its line. -/
theorem Parted.textWords_layout (hw : Layout w)
    (h : Parted start (firstText (physicalLines v))) :
    textWords start (w ++ v) = textWords start v := by
  obtain ⟨later, hlater⟩ := exists_wordsFrom_eq (physicalLines v)
  have hwords {start : List Char} (h : Parted start (firstText (physicalLines v))) :
      textWords start v = lineWords start ++ textWords [] v := by
    unfold textWords
    rw [hlater, hlater, h.lineWords_append, List.append_assoc, List.nil_append]
  induction hw generalizing start with
  | nil => rfl
  | @space c w hc _ ih =>
    have hspace : lineWords (start ++ [c]) = lineWords start := by
      rw [(h.of_delimits (delimits_space hc [])).lineWords_append, lineWords_space hc, lineWords_nil,
        List.append_nil]
    rw [hwords h, List.cons_append]
    by_cases hnewline : c = '\n'
    · subst hnewline
      rw [textWords_newline, hspace, ih .nil]
    · rw [← List.singleton_append,
        textWords_append (by simpa using Ne.symm hnewline) (joined?_space hc),
        ih (h.append_space hc), hwords (h.append_space hc), hspace]
  | @comment text w hnewline hbackslash hreturn _ ih =>
    have hline : '\n' ∉ '#' :: text := by simpa using hnewline
    have hdelimits : Delimits ('#' :: text ++ ['\n']) := delimits_comment _
    have hcomment : lineWords (start ++ '#' :: text ++ ['\n']) = lineWords start := by
      rw [List.append_assoc, (h.of_delimits hdelimits).lineWords_append,
        lineWords_comment hnewline (by simp), lineWords_space (by decide), lineWords_nil,
        List.append_nil]
    rw [hwords h, List.append_assoc,
      textWords_append hline (joined?_comment hbackslash hreturn hnewline), List.cons_append,
      textWords_newline, hcomment, ih .nil]

/-! ## The place -/

/-- A token begins with no newline. -/
theorem Covers.head_ne_newline {offset : Nat} {rest : List Char} {p : Piece} {pieces : List Piece}
    {kind : TokenKind} (h : Covers offset rest (p :: pieces)) (hkind : p.kind = some kind)
    (hlegal : kind ≠ .illegal) : ∃ c ∈ rest.head?, c ≠ '\n' := by
  cases h with
  | space | comment => cases hkind
  | token hm =>
    obtain ⟨text, after, rfl, -, htext⟩ := firstMatch?_eq_some_iff.1 hm
    obtain ⟨c, text, rfl⟩ := List.exists_cons_of_ne_nil htext.ne_nil
    refine ⟨c, rfl, ?_⟩
    rintro rfl
    rcases htext.text_cases with ⟨body, heq, -⟩ | ⟨-, hmarks⟩
    · cases (List.cons.inj heq).1
    · exact absurd (hmarks '\n' List.mem_cons_self) (by decide)
  | illegal => exact (hlegal (Option.some.inj hkind).symm).elim

theorem eq_of_byteLength_eq {us us' vs vs' : List Char} (h : us ++ vs = us' ++ vs')
    (hlength : byteLength us = byteLength us') : us = us' := by
  have hnil {us more : List Char} (h : byteLength us = byteLength (us ++ more)) : more = [] := by
    rw [byteLength_append] at h
    by_contra hmore
    have := byteLength_pos hmore
    omega
  rcases List.append_eq_append_iff.1 h with ⟨more, rfl, -⟩ | ⟨more, rfl, -⟩
  · rw [hnil hlength, List.append_nil]
  · rw [hnil hlength.symm, List.append_nil]

/-- A token of a logical line is one of the pieces that divide it, and starts behind those before
it. -/
theorem Source.LogicalLine.exists_covers {l : LogicalLine} (ht : t ∈ l.tokens) :
    ∃ earlier p later, Covers 0 l.text (earlier ++ p :: later) ∧
      l.tokens = (earlier ++ p :: later).filterMap (Piece.token? l.number) ∧
      p.token? l.number = some t ∧
      t.location.offset = byteLength (earlier.flatMap Piece.text) := by
  obtain ⟨pieces, hcovers, htokens⟩ := EventMachine.exists_covers 0 l.text
  have hpieces : l.tokens = pieces.filterMap (Piece.token? l.number) := htokens l.number
  obtain ⟨p, hp, hpt⟩ := List.mem_filterMap.1 (hpieces ▸ ht)
  obtain ⟨earlier, later, rfl⟩ := List.append_of_mem hp
  refine ⟨earlier, p, later, hcovers, hpieces, hpt, ?_⟩
  obtain ⟨kind, -, rfl⟩ := Option.map_eq_some_iff.1 hpt
  exact hcovers.append.head.1.trans (Nat.zero_add _)

/-- In a logical line without illegal tokens, what comes before a token is parted from it. -/
theorem Source.LogicalLine.parted {l : LogicalLine} {before after : List Char}
    (hlegal : ∀ s ∈ l.tokens, s.kind ≠ .illegal) (ht : t ∈ l.tokens)
    (htext : l.text = before ++ after) (hoffset : t.location.offset = byteLength before)
    (hnewline : '\n' ∉ before) : Parted before after := by
  obtain ⟨earlier, p, later, hcovers, htokens, hpt, hplace⟩ := l.exists_covers ht
  have hpieces : ∀ q ∈ earlier ++ p :: later, q.kind ≠ some .illegal := by
    intro q hq hillegal
    refine hlegal ⟨.illegal, String.ofList q.text, ⟨l.number, q.offset, byteLength q.text⟩⟩ ?_ rfl
    rw [htokens]
    refine List.mem_filterMap.2 ⟨q, hq, ?_⟩
    unfold Piece.token?
    rw [hillegal]
    rfl
  have hsplit : earlier.flatMap Piece.text ++ (p :: later).flatMap Piece.text =
      before ++ after := by
    rw [← List.flatMap_append, hcovers.flatMap_text, htext]
  have hbefore : earlier.flatMap Piece.text = before :=
    eq_of_byteLength_eq hsplit (hplace.symm.trans hoffset)
  have hafter : (p :: later).flatMap Piece.text = after := by
    rw [hbefore] at hsplit
    exact List.append_cancel_left hsplit
  rw [← hbefore] at hnewline
  rw [← hbefore, ← hafter]
  obtain ⟨kind, hkind, -⟩ := Option.map_eq_some_iff.1 hpt
  refine hcovers.parted hpieces hnewline (hcovers.append.head_ne_newline hkind ?_)
  rintro rfl
  exact hpieces p (List.mem_append_right _ List.mem_cons_self) hkind

section Lines

variable {l : LogicalLine} {joined more : List (List Char)} {line after : List Char}

/-- The physical lines of a logical line but the last are joined, and stand in the text one after
the other. -/
theorem exists_physicalLines_eq (hl : l ∈ logicalLines cs) (hparts : l.parts = joined ++ line :: more) :
    (∀ p ∈ joined, (joined? p).isSome) ∧
      ∃ later, physicalLines cs = l.before ++ joined ++ line :: later := by
  obtain ⟨all, last, later, hall, hlines, hjoined, -⟩ := within_of_mem (List.forall_mem_nil _) hl
  refine ⟨fun p hp => hjoined p ?_, more ++ later, ?_⟩
  · have hsame : all ++ [last] = joined ++ line :: more := hall.symm.trans hparts
    have hlength := congrArg List.length hsame
    simp only [List.length_append, List.length_cons, List.length_nil] at hlength
    have hprefix : joined <+: all :=
      List.prefix_of_prefix_length_le ⟨_, hsame.symm⟩ (List.prefix_append _ _) (by omega)
    exact hprefix.subset hp
  · rw [List.nil_append, List.nil_append] at hlines
    rw [← hlines, hparts]
    simp

theorem newline_not_mem_of_append (h : '\n' ∉ line.dropLast) (hline : line = ws ++ c :: after) :
    '\n' ∉ ws := by
  rw [hline, List.dropLast_append_cons, List.mem_append, not_or] at h
  exact h.1

/-- What is joined has no newline. -/
theorem newline_not_mem_joinedText (hjoined : ∀ p ∈ joined, (joined? p).isSome)
    (h : ∀ p ∈ joined, '\n' ∉ p.dropLast) : '\n' ∉ joinedText joined := by
  unfold joinedText
  rw [List.mem_flatMap]
  rintro ⟨p, hp, hmem⟩
  obtain ⟨body, hbody⟩ := Option.isSome_iff_exists.1 (hjoined p hp)
  obtain ⟨e, -, heq⟩ := joined?_eq_some_iff.1 hbody
  rw [hbody] at hmem
  exact newline_not_mem_of_append (h p hp) heq hmem

/-- A physical line begins with what of it is in its logical line. -/
theorem joinedText_prefix (line : List Char) : joinedText [line] <+: line := by
  cases hj : joined? line with
  | some body =>
    obtain ⟨e, -, heq⟩ := joined?_eq_some_iff.1 hj
    rw [joinedText_of_some hj, heq]
    exact List.prefix_append _ _
  | none => exact ⟨[], by rw [joinedText_of_none hj, List.append_nil]⟩

theorem head?_firstText {later : List (List Char)} (h : joinedText [line] = c :: after) :
    (firstText (line :: later)).head? = some c := by
  unfold firstText
  cases hj : joined? line with
  | some body =>
    rw [joinedText_of_some hj] at h
    rw [h]
    rfl
  | none =>
    rw [joinedText_of_none hj] at h
    rw [h]
    rfl

/-- Characters before the first line of a text are a part of the line that they go into. -/
theorem exists_cons_of_glue {later : List (List Char)} (h : glue ws lines = line :: later)
    (hne : line ≠ ws) : ∃ first, lines = first :: later ∧ ws ++ first = line := by
  cases lines with
  | nil =>
    change (if ws = [] then [] else [ws]) = line :: later at h
    split at h
    · cases h
    · exact (hne (List.cons.inj h).1.symm).elim
  | cons first lines =>
    obtain ⟨hline, rfl⟩ := List.cons.inj h
    exact ⟨first, rfl, hline⟩

end Lines

/-- Where a token starts in a source without illegal tokens, its line is parted. What follows the
place adds to the words before this line what it does to the part of the line before the place. -/
theorem exists_parted (hlegal : ∀ l ∈ logicalLines (u ++ v), ∀ s ∈ l.tokens, s.kind ≠ .illegal)
    (h : t.StartsAt (u ++ v) u) :
    ∃ words start, Parted start (firstText (physicalLines v)) ∧
      ∀ cs, ((logicalLines (u ++ cs)).flatMap LogicalLine.tokens).map Token.word =
        words ++ textWords start cs := by
  obtain ⟨l, hl, ht, joined, line, more, ws, c, after, hparts, hline, hoffset, hu⟩ := h
  obtain ⟨hjoined, later, hlines⟩ := exists_physicalLines_eq hl hparts
  have hended := ended_of_physicalLines hlines
  have hdropLast : ∀ p ∈ l.before ++ joined ++ line :: later, '\n' ∉ p.dropLast :=
    fun p hp => newline_not_mem_dropLast (hlines ▸ hp)
  obtain ⟨taken, htaken⟩ := joinedText_prefix line
  rw [hline, List.append_assoc] at htaken
  have hws : '\n' ∉ ws := newline_not_mem_of_append (hdropLast line (by simp)) htaken.symm
  have hnewline : '\n' ∉ joinedText joined ++ ws := by
    rw [List.mem_append, not_or]
    exact ⟨newline_not_mem_joinedText hjoined fun p hp => hdropLast p (by simp [hp]), hws⟩
  have htext : l.text = joinedText joined ++ ws ++ (c :: after ++ joinedText more) := by
    unfold LogicalLine.text
    rw [hparts, ← List.singleton_append, joinedText_append, joinedText_append, hline]
    simp
  have hparted := l.parted (hlegal l hl) ht htext hoffset hnewline
  have hopen : joined? ws = none := hparted.joined?_eq_none
  have hphysical (cs : List Char) :
      physicalLines (u ++ cs) = l.before ++ (joined ++ glue ws (physicalLines cs)) := by
    rw [hu, List.append_assoc, physicalLines_flatten_append hended,
      physicalLines_append_of_not_mem hws, List.append_assoc]
  have hglue : glue ws (physicalLines v) = line :: later := by
    rw [hphysical, ← List.append_assoc] at hlines
    exact List.append_cancel_left hlines
  have hne : line ≠ ws := by
    rw [← htaken]
    simp
  obtain ⟨first, hfirst, rfl⟩ := exists_cons_of_glue hglue hne
  rw [joinedText_singleton_append hopen] at hline
  obtain ⟨logical, hlogical⟩ := exists_logicalLinesFrom_before hl
  refine ⟨(logical.flatMap LogicalLine.tokens).map Token.word, joinedText joined ++ ws,
    hparted.of_head?_eq ?_, fun cs => ?_⟩
  · rw [hfirst, head?_firstText (List.append_cancel_left hline)]
    rfl
  · unfold logicalLines textWords
    rw [hphysical, hlogical, List.flatMap_append, List.map_append, map_word_logicalLinesFrom,
      wordsFrom_append hjoined, wordsFrom_glue hopen]
    rfl

/-- Each character of a logical line is one of a physical line. -/
theorem exists_of_joinedText_eq {parts : List (List Char)} {before after : List Char}
    (h : joinedText parts = before ++ c :: after) :
    ∃ joined line more ws after', parts = joined ++ line :: more ∧
      joinedText [line] = ws ++ c :: after' ∧ before = joinedText joined ++ ws := by
  induction parts generalizing before with
  | nil => cases (List.append_eq_nil_iff.1 h.symm).2
  | cons line parts ih =>
    have hlater {before : List Char} (h : joinedText parts = before ++ c :: after) :
        ∃ joined line' more ws after', line :: parts = joined ++ line' :: more ∧
          joinedText [line'] = ws ++ c :: after' ∧
          joinedText [line] ++ before = joinedText joined ++ ws := by
      obtain ⟨joined, line', more, ws, after', rfl, hline, rfl⟩ := ih h
      refine ⟨line :: joined, line', more, ws, after', rfl, hline, ?_⟩
      rw [← List.append_assoc, ← joinedText_append]
      rfl
    rw [← List.singleton_append, joinedText_append] at h
    rcases List.append_eq_append_iff.1 h with ⟨before', rfl, hparts⟩ | ⟨rest, hline, hrest⟩
    · exact hlater hparts
    · cases rest with
      | nil =>
        rw [List.append_nil] at hline
        have hempty : joinedText parts = [] ++ c :: after := hrest.symm
        have hparts := hlater hempty
        rwa [List.append_nil, hline] at hparts
      | cons d rest =>
        obtain ⟨rfl, -⟩ := List.cons.inj hrest
        exact ⟨[], line, parts, before, rest, rfl, hline, rfl⟩

/-- Every token starts somewhere, with the first character of its text behind the place. -/
theorem exists_startsAt (h : ∃ l ∈ logicalLines cs, t ∈ l.tokens) :
    ∃ u v, cs = u ++ v ∧ t.StartsAt cs u ∧ v.head? = t.text.toList.head? := by
  obtain ⟨l, hl, ht⟩ := h
  obtain ⟨earlier, p, later, hcovers, -, hpt, hoffset⟩ := l.exists_covers ht
  obtain ⟨-, hne, -⟩ := hcovers.append.head
  obtain ⟨c, text, hpiece⟩ := List.exists_cons_of_ne_nil hne
  have htext : l.text = earlier.flatMap Piece.text ++
      c :: (text ++ later.flatMap Piece.text) := by
    rw [← hcovers.flatMap_text, List.flatMap_append, List.flatMap_cons, hpiece]
    rfl
  obtain ⟨joined, line, more, ws, after', hparts, hline, hplace⟩ := exists_of_joinedText_eq htext
  rw [hplace] at hoffset
  obtain ⟨-, lines, hlines⟩ := exists_physicalLines_eq hl hparts
  obtain ⟨taken, htaken⟩ := joinedText_prefix line
  refine ⟨(l.before ++ joined).flatten ++ ws, c :: (after' ++ taken ++ lines.flatten), ?_,
    ⟨l, hl, ht, joined, line, more, ws, c, after', hparts, hline, hoffset, rfl⟩, ?_⟩
  · rw [← flatten_physicalLines cs, hlines, ← htaken, hline]
    simp
  · obtain ⟨kind, -, rfl⟩ := Option.map_eq_some_iff.1 hpt
    show some c = (String.ofList p.text).toList.head?
    rw [String.toList_ofList, hpiece]
    rfl

/-! ## Sources -/

/-- Tokens in different places can be put into those of other tokens that are the same words. -/
theorem exists_map_mapLocation {ts ts' : List Token}
    (hwords : ts'.map Token.word = ts.map Token.word)
    (hne : ts.Pairwise fun s t => s.location ≠ t.location) :
    ∃ g, ts' = ts.map (Token.mapLocation g) := by
  induction ts generalizing ts' with
  | nil => exact ⟨id, List.map_eq_nil_iff.1 hwords⟩
  | cons t ts ih =>
    obtain ⟨t', ts', rfl, ht, hts⟩ := List.map_eq_cons_iff.1 hwords
    obtain ⟨hfirst, hne⟩ := List.pairwise_cons.1 hne
    obtain ⟨g, rfl⟩ := ih hts hne
    refine ⟨fun l => if l = t.location then t'.location else g l, List.cons_eq_cons.2 ⟨?_, ?_⟩⟩
    · obtain ⟨hkind, htext⟩ := Token.Word.mk.inj ht
      simp only [Token.mapLocation, if_true, ← hkind, ← htext]
    · refine List.map_congr_left fun s hs => ?_
      simp only [Token.mapLocation, if_neg (hfirst s hs).symm]

theorem pairwise_location_ne (source : String) :
    (tokensOf source).Pairwise fun s t => s.location ≠ t.location := by
  have horder := Lexer.pairwise_startsBefore_run (.ofBytes (encode source))
  have htokens : (Lexer.ofReader (.ofBytes (encode source))).run.1 = tokensOf source :=
    (Lexer.run_ofText_eq source).1
  rw [List.pairwise_append, htokens] at horder
  exact horder.1.imp Token.StartsBefore.location_ne

/-- Sources with the same words have the same tree, up to its places. -/
theorem exists_toOption_parseText {source source' : String}
    (h : (tokensOf source').map Token.word = (tokensOf source).map Token.word) :
    ∃ g, tokensOf source' = (tokensOf source).map (Token.mapLocation g) ∧
      ∀ filename, (Syntax.parseText filename source').toOption =
        (Syntax.parseText filename source).toOption.map (Syntax.File.mapLocation g) := by
  obtain ⟨g, hg⟩ := exists_map_mapLocation h (pairwise_location_ne source)
  obtain ⟨g', hg'⟩ := exists_map_mapLocation h.symm (pairwise_location_ne source')
  exact ⟨g, hg, fun filename => Syntax.toOption_parseText_of_map filename hg hg'⟩

/-- White space and whole lines of comments may be put in front of any token of a source without
illegal tokens. The tokens are the same as before in other places, the end included; and so is the
tree, or there is none either. -/
theorem layout_changes_places_only {u v w : String} {t : Token}
    (hlegal : ∀ s ∈ (Lexer.ofText (u ++ v)).run.1, s.kind ≠ .illegal)
    (ht : t.StartsAt (u ++ v).toList u.toList) (hw : Layout w.toList) :
    (Lexer.ofText (u ++ w ++ v)).run.1.map Token.word =
      (Lexer.ofText (u ++ v)).run.1.map Token.word ∧
    (Lexer.ofText (u ++ w ++ v)).run.2.token.word = (Lexer.ofText (u ++ v)).run.2.token.word ∧
    ∃ g, (Lexer.ofText (u ++ w ++ v)).run.1 =
        (Lexer.ofText (u ++ v)).run.1.map (Token.mapLocation g) ∧
      ∀ filename, (Syntax.parseText filename (u ++ w ++ v)).toOption =
        (Syntax.parseText filename (u ++ v)).toOption.map (Syntax.File.mapLocation g) := by
  obtain ⟨htokens, hends⟩ := Lexer.run_ofText_eq (u ++ v)
  obtain ⟨htokens', hends'⟩ := Lexer.run_ofText_eq (u ++ w ++ v)
  have hplain : (u ++ v).toList = u.toList ++ v.toList := String.toList_append
  have hfilled : (u ++ w ++ v).toList = u.toList ++ (w.toList ++ v.toList) := by
    rw [String.toList_append, String.toList_append, List.append_assoc]
  rw [htokens] at hlegal
  rw [hplain] at ht
  have hlines : ∀ l ∈ logicalLines (u.toList ++ v.toList), ∀ s ∈ l.tokens, s.kind ≠ .illegal := by
    intro l hl s hs
    refine hlegal s (List.mem_flatMap.2 ⟨l, ?_, hs⟩)
    rwa [hplain]
  obtain ⟨words, start, hparted, hwords⟩ := exists_parted hlines ht
  have hsame : (tokensOf (u ++ w ++ v)).map Token.word = (tokensOf (u ++ v)).map Token.word := by
    unfold tokensOf
    rw [hplain, hfilled, hwords, hwords, hparted.textWords_layout hw]
  rw [htokens, htokens', hends.token, hends'.token]
  exact ⟨hsame, rfl, exists_toOption_parseText hsame⟩

namespace Turnstile

/-- A constant in two lines that are joined, up to its value. -/
def beforeOne : String := "coins \\\n= "

/-- The value. -/
def oneToken : Token := ⟨.int, "1", ⟨1, 8, 1⟩⟩

/-- A comment in front of the value takes the rest of its line, and the value stays. -/
theorem lexes_commented_alike :
    (∀ s ∈ (Lexer.ofText (beforeOne ++ "1;")).run.1, s.kind ≠ .illegal) ∧
    oneToken.StartsAt (beforeOne ++ "1;").toList beforeOne.toList ∧
    Layout "\t# to do\n".toList ∧
    (Lexer.ofText (beforeOne ++ "\t# to do\n" ++ "1;")).run.1.map Token.word =
      [⟨.identifier, "coins"⟩, ⟨.punct, "="⟩, ⟨.int, "1"⟩, ⟨.punct, ";"⟩] := by
  have htokens : (Lexer.ofText (beforeOne ++ "1;")).run.1 =
      [⟨.identifier, "coins", ⟨1, 0, 5⟩⟩, ⟨.punct, "=", ⟨1, 6, 1⟩⟩, oneToken,
        ⟨.punct, ";", ⟨1, 9, 1⟩⟩] := by
    rw [(Lexer.run_ofText_eq _).1]
    decide +kernel
  have hlegal : ∀ s ∈ (Lexer.ofText (beforeOne ++ "1;")).run.1, s.kind ≠ .illegal := by
    rw [htokens]
    decide
  have hlines : logicalLines (beforeOne ++ "1;").toList =
      [⟨[], ["coins \\\n".toList, "= 1;".toList]⟩] := by
    rfl
  have hstarts : oneToken.StartsAt (beforeOne ++ "1;").toList beforeOne.toList := by
    refine ⟨_, hlines ▸ List.mem_singleton_self _, ?_, ["coins \\\n".toList], "= 1;".toList, [],
      "= ".toList, '1', [';'], rfl, ?_, ?_, ?_⟩
    · decide +kernel
    · decide +kernel
    · decide +kernel
    · decide +kernel
  have hlayout : Layout "\t# to do\n".toList := by
    rw [show "\t# to do\n".toList = '\t' :: ('#' :: " to do".toList ++ ['\n']) by decide +kernel]
    exact .space (by decide) (.comment (by decide) (by decide) (by decide) .nil)
  obtain ⟨hwords, -⟩ := layout_changes_places_only hlegal hstarts hlayout
  refine ⟨hlegal, hstarts, hlayout, ?_⟩
  rw [hwords, htokens]
  rfl

end Turnstile

end EventMachine
