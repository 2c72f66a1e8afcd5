import EventMachine.Proofs.Syntax.Pattern

/-!
# Viable tokens

Tokens are viable for a pattern if more tokens can complete them to those of a derivation. What is
viable for patterns put together is told from their parts: from the one and then the other
(`viable_both_cases`), and from the first token where there is a choice.
-/

namespace EventMachine.Syntax

namespace Pattern

/-- The tokens begin those of a derivation. -/
def Viable (g : Pattern) (xs : List Token) : Prop := ∃ d, xs <+: g.tokens d

/-- There is a token that a terminal asks for. -/
theorem exists_matches (s : Terminal) : ∃ t, s.Matches t := by
  cases s with
  | mark text => exact ⟨⟨.punct, text, ⟨1, 0, 0⟩⟩, .inl rfl, rfl⟩
  | word text => exact ⟨⟨.keyword, text, ⟨1, 0, 0⟩⟩, rfl, rfl⟩
  | kind k => exact ⟨⟨k, "", ⟨1, 0, 0⟩⟩, rfl⟩
  | int => exact ⟨⟨.int, "0", ⟨1, 0, 0⟩⟩, rfl, 0, rfl, by decide, by decide⟩
  | float => exact ⟨⟨.float, "0.0", ⟨1, 0, 0⟩⟩, rfl, rfl⟩

/-- Every pattern has a derivation. -/
theorem nonempty_tree (g : Pattern) : Nonempty g.Tree := by
  induction g with
  | terminal s =>
    obtain ⟨t, ht⟩ := exists_matches s
    exact ⟨⟨t, ht⟩⟩
  | both p q ihp ihq =>
    obtain ⟨d⟩ := ihp
    obtain ⟨d'⟩ := ihq
    exact ⟨(d, d')⟩
  | either p q ihp _ =>
    obtain ⟨d⟩ := ihp
    exact ⟨.inl d⟩
  | maybe p _ => exact ⟨none⟩
  | many p _ => exact ⟨[]⟩

section Viable

variable {g h : Pattern} {xs ys : List Token} {t : Token}

theorem viable_nil (g : Pattern) : g.Viable [] := by
  obtain ⟨d⟩ := g.nonempty_tree
  exact ⟨d, List.nil_prefix⟩

theorem viable_tokens (d : g.Tree) : g.Viable (g.tokens d) := ⟨d, List.prefix_refl _⟩

theorem Viable.begins (hv : g.Viable (t :: xs)) : Begins g.first (t :: xs) := by
  obtain ⟨d, rest, hd⟩ := hv
  rcases g.nullable_or_begins d with ⟨-, hnil⟩ | hb
  · rw [hnil] at hd
    cases hd
  · rw [← hd] at hb
    exact hb

theorem Viable.both_left (hv : g.Viable xs) (h : Pattern) : (both g h).Viable xs := by
  obtain ⟨d, hd⟩ := hv
  obtain ⟨d'⟩ := h.nonempty_tree
  exact ⟨(d, d'), hd.trans (List.prefix_append _ _)⟩

theorem Viable.both_right (hv : h.Viable xs) (d : g.Tree) :
    (both g h).Viable (g.tokens d ++ xs) := by
  obtain ⟨d', hd'⟩ := hv
  exact ⟨(d, d'), (List.prefix_append_right_inj _).2 hd'⟩

/-- Tokens that begin the one pattern and then the other end within the first, or are those of a
derivation from it and some more. -/
theorem viable_both_cases (hv : (both g h).Viable xs) :
    g.Viable xs ∨ ∃ d y ys, xs = g.tokens d ++ y :: ys ∧ h.Viable (y :: ys) := by
  obtain ⟨⟨d, d'⟩, rest, hd⟩ := hv
  rcases List.append_eq_append_iff.1 hd with ⟨as, has, -⟩ | ⟨bs, rfl, hbs⟩
  · exact .inl ⟨d, as, has.symm⟩
  · cases bs with
    | nil => exact .inl ⟨d, by simp⟩
    | cons y ys => exact .inr ⟨d, y, ys, rfl, d', rest, hbs.symm⟩

theorem viable_either_iff : (either g h).Viable xs ↔ g.Viable xs ∨ h.Viable xs := by
  constructor
  · rintro ⟨d | d, hd⟩
    · exact .inl ⟨d, hd⟩
    · exact .inr ⟨d, hd⟩
  · rintro (⟨d, hd⟩ | ⟨d, hd⟩)
    · exact ⟨.inl d, hd⟩
    · exact ⟨.inr d, hd⟩

theorem viable_maybe_iff : (maybe g).Viable xs ↔ g.Viable xs := by
  constructor
  · rintro ⟨_ | d, hd⟩
    · rw [List.prefix_nil.1 hd]
      exact viable_nil g
    · exact ⟨d, hd⟩
  · rintro ⟨d, hd⟩
    exact ⟨some d, hd⟩

/-- An option before another pattern may be left out. -/
theorem viable_both_maybe_iff :
    (both (maybe g) h).Viable xs ↔ h.Viable xs ∨ (both g h).Viable xs := by
  constructor
  · rintro ⟨⟨_ | d, d'⟩, hd⟩
    · exact .inl ⟨d', hd⟩
    · exact .inr ⟨(d, d'), hd⟩
  · rintro (⟨d', hd⟩ | ⟨⟨d, d'⟩, hd⟩)
    · exact ⟨(none, d'), hd⟩
    · exact ⟨(some d, d'), hd⟩

/-- The same for a repetition. -/
theorem viable_both_many_iff :
    (both (many g) h).Viable xs ↔ h.Viable xs ∨ (both g (both (many g) h)).Viable xs := by
  constructor
  · rintro ⟨⟨_ | ⟨d, ds⟩, d'⟩, hd⟩
    · exact .inl ⟨d', hd⟩
    · rw [tokens, tokens_cons, List.append_assoc] at hd
      exact .inr ⟨(d, ds, d'), hd⟩
  · rintro (⟨d', hd⟩ | ⟨⟨d, ds, d'⟩, hd⟩)
    · exact ⟨([], d'), hd⟩
    · refine ⟨(d :: ds, d'), ?_⟩
      rw [tokens, tokens_cons, List.append_assoc]
      exact hd

theorem Viable.begins_both (hn : g.nullable = false) (hv : (both g h).Viable (t :: xs)) :
    Begins g.first (t :: xs) := by
  have hb := hv.begins
  unfold first at hb
  rwa [hn, if_neg Bool.false_ne_true, List.append_nil] at hb

variable {s c : Terminal}

theorem viable_terminal_iff : (terminal s).Viable (t :: xs) ↔ s.Matches t ∧ xs = [] := by
  constructor
  · rintro ⟨⟨t', ht'⟩, hd⟩
    obtain ⟨rfl, hxs⟩ := List.cons_prefix_cons.1 hd
    exact ⟨ht', List.prefix_nil.1 hxs⟩
  · rintro ⟨ht, rfl⟩
    exact viable_tokens (g := terminal s) ⟨t, ht⟩

theorem viable_both_terminal_iff :
    (both (terminal s) g).Viable (t :: xs) ↔ s.Matches t ∧ g.Viable xs := by
  constructor
  · rintro ⟨⟨⟨t', ht'⟩, d⟩, hd⟩
    obtain ⟨rfl, hxs⟩ := List.cons_prefix_cons.1 hd
    exact ⟨ht', d, hxs⟩
  · rintro ⟨ht, d, hd⟩
    exact ⟨(⟨t, ht⟩, d), List.cons_prefix_cons.2 ⟨rfl, hd⟩⟩

theorem Viable.many (hv : (both g (many g)).Viable xs) : (many g).Viable xs := by
  obtain ⟨⟨d, ds⟩, hd⟩ := hv
  exact ⟨d :: ds, by rwa [tokens_cons]⟩

theorem viable_many_cons_iff :
    (many g).Viable (t :: xs) ↔ (both g (many g)).Viable (t :: xs) := by
  refine ⟨?_, Viable.many⟩
  rintro ⟨_ | ⟨d, ds⟩, hd⟩
  · cases List.prefix_nil.1 hd
  · rw [tokens_cons] at hd
    exact ⟨(d, ds), hd⟩

/-- After an item of a list, the separator and another one. -/
theorem viable_many_separated_iff :
    (many (both (terminal s) g)).Viable (t :: xs) ↔ s.Matches t ∧ (separated s g).Viable xs := by
  have hassoc (x : (both (terminal s) g).Tree) (ds : (many (both (terminal s) g)).Tree) :
      (many (both (terminal s) g)).tokens (x :: ds) =
        x.1.1 :: (separated s g).tokens (x.2, ds) := by
    rw [tokens_cons]
    rfl
  constructor
  · rintro ⟨_ | ⟨x, ds⟩, hd⟩
    · cases List.prefix_nil.1 hd
    · rw [hassoc] at hd
      obtain ⟨rfl, hxs⟩ := List.cons_prefix_cons.1 hd
      exact ⟨x.1.2, _, hxs⟩
  · rintro ⟨ht, ⟨d, ds⟩, hd⟩
    exact ⟨(⟨t, ht⟩, d) :: ds, by rw [hassoc]; exact List.cons_prefix_cons.2 ⟨rfl, hd⟩⟩

/-! ### In a list that is closed -/

/-- What comes after an item: separators and items, perhaps one more separator, and the end. -/
@[reducible] def afterItem (s c : Terminal) (g : Pattern) : Pattern :=
  both (many (both (terminal s) g)) (both (maybe (terminal s)) (terminal c))

theorem tokens_closedList_some (d : g.Tree) (ds : (many (both (terminal s) g)).Tree)
    (last : (maybe (terminal s)).Tree) (t : (terminal c).Tree) :
    (closedList s c g).tokens (some (d, ds, last), t) =
      (both g (afterItem s c g)).tokens (d, ds, last, t) := by
  simp only [tokens, List.append_assoc]

theorem Viable.closedList (hv : (both g (afterItem s c g)).Viable xs) :
    (closedList s c g).Viable xs := by
  obtain ⟨⟨d, ds, last, t⟩, hd⟩ := hv
  exact ⟨(some (d, ds, last), t), by rwa [tokens_closedList_some]⟩

/-- The closing terminal ends the list. -/
theorem viable_closedList_of_matches (hn : g.nullable = false) (hg : Apart g.first [c])
    (hc : c.Matches t) (hv : (closedList s c g).Viable (t :: xs)) : xs = [] := by
  rcases viable_both_maybe_iff.1 hv with hv | ⟨⟨⟨d, tail⟩, d'⟩, hd⟩
  · exact (viable_terminal_iff.1 hv).2
  · have hv : (both g (both (both (many (both (terminal s) g)) (maybe (terminal s)))
        (terminal c))).Viable (t :: xs) := ⟨(d, tail, d'), by simpa [tokens] using hd⟩
    exact ((hv.begins_both hn).not_begins hg (begins_cons.2 ⟨c, by simp, hc⟩)).elim

theorem viable_closedList_of_not_matches (hc : ¬ c.Matches t)
    (hv : (closedList s c g).Viable (t :: xs)) : (both g (afterItem s c g)).Viable (t :: xs) := by
  obtain ⟨⟨_ | ⟨d, ds, last⟩, t'⟩, hd⟩ := hv
  · exact (hc (viable_terminal_iff.1 ⟨t', hd⟩).1).elim
  · rw [tokens_closedList_some] at hd
    exact ⟨(d, ds, last, t'), hd⟩

/-- A separator may be followed by what the whole list may consist of. -/
theorem viable_afterItem_iff (hsc : Apart [s] [c]) (hs : s.Matches t) :
    (afterItem s c g).Viable (t :: xs) ↔ (closedList s c g).Viable xs := by
  constructor
  · rintro ⟨⟨_ | ⟨x, ds⟩, _ | comma, t'⟩, hd⟩
    · exact (not_matches_of_apart hsc hs (viable_terminal_iff.1 ⟨t', hd⟩).1).elim
    · obtain ⟨-, hxs⟩ := List.cons_prefix_cons.1 hd
      exact ⟨(none, t'), hxs⟩
    · rw [tokens, tokens_cons] at hd
      obtain ⟨-, hxs⟩ := List.cons_prefix_cons.1 hd
      exact ⟨(some (x.2, ds, none), t'), by simpa [tokens] using hxs⟩
    · rw [tokens, tokens_cons] at hd
      obtain ⟨-, hxs⟩ := List.cons_prefix_cons.1 hd
      exact ⟨(some (x.2, ds, some comma), t'), by simpa [tokens] using hxs⟩
  · rintro ⟨⟨_ | ⟨d, ds, last⟩, t'⟩, hd⟩
    · exact ⟨([], some ⟨t, hs⟩, t'), List.cons_prefix_cons.2 ⟨rfl, hd⟩⟩
    · refine ⟨((⟨t, hs⟩, d) :: ds, last, t'), ?_⟩
      rw [tokens, tokens_cons]
      refine List.cons_prefix_cons.2 ⟨rfl, ?_⟩
      simpa [tokens] using hd

theorem Viable.afterItem (hv : (terminal c).Viable xs) : (afterItem s c g).Viable xs := by
  obtain ⟨t, hd⟩ := hv
  exact ⟨([], none, t), hd⟩

theorem viable_afterItem_of_not_matches (hs : ¬ s.Matches t)
    (hv : (afterItem s c g).Viable (t :: xs)) : (terminal c).Viable (t :: xs) := by
  obtain ⟨⟨_ | ⟨x, ds⟩, _ | comma, t'⟩, hd⟩ := hv
  · exact ⟨t', hd⟩
  · obtain ⟨rfl, -⟩ := List.cons_prefix_cons.1 hd
    exact (hs comma.2).elim
  all_goals
    rw [tokens, tokens_cons] at hd
    obtain ⟨rfl, -⟩ := List.cons_prefix_cons.1 hd
    exact (hs x.1.2).elim

end Viable

end Pattern

end EventMachine.Syntax
