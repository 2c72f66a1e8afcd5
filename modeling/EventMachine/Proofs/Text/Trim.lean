import EventMachine.Text.WhiteSpace

/-!
# What is cut at white space

A text is white space, a core that neither begins nor ends with any, and white space again, and
`trimChars` gives the core: there is only one way to divide a text so (`trimChars_append`,
`exists_trimChars`).
-/

namespace EventMachine.Text

variable {before core after cs : List Char}

/-- The text neither begins nor ends with white space. -/
structure IsTrimmed (cs : List Char) : Prop where
  head : ∀ c ∈ cs.head?, isWhiteSpace c = false
  last : ∀ c ∈ cs.getLast?, isWhiteSpace c = false

theorem dropWhile_eq_self {p : Char → Bool} (h : ∀ c ∈ cs.head?, p c = false) :
    cs.dropWhile p = cs := by
  cases cs with
  | nil => rfl
  | cons c cs => exact List.dropWhile_cons_of_neg (by rw [h c rfl]; exact Bool.false_ne_true)

theorem trimChars_append (hbefore : ∀ c ∈ before, isWhiteSpace c = true) (hcore : IsTrimmed core)
    (hafter : ∀ c ∈ after, isWhiteSpace c = true) : trimChars (before ++ core ++ after) = core := by
  unfold trimChars
  rw [List.append_assoc, List.dropWhile_append_of_pos hbefore]
  by_cases hnil : core = []
  · subst hnil
    rw [List.nil_append, ← List.append_nil after, List.dropWhile_append_of_pos hafter]
    rfl
  · have hhead : ∀ c ∈ (core ++ after).head?, isWhiteSpace c = false := by
      obtain ⟨c, core, rfl⟩ := List.exists_cons_of_ne_nil hnil
      exact hcore.head
    have hlast : ∀ c ∈ core.reverse.head?, isWhiteSpace c = false := by
      rw [List.head?_reverse]
      exact hcore.last
    rw [dropWhile_eq_self hhead, List.reverse_append,
      List.dropWhile_append_of_pos (fun c hc => hafter c (List.mem_reverse.1 hc)),
      dropWhile_eq_self hlast, List.reverse_reverse]

/-- At the end, too, only white space is cut. -/
theorem exists_trimChars_append (cs : List Char) :
    ∃ after, (∀ c ∈ after, isWhiteSpace c = true) ∧
      trimChars cs ++ after = cs.dropWhile isWhiteSpace := by
  refine ⟨((cs.dropWhile isWhiteSpace).reverse.takeWhile isWhiteSpace).reverse, fun c hc => ?_, ?_⟩
  · exact List.all_eq_true.1 List.all_takeWhile c (List.mem_reverse.1 hc)
  · rw [trimChars, ← List.reverse_append, List.takeWhile_append_dropWhile, List.reverse_reverse]

theorem exists_trimChars (cs : List Char) :
    ∃ before after, cs = before ++ trimChars cs ++ after ∧
      (∀ c ∈ before, isWhiteSpace c = true) ∧ (∀ c ∈ after, isWhiteSpace c = true) := by
  obtain ⟨after, hafter, hdrop⟩ := exists_trimChars_append cs
  refine ⟨cs.takeWhile isWhiteSpace, after, ?_, List.all_eq_true.1 List.all_takeWhile, hafter⟩
  rw [List.append_assoc, hdrop]
  exact List.takeWhile_append_dropWhile.symm

theorem isTrimmed_trimChars (cs : List Char) : IsTrimmed (trimChars cs) where
  head := by
    intro c hc
    obtain ⟨after, -, hdrop⟩ := exists_trimChars_append cs
    have hhead := List.head?_dropWhile_not isWhiteSpace cs
    rw [← hdrop, List.head?_append, Option.mem_def.1 hc] at hhead
    exact hhead
  last := by
    intro c hc
    rw [trimChars, List.getLast?_reverse] at hc
    have hhead := List.head?_dropWhile_not isWhiteSpace (cs.dropWhile isWhiteSpace).reverse
    rw [Option.mem_def.1 hc] at hhead
    exact hhead

theorem trimChars_append_trimChars (h : ∀ c ∈ before, isWhiteSpace c = true) (cs : List Char) :
    trimChars (before ++ trimChars cs) = trimChars cs := by
  have hnil : ∀ c ∈ ([] : List Char), isWhiteSpace c = true := nofun
  rw [← List.append_nil (before ++ trimChars cs)]
  exact trimChars_append h (isTrimmed_trimChars cs) hnil

theorem IsTrimmed.trimChars_eq (h : IsTrimmed cs) : trimChars cs = cs := by
  have hnil : ∀ c ∈ ([] : List Char), isWhiteSpace c = true := nofun
  have htrim := trimChars_append hnil h hnil
  rwa [List.nil_append, List.append_nil] at htrim

theorem trimChars_append_of_space (h : ∀ c ∈ after, isWhiteSpace c = true) :
    trimChars (cs ++ after) = trimChars cs := by
  obtain ⟨before, after', hcs, hbefore, hafter⟩ := exists_trimChars cs
  conv => lhs; rw [hcs]
  rw [List.append_assoc _ after']
  exact trimChars_append hbefore (isTrimmed_trimChars cs) (List.forall_mem_append.2 ⟨hafter, h⟩)

end EventMachine.Text
