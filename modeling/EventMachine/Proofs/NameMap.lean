import EventMachine.NameMap
import Mathlib.Data.List.Basic
import Mathlib.Data.List.Induction

/-!
# The last of each name

A map made of pairs has, for each name, the value of the last pair with this name
(`NameMap.get?_ofList_eq_some_iff`), and no value for any other name
(`NameMap.get?_ofList_eq_none_iff`).
-/

namespace EventMachine

/-- Where an element of a list with one more at its end stands. -/
theorem concat_eq_append_cons_iff {α : Type} {xs earlier later : List α} {x y : α} :
    xs ++ [y] = earlier ++ x :: later ↔
      (xs = earlier ∧ y = x ∧ later = []) ∨
        ∃ rest, later = rest ++ [y] ∧ xs = earlier ++ x :: rest := by
  constructor
  · intro h
    rcases List.eq_nil_or_concat' later with rfl | ⟨rest, z, rfl⟩
    · obtain ⟨rfl, hy⟩ := List.append_inj' h rfl
      exact .inl ⟨rfl, List.head_eq_of_cons_eq hy, rfl⟩
    · rw [← List.cons_append, ← List.append_assoc] at h
      obtain ⟨rfl, hy⟩ := List.append_inj' h rfl
      cases hy
      exact .inr ⟨rest, rfl, rfl⟩
  · rintro (⟨rfl, rfl, rfl⟩ | ⟨rest, rfl, rfl⟩)
    · rfl
    · simp

/-- The value of a name in a map made of pairs is that of its last pair. -/
theorem NameMap.get?_ofList_eq_some_iff {α : Type} {pairs : List (String × α)} {name : String}
    {value : α} : (NameMap.ofList pairs).get? name = some value ↔
      ∃ earlier later, pairs = earlier ++ (name, value) :: later ∧ ∀ p ∈ later, p.1 ≠ name := by
  induction pairs using List.reverseRecOn with
  | nil => simp [NameMap.ofList]
  | append_singleton pairs p ih =>
    have hinsert : NameMap.ofList (pairs ++ [p]) = (NameMap.ofList pairs).insert p.1 p.2 :=
      List.foldl_concat ..
    simp only [hinsert, NameMap.get?_insert, concat_eq_append_cons_iff]
    split
    · next hn =>
      constructor
      · rintro ⟨⟩
        exact ⟨pairs, [], .inl ⟨rfl, Prod.ext hn.symm rfl, rfl⟩, nofun⟩
      · rintro ⟨earlier, _, ⟨-, rfl, -⟩ | ⟨later, rfl, -⟩, hlater⟩
        · rfl
        · exact (hlater p (by simp) hn.symm).elim
    · next hn =>
      rw [ih]
      constructor
      · rintro ⟨earlier, later, rfl, hlater⟩
        refine ⟨earlier, later ++ [p], .inr ⟨later, rfl, rfl⟩, ?_⟩
        rw [List.forall_mem_append, List.forall_mem_singleton]
        exact ⟨hlater, Ne.symm hn⟩
      · rintro ⟨earlier, _, ⟨-, rfl, -⟩ | ⟨later, rfl, rfl⟩, hlater⟩
        · exact (hn rfl).elim
        · exact ⟨earlier, later, rfl, (List.forall_mem_append.1 hlater).1⟩

theorem NameMap.get?_ofList_eq_none_iff {α : Type} {pairs : List (String × α)} {name : String} :
    (NameMap.ofList pairs).get? name = none ↔ name ∉ pairs.map (·.1) := by
  rw [← mem_names_ofList, mem_names, Option.eq_none_iff_forall_ne_some, not_exists]

end EventMachine
