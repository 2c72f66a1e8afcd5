/-!
# Finite maps from names, in the order of the names

Names are compared by code points, which is the order of their UTF-8 bytes. A map is its list of
entries in ascending order of the names, so equal maps are equal lists (`NameMap.ext_get?`).
-/

namespace EventMachine

/-- The entry put at its place in an ascending list, instead of one with the same name. -/
def insertEntry (name : String) (value : α) : List (String × α) → List (String × α)
  | [] => [(name, value)]
  | entry :: rest =>
    if name < entry.1 then (name, value) :: entry :: rest
    else if name = entry.1 then (name, value) :: rest
    else entry :: insertEntry name value rest

theorem mem_insertEntry {name : String} {value : α} {e : String × α} {entries : List (String × α)}
    (h : e ∈ insertEntry name value entries) : e = (name, value) ∨ e ∈ entries := by
  induction entries with
  | nil => exact .inl (by simpa [insertEntry] using h)
  | cons entry rest ih => grind [insertEntry]

theorem pairwise_insertEntry (name : String) (value : α) {entries : List (String × α)}
    (h : entries.Pairwise (·.1 < ·.1)) :
    (insertEntry name value entries).Pairwise (·.1 < ·.1) := by
  induction entries with
  | nil => simp [insertEntry]
  | cons entry rest ih =>
    rw [List.pairwise_cons] at h
    unfold insertEntry
    split
    · next hlt =>
      refine List.pairwise_cons.2 ⟨fun e he => ?_, List.pairwise_cons.2 h⟩
      rcases List.mem_cons.1 he with rfl | he
      · exact hlt
      · exact String.lt_trans hlt (h.1 e he)
    · next hlt =>
      split
      · next heq => exact List.pairwise_cons.2 ⟨fun e he => heq ▸ h.1 e he, h.2⟩
      · next hne =>
        refine List.pairwise_cons.2 ⟨fun e he => ?_, ih h.2⟩
        rcases mem_insertEntry he with rfl | he
        · exact String.not_le.1 fun hle => hne (String.le_antisymm hle (String.not_lt.1 hlt))
        · exact h.1 e he

/-- A finite map from names. -/
structure NameMap (α : Type u) where
  entries : List (String × α)
  sorted : entries.Pairwise (·.1 < ·.1)
deriving DecidableEq

namespace NameMap

def empty : NameMap α := ⟨[], .nil⟩

instance : EmptyCollection (NameMap α) := ⟨empty⟩

instance : Inhabited (NameMap α) := ⟨empty⟩

/-- The value under a name. -/
def get? (m : NameMap α) (name : String) : Option α := m.entries.lookup name

/-- There is a value under the name. -/
def contains (m : NameMap α) (name : String) : Bool := (m.get? name).isSome

/-- The map with the name bound to the value. -/
def insert (m : NameMap α) (name : String) (value : α) : NameMap α :=
  ⟨insertEntry name value m.entries, pairwise_insertEntry name value m.sorted⟩

/-- The map without the name. -/
def erase (m : NameMap α) (name : String) : NameMap α :=
  ⟨m.entries.filter (·.1 ≠ name), m.sorted.filter _⟩

/-- The bound names in ascending order. -/
def names (m : NameMap α) : List String := m.entries.map (·.1)

/-- The number of bound names. -/
def size (m : NameMap α) : Nat := m.entries.length

/-- The map with the pairs inserted from left to right: of pairs with one name the last counts. -/
def insertAll (m : NameMap α) (pairs : List (String × α)) : NameMap α :=
  pairs.foldl (fun m p => m.insert p.1 p.2) m

/-- The map of the pairs, the last of each name. -/
def ofList (pairs : List (String × α)) : NameMap α := empty.insertAll pairs

/-! ## Looking up -/

@[simp] theorem get?_empty (name : String) : (empty : NameMap α).get? name = none := rfl

theorem lookup_cons_eq (name : String) (entry : String × α) (rest : List (String × α)) :
    (entry :: rest).lookup name = if name = entry.1 then some entry.2 else rest.lookup name := by
  obtain ⟨key, value⟩ := entry
  by_cases h : name = key
  · simp [h]
  · simp [List.lookup_cons, h, beq_eq_false_iff_ne.2 h]

theorem lookup_insertEntry (name other : String) (value : α) (entries : List (String × α)) :
    (insertEntry name value entries).lookup other =
      if other = name then some value else entries.lookup other := by
  induction entries with
  | nil => simp only [insertEntry, lookup_cons_eq, List.lookup_nil]
  | cons entry rest ih => grind [insertEntry, lookup_cons_eq]

theorem get?_insert (m : NameMap α) (name other : String) (value : α) :
    (m.insert name value).get? other = if other = name then some value else m.get? other :=
  lookup_insertEntry name other value m.entries

theorem get?_erase (m : NameMap α) (name other : String) :
    (m.erase name).get? other = if other = name then none else m.get? other := by
  simp only [get?, erase]
  induction m.entries with
  | nil => simp
  | cons entry rest ih =>
    by_cases h : entry.1 = name <;> grind [lookup_cons_eq]

/-- Among entries with distinct names, a name has the value of its entry. -/
theorem lookup_eq_some_iff_of_nodup {entries : List (String × α)}
    (h : (entries.map (·.1)).Nodup) {name : String} {value : α} :
    entries.lookup name = some value ↔ (name, value) ∈ entries := by
  induction entries with
  | nil => simp
  | cons entry rest ih =>
    rw [List.map_cons, List.nodup_cons] at h
    rw [lookup_cons_eq, List.mem_cons]
    by_cases hn : name = entry.1
    · have hrest : (name, value) ∉ rest := fun hm =>
        h.1 (List.mem_map.2 ⟨_, hm, hn⟩)
      rw [if_pos hn, Option.some.injEq]
      constructor
      · rintro rfl
        exact .inl (Prod.ext hn rfl)
      · intro hm
        exact (congrArg Prod.snd (hm.resolve_right hrest)).symm
    · rw [if_neg hn, ih h.2]
      constructor
      · exact .inr
      · intro hm
        exact hm.resolve_left fun e => hn (congrArg Prod.fst e)

theorem nodup_names (m : NameMap α) : (m.entries.map (·.1)).Nodup := by
  rw [List.Nodup, List.pairwise_map]
  refine m.sorted.imp fun h e => ?_
  rw [e] at h
  exact String.lt_irrefl _ h

theorem get?_eq_some_iff (m : NameMap α) {name : String} {value : α} :
    m.get? name = some value ↔ (name, value) ∈ m.entries :=
  lookup_eq_some_iff_of_nodup m.nodup_names

theorem mem_names (m : NameMap α) {name : String} :
    name ∈ m.names ↔ ∃ value, m.get? name = some value := by
  simp only [names, List.mem_map, get?_eq_some_iff]
  constructor
  · rintro ⟨entry, he, rfl⟩
    exact ⟨entry.2, he⟩
  · rintro ⟨value, he⟩
    exact ⟨_, he, rfl⟩

/-- Erasing names one after the other. -/
theorem get?_foldl_erase (names : List String) (m : NameMap α) (other : String) :
    (names.foldl erase m).get? other = if other ∈ names then none else m.get? other := by
  induction names generalizing m with
  | nil => simp
  | cons name names ih =>
    rw [List.foldl_cons, ih, get?_erase]
    by_cases h : other ∈ names <;> by_cases hn : other = name <;> simp [h, hn]

@[simp] theorem insertAll_nil (m : NameMap α) : m.insertAll [] = m := rfl

@[simp] theorem insertAll_cons (m : NameMap α) (p : String × α) (pairs : List (String × α)) :
    m.insertAll (p :: pairs) = (m.insert p.1 p.2).insertAll pairs := rfl

/-- What stands in a map after inserting was inserted or was there before. -/
theorem mem_or_get?_of_insertAll {pairs : List (String × α)} {m : NameMap α} {name : String}
    {value : α} (h : (m.insertAll pairs).get? name = some value) :
    (name, value) ∈ pairs ∨ m.get? name = some value := by
  induction pairs generalizing m with
  | nil => exact .inr h
  | cons p pairs ih =>
    rcases ih h with h | h
    · exact .inl (List.mem_cons_of_mem _ h)
    · rw [get?_insert] at h
      split at h
      · next he =>
        cases h
        exact .inl (he ▸ List.mem_cons_self)
      · exact .inr h

/-- Inserting pairs whose values depend on their names only. -/
theorem get?_insertAll {pairs : List (String × α)} {f : String → α}
    (h : ∀ p ∈ pairs, p.2 = f p.1) (m : NameMap α) (other : String) :
    (m.insertAll pairs).get? other =
      if other ∈ pairs.map (·.1) then some (f other) else m.get? other := by
  induction pairs generalizing m with
  | nil => simp
  | cons p pairs ih =>
    have hp : p.2 = f p.1 := h p List.mem_cons_self
    rw [insertAll_cons, ih fun q hq => h q (List.mem_cons_of_mem _ hq), get?_insert, hp]
    by_cases ho : other ∈ pairs.map (·.1) <;> by_cases hn : other = p.1 <;> simp [ho, hn]

/-- The names that are bound after inserting pairs. -/
theorem mem_names_insertAll {pairs : List (String × α)} {m : NameMap α} {name : String} :
    name ∈ (m.insertAll pairs).names ↔ name ∈ pairs.map (·.1) ∨ name ∈ m.names := by
  induction pairs generalizing m with
  | nil => simp
  | cons p pairs ih =>
    have hinsert : name ∈ (m.insert p.1 p.2).names ↔ name = p.1 ∨ name ∈ m.names := by
      rw [mem_names, mem_names, get?_insert]
      split
      · next he => simp [he]
      · next he => simp [he]
    rw [insertAll_cons, ih, hinsert, List.map_cons, List.mem_cons, or_left_comm, or_assoc]

theorem mem_names_ofList {pairs : List (String × α)} {name : String} :
    name ∈ (ofList pairs).names ↔ name ∈ pairs.map (·.1) :=
  mem_names_insertAll.trans (or_iff_left List.not_mem_nil)

/-- A name below every bound one is not bound. -/
theorem lookup_eq_none_of_lt {name : String} {entries : List (String × α)}
    (h : ∀ e ∈ entries, name < e.1) : entries.lookup name = none := by
  induction entries with
  | nil => rfl
  | cons entry rest ih =>
    rw [lookup_cons_eq, if_neg, ih fun e he => h e (List.mem_cons_of_mem _ he)]
    rintro rfl
    exact String.lt_irrefl _ (h entry List.mem_cons_self)

theorem entries_eq_of_lookup_eq {xs ys : List (String × α)} (hx : xs.Pairwise (·.1 < ·.1))
    (hy : ys.Pairwise (·.1 < ·.1)) (h : ∀ name, xs.lookup name = ys.lookup name) : xs = ys := by
  induction xs generalizing ys with
  | nil =>
    cases ys with
    | nil => rfl
    | cons y ys => simpa [lookup_cons_eq] using h y.1
  | cons x xs ih =>
    rw [List.pairwise_cons] at hx
    cases ys with
    | nil => simpa [lookup_cons_eq] using h x.1
    | cons y ys =>
      rw [List.pairwise_cons] at hy
      have hxy : x.1 = y.1 := by
        apply String.le_antisymm <;> refine String.not_lt.1 fun hlt => ?_
        · have := h y.1
          rw [lookup_cons_eq, lookup_cons_eq, if_pos rfl,
            if_neg fun e => String.lt_irrefl _ (e ▸ hlt),
            lookup_eq_none_of_lt fun e he => String.lt_trans hlt (hx.1 e he)] at this
          cases this
        · have := h x.1
          rw [lookup_cons_eq, lookup_cons_eq, if_pos rfl,
            if_neg fun e => String.lt_irrefl _ (e ▸ hlt),
            lookup_eq_none_of_lt fun e he => String.lt_trans hlt (hy.1 e he)] at this
          cases this
      have hval : x.2 = y.2 := by simpa [lookup_cons_eq, hxy] using h x.1
      rw [Prod.ext hxy hval, ih hx.2 hy.2 fun name => ?_]
      by_cases hn : name = x.1
      · subst hn
        rw [lookup_eq_none_of_lt hx.1, lookup_eq_none_of_lt (hxy ▸ hy.1)]
      · simpa [lookup_cons_eq, hn, hxy ▸ hn] using h name

/-- Maps that agree on every name are equal. -/
theorem ext_get? {m m' : NameMap α} (h : ∀ name, m.get? name = m'.get? name) : m = m' := by
  cases m
  cases m'
  congr
  exact entries_eq_of_lookup_eq ‹_› ‹_› h

/-- Binding a name to the value that it has. -/
theorem insert_eq_self {m : NameMap α} {name : String} {value : α}
    (h : m.get? name = some value) : m.insert name value = m := by
  refine ext_get? fun other => ?_
  rw [get?_insert]
  split
  · next he => rw [he, h]
  · rfl

end NameMap

end EventMachine
