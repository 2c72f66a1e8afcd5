import EventMachine.Proofs.NameMap
import EventMachine.Registry

/-!
# What declarations leave

A signature is made by declaring names one after the other, and a registry by adding triggers and
actions. Of what is declared or added under one name the last counts, and a name keeps the place of
its first declaration (`keeps_last_of_each_name`).

1. A declaration changes the type of its own name and of no other (`Signature.type?_declare`), so a
   signature has the types that a map made of the declarations has (`type?_ofDeclarations`).
2. A declaration adds its name at the end, or none at all (`Signature.names_declare`), so the names
   stand in the order of their first declarations (`Signature.InOrder.declare`).
3. A registry holds a map made of the added triggers and another one made of the added actions
   (`Registry.foldl_add`).
-/

namespace EventMachine

/-- The last of the pairs with the name has the value. -/
def IsLast {α : Type} (pairs : List (String × α)) (name : String) (value : α) : Prop :=
  ∃ earlier later, pairs = earlier ++ (name, value) :: later ∧ ∀ p ∈ later, p.1 ≠ name

/-! ## Signatures -/

namespace Signature

/-- The names of a signature in their order. -/
def names (s : Signature) : List String := s.entries.map (·.1)

theorem lookup_retype (name other : String) (type : ValueType)
    (entries : List (String × ValueType)) :
    (retype name type entries).lookup other =
      if other = name then (entries.lookup name).map fun _ => type else entries.lookup other := by
  unfold retype
  induction entries with
  | nil => simp
  | cons e entries ih =>
    rw [List.map_cons, NameMap.lookup_cons_eq, NameMap.lookup_cons_eq, NameMap.lookup_cons_eq, ih]
    grind

/-- A declaration gives its name the type, and leaves the types of other names. -/
theorem type?_declare (s : Signature) (name other : String) (type : ValueType) :
    (s.declare name type).type? other = if other = name then some type else s.type? other := by
  unfold declare
  split
  · next h =>
    obtain ⟨⟨_, before⟩, hmem, rfl⟩ := List.mem_map.1 h
    have hbefore : s.entries.lookup _ = some before := s.type?_eq_some_iff.2 hmem
    refine (lookup_retype _ other type s.entries).trans ?_
    rw [hbefore]
    rfl
  · next h =>
    have hnone : s.entries.lookup name = none := by
      rw [Option.eq_none_iff_forall_ne_some]
      intro before hbefore
      exact h (List.mem_map.2 ⟨_, s.type?_eq_some_iff.1 hbefore, rfl⟩)
    unfold type?
    rw [List.lookup_append, NameMap.lookup_cons_eq, List.lookup_nil]
    by_cases heq : other = name
    · rw [if_pos heq, if_pos heq, heq, hnone]
      rfl
    · rw [if_neg heq, if_neg heq, Option.or_none]

theorem names_declare (s : Signature) (name : String) (type : ValueType) :
    (s.declare name type).names = if name ∈ s.names then s.names else s.names ++ [name] := by
  unfold declare names
  split
  · exact names_retype name type s.entries
  · exact List.map_append

theorem ofDeclarations_concat (declarations : List (String × ValueType))
    (d : String × ValueType) :
    ofDeclarations (declarations ++ [d]) = (ofDeclarations declarations).declare d.1 d.2 :=
  List.foldl_concat ..

theorem type?_ofDeclarations (declarations : List (String × ValueType)) (name : String) :
    (ofDeclarations declarations).type? name = (NameMap.ofList declarations).get? name := by
  induction declarations using List.reverseRecOn with
  | nil => rfl
  | append_singleton declarations d ih =>
    have hinsert : NameMap.ofList (declarations ++ [d]) =
        (NameMap.ofList declarations).insert d.1 d.2 :=
      List.foldl_concat ..
    rw [ofDeclarations_concat, type?_declare, hinsert, NameMap.get?_insert, ih]

/-- The names of the signature are those of the list, in the order of their first places there. -/
structure InOrder (s : Signature) (names : List String) : Prop where
  mem_iff : ∀ name, name ∈ s.names ↔ name ∈ names
  ordered : s.names.Pairwise fun a b => names.idxOf a < names.idxOf b

/-- A name that is declared again leaves all names where they are, and a new one comes last. -/
theorem InOrder.declare {s : Signature} {names : List String} (h : s.InOrder names)
    (name : String) (type : ValueType) : (s.declare name type).InOrder (names ++ [name]) := by
  -- a known name has been declared before, so this is not its first place
  have hfirst {a : String} (ha : a ∈ s.names) : (names ++ [name]).idxOf a = names.idxOf a :=
    List.idxOf_append_of_mem ((h.mem_iff a).1 ha)
  have hordered : s.names.Pairwise fun a b =>
      (names ++ [name]).idxOf a < (names ++ [name]).idxOf b := by
    refine h.ordered.imp_of_mem fun ha hb hlt => ?_
    rwa [hfirst ha, hfirst hb]
  constructor
  · intro other
    rw [names_declare, List.mem_append, List.mem_singleton, ← h.mem_iff]
    split
    · next hname => exact (or_iff_left_of_imp fun heq => heq.symm ▸ hname).symm
    · rw [List.mem_append, List.mem_singleton]
  · rw [names_declare]
    split
    · exact hordered
    · next hname =>
      have hnew : name ∉ names := fun hmem => hname ((h.mem_iff name).2 hmem)
      refine List.pairwise_append.2 ⟨hordered, List.pairwise_singleton _ _, fun a ha b hb => ?_⟩
      rw [List.mem_singleton.1 hb, hfirst ha, List.idxOf_append_of_notMem hnew]
      exact Nat.lt_add_right _ (List.idxOf_lt_length_of_mem ((h.mem_iff a).1 ha))

theorem inOrder_ofDeclarations (declarations : List (String × ValueType)) :
    (ofDeclarations declarations).InOrder (declarations.map (·.1)) := by
  induction declarations using List.reverseRecOn with
  | nil => exact ⟨fun _ => Iff.rfl, .nil⟩
  | append_singleton declarations d ih =>
    rw [ofDeclarations_concat, List.map_append]
    exact ih.declare d.1 d.2

/-- Each declared name stands in the signature once, in the order of the first declarations and with
the type of the last one. -/
structure Keeps (s : Signature) (declarations : List (String × ValueType)) : Prop where
  nodup : s.names.Nodup
  ordered : s.names.Pairwise fun a b =>
    (declarations.map (·.1)).idxOf a < (declarations.map (·.1)).idxOf b
  mem_entries_iff : ∀ name type, (name, type) ∈ s.entries ↔ IsLast declarations name type
  type?_eq_some_iff : ∀ name type, s.type? name = some type ↔ IsLast declarations name type
  type?_eq_none_iff : ∀ name, s.type? name = none ↔ name ∉ declarations.map (·.1)

theorem keeps_ofDeclarations (declarations : List (String × ValueType)) :
    (ofDeclarations declarations).Keeps declarations := by
  have horder := inOrder_ofDeclarations declarations
  have hsome (name : String) (type : ValueType) :
      (ofDeclarations declarations).type? name = some type ↔ IsLast declarations name type := by
    rw [type?_ofDeclarations]
    exact NameMap.get?_ofList_eq_some_iff
  have hnodup : (ofDeclarations declarations).names.Nodup := by
    rw [List.Nodup]
    refine horder.ordered.imp fun hlt heq => ?_
    rw [heq] at hlt
    exact Nat.lt_irrefl _ hlt
  exact
    { nodup := hnodup
      ordered := horder.ordered
      mem_entries_iff := fun name type => (type?_eq_some_iff _).symm.trans (hsome name type)
      type?_eq_some_iff := hsome
      type?_eq_none_iff := fun name => by
        rw [type?_ofDeclarations]
        exact NameMap.get?_ofList_eq_none_iff }

end Signature

/-! ## Registries -/

/-- What is added to a registry. -/
inductive Addition
  | trigger (name : String) (fields : Signature)
  | action (name : String) (inputs : Signature)

namespace Addition

/-- A trigger that is added. -/
def trigger? : Addition → Option (String × Signature)
  | trigger name fields => some (name, fields)
  | action .. => none

/-- An action that is added. -/
def action? : Addition → Option (String × Signature)
  | trigger .. => none
  | action name inputs => some (name, inputs)

end Addition

namespace Registry

def add (r : Registry) : Addition → Registry
  | .trigger name fields => r.addTrigger name fields
  | .action name inputs => r.addAction name inputs

/-- The registry of additions made one after the other. -/
def ofAdditions (additions : List Addition) : Registry := additions.foldl add empty

/-- Triggers and actions are added to different maps. -/
theorem foldl_add (r : Registry) (additions : List Addition) :
    additions.foldl add r =
      ⟨r.triggers.insertAll (additions.filterMap Addition.trigger?),
        r.actions.insertAll (additions.filterMap Addition.action?)⟩ := by
  induction additions generalizing r with
  | nil => rfl
  | cons a additions ih =>
    rw [List.foldl_cons, ih]
    cases a with
    | trigger name fields => rfl
    | action name inputs => rfl

/-- A name stands for what was last added under it as a trigger, or as an action. -/
structure Keeps (r : Registry) (additions : List Addition) : Prop where
  trigger_eq_some_iff : ∀ name fields, r.triggers.get? name = some fields ↔
    IsLast (additions.filterMap Addition.trigger?) name fields
  trigger_eq_none_iff : ∀ name, r.triggers.get? name = none ↔
    name ∉ (additions.filterMap Addition.trigger?).map (·.1)
  action_eq_some_iff : ∀ name inputs, r.actions.get? name = some inputs ↔
    IsLast (additions.filterMap Addition.action?) name inputs
  action_eq_none_iff : ∀ name, r.actions.get? name = none ↔
    name ∉ (additions.filterMap Addition.action?).map (·.1)

theorem keeps_ofAdditions (additions : List Addition) :
    (ofAdditions additions).Keeps additions := by
  have hmaps : ofAdditions additions =
      ⟨.ofList (additions.filterMap Addition.trigger?),
        .ofList (additions.filterMap Addition.action?)⟩ :=
    foldl_add empty additions
  rw [hmaps]
  exact
    { trigger_eq_some_iff := fun _ _ => NameMap.get?_ofList_eq_some_iff
      trigger_eq_none_iff := fun _ => NameMap.get?_ofList_eq_none_iff
      action_eq_some_iff := fun _ _ => NameMap.get?_ofList_eq_some_iff
      action_eq_none_iff := fun _ => NameMap.get?_ofList_eq_none_iff }

end Registry

/-- A signature has the names of its declarations, each once, in the order of the first and with the
type of the last declaration of the name; a registry has the last trigger and the last action of
each name. -/
theorem keeps_last_of_each_name (declarations : List (String × ValueType))
    (additions : List Addition) :
    (Signature.ofDeclarations declarations).Keeps declarations ∧
      (Registry.ofAdditions additions).Keeps additions :=
  ⟨Signature.keeps_ofDeclarations declarations, Registry.keeps_ofAdditions additions⟩

/-- A name that is declared again stays at its place. -/
example : (Signature.ofDeclarations [("code", .int), ("door", .bool), ("code", .string)]).entries =
    [("code", .string), ("door", .bool)] :=
  rfl

end EventMachine
