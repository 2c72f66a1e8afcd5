import EventMachine.Machine.Run
import EventMachine.Proofs.Compile.Entries
import Mathlib.Data.List.Nodup

/-!
# Types at run time

The arguments of a call are checked when a source is compiled, and the event data that they stand
for is bound later. `Machine.WellTyped` is what the compiler guarantees (`wellTyped_of_compile`),
`Carries` is what binding guarantees (`carries_of_bind`), and together they make every call one that
the action's signature admits (`Signature.Binds.admits`).
-/

namespace EventMachine

/-! ## Arguments -/

/-- The operand has the type, where event data has the given types. -/
inductive Operand.HasType (eventData : NameMap ValueType) : Operand → ValueType → Prop
  | literal (value : Value) : HasType eventData (.literal value) value.type
  | eventData {name : String} {type : ValueType} (h : eventData.get? name = some type) :
      HasType eventData (.eventData name) type

/-- The arguments stand in the order of the inputs and have their types; only opaque inputs may be
left out. -/
structure Signature.Binds (inputs : Signature) (eventData : NameMap ValueType)
    (arguments : List (String × Operand)) : Prop where
  inOrder : (arguments.map (·.1)).Sublist (inputs.entries.map (·.1))
  complete : ∀ name type, (name, type) ∈ inputs.entries → type ≠ .constant →
    name ∈ arguments.map (·.1)
  typed : ∀ name operand type, (name, operand) ∈ arguments → (name, type) ∈ inputs.entries →
    operand.HasType eventData type

/-- The values that an action may be called with: distinct inputs in their order, every input that
is not opaque once, with a value of exactly its type. -/
structure Signature.Admits (inputs : Signature) (arguments : Arguments) : Prop where
  distinct : (arguments.map (·.1)).Nodup
  inOrder : (arguments.map (·.1)).Sublist (inputs.entries.map (·.1))
  complete : ∀ name type, (name, type) ∈ inputs.entries → type ≠ .constant →
    (arguments.map (·.1)).count name = 1
  typed : ∀ name value type, (name, value) ∈ arguments → (name, type) ∈ inputs.entries →
    type ≠ .constant → value.type = type

/-- Every name has a value, and one of its type unless the type is opaque. -/
def Carries (eventData : NameMap ValueType) (data : NameMap Value) : Prop :=
  ∀ name type, eventData.get? name = some type →
    ∃ value, data.get? name = some value ∧ (type ≠ .constant → value.type = type)

/-- The value of an operand, by the bound event data. -/
def Operand.value? (data : NameMap Value) : Operand → Option Value
  | .literal value => some value
  | .eventData name => data.get? name

/-- The arguments that have a value, with their values. -/
def argumentValues (data : NameMap Value) (arguments : List (String × Operand)) : Arguments :=
  arguments.filterMap fun (name, operand) => (operand.value? data).map (name, ·)

theorem resolve_eq_ok_iff {data : NameMap Value} {operand : Operand} {value : Value} :
    operand.resolve data = .ok value ↔ operand.value? data = some value := by
  cases operand with
  | literal v => simp [Operand.resolve, Operand.value?]
  | eventData name =>
    unfold Operand.resolve Operand.value?
    cases h : data.get? name <;> simp [h]

theorem resolveArguments_eq_ok_iff {data : NameMap Value} {arguments : List (String × Operand)}
    {values : Arguments} :
    resolveArguments data arguments = .ok values ↔
      (∀ p ∈ arguments, ∃ value, p.2.value? data = some value) ∧
        values = argumentValues data arguments := by
  induction arguments generalizing values with
  | nil =>
    constructor
    · rintro ⟨⟩
      exact ⟨by simp, rfl⟩
    · rintro ⟨-, rfl⟩
      rfl
  | cons p arguments ih =>
    unfold resolveArguments
    simp only [except_bind_eq_ok, resolve_eq_ok_iff, ih, List.forall_mem_cons]
    constructor
    · rintro ⟨value, hv, rest, ⟨hall, rfl⟩, ⟨⟩⟩
      exact ⟨⟨⟨value, hv⟩, hall⟩, by simp [argumentValues, hv]⟩
    · rintro ⟨⟨⟨value, hv⟩, hall⟩, rfl⟩
      refine ⟨value, hv, _, ⟨hall, rfl⟩, ?_⟩
      simp [argumentValues, hv, pure, Except.pure]

section Values

variable {eventData : NameMap ValueType} {data : NameMap Value}

theorem Operand.HasType.exists_value {operand : Operand} {type : ValueType}
    (h : operand.HasType eventData type) (hd : Carries eventData data) :
    ∃ value, operand.value? data = some value ∧ (type ≠ .constant → value.type = type) := by
  cases h with
  | literal value => exact ⟨value, rfl, fun _ => rfl⟩
  | eventData h => exact hd _ _ h

variable {inputs : Signature} {arguments : List (String × Operand)}

theorem Signature.Binds.exists_value (h : inputs.Binds eventData arguments)
    (hd : Carries eventData data) : ∀ p ∈ arguments, ∃ value, p.2.value? data = some value := by
  intro p hp
  have hname : p.1 ∈ inputs.entries.map (·.1) :=
    h.inOrder.subset (List.mem_map.2 ⟨p, hp, rfl⟩)
  obtain ⟨⟨name, type⟩, he, rfl⟩ := List.mem_map.1 hname
  obtain ⟨value, hv, -⟩ := (h.typed _ _ _ hp he).exists_value hd
  exact ⟨value, hv⟩

theorem map_fst_argumentValues (h : ∀ p ∈ arguments, ∃ value, p.2.value? data = some value) :
    (argumentValues data arguments).map (·.1) = arguments.map (·.1) := by
  induction arguments with
  | nil => rfl
  | cons p arguments ih =>
    rw [List.forall_mem_cons] at h
    obtain ⟨⟨value, hv⟩, h⟩ := h
    rw [List.map_cons, ← ih h]
    simp [argumentValues, hv]

/-- Arguments of the declared types have values that the action may be called with. -/
theorem Signature.Binds.admits (h : inputs.Binds eventData arguments)
    (hd : Carries eventData data) : inputs.Admits (argumentValues data arguments) := by
  have hnames := map_fst_argumentValues (h.exists_value hd)
  have hnodup : (arguments.map (·.1)).Nodup := h.inOrder.nodup inputs.nodup
  refine ⟨hnames ▸ hnodup, hnames ▸ h.inOrder, fun name type he ht => ?_,
    fun name value type hv he ht => ?_⟩
  · rw [hnames]
    exact List.nodup_iff_count_eq_one.1 hnodup name (h.complete name type he ht)
  · obtain ⟨⟨n, operand⟩, hp, hmap⟩ := List.mem_filterMap.1 hv
    obtain ⟨v, hov, heq⟩ := Option.map_eq_some_iff.1 hmap
    cases heq
    obtain ⟨v', hov', htype⟩ := (h.typed _ _ _ hp he).exists_value hd
    rw [hov] at hov'
    cases hov'
    exact htype ht

end Values

/-! ## What the compiler guarantees -/

theorem ValueType.type_of_zero? {type : ValueType} {value : Value} (h : type.zero? = some value) :
    value.type = type := by
  cases type <;> cases h <;> rfl

theorem ValueType.exists_zero? {type : ValueType} (h : type ≠ .constant) :
    ∃ value, type.zero? = some value := by
  cases type with
  | constant => exact (h rfl).elim
  | _ => exact ⟨_, rfl⟩

/-- The step is a move, or a call whose arguments fit the inputs of its action. -/
inductive Step.WellTyped (registry : Registry) (eventData : NameMap ValueType) : Step → Prop
  | move (destination : String) : WellTyped registry eventData (.move destination)
  | call {action : String} {arguments : List (String × Operand)} {inputs : Signature}
      (hi : registry.actions.get? action = some inputs) (h : inputs.Binds eventData arguments) :
      WellTyped registry eventData (.call action arguments)

/-- Steps on entry are typed without event data, steps of a trigger with the trigger's. -/
structure Machine.WellTyped (registry : Registry) (m : Machine) : Prop where
  init : ∀ s ∈ m.states, ∀ step ∈ s.init, step.WellTyped registry .empty
  actions : ∀ s ∈ m.states, ∀ t ∈ s.triggers, ∀ step ∈ t.actions,
    step.WellTyped registry t.eventData

namespace Compile

/-- A binding is a supplied operand, or the zero value of an input that is not supplied. -/
theorem mem_bindings {inputs : Signature} {supplied : NameMap Operand} {name : String}
    {operand : Operand} :
    (name, operand) ∈ Scope.bindings inputs supplied ↔
      ∃ type, (name, type) ∈ inputs.entries ∧
        (supplied.get? name = some operand ∨ supplied.get? name = none ∧
          ∃ value, type.zero? = some value ∧ operand = .literal value) := by
  unfold Scope.bindings
  rw [List.mem_filterMap]
  constructor
  · rintro ⟨⟨n, type⟩, he, hmap⟩
    cases hs : supplied.get? n with
    | some o =>
      simp only [hs] at hmap
      cases hmap
      exact ⟨type, he, .inl hs⟩
    | none =>
      simp only [hs] at hmap
      obtain ⟨value, hz, heq⟩ := Option.map_eq_some_iff.1 hmap
      cases heq
      exact ⟨type, he, .inr ⟨hs, value, hz, rfl⟩⟩
  · rintro ⟨type, he, hs | ⟨hs, value, hz, rfl⟩⟩
    · exact ⟨_, he, by simp only [hs]⟩
    · exact ⟨_, he, by simp only [hs, hz, Option.map_some]⟩

theorem map_fst_bindings_sublist (inputs : Signature) (supplied : NameMap Operand) :
    ((Scope.bindings inputs supplied).map (·.1)).Sublist (inputs.entries.map (·.1)) := by
  unfold Scope.bindings
  induction inputs.entries with
  | nil => exact List.Sublist.slnil
  | cons e entries ih =>
    rw [List.filterMap_cons, List.map_cons]
    split
    · exact ih.cons _
    · next b hb =>
      have hname : b.1 = e.1 := by
        cases hs : supplied.get? e.1 with
        | some o =>
          simp only [hs] at hb
          cases hb
          rfl
        | none =>
          simp only [hs] at hb
          obtain ⟨value, -, rfl⟩ := Option.map_eq_some_iff.1 hb
          rfl
      rw [List.map_cons, hname]
      exact ih.cons_cons _

/-- Supplied operands of the right types, and zero values for the others. -/
theorem binds_bindings {inputs : Signature} {eventData : NameMap ValueType}
    {supplied : NameMap Operand} (h : ∀ name operand, supplied.get? name = some operand →
      ∃ type, inputs.type? name = some type ∧ operand.HasType eventData type) :
    inputs.Binds eventData (Scope.bindings inputs supplied) := by
  refine ⟨map_fst_bindings_sublist inputs supplied, fun name type he ht => ?_,
    fun name operand type hp he => ?_⟩
  · rw [List.mem_map]
    cases hs : supplied.get? name with
    | some operand => exact ⟨(name, operand), mem_bindings.2 ⟨type, he, .inl hs⟩, rfl⟩
    | none =>
      obtain ⟨value, hz⟩ := ValueType.exists_zero? ht
      exact ⟨(name, .literal value), mem_bindings.2 ⟨type, he, .inr ⟨hs, value, hz, rfl⟩⟩, rfl⟩
  · obtain ⟨type', he', hs⟩ := mem_bindings.1 hp
    have htype : type' = type :=
      Option.some.inj ((inputs.type?_eq_some_iff.2 he').symm.trans (inputs.type?_eq_some_iff.2 he))
    subst htype
    rcases hs with hs | ⟨-, value, hz, rfl⟩
    · obtain ⟨t, ht, hoperand⟩ := h _ _ hs
      rw [inputs.type?_eq_some_iff.2 he] at ht
      cases ht
      exact hoperand
    · rw [← ValueType.type_of_zero? hz]
      exact .literal value

variable {scope : Scope} {eventData : NameMap ValueType}

theorem Lowers.hasType {constants : NameMap Value} {e : Syntax.Expr} {operand : Operand}
    {type : ValueType} (h : Lowers constants eventData e operand type) :
    operand.HasType eventData type := by
  cases h with
  | eventData h => exact .eventData h
  | constant => exact .literal _

theorem Scope.LowersStatement.wellTyped {s : Syntax.Statement} {step : Step}
    (h : scope.LowersStatement eventData s step) : step.WellTyped scope.registry eventData := by
  cases h with
  | move => exact .move _
  | call h =>
    obtain ⟨inputs, operands, hi, -, hargs, rfl⟩ := h
    refine .call hi (binds_bindings fun name operand hs => ?_)
    rcases NameMap.mem_or_get?_of_insertAll hs with hmem | hempty
    · rw [List.zip_map_left] at hmem
      obtain ⟨⟨arg, o⟩, hzip, heq⟩ := List.mem_map.1 hmem
      cases heq
      obtain ⟨type, ht, hlowers⟩ := List.forall₂_zip hargs hzip
      exact ⟨type, ht, hlowers.hasType⟩
    · cases hempty

theorem Scope.wellTyped_of_forall₂ {statements : List Syntax.Statement} {steps : List Step}
    (h : List.Forall₂ (scope.LowersStatement eventData) statements steps) :
    ∀ step ∈ steps, step.WellTyped scope.registry eventData := by
  intro step hstep
  obtain ⟨s, -, hs⟩ := exists_of_forall₂_mem h hstep
  exact hs.wellTyped

end Compile

/-- A machine that was compiled is well typed. -/
theorem wellTyped_of_compile {compiler : Compiler} {filename : String} {file : Syntax.File}
    {m : Machine} (h : compiler.compile filename file = .ok m) :
    m.WellTyped compiler.registry := by
  have hstates := (compile_eq_ok_iff.1 h).states
  constructor
  · intro s hs
    obtain ⟨d, -, hd⟩ := exists_of_forall₂_mem hstates hs
    exact Compile.Scope.wellTyped_of_forall₂ hd.init
  · intro s hs t ht
    obtain ⟨d, -, hd⟩ := exists_of_forall₂_mem hstates hs
    obtain ⟨t', -, ht'⟩ := exists_of_forall₂_mem hd.triggers ht
    exact Compile.Scope.wellTyped_of_forall₂ ht'.actions

/-! ## What binding guarantees -/

namespace Machine

theorem bindEntries_eq_ok_iff {event : String} {payload : Payload}
    {entries : List (String × ValueType)} {data bound : NameMap Value} :
    bindEntries event payload entries data = .ok bound ↔
      (∀ e ∈ entries, ∃ value, payload.get? e.1 = some value ∧
        (e.2 ≠ .constant → value.type = e.2)) ∧
      bound = data.insertAll (entries.filterMap fun e => (payload.get? e.1).map (e.1, ·)) := by
  induction entries generalizing data with
  | nil =>
    constructor
    · rintro ⟨⟩
      exact ⟨by simp, rfl⟩
    · rintro ⟨-, rfl⟩
      rfl
  | cons e entries ih =>
    obtain ⟨name, type⟩ := e
    unfold bindEntries
    rw [List.forall_mem_cons, List.filterMap_cons]
    cases hp : payload.get? name with
    | none => simp
    | some value =>
      by_cases ht : type ≠ .constant ∧ value.type ≠ type
      · simp only [if_pos ht, reduceCtorEq, Option.some.injEq, exists_eq_left', false_iff]
        rintro ⟨⟨htype, -⟩, -⟩
        exact ht.2 (htype ht.1)
      · simp only [if_neg ht, ih, Option.map_some, NameMap.insertAll_cons, Option.some.injEq,
          exists_eq_left']
        have htype : type ≠ .constant → value.type = type := fun hc =>
          not_not.1 fun hne => ht ⟨hc, hne⟩
        rw [and_assoc, and_iff_right htype]

/-- Event data that was bound has the values of the payload, and they have the declared types. -/
theorem get?_of_bind {t : Trigger} {event : String} {payload : Payload} {data : NameMap Value}
    (h : t.bind event payload = .ok data) {name : String} {type : ValueType}
    (ht : t.eventData.get? name = some type) :
    ∃ value, payload.get? name = some value ∧ data.get? name = some value ∧
      (type ≠ .constant → value.type = type) := by
  obtain ⟨hall, rfl⟩ := bindEntries_eq_ok_iff.1 h
  have he := t.eventData.get?_eq_some_iff.1 ht
  obtain ⟨value, hv, htype⟩ := hall _ he
  refine ⟨value, hv, ?_, htype⟩
  have hvalues : ∀ p ∈ t.eventData.entries.filterMap fun e => (payload.get? e.1).map (e.1, ·),
      p.2 = (payload.get? p.1).getD value := by
    intro p hp
    obtain ⟨e, -, hmap⟩ := List.mem_filterMap.1 hp
    obtain ⟨v, hv, rfl⟩ := Option.map_eq_some_iff.1 hmap
    simp [hv]
  rw [NameMap.get?_insertAll (f := fun n => (payload.get? n).getD value) hvalues, if_pos, hv]
  · rfl
  · refine List.mem_map.2 ⟨(name, value), List.mem_filterMap.2 ⟨_, he, ?_⟩, rfl⟩
    rw [hv]
    rfl

theorem carries_of_bind {t : Trigger} {event : String} {payload : Payload}
    {data : NameMap Value} (h : t.bind event payload = .ok data) : Carries t.eventData data := by
  intro name type ht
  obtain ⟨value, -, hvalue⟩ := get?_of_bind h ht
  exact ⟨value, hvalue⟩

end Machine

end EventMachine
