import EventMachine.Proofs.Compile.Warnings

/-!
# A host that offers more

A file that compiles for a host compiles for one that offers more: more triggers and actions, more
fields of the same triggers, and more constants. The machine is the same, but for the constants that
are added (`compile_of_extends`).

1. A name that was found is found again, with what it stood for (`Registry.Extends`,
   `NameMap.Grows`). What compiles looks up only names that it finds, or, for event data, names of
   its own parameters: so operands (`Lowers.of_grows`), statements
   (`Scope.LowersStatement.of_extends`) and conditions (`Scope.lowered_of_extends`,
   `Scope.eventData_of_extends`) are lowered as before, and so are triggers and states
   (`Scope.LowersState.of_extends`).
2. An assignment has the same value, and the constants after it have grown by the same ones as those
   before it, also where it assigns a name that was added (`grows_assign`).
-/

namespace EventMachine

open Syntax (Expr Arg Call Statement Param Entry Assignment)

/-! ## Offering more -/

/-- Every name of the first signature is in the second one, with its type. -/
def Signature.Extends (s s' : Signature) : Prop :=
  ∀ name type, s.type? name = some type → s'.type? name = some type

/-- The second registry has all actions of the first one as they are, and all its triggers with
their fields at least. -/
structure Registry.Extends (r r' : Registry) : Prop where
  triggers : ∀ name fields, r.triggers.get? name = some fields →
    ∃ fields', r'.triggers.get? name = some fields' ∧ fields.Extends fields'
  actions : ∀ name inputs, r.actions.get? name = some inputs →
    r'.actions.get? name = some inputs

/-- The second map has the names of the first one with their values, and those of `added` that the
first one does not have. -/
def NameMap.Grows {α : Type} (added m m' : NameMap α) : Prop :=
  ∀ name, m'.get? name = (m.get? name).or (added.get? name)

/-- The second compiler is that of a host that offers more. -/
structure Compiler.Extends (compiler compiler' : Compiler) : Prop where
  registry : compiler.registry.Extends compiler'.registry
  narrowing : compiler'.narrowing = compiler.narrowing
  constants : ∀ name value, compiler.constants.get? name = some value →
    compiler'.constants.get? name = some value

theorem Signature.extends_refl (s : Signature) : s.Extends s := fun _ _ h => h

theorem Registry.extends_refl (r : Registry) : r.Extends r :=
  ⟨fun _ fields h => ⟨fields, h, fields.extends_refl⟩, fun _ _ h => h⟩

theorem Registry.Extends.trans {r r' r'' : Registry} (h : r.Extends r') (h' : r'.Extends r'') :
    r.Extends r'' := by
  refine ⟨fun name fields hf => ?_, fun name inputs hi => h'.actions _ _ (h.actions _ _ hi)⟩
  obtain ⟨fields', hf', hfields⟩ := h.triggers name fields hf
  obtain ⟨fields'', hf'', hfields'⟩ := h'.triggers name fields' hf'
  exact ⟨fields'', hf'', fun _ _ ht => hfields' _ _ (hfields _ _ ht)⟩

/-- A trigger may be added, or added again with more fields. -/
theorem Registry.extends_addTrigger {r : Registry} {name : String} {fields : Signature}
    (h : ∀ before, r.triggers.get? name = some before → before.Extends fields) :
    r.Extends (r.addTrigger name fields) := by
  refine ⟨fun other before hbefore => ?_, fun _ _ h => h⟩
  unfold addTrigger
  rw [NameMap.get?_insert]
  split
  · next he => exact ⟨fields, rfl, h before (he ▸ hbefore)⟩
  · exact ⟨before, hbefore, before.extends_refl⟩

/-- An action may be added if there is none of its name. -/
theorem Registry.extends_addAction {r : Registry} {name : String} {inputs : Signature}
    (h : r.actions.get? name = none) : r.Extends (r.addAction name inputs) := by
  refine ⟨fun _ fields hf => ⟨fields, hf, fields.extends_refl⟩, fun other before hbefore => ?_⟩
  unfold addAction
  rw [NameMap.get?_insert, if_neg, hbefore]
  rintro rfl
  rw [h] at hbefore
  cases hbefore

namespace NameMap.Grows

variable {added m m' : NameMap Value}

theorem get? (h : Grows added m m') {name : String} {value : Value}
    (hv : m.get? name = some value) : m'.get? name = some value := by
  rw [h name, hv, Option.some_or]

theorem value? (h : Grows added m m') {e : Expr} {value : Value}
    (hv : e.value? m = some value) : e.value? m' = some value := by
  cases e with
  | ref name => exact h.get? hv
  | _ => exact hv

end NameMap.Grows

namespace Compile

/-! ## Lowering -/

/-- An operand stays: event data comes before constants, and a constant that was found stays. -/
theorem Lowers.of_grows {added constants constants' : NameMap Value}
    {eventData : NameMap ValueType} (hg : NameMap.Grows added constants constants') {e : Expr}
    {operand : Operand} {type : ValueType} (h : Lowers constants eventData e operand type) :
    Lowers constants' eventData e operand type := by
  cases h with
  | eventData h => exact .eventData h
  | constant visible h => exact .constant visible (hg.value? h)

namespace Scope

/-- The second scope is that of a host that offers more. -/
structure Extends (added : NameMap Value) (scope scope' : Scope) : Prop where
  registry : scope.registry.Extends scope'.registry
  narrowing : scope'.narrowing = scope.narrowing
  filename : scope'.filename = scope.filename
  constants : NameMap.Grows added scope.constants scope'.constants

variable {added : NameMap Value} {scope scope' : Scope} {eventData : NameMap ValueType}

theorem LowersStatement.of_extends (hs : scope.Extends added scope') (s : Statement) (step : Step)
    (h : scope.LowersStatement eventData s step) : scope'.LowersStatement eventData s step := by
  cases h with
  | move => exact .move
  | call h =>
    obtain ⟨inputs, operands, haction, hnodup, haccepts, rfl⟩ := h
    refine .call ⟨inputs, operands, hs.registry.actions _ _ haction, hnodup, ?_, rfl⟩
    refine haccepts.imp fun arg operand h => ?_
    obtain ⟨type, htype, hlowers⟩ := h
    exact ⟨type, htype, hlowers.of_grows hs.constants⟩

theorem Fits.of_extends (hs : scope.Extends added scope') {fields fields' : Signature}
    (hfields : fields.Extends fields') {p : Param} (h : scope.Fits fields p) :
    scope'.Fits fields' p := by
  obtain ⟨type, htype, hvalue⟩ := h
  refine ⟨type, hfields _ _ htype, fun e he => ?_⟩
  obtain ⟨value, hv, hvtype⟩ := hvalue e he
  exact ⟨value, hs.constants.value? hv, hvtype⟩

section Conditions

variable {c : Syntax.Condition}

theorem Declared.of_extends (hs : scope.Extends added scope') (h : scope.Declared c) :
    scope'.Declared c := by
  obtain ⟨fields, hf, hfits⟩ := h
  obtain ⟨fields', hf', hfields⟩ := hs.registry.triggers _ _ hf
  exact ⟨fields', hf', fun p hp => (hfits p hp).of_extends hs hfields⟩

/-- The fields of a condition's parameters are those that there were. -/
theorem eventData_of_extends (hs : scope.Extends added scope') (h : scope.Declared c) :
    scope'.eventData c = scope.eventData c := by
  obtain ⟨fields, hf, hfits⟩ := h
  obtain ⟨fields', hf', hfields⟩ := hs.registry.triggers _ _ hf
  refine NameMap.ext_get? fun name => ?_
  rw [get?_eventData hf, get?_eventData hf']
  split
  · next hn =>
    obtain ⟨p, hp, rfl⟩ := List.mem_map.1 hn
    obtain ⟨type, htype, -⟩ := hfits p hp
    rw [htype, hfields _ _ htype]
  · rfl

theorem lowered_of_extends (hs : scope.Extends added scope') (h : scope.Declared c) :
    scope'.lowered c = scope.lowered c := by
  obtain ⟨fields, -, hfits⟩ := h
  have hasked : ∀ p ∈ c.params, scope'.asked? p = scope.asked? p := by
    intro p hp
    obtain ⟨type, -, hvalue⟩ := hfits p hp
    unfold asked?
    cases he : p.value with
    | none => rfl
    | some e =>
      obtain ⟨value, hv, -⟩ := hvalue e he
      rw [Option.bind_some, Option.bind_some, hv, hs.constants.value? hv]
  unfold lowered
  rw [List.filterMap_congr hasked]

theorem Follows.of_extends (hs : scope.Extends added scope') {visible : NameMap ValueType}
    (h : scope.Follows visible c) : scope'.Follows visible c := by
  intro name type hvisible
  obtain ⟨hmentioned, hdeny⟩ := h name type hvisible
  refine ⟨fun hn => ?_, fun hnarrowing => hdeny (hs.narrowing ▸ hnarrowing)⟩
  obtain ⟨fields, hf, htype⟩ := Option.bind_eq_some_iff.1 (hmentioned hn)
  obtain ⟨fields', hf', hfields⟩ := hs.registry.triggers _ _ hf
  exact Option.bind_eq_some_iff.2 ⟨fields', hf', hfields _ _ htype⟩

end Conditions

theorem lastEventData_of_extends (hs : scope.Extends added scope') {cs : List Syntax.Condition}
    (h : ∀ c ∈ cs, scope.Declared c) (visible : NameMap ValueType) :
    scope'.lastEventData visible cs = scope.lastEventData visible cs := by
  unfold lastEventData
  cases hlast : cs.getLast? with
  | none => rfl
  | some c => exact eventData_of_extends hs (h c (List.mem_of_getLast? hlast))

theorem LowersTrigger.of_extends (hs : scope.Extends added scope') (t : Syntax.Trigger)
    (lowered : Machine.Trigger) (h : scope.LowersTrigger t lowered) :
    scope'.LowersTrigger t lowered where
  declared c hc := (h.declared c hc).of_extends hs
  chain := by
    refine h.chain.imp_of_mem_imp fun b c hb hc hfollows => ?_
    rw [eventData_of_extends hs (h.declared b hb)]
    exact hfollows.of_extends hs
  conditions := by
    rw [h.conditions]
    exact List.map_congr_left fun c hc => (lowered_of_extends hs (h.declared c hc)).symm
  eventData := h.eventData.trans (lastEventData_of_extends hs h.declared _).symm
  actions := h.actions.imp (LowersStatement.of_extends hs)

theorem LowersState.of_extends (hs : scope.Extends added scope') {s : Syntax.State}
    {lowered : Machine.State} (h : scope.LowersState s lowered) : scope'.LowersState s lowered where
  name := h.name
  init := h.init.imp (LowersStatement.of_extends hs)
  triggers := h.triggers.imp (LowersTrigger.of_extends hs)

end Scope

/-! ## Entries -/

section Entries

variable {added constants constants' : NameMap Value} {entries : List Entry} {a : Assignment}

/-- An assignment gives its name the same value, also where the name was added. -/
theorem grows_assign (hg : NameMap.Grows added constants constants')
    (h : ∃ value, a.value.value? constants = some value) :
    NameMap.Grows added (assign constants a) (assign constants' a) := by
  obtain ⟨value, hv⟩ := h
  intro name
  unfold assign
  simp only [hv, hg.value? hv, NameMap.get?_insert]
  split
  · exact (Option.some_or).symm
  · exact hg name

theorem grows_constantsAfter (hg : NameMap.Grows added constants constants')
    (h : Evaluable constants entries) :
    NameMap.Grows added (constantsAfter constants entries) (constantsAfter constants' entries) := by
  induction entries generalizing constants constants' with
  | nil => exact hg
  | cons e entries ih =>
    cases e with
    | assign a => exact ih (grows_assign hg h.1) h.2
    | state s => exact ih hg h

theorem evaluable_of_grows (hg : NameMap.Grows added constants constants')
    (h : Evaluable constants entries) : Evaluable constants' entries := by
  induction entries generalizing constants constants' with
  | nil => trivial
  | cons e entries ih =>
    cases e with
    | assign a =>
      obtain ⟨⟨value, hv⟩, hrest⟩ := h
      exact ⟨⟨value, hg.value? hv⟩, ih (grows_assign hg ⟨value, hv⟩) hrest⟩
    | state s => exact ih hg h

/-- Before every state the constants have grown by the same ones. -/
theorem forall₂_scopedStates_of_grows (hg : NameMap.Grows added constants constants')
    (h : Evaluable constants entries) :
    List.Forall₂ (fun d d' => NameMap.Grows added d.1 d'.1 ∧ d'.2 = d.2)
      (scopedStates constants entries) (scopedStates constants' entries) := by
  induction entries generalizing constants constants' with
  | nil => exact .nil
  | cons e entries ih =>
    cases e with
    | assign a => exact ih (grows_assign hg h.1) h.2
    | state s => exact .cons ⟨hg, rfl⟩ (ih hg h)

end Entries

end Compile

open Compile

theorem Compiler.Extends.grows {compiler compiler' : Compiler} (h : compiler.Extends compiler') :
    NameMap.Grows compiler'.constants compiler.constants compiler'.constants := by
  intro name
  cases hv : compiler.constants.get? name with
  | none => rw [Option.none_or]
  | some value => rw [h.constants name value hv, Option.some_or]

/-- What compiles for a host compiles for one that offers more, to the same entry, states and
warnings. The constants are those that there were, with their values, and those of the larger host
that were not there. -/
theorem compile_of_extends {compiler compiler' : Compiler} (hext : compiler.Extends compiler')
    {filename : String} {file : Syntax.File} {m : Machine}
    (h : compiler.compile filename file = .ok m) :
    ∃ constants, compiler'.compile filename file = .ok { m with constants } ∧
      ∀ name, constants.get? name =
        (m.constants.get? name).or (compiler'.constants.get? name) := by
  have hm := compile_eq_ok_iff.1 h
  have hgrows := hext.grows
  have hstates : List.Forall₂ (fun d s => (compiler'.scope filename d.1).LowersState d.2 s)
      (scopedStates compiler'.constants file.entries) m.states := by
    refine forall₂_of_forall₂ (fun d s d' hd hs => ?_)
      (forall₂_scopedStates_of_grows hgrows hm.evaluable) hm.states
    obtain ⟨hconstants, hsame⟩ := hd
    have hscope : (compiler.scope filename d.1).Extends compiler'.constants
        (compiler'.scope filename d'.1) := ⟨hext.registry, hext.narrowing, rfl, hconstants⟩
    rw [hsame]
    exact hs.of_extends hscope
  obtain ⟨ws, hlowers⟩ : ∃ ws, compiler'.Lowers filename file
      { m with constants := constantsAfter compiler'.constants file.entries, warnings := ws } :=
    ⟨_, evaluable_of_grows hgrows hm.evaluable, hm.distinct, hstates, hm.entry, rfl, rfl,
      hm.checksum⟩
  -- the warnings are those of the file
  obtain rfl : ws = m.warnings := (warnings_of_lowers hlowers).trans (warnings_of_lowers hm).symm
  refine ⟨_, compile_eq_ok_iff.2 hlowers, fun name => ?_⟩
  rw [hm.constants]
  exact grows_constantsAfter hgrows hm.evaluable name

namespace Lock

/-- A host with one more field, trigger and action, and with constants, one of which has a name that
the file assigns. -/
def largerHost : Compiler where
  registry := ((compiler.registry.addTrigger "Turn"
    (.ofDeclarations [("digit", .int), ("dial", .string)])).addTrigger "Knock" .empty).addAction
      "light" .empty
  narrowing := .warn
  constants := .ofList [("limit", .int 5), ("tries", .int 3)]

theorem extends_largerHost : compiler.Extends largerHost where
  registry := by
    refine (Registry.Extends.trans (Registry.extends_addTrigger fun before hturn => ?_)
      (Registry.extends_addTrigger fun before hknock => ?_)).trans (Registry.extends_addAction rfl)
    · cases hturn
      intro name type htype
      rw [Signature.type?_eq_some_iff] at htype ⊢
      exact List.mem_append_left [("dial", .string)] htype
    · have hnone : none = some before := hknock
      cases hnone
  narrowing := rfl
  constants := nofun

/-- The limit is the file's, also for the larger host. -/
theorem compiles_for_largerHost :
    compiler.compile "lock" file = .ok machine ∧ compiler.Extends largerHost ∧
      largerHost.compile "lock" file =
        .ok { machine with constants := .ofList [("limit", .int 2), ("tries", .int 3)] } := by
  obtain ⟨constants, hcompile, hconstants⟩ := compile_of_extends extends_largerHost compile_file
  obtain rfl : constants = .ofList [("limit", .int 2), ("tries", .int 3)] := by
    refine NameMap.ext_get? fun name => ?_
    rw [hconstants]
    simp only [machine, largerHost, NameMap.ofList, NameMap.insertAll_cons, NameMap.insertAll_nil,
      NameMap.get?_insert, NameMap.get?_empty]
    split
    · next hlimit => simp [hlimit]
    · split <;> rfl
  exact ⟨compile_file, extends_largerHost, hcompile⟩

end Lock

end EventMachine
