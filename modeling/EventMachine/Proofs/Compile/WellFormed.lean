import EventMachine.Proofs.Compile.Entries
import Mathlib.Data.List.Induction

/-!
# Well-formed files

`Compiler.WellFormed` states the rules of the language without a pass over the file: names are
distinct, assigned before they are used, declared by the host, and of the types that it declares.
The compiler accepts exactly the files that keep the rules (`compiles_iff_wellFormed`).

1. What the constants are before an entry: `Evaluates` follows the assignments backwards and agrees
   with the constants that the compiler has gathered (`evaluates_iff`).
2. Which type an argument has: `HasType` looks at the last condition and then at the constants, as
   the lowering of operands does (`exists_lowers_iff`).
3. Existence of a lowered state, piece by piece (`exists_lowersState_iff`).
-/

namespace EventMachine

open Syntax (Expr Arg Call Statement Assignment Entry)

namespace Compile

/-! ## The rules -/

/-- The value of an expression after entries, where `seeds` are known before all of them. A name has
the value of its latest assignment, by the entries before that. -/
inductive Evaluates (seeds : NameMap Value) : List Entry → Expr → Value → Prop
  | str {before : List Entry} (text : String) : Evaluates seeds before (.str text) (.str text)
  | int {before : List Entry} (n : Int64) : Evaluates seeds before (.int n) (.int n)
  | float {before : List Entry} (x : Number.Binary64) :
      Evaluates seeds before (.float x) (.float x)
  | bool {before : List Entry} (b : Bool) : Evaluates seeds before (.bool b) (.bool b)
  | seed {before : List Entry} {name : String} {value : Value}
      (unassigned : ∀ a, .assign a ∈ before → a.name ≠ name)
      (h : seeds.get? name = some value) : Evaluates seeds before (.ref name) value
  | assigned {before earlier later : List Entry} {a : Assignment} {name : String} {value : Value}
      (split : before = earlier ++ .assign a :: later) (hn : a.name = name)
      (latest : ∀ b, .assign b ∈ later → b.name ≠ name)
      (h : Evaluates seeds earlier a.value value) : Evaluates seeds before (.ref name) value

/-- The condition mentions the name, and its trigger has a field of this name and type. -/
def Declares (registry : Registry) (c : Syntax.Condition) (name : String) (type : ValueType) :
    Prop :=
  name ∈ c.names ∧
    ∃ fields, registry.triggers.get? c.name = some fields ∧ fields.type? name = some type

/-- The type of an argument where `last` is the last condition: a name is event data of that
condition, if it mentions the name, and else a constant. -/
inductive HasType (registry : Registry) (seeds : NameMap Value) (before : List Entry)
    (last : Option Syntax.Condition) : Expr → ValueType → Prop
  | eventData {c : Syntax.Condition} {name : String} {type : ValueType} (hc : last = some c)
      (h : Declares registry c name type) : HasType registry seeds before last (.ref name) type
  | constant {e : Expr} {value : Value}
      (hidden : ∀ c name, last = some c → e = .ref name → name ∉ c.names)
      (h : Evaluates seeds before e value) : HasType registry seeds before last e value.type

/-- The call names an action, and its arguments have distinct names and the types of the action's
inputs. -/
def FitsAction (registry : Registry) (hasType : Expr → ValueType → Prop) (c : Call) : Prop :=
  ∃ inputs, registry.actions.get? c.name = some inputs ∧ (c.args.map (·.name)).Nodup ∧
    ∀ arg ∈ c.args, ∃ type, inputs.type? arg.name = some type ∧ hasType arg.value type

/-- The condition names a trigger, and its parameters are fields of it whose values have the types
of the fields. -/
def FitsTrigger (registry : Registry) (seeds : NameMap Value) (before : List Entry)
    (c : Syntax.Condition) : Prop :=
  ∃ fields, registry.triggers.get? c.name = some fields ∧
    ∀ p ∈ c.params, ∃ type, fields.type? p.name = some type ∧
      ∀ e, p.value = some e → ∃ value, Evaluates seeds before e value ∧ value.type = type

end Compile

open Compile

/-- The file keeps the rules of the language. -/
structure Compiler.WellFormed (compiler : Compiler) (file : Syntax.File) : Prop where
  /-- There is a state. -/
  nonempty : file.states ≠ []
  /-- No two states have one name. -/
  distinct : (file.states.map (·.name)).Nodup
  /-- A name that is assigned is a seeded constant or was assigned before. -/
  known : ∀ before a after name, file.entries = before ++ .assign a :: after → a.value = .ref name →
    (∃ value, compiler.constants.get? name = some value) ∨ ∃ b, .assign b ∈ before ∧ b.name = name
  /-- Conditions fit their triggers. -/
  declared : ∀ before s after, file.entries = before ++ .state s :: after →
    ∀ t ∈ s.triggers, ∀ c ∈ t.conditions,
      FitsTrigger compiler.registry compiler.constants before c
  /-- Conditions next to each other agree on the types of the names of both. -/
  agree : ∀ s ∈ file.states, ∀ t ∈ s.triggers, t.conditions.IsChain fun b c =>
    ∀ name type type', Declares compiler.registry b name type →
      Declares compiler.registry c name type' → type = type'
  /-- Where narrowing is denied, a condition mentions all names of the one before it. -/
  kept : compiler.narrowing = .deny → ∀ s ∈ file.states, ∀ t ∈ s.triggers,
    t.conditions.IsChain fun b c => ∀ name ∈ b.names, name ∈ c.names
  /-- Calls on entry fit their actions, by the constants alone. -/
  init : ∀ before s after, file.entries = before ++ .state s :: after →
    ∀ c, .call c ∈ s.init →
      FitsAction compiler.registry (HasType compiler.registry compiler.constants before none) c
  /-- Calls of a trigger fit their actions, by its last condition and the constants. -/
  actions : ∀ before s after, file.entries = before ++ .state s :: after →
    ∀ t ∈ s.triggers, ∀ c, .call c ∈ t.actions →
      FitsAction compiler.registry
        (HasType compiler.registry compiler.constants before t.conditions.getLast?) c

namespace Compile

/-! ## Entries in order -/

section Order

variable {seeds : NameMap Value}

theorem constantsAfter_append (before after : List Entry) :
    constantsAfter seeds (before ++ after) =
      constantsAfter (constantsAfter seeds before) after := by
  induction before generalizing seeds with
  | nil => rfl
  | cons e before ih => cases e <;> exact ih

theorem evaluable_append (before after : List Entry) :
    Evaluable seeds (before ++ after) ↔
      Evaluable seeds before ∧ Evaluable (constantsAfter seeds before) after := by
  induction before generalizing seeds with
  | nil => simp [Evaluable, constantsAfter]
  | cons e before ih =>
    cases e with
    | assign a => simp only [List.cons_append, Evaluable, constantsAfter, ih, and_assoc]
    | state s => exact ih

/-- The states of a file, each with the constants gathered before it. -/
theorem mem_scopedStates {entries : List Entry} {constants : NameMap Value} {s : Syntax.State} :
    (constants, s) ∈ scopedStates seeds entries ↔
      ∃ before after, entries = before ++ .state s :: after ∧
        constants = constantsAfter seeds before := by
  induction entries generalizing seeds with
  | nil => simp [scopedStates]
  | cons e entries ih =>
    cases e with
    | assign a =>
      rw [scopedStates, ih]
      constructor
      · rintro ⟨before, after, rfl, rfl⟩
        exact ⟨.assign a :: before, after, rfl, rfl⟩
      · rintro ⟨_ | ⟨e, before⟩, after, h, rfl⟩
        · cases h
        · cases h
          exact ⟨before, after, rfl, rfl⟩
    | state d =>
      rw [scopedStates, List.mem_cons, ih]
      constructor
      · rintro (h | ⟨before, after, rfl, rfl⟩)
        · cases h
          exact ⟨[], entries, rfl, rfl⟩
        · exact ⟨.state d :: before, after, rfl, rfl⟩
      · rintro ⟨_ | ⟨e, before⟩, after, h, rfl⟩
        · cases h
          exact .inl rfl
        · cases h
          exact .inr ⟨before, after, rfl, rfl⟩

/-- A name is known after entries that have values if it is seeded or assigned. -/
theorem exists_get?_constantsAfter_iff {before : List Entry} (h : Evaluable seeds before)
    {name : String} :
    (∃ value, (constantsAfter seeds before).get? name = some value) ↔
      (∃ value, seeds.get? name = some value) ∨ ∃ b, .assign b ∈ before ∧ b.name = name := by
  induction before generalizing seeds with
  | nil => simp [constantsAfter]
  | cons e before ih =>
    cases e with
    | state s => simpa [constantsAfter] using ih h
    | assign a =>
      obtain ⟨⟨value, hv⟩, hrest⟩ := h
      rw [constantsAfter, ih hrest, assign, hv]
      simp only [NameMap.get?_insert, List.mem_cons, Entry.assign.injEq]
      by_cases hn : name = a.name
      · subst hn
        simp
      · simp [hn, Ne.symm hn, or_and_right, exists_or]

/-- A name after one more entry: the entry assigns it, or its value is the one before. -/
theorem evaluates_ref_concat {before : List Entry} {e : Entry} {name : String} {value : Value} :
    Evaluates seeds (before ++ [e]) (.ref name) value ↔
      (∃ a, e = .assign a ∧ a.name = name ∧ Evaluates seeds before a.value value) ∨
        (∀ a, e = .assign a → a.name ≠ name) ∧ Evaluates seeds before (.ref name) value := by
  constructor
  · rintro (_ | _ | _ | _ | ⟨unassigned, h⟩ | @⟨_, earlier, later, a, _, _, split, hn, latest, h⟩)
    · refine .inr ⟨fun a ha => unassigned a (by simp [ha]), .seed (fun b hb => ?_) h⟩
      exact unassigned b (List.mem_append_left _ hb)
    · rcases List.eq_nil_or_concat' later with rfl | ⟨later, d, rfl⟩
      · obtain ⟨rfl, ha⟩ := List.append_inj' split rfl
        exact .inl ⟨a, List.head_eq_of_cons_eq ha, hn, h⟩
      · rw [← List.cons_append, ← List.append_assoc] at split
        obtain ⟨rfl, hd⟩ := List.append_inj' split rfl
        cases hd
        refine .inr ⟨fun b hb => latest b (by simp [hb]), .assigned rfl hn (fun c hc => ?_) h⟩
        exact latest c (List.mem_append_left _ hc)
  · rintro (⟨a, rfl, rfl, h⟩ | ⟨he, h⟩)
    · exact .assigned rfl rfl nofun h
    · have last (c : Assignment) (hc : Entry.assign c ∈ [e]) : c.name ≠ name :=
        he c (List.mem_singleton.1 hc).symm
      cases h with
      | seed unassigned h =>
        exact .seed (fun b hb => (List.mem_append.1 hb).elim (unassigned b) (last b)) h
      | assigned split hn latest h =>
        refine .assigned (by rw [split, List.append_assoc, List.cons_append]) hn (fun c hc => ?_) h
        exact (List.mem_append.1 hc).elim (latest c) (last c)

/-- Following the assignments backwards gives the values that the compiler has gathered. -/
theorem evaluates_iff {before : List Entry} (h : Evaluable seeds before) {e : Expr}
    {value : Value} :
    Evaluates seeds before e value ↔ e.value? (constantsAfter seeds before) = some value := by
  induction before using List.reverseRecOn generalizing e value with
  | nil =>
    cases e with
    | ref name =>
      constructor
      · rintro (_ | _ | _ | _ | ⟨-, h⟩ | ⟨split, -⟩)
        · exact h
        · simp at split
      · exact .seed nofun
    | _ => exact ⟨by rintro ⟨⟩; rfl, by rintro ⟨⟩; constructor⟩
  | append_singleton before entry ih =>
    rw [evaluable_append] at h
    obtain ⟨hbefore, hentry⟩ := h
    cases e with
    | ref name =>
      rw [evaluates_ref_concat, constantsAfter_append]
      simp only [ih hbefore]
      cases entry with
      | state s => simp [constantsAfter]
      | assign a =>
        obtain ⟨⟨v, hv⟩, -⟩ := hentry
        rw [constantsAfter, constantsAfter, assign, hv]
        show _ ↔ ((constantsAfter seeds before).insert a.name v).get? name = some value
        rw [NameMap.get?_insert]
        by_cases hn : a.name = name
        · subst hn
          simp [hv]
        · simp [hn, Ne.symm hn, Expr.value?]
    | _ => exact ⟨by rintro ⟨⟩; rfl, by rintro ⟨⟩; constructor⟩

/-- Assignments have values if each name that they use is known before. -/
theorem evaluable_iff_known {entries : List Entry} :
    Evaluable seeds entries ↔ ∀ before a after name, entries = before ++ .assign a :: after →
      a.value = .ref name →
        (∃ value, seeds.get? name = some value) ∨ ∃ b, .assign b ∈ before ∧ b.name = name := by
  induction entries using List.reverseRecOn with
  | nil => simp [Evaluable]
  | append_singleton entries e ih =>
    rw [evaluable_append]
    constructor
    · rintro ⟨hentries, he⟩ before a after name split hname
      rcases List.eq_nil_or_concat' after with rfl | ⟨after, d, rfl⟩
      · obtain ⟨rfl, ha⟩ := List.append_inj' split rfl
        cases ha
        obtain ⟨⟨value, hv⟩, -⟩ := he
        rw [hname] at hv
        exact (exists_get?_constantsAfter_iff hentries).1 ⟨value, hv⟩
      · rw [← List.cons_append, ← List.append_assoc] at split
        obtain ⟨rfl, -⟩ := List.append_inj' split rfl
        exact ih.1 hentries _ _ _ _ rfl hname
    · intro h
      have hentries : Evaluable seeds entries := ih.2 fun before a after name split hname =>
        h before a (after ++ [e]) name (by simp [split]) hname
      refine ⟨hentries, ?_⟩
      cases e with
      | state s => trivial
      | assign a =>
        refine ⟨?_, trivial⟩
        cases hv : a.value with
        | ref name => exact (exists_get?_constantsAfter_iff hentries).2 (h entries a [] name rfl hv)
        | _ => exact ⟨_, rfl⟩

end Order

/-! ## Piece by piece -/

theorem exists_forall₂_iff {α β : Type} {R : α → β → Prop} {xs : List α} :
    (∃ ys, List.Forall₂ R xs ys) ↔ ∀ x ∈ xs, ∃ y, R x y := by
  induction xs with
  | nil => exact ⟨by simp, fun _ => ⟨[], .nil⟩⟩
  | cons x xs ih =>
    rw [List.forall_mem_cons, ← ih]
    constructor
    · rintro ⟨_, _ | ⟨hx, hxs⟩⟩
      exact ⟨⟨_, hx⟩, _, hxs⟩
    · rintro ⟨⟨y, hx⟩, ys, hxs⟩
      exact ⟨y :: ys, .cons hx hxs⟩

section Pieces

variable {scope : Scope} {seeds : NameMap Value} {before : List Entry}

theorem get?_eventData_eq_some_iff {c : Syntax.Condition} {name : String} {type : ValueType} :
    (scope.eventData c).get? name = some type ↔ Declares scope.registry c name type := by
  unfold Declares
  cases hf : scope.registry.triggers.get? c.name with
  | none =>
    unfold Scope.eventData
    rw [hf]
    simp
  | some fields =>
    rw [Scope.get?_eventData hf]
    by_cases hn : name ∈ c.names <;> simp [hn]

/-- A declared condition declares all names that it mentions. -/
theorem exists_declares {c : Syntax.Condition} (hc : scope.Declared c) {name : String}
    (hn : name ∈ c.names) : ∃ type, Declares scope.registry c name type := by
  obtain ⟨fields, hf, hfits⟩ := hc
  obtain ⟨p, hp, rfl⟩ := List.mem_map.1 hn
  obtain ⟨type, ht, -⟩ := hfits p hp
  exact ⟨type, hn, fields, hf, ht⟩

/-- What it takes for declared conditions to follow each other. -/
theorem isChain_follows_iff {cs : List Syntax.Condition} (hcs : ∀ c ∈ cs, scope.Declared c) :
    cs.IsChain (fun b c => scope.Follows (scope.eventData b) c) ↔
      cs.IsChain (fun b c => ∀ name type type', Declares scope.registry b name type →
        Declares scope.registry c name type' → type = type') ∧
      (scope.narrowing = .deny → cs.IsChain fun b c => ∀ name ∈ b.names, name ∈ c.names) := by
  simp only [List.isChain_iff_forall_rel_of_append_cons_cons]
  have hfollows {b c : Syntax.Condition} : scope.Follows (scope.eventData b) c ↔
      ∀ name type, Declares scope.registry b name type →
        (name ∈ c.names → Declares scope.registry c name type) ∧
          (scope.narrowing = .deny → name ∈ c.names) := by
    unfold Scope.Follows
    simp only [get?_eventData_eq_some_iff]
    refine forall₃_congr fun name type _ => and_congr_left fun _ => imp_congr_right fun hn => ?_
    rw [Option.bind_eq_some_iff]
    exact ⟨fun h => ⟨hn, h⟩, And.right⟩
  constructor
  · intro h
    refine ⟨fun b c l l' split name type type' hb hc => ?_, fun hd b c l l' split name hn => ?_⟩
    · obtain ⟨-, fields, hf, ht⟩ := (hfollows.1 (h split) name type hb).1 hc.1
      obtain ⟨-, fields', hf', ht'⟩ := hc
      rw [hf] at hf'
      cases hf'
      rw [ht] at ht'
      exact Option.some.inj ht'
    · obtain ⟨type, hb⟩ := exists_declares (hcs b (by simp [split])) hn
      exact (hfollows.1 (h split) name type hb).2 hd
  · rintro ⟨hagree, hkept⟩ b c l l' split
    refine hfollows.2 fun name type hb => ⟨fun hn => ?_, fun hd => hkept hd split name hb.1⟩
    obtain ⟨type', hc⟩ := exists_declares (hcs c (by simp [split])) hn
    rw [hagree split name type type' hb hc]
    exact hc

theorem get?_lastEventData_eq_some_iff {cs : List Syntax.Condition} {name : String}
    {type : ValueType} :
    (scope.lastEventData .empty cs).get? name = some type ↔
      ∃ c, cs.getLast? = some c ∧ Declares scope.registry c name type := by
  unfold Scope.lastEventData
  cases cs.getLast? with
  | none => simp
  | some c =>
    rw [Option.map_some, Option.getD_some, get?_eventData_eq_some_iff]
    simp

/-- An argument is lowered at a type if it has the type. -/
theorem exists_lowers_iff (hbefore : Evaluable seeds before)
    (hconstants : scope.constants = constantsAfter seeds before) {cs : List Syntax.Condition}
    (hcs : ∀ c ∈ cs, scope.Declared c) {e : Expr} {type : ValueType} :
    (∃ operand, Lowers scope.constants (scope.lastEventData .empty cs) e operand type) ↔
      HasType scope.registry seeds before cs.getLast? e type := by
  constructor
  · rintro ⟨operand, h | ⟨visible, h⟩⟩
    · obtain ⟨c, hc, h⟩ := get?_lastEventData_eq_some_iff.1 h
      exact .eventData hc h
    · rw [hconstants] at h
      refine .constant (fun c name hc he hn => ?_) ((evaluates_iff hbefore).2 h)
      obtain ⟨type, ht⟩ := exists_declares (hcs c (List.mem_of_getLast? hc)) hn
      have hvisible := visible name he
      rw [get?_lastEventData_eq_some_iff.2 ⟨c, hc, ht⟩] at hvisible
      cases hvisible
  · rintro (⟨hc, h⟩ | ⟨hidden, h⟩)
    · exact ⟨_, .eventData (get?_lastEventData_eq_some_iff.2 ⟨_, hc, h⟩)⟩
    · rw [hconstants]
      refine ⟨_, .constant (fun name he => ?_) ((evaluates_iff hbefore).1 h)⟩
      refine Option.eq_none_iff_forall_ne_some.2 fun type ht => ?_
      obtain ⟨c, hc, hn, -⟩ := get?_lastEventData_eq_some_iff.1 ht
      exact hidden c name hc he hn

theorem exists_lowersStatement_iff (hbefore : Evaluable seeds before)
    (hconstants : scope.constants = constantsAfter seeds before) {cs : List Syntax.Condition}
    (hcs : ∀ c ∈ cs, scope.Declared c) {statements : List Statement} :
    (∃ steps, List.Forall₂ (scope.LowersStatement (scope.lastEventData .empty cs))
        statements steps) ↔
      ∀ c, .call c ∈ statements → FitsAction scope.registry
        (HasType scope.registry seeds before cs.getLast?) c := by
  have hcall {c : Call} : (∃ step, scope.LowersCall (scope.lastEventData .empty cs) c step) ↔
      FitsAction scope.registry (HasType scope.registry seeds before cs.getLast?) c := by
    unfold Scope.LowersCall FitsAction
    constructor
    · rintro ⟨_, inputs, operands, hi, hnodup, hargs, -⟩
      refine ⟨inputs, hi, hnodup, fun arg harg => ?_⟩
      obtain ⟨operand, type, ht, h⟩ := exists_forall₂_iff.1 ⟨operands, hargs⟩ arg harg
      exact ⟨type, ht, (exists_lowers_iff hbefore hconstants hcs).1 ⟨operand, h⟩⟩
    · rintro ⟨inputs, hi, hnodup, hargs⟩
      have haccepts : ∀ arg ∈ c.args,
          ∃ operand, scope.Accepts (scope.lastEventData .empty cs) inputs arg operand := by
        intro arg harg
        obtain ⟨type, ht, h⟩ := hargs arg harg
        obtain ⟨operand, h⟩ := (exists_lowers_iff hbefore hconstants hcs).2 h
        exact ⟨operand, type, ht, h⟩
      obtain ⟨operands, hoperands⟩ := exists_forall₂_iff.2 haccepts
      exact ⟨_, inputs, operands, hi, hnodup, hoperands, rfl⟩
  rw [exists_forall₂_iff]
  constructor
  · intro h c hc
    obtain ⟨step, _ | hstep⟩ := h _ hc
    exact hcall.1 ⟨step, hstep⟩
  · intro h s hs
    cases s with
    | move destination location => exact ⟨_, .move⟩
    | call c =>
      obtain ⟨step, hstep⟩ := hcall.2 (h c hs)
      exact ⟨step, .call hstep⟩

theorem declared_iff_fitsTrigger (hbefore : Evaluable seeds before)
    (hconstants : scope.constants = constantsAfter seeds before) {c : Syntax.Condition} :
    scope.Declared c ↔ FitsTrigger scope.registry seeds before c := by
  unfold Scope.Declared FitsTrigger Scope.Fits
  rw [hconstants]
  simp only [evaluates_iff hbefore]

theorem exists_lowersTrigger_iff (hbefore : Evaluable seeds before)
    (hconstants : scope.constants = constantsAfter seeds before) {t : Syntax.Trigger} :
    (∃ lowered, scope.LowersTrigger t lowered) ↔
      (∀ c ∈ t.conditions, FitsTrigger scope.registry seeds before c) ∧
        (t.conditions.IsChain fun b c => ∀ name type type', Declares scope.registry b name type →
          Declares scope.registry c name type' → type = type') ∧
        (scope.narrowing = .deny →
          t.conditions.IsChain fun b c => ∀ name ∈ b.names, name ∈ c.names) ∧
        ∀ c, .call c ∈ t.actions → FitsAction scope.registry
          (HasType scope.registry seeds before t.conditions.getLast?) c := by
  have hdeclared : (∀ c ∈ t.conditions, FitsTrigger scope.registry seeds before c) ↔
      ∀ c ∈ t.conditions, scope.Declared c :=
    forall₂_congr fun c _ => (declared_iff_fitsTrigger hbefore hconstants).symm
  rw [hdeclared]
  constructor
  · rintro ⟨lowered, hcs, hchain, -, heventData, hactions⟩
    rw [heventData] at hactions
    obtain ⟨hagree, hkept⟩ := (isChain_follows_iff hcs).1 hchain
    exact ⟨hcs, hagree, hkept,
      (exists_lowersStatement_iff hbefore hconstants hcs).1 ⟨_, hactions⟩⟩
  · rintro ⟨hcs, hagree, hkept, hactions⟩
    obtain ⟨steps, hsteps⟩ := (exists_lowersStatement_iff hbefore hconstants hcs).2 hactions
    exact ⟨⟨_, _, steps⟩, hcs, (isChain_follows_iff hcs).2 ⟨hagree, hkept⟩, rfl, rfl, hsteps⟩

theorem exists_lowersState_iff (hbefore : Evaluable seeds before)
    (hconstants : scope.constants = constantsAfter seeds before) {s : Syntax.State} :
    (∃ lowered, scope.LowersState s lowered) ↔
      (∀ c, .call c ∈ s.init → FitsAction scope.registry
        (HasType scope.registry seeds before none) c) ∧
      ∀ t ∈ s.triggers, ∃ lowered, scope.LowersTrigger t lowered := by
  have hnone : ∀ c ∈ ([] : List Syntax.Condition), scope.Declared c := by simp
  have hinit : (∃ steps, List.Forall₂ (scope.LowersStatement .empty) s.init steps) ↔ _ :=
    exists_lowersStatement_iff hbefore hconstants hnone
  rw [← exists_forall₂_iff]
  constructor
  · rintro ⟨lowered, -, hsteps, htriggers⟩
    exact ⟨hinit.1 ⟨_, hsteps⟩, _, htriggers⟩
  · rintro ⟨h, triggers, htriggers⟩
    obtain ⟨steps, hsteps⟩ := hinit.2 h
    exact ⟨⟨s.name, steps, triggers⟩, rfl, hsteps, htriggers⟩

end Pieces

theorem mem_states {file : Syntax.File} {s : Syntax.State} :
    s ∈ file.states ↔ ∃ before after, file.entries = before ++ .state s :: after := by
  unfold Syntax.File.states
  rw [← List.mem_iff_append, List.mem_filterMap]
  constructor
  · rintro ⟨_ | d, he, h⟩
    · cases h
    · cases h
      exact he
  · exact fun h => ⟨_, h, rfl⟩

end Compile

variable {compiler : Compiler} {filename : String} {file : Syntax.File}

theorem exists_lowers_machine_iff :
    (∃ m, compiler.Lowers filename file m) ↔
      file.states ≠ [] ∧ (file.states.map (·.name)).Nodup ∧
        Evaluable compiler.constants file.entries ∧
        ∀ before s after, file.entries = before ++ .state s :: after →
          ∃ lowered, (compiler.scope filename
            (constantsAfter compiler.constants before)).LowersState s lowered := by
  have hstates : (∀ d ∈ scopedStates compiler.constants file.entries,
        ∃ lowered, (compiler.scope filename d.1).LowersState d.2 lowered) ↔
      ∀ before s after, file.entries = before ++ .state s :: after →
        ∃ lowered, (compiler.scope filename
          (constantsAfter compiler.constants before)).LowersState s lowered := by
    simp only [Prod.forall, mem_scopedStates]
    constructor
    · exact fun h before s after split => h _ _ ⟨before, after, split, rfl⟩
    · rintro h _ s ⟨before, after, split, rfl⟩
      exact h before s after split
  rw [← hstates, ← exists_forall₂_iff]
  have hnames {lowered : List Machine.State}
      (h : List.Forall₂ (fun d s => (compiler.scope filename d.1).LowersState d.2 s)
        (scopedStates compiler.constants file.entries) lowered) :
      lowered.map (·.name) = file.states.map (·.name) := by
    rw [map_name_of_lowersState h, map_name_scopedStates]
    rfl
  constructor
  · rintro ⟨m, heval, hnodup, hm, hentry, -⟩
    refine ⟨fun hnil => ?_, hnodup, heval, _, hm⟩
    rw [hnames hm, hnil] at hentry
    cases hentry
  · rintro ⟨hne, hnodup, heval, states, hm⟩
    cases states with
    | nil => exact (hne (List.map_eq_nil_iff.1 (hnames hm).symm)).elim
    | cons first states =>
      exact ⟨⟨_, first.name, first :: states, _, none⟩, heval, hnodup, hm, rfl, rfl, rfl, rfl⟩

/-- The compiler accepts exactly the well-formed files. -/
theorem compiles_iff_wellFormed :
    (∃ m, compiler.compile filename file = .ok m) ↔ compiler.WellFormed file := by
  simp only [compile_eq_ok_iff, exists_lowers_machine_iff]
  constructor
  · rintro ⟨hne, hnodup, heval, hstates⟩
    have hstate {before : List Entry} {s : Syntax.State} {after : List Entry}
        (split : file.entries = before ++ .state s :: after) :=
      (exists_lowersState_iff ((evaluable_append before _).1 (split ▸ heval)).1 rfl).1
        (hstates before s after split)
    have htrigger {before : List Entry} {s : Syntax.State} {after : List Entry}
        (split : file.entries = before ++ .state s :: after) {t : Syntax.Trigger}
        (ht : t ∈ s.triggers) :=
      (exists_lowersTrigger_iff ((evaluable_append before _).1 (split ▸ heval)).1 rfl).1
        ((hstate split).2 t ht)
    refine ⟨hne, hnodup, evaluable_iff_known.1 heval, ?_, ?_, ?_, ?_, ?_⟩
    · exact fun before s after split t ht => (htrigger split ht).1
    · intro s hs t ht
      obtain ⟨before, after, split⟩ := mem_states.1 hs
      exact (htrigger split ht).2.1
    · intro hd s hs t ht
      obtain ⟨before, after, split⟩ := mem_states.1 hs
      exact (htrigger split ht).2.2.1 hd
    · exact fun before s after split => (hstate split).1
    · exact fun before s after split t ht => (htrigger split ht).2.2.2
  · intro h
    have heval : Evaluable compiler.constants file.entries := evaluable_iff_known.2 h.known
    refine ⟨h.nonempty, h.distinct, heval, fun before s after split => ?_⟩
    have hbefore := ((evaluable_append before _).1 (split ▸ heval)).1
    have hs : s ∈ file.states := mem_states.2 ⟨before, after, split⟩
    refine (exists_lowersState_iff hbefore rfl).2 ⟨h.init before s after split, fun t ht => ?_⟩
    exact (exists_lowersTrigger_iff hbefore rfl).2 ⟨h.declared before s after split t ht,
      h.agree s hs t ht, fun hd => h.kept hd s hs t ht, h.actions before s after split t ht⟩

end EventMachine
