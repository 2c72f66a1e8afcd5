import EventMachine.Compile.Basic
import Mathlib.Data.List.Chain
import Mathlib.Data.List.Forall2

/-!
# What a successful compilation gives

`Lowering.Gives` tells the value of a compilation that succeeds and the warnings after it. For the
parts that give no warnings: when exactly they succeed, and with what.

1. An expression has a value by the constants so far (`Scope.eval_eq_ok_iff`); an operand is event
   data or such a value (`Scope.operand_eq_ok_iff`).
2. The arguments of a call succeed if each does and their names are distinct
   (`Scope.foldlM_supply_eq_ok_iff`), so a call succeeds if it fits the inputs of its action
   (`Scope.call_eq_ok_iff`); a move always does (`Scope.statement_eq_ok_iff`).
-/

namespace EventMachine

open Syntax (Expr Arg Call Statement Param)

theorem except_bind_eq_ok {ε α β : Type} {x : Except ε α} {f : α → Except ε β} {b : β} :
    x >>= f = .ok b ↔ ∃ a, x = .ok a ∧ f a = .ok b := by
  cases x with
  | error e => simp [bind, Except.bind]
  | ok a => simp [bind, Except.bind]

theorem exists_of_forall₂_mem {α β : Type} {R : α → β → Prop} {xs : List α} {ys : List β}
    (h : List.Forall₂ R xs ys) {y : β} (hy : y ∈ ys) : ∃ x ∈ xs, R x y := by
  induction h with
  | nil => cases hy
  | cons hxy _ ih =>
    rcases List.mem_cons.1 hy with rfl | hy
    · exact ⟨_, List.mem_cons_self, hxy⟩
    · obtain ⟨x, hx, hr⟩ := ih hy
      exact ⟨x, List.mem_cons_of_mem _ hx, hr⟩

theorem forall₂_symm {α : Type} {R : α → α → Prop} (hR : ∀ x y, R x y → R y x) {xs ys : List α}
    (h : List.Forall₂ R xs ys) : List.Forall₂ R ys xs :=
  (h.imp hR).flip

theorem forall₂_of_forall₂ {α β γ : Type} {R : α → β → Prop} {S : α → γ → Prop} {T : γ → β → Prop}
    (h : ∀ x y z, S x z → R x y → T z y) {xs : List α} {ys : List β} {zs : List γ}
    (hS : List.Forall₂ S xs zs) (hR : List.Forall₂ R xs ys) : List.Forall₂ T zs ys := by
  induction hS generalizing ys with
  | nil =>
    cases hR
    exact .nil
  | cons hs _ ih =>
    cases hR with
    | cons hr hR => exact .cons (h _ _ _ hs hr) (ih hR)

theorem exists_mem_zip_of_forall₂ {α β : Type} {R : α → β → Prop} {xs : List α} {ys : List β}
    (h : List.Forall₂ R xs ys) {x : α} (hx : x ∈ xs) : ∃ y, (x, y) ∈ xs.zip ys := by
  induction h with
  | nil => cases hx
  | cons _ _ ih =>
    rcases List.mem_cons.1 hx with rfl | hx
    · exact ⟨_, List.mem_cons_self⟩
    · obtain ⟨y, hy⟩ := ih hx
      exact ⟨y, List.mem_cons_of_mem _ hy⟩

theorem exists_getElem?_of_forall₂ {α β : Type} {R : α → β → Prop} {xs : List α} {ys : List β}
    (h : List.Forall₂ R xs ys) {i : Nat} {y : β} (hy : ys[i]? = some y) :
    ∃ x, xs[i]? = some x ∧ R x y := by
  induction h generalizing i with
  | nil => cases hy
  | cons hxy _ ih =>
    cases i with
    | zero =>
      cases hy
      exact ⟨_, rfl, hxy⟩
    | succ i => exact ih hy

/-! ## Compilations with warnings -/

namespace Lowering

/-- The compilation succeeds with the value `a` and makes the warnings `ws` into `ws'`. -/
def Gives {α : Type} (p : Lowering α) (ws : List Warning) (a : α) (ws' : List Warning) : Prop :=
  p.run.run ws = (.ok a, ws')

variable {α β : Type} {ws ws' : List Warning} {a : α}

theorem gives_pure {b : α} : Gives (pure a) ws b ws' ↔ b = a ∧ ws' = ws := by
  show ((Except.ok a, ws) = (Except.ok b, ws')) ↔ _
  rw [Prod.mk.injEq, Except.ok.injEq, eq_comm, @eq_comm _ ws]

theorem gives_throw {e : CompileError} : ¬ Gives (throw e) ws a ws' := by
  intro h
  cases congrArg Prod.fst h

theorem gives_liftM {x : Except CompileError α} :
    Gives (liftM x) ws a ws' ↔ x = .ok a ∧ ws' = ws := by
  show ((x, ws) = (Except.ok a, ws')) ↔ _
  rw [Prod.mk.injEq, @eq_comm _ ws]

theorem gives_modify {f : List Warning → List Warning} {u : Unit} :
    Gives (modify f) ws u ws' ↔ ws' = f ws := by
  show ((Except.ok (), f ws) = (Except.ok u, ws')) ↔ _
  rw [Prod.mk.injEq, eq_comm, @eq_comm _ (f ws)]
  simp

theorem gives_bind {p : Lowering α} {f : α → Lowering β} {b : β} :
    Gives (p >>= f) ws b ws' ↔ ∃ a mid, Gives p ws a mid ∧ Gives (f a) mid b ws' := by
  unfold Gives
  rw [ExceptT.run_bind, StateT.run_bind]
  cases hp : p.run.run ws with
  | mk result mid =>
    cases result with
    | error e =>
      constructor
      · intro h
        cases congrArg Prod.fst h
      · rintro ⟨a, mid', h, -⟩
        cases congrArg Prod.fst h
    | ok a =>
      constructor
      · exact fun h => ⟨a, mid, rfl, h⟩
      · rintro ⟨a', mid', h, hf⟩
        cases h
        exact hf

end Lowering

/-! ## Expressions and operands -/

/-- The value of an expression by the given constants. -/
def Syntax.Expr.value? (constants : NameMap Value) : Expr → Option Value
  | .str text => some (.str text)
  | .int n => some (.int n)
  | .float x => some (.float x)
  | .bool b => some (.bool b)
  | .ref name => constants.get? name

namespace Compile

/-- The expression is lowered to the operand, which has the type. -/
inductive Lowers (constants : NameMap Value) (eventData : NameMap ValueType) :
    Expr → Operand → ValueType → Prop
  | eventData {name : String} {type : ValueType} (h : eventData.get? name = some type) :
      Lowers constants eventData (.ref name) (.eventData name) type
  | constant {e : Expr} {value : Value}
      (visible : ∀ name, e = .ref name → eventData.get? name = none)
      (h : e.value? constants = some value) :
      Lowers constants eventData e (.literal value) value.type

namespace Scope

variable {scope : Scope} {eventData : NameMap ValueType} {context : Context}

theorem eval_eq_ok_iff {site : Site} {e : Expr} {value : Value} :
    scope.eval site e = .ok value ↔ e.value? scope.constants = some value := by
  cases e with
  | ref name =>
    unfold eval Expr.value?
    cases h : scope.constants.get? name <;> simp [h]
  | _ => simp [eval, Expr.value?]

theorem operand_eq_ok_iff {site : Site} {e : Expr} {operand : Operand} {type : ValueType} :
    scope.operand eventData site e = .ok (operand, type) ↔
      Lowers scope.constants eventData e operand type := by
  -- what is no event data is a constant expression
  have constant (h : ∀ name, e = .ref name → eventData.get? name = none) :
      (do let value ← scope.eval site e; return (Operand.literal value, value.type)) =
        Except.ok (operand, type) ↔ Lowers scope.constants eventData e operand type := by
    rw [except_bind_eq_ok]
    constructor
    · rintro ⟨value, hv, ⟨⟩⟩
      exact .constant h (eval_eq_ok_iff.1 hv)
    · rintro (@⟨name, _, hn⟩ | ⟨-, hv⟩)
      · rw [h name rfl] at hn
        cases hn
      · exact ⟨_, eval_eq_ok_iff.2 hv, rfl⟩
  cases e with
  | ref name =>
    cases h : eventData.get? name with
    | none =>
      rw [← constant fun n hn => by cases hn; exact h]
      simp only [Scope.operand, h]
    | some t =>
      simp only [Scope.operand, h, Except.ok.injEq, Prod.mk.injEq]
      constructor
      · rintro ⟨rfl, rfl⟩
        exact .eventData h
      · rintro (@⟨_, _, hn⟩ | ⟨visible, -⟩)
        · rw [h] at hn
          cases hn
          exact ⟨rfl, rfl⟩
        · rw [visible name rfl] at h
          cases h
  | _ => exact constant nofun

/-! ## Calls -/

/-- The argument names an input of its type, and is lowered to the operand. -/
def Accepts (scope : Scope) (eventData : NameMap ValueType) (inputs : Signature) (arg : Arg)
    (operand : Operand) : Prop :=
  ∃ type, inputs.type? arg.name = some type ∧
    Lowers scope.constants eventData arg.value operand type

theorem supply_eq_ok_iff {action : String} {inputs : Signature}
    {supplied supplied' : NameMap Operand} {arg : Arg} :
    scope.supply eventData context action inputs supplied arg = .ok supplied' ↔
      supplied.get? arg.name = none ∧
        ∃ operand, scope.Accepts eventData inputs arg operand ∧
          supplied' = supplied.insert arg.name operand := by
  unfold supply Accepts
  cases ht : inputs.type? arg.name with
  | none => simp
  | some type =>
    by_cases hs : supplied.contains arg.name
    · have hsome : supplied.get? arg.name ≠ none := by
        rw [← Option.isSome_iff_ne_none]
        exact hs
      simp [hs, hsome]
    · have hnone : supplied.get? arg.name = none := by
        simpa [NameMap.contains] using hs
      simp only [hs, Bool.false_eq_true, if_false, hnone, true_and, Option.some.injEq]
      rw [except_bind_eq_ok]
      constructor
      · rintro ⟨⟨operand, actual⟩, ho, h⟩
        by_cases he : actual = type
        · subst he
          simp only [ne_eq, not_true_eq_false, if_false] at h
          cases h
          exact ⟨operand, ⟨_, rfl, operand_eq_ok_iff.1 ho⟩, rfl⟩
        · simp [he] at h
      · rintro ⟨operand, ⟨_, rfl, ho⟩, rfl⟩
        refine ⟨(operand, type), operand_eq_ok_iff.2 ho, ?_⟩
        simp only [ne_eq, not_true_eq_false, if_false]
        rfl

/-- Arguments of a call are taken if each of them is and no two have one name. -/
theorem foldlM_supply_eq_ok_iff {action : String} {inputs : Signature} {args : List Arg}
    {supplied supplied' : NameMap Operand} :
    args.foldlM (scope.supply eventData context action inputs) supplied = .ok supplied' ↔
      (args.map (·.name)).Nodup ∧ (∀ arg ∈ args, supplied.get? arg.name = none) ∧
        ∃ operands, List.Forall₂ (scope.Accepts eventData inputs) args operands ∧
          supplied' = supplied.insertAll ((args.map (·.name)).zip operands) := by
  induction args generalizing supplied with
  | nil =>
    constructor
    · rintro ⟨⟩
      exact ⟨.nil, by simp, [], .nil, rfl⟩
    · rintro ⟨-, -, operands, h, rfl⟩
      cases h
      rfl
  | cons arg args ih =>
    rw [List.foldlM_cons, except_bind_eq_ok, List.map_cons, List.nodup_cons]
    constructor
    · rintro ⟨mid, hsupply, hfold⟩
      obtain ⟨hnone, operand, haccepts, rfl⟩ := supply_eq_ok_iff.1 hsupply
      obtain ⟨hnodup, hall, operands, hoperands, rfl⟩ := ih.1 hfold
      have hfree : ∀ a ∈ args, a.name ≠ arg.name ∧ supplied.get? a.name = none := by
        intro a ha
        have := hall a ha
        rw [NameMap.get?_insert] at this
        split at this
        · cases this
        · exact ⟨‹_›, this⟩
      refine ⟨⟨?_, hnodup⟩, ?_, operand :: operands, .cons haccepts hoperands, rfl⟩
      · intro hmem
        obtain ⟨a, ha, he⟩ := List.mem_map.1 hmem
        exact (hfree a ha).1 he
      · rintro a (_ | ⟨_, ha⟩)
        · exact hnone
        · exact (hfree a ha).2
    · rintro ⟨⟨hnew, hnodup⟩, hall, operands, hoperands, rfl⟩
      cases hoperands with
      | cons haccepts hoperands =>
        refine ⟨_, supply_eq_ok_iff.2 ⟨hall arg List.mem_cons_self, _, haccepts, rfl⟩,
          ih.2 ⟨hnodup, fun a ha => ?_, _, hoperands, rfl⟩⟩
        rw [NameMap.get?_insert, if_neg, hall a (List.mem_cons_of_mem _ ha)]
        intro he
        exact hnew (List.mem_map.2 ⟨a, ha, he⟩)

/-- The call names an action whose inputs its arguments fit, and is lowered to the step. -/
def LowersCall (scope : Scope) (eventData : NameMap ValueType) (c : Call) (step : Step) : Prop :=
  ∃ inputs operands, scope.registry.actions.get? c.name = some inputs ∧
    (c.args.map (·.name)).Nodup ∧
    List.Forall₂ (scope.Accepts eventData inputs) c.args operands ∧
    step = .call c.name (bindings inputs (.ofList ((c.args.map (·.name)).zip operands)))

theorem call_eq_ok_iff {c : Call} {step : Step} :
    scope.call eventData context c = .ok step ↔ scope.LowersCall eventData c step := by
  unfold call LowersCall
  cases hi : scope.registry.actions.get? c.name with
  | none => simp
  | some inputs =>
    simp only [except_bind_eq_ok, foldlM_supply_eq_ok_iff, Option.some.injEq, exists_and_left,
      exists_eq_left']
    constructor
    · rintro ⟨_, ⟨hnodup, -, operands, hoperands, rfl⟩, ⟨⟩⟩
      exact ⟨hnodup, operands, hoperands, rfl⟩
    · rintro ⟨hnodup, operands, hoperands, rfl⟩
      exact ⟨_, ⟨hnodup, fun _ _ => rfl, operands, hoperands, rfl⟩, rfl⟩

/-- A move is lowered as it is, whatever its destination. -/
inductive LowersStatement (scope : Scope) (eventData : NameMap ValueType) :
    Statement → Step → Prop
  | move {destination : String} {location : Location} :
      LowersStatement scope eventData (.move destination location) (.move destination)
  | call {c : Call} {step : Step} (h : scope.LowersCall eventData c step) :
      LowersStatement scope eventData (.call c) step

theorem statement_eq_ok_iff {s : Statement} {step : Step} :
    scope.statement eventData context s = .ok step ↔ scope.LowersStatement eventData s step := by
  cases s with
  | move destination location =>
    constructor
    · rintro ⟨⟩
      exact .move
    · rintro ⟨⟩
      rfl
  | call c =>
    refine call_eq_ok_iff.trans ⟨.call, ?_⟩
    rintro (_ | h)
    exact h

theorem mapM_statement_eq_ok_iff {statements : List Statement} {steps : List Step} :
    statements.mapM (scope.statement eventData context) = .ok steps ↔
      List.Forall₂ (scope.LowersStatement eventData) statements steps := by
  induction statements generalizing steps with
  | nil =>
    constructor
    · rintro ⟨⟩
      exact .nil
    · rintro ⟨⟩
      rfl
  | cons s statements ih =>
    rw [List.mapM_cons, except_bind_eq_ok]
    simp only [except_bind_eq_ok, statement_eq_ok_iff, ih]
    constructor
    · rintro ⟨step, hs, steps, hsteps, ⟨⟩⟩
      exact .cons hs hsteps
    · rintro (_ | ⟨hs, hsteps⟩)
      exact ⟨_, hs, _, hsteps, rfl⟩

end Scope

end Compile

end EventMachine
