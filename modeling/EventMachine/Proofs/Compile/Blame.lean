import EventMachine.Proofs.Compile.Extension
import EventMachine.Proofs.Compile.Warnings
import EventMachine.Proofs.Syntax.Located

/-!
# What errors and warnings point at

Every error of a compilation that has a site, and every warning, is at the name that it is about,
and tells the construct that the name is in. What it says of the name is true
(`errors_point_at_names`).

1. `Blames` says which name of a file a fault is about, in which construct, and what is wrong with
   it, by the rules of the language.
2. What is put together from parts that fail, or warn, as `Q` allows does so too
   (`FailsAs.bind`, `Lowering.ReportsAs.bind`). A warning counts as the fault that it would be where
   narrowing is denied.
3. So each function of the compiler fails only with faults of its part of the file, from expressions
   up to whole files (`Compiler.reportsAs_lower`).
4. The names of the file are where its source has them (`Blames.isNameAt`).
-/

namespace EventMachine

open Source
open Syntax (Expr Arg Call Statement Param Assignment Entry)

/-- The fault that the warning would be where narrowing is denied. -/
def Warning.fault (w : Warning) : Fault := .narrowedEventData w.name w.condition

namespace Compile

/-! ## Faults of a file -/

/-- The trigger that the context names, in a state that comes after the entries `before`. -/
inductive HasTrigger (file : Syntax.File) : List Entry → Context → Syntax.Trigger → Prop
  | intro {before after : List Entry} {s : Syntax.State} {index : Nat} {t : Syntax.Trigger}
      (split : file.entries = before ++ .state s :: after) (ht : s.triggers[index]? = some t) :
      HasTrigger file before (.trigger s.name index) t

/-- A call among the statements that the context names, with the condition whose event data it sees:
those on entry of a state see none, those of a trigger see that of the last one. -/
inductive HasCall (file : Syntax.File) :
    List Entry → Option Syntax.Condition → Context → Call → Prop
  | init {before after : List Entry} {s : Syntax.State} {c : Call}
      (split : file.entries = before ++ .state s :: after) (hc : .call c ∈ s.init) :
      HasCall file before none (.init s.name) c
  | trigger {before : List Entry} {context : Context} {t : Syntax.Trigger} {c : Call}
      (ht : HasTrigger file before context t) (hc : .call c ∈ t.actions) :
      HasCall file before t.conditions.getLast? context c

/-- The fault is found in what the context names, and the name at the location has it. The constants
`seeds` are known before the file. -/
inductive Blames (registry : Registry) (seeds : NameMap Value) (file : Syntax.File) :
    Context → String → Location → Fault → Prop
  /-- The value of an assignment is not defined before: the name that is assigned. -/
  | assignedValue {before after : List Entry} {a : Assignment} {name : String}
      (split : file.entries = before ++ .assign a :: after) (hv : a.value = .ref name)
      (undefined : ∀ value, ¬ Evaluates seeds before a.value value) :
      Blames registry seeds file (.assignment a.name) a.name a.location (.undefinedVariable name)
  /-- A state is defined a second time. -/
  | duplicateState {before after : List Entry} {s : Syntax.State}
      (split : file.entries = before ++ .state s :: after)
      (second : (stateNames before).count s.name = 1) :
      Blames registry seeds file (.state s.name) s.name s.location (.duplicateState s.name)
  | unspecifiedTrigger {before : List Entry} {context : Context} {t : Syntax.Trigger}
      {c : Syntax.Condition} (ht : HasTrigger file before context t) (hc : c ∈ t.conditions)
      (unspecified : registry.triggers.get? c.name = none) :
      Blames registry seeds file context c.name c.location (.unspecifiedTrigger c.name)
  | unspecifiedEventData {before : List Entry} {context : Context} {t : Syntax.Trigger}
      {c : Syntax.Condition} {p : Param} {fields : Signature}
      (ht : HasTrigger file before context t) (hc : c ∈ t.conditions) (hp : p ∈ c.params)
      (hf : registry.triggers.get? c.name = some fields)
      (unspecified : fields.type? p.name = none) :
      Blames registry seeds file context p.name p.location (.unspecifiedEventData c.name p.name)
  /-- The value that a condition asks for has another type than the field. -/
  | fieldType {before : List Entry} {context : Context} {t : Syntax.Trigger} {c : Syntax.Condition}
      {p : Param} {e : Expr} {value : Value} {expected : ValueType}
      (ht : HasTrigger file before context t) (hc : c ∈ t.conditions) (hp : p ∈ c.params)
      (hd : Declares registry c p.name expected) (hv : p.value = some e)
      (he : Evaluates seeds before e value) (hne : value.type ≠ expected) :
      Blames registry seeds file context p.name p.location
        (.typeMismatch .eventData p.name expected value.type)
  /-- The value that a condition asks for is not defined: the name of the field. -/
  | fieldValue {before : List Entry} {context : Context} {t : Syntax.Trigger} {c : Syntax.Condition}
      {p : Param} {name : String} (ht : HasTrigger file before context t) (hc : c ∈ t.conditions)
      (hp : p ∈ c.params) (hv : p.value = some (.ref name))
      (undefined : ∀ value, ¬ Evaluates seeds before (.ref name) value) :
      Blames registry seeds file context p.name p.location (.undefinedVariable name)
  /-- A field has another type than it has in the condition before. -/
  | redeclaration {before : List Entry} {context : Context} {t : Syntax.Trigger} {index : Nat}
      {b c : Syntax.Condition} {p : Param} {expected actual : ValueType}
      (ht : HasTrigger file before context t) (hb : t.conditions[index]? = some b)
      (hc : t.conditions[index + 1]? = some c) (hp : p ∈ c.params)
      (hbd : Declares registry b p.name expected) (hcd : Declares registry c p.name actual)
      (hne : expected ≠ actual) :
      Blames registry seeds file context p.name p.location
        (.typeMismatch .redeclaration p.name expected actual)
  /-- A condition leaves out a name of the one before it: the trigger name of the later one. -/
  | narrowed {before : List Entry} {context : Context} {t : Syntax.Trigger} {index : Nat}
      {b c : Syntax.Condition} {name : String} (ht : HasTrigger file before context t)
      (hb : t.conditions[index]? = some b) (hc : t.conditions[index + 1]? = some c)
      (hn : name ∈ b.lost c) :
      Blames registry seeds file context c.name c.location (.narrowedEventData name (index + 1))
  | unspecifiedAction {before : List Entry} {last : Option Syntax.Condition} {context : Context}
      {c : Call} (hc : HasCall file before last context c)
      (unspecified : registry.actions.get? c.name = none) :
      Blames registry seeds file context c.name c.location (.unspecifiedAction c.name)
  | unspecifiedArgument {before : List Entry} {last : Option Syntax.Condition} {context : Context}
      {c : Call} {a : Arg} {inputs : Signature} (hc : HasCall file before last context c)
      (ha : a ∈ c.args) (hi : registry.actions.get? c.name = some inputs)
      (unspecified : inputs.type? a.name = none) :
      Blames registry seeds file context a.name a.location (.unspecifiedArgument c.name a.name)
  /-- An argument is given a second time. -/
  | duplicateArgument {before : List Entry} {last : Option Syntax.Condition} {context : Context}
      {c : Call} {args args' : List Arg} {a : Arg} (hc : HasCall file before last context c)
      (split : c.args = args ++ a :: args') (second : (args.map (·.name)).count a.name = 1) :
      Blames registry seeds file context a.name a.location (.duplicateArgument c.name a.name)
  | argumentType {before : List Entry} {last : Option Syntax.Condition} {context : Context}
      {c : Call} {a : Arg} {inputs : Signature} {expected actual : ValueType}
      (hc : HasCall file before last context c) (ha : a ∈ c.args)
      (hi : registry.actions.get? c.name = some inputs)
      (htype : inputs.type? a.name = some expected)
      (hv : HasType registry seeds before last a.value actual) (hne : actual ≠ expected) :
      Blames registry seeds file context a.name a.location
        (.typeMismatch .argument (c.name ++ "." ++ a.name) expected actual)
  /-- The value of an argument is neither event data nor defined: the name of the argument. -/
  | argumentValue {before : List Entry} {last : Option Syntax.Condition} {context : Context}
      {c : Call} {a : Arg} {name : String} (hc : HasCall file before last context c)
      (ha : a ∈ c.args) (hv : a.value = .ref name)
      (undefined : ∀ type, ¬ HasType registry seeds before last a.value type) :
      Blames registry seeds file context a.name a.location (.undefinedVariable name)

/-- The site is in the file, where the name is that has the fault. -/
def PointsAt (registry : Registry) (seeds : NameMap Value) (file : Syntax.File) (filename : String)
    (site : Site) (fault : Fault) : Prop :=
  site.filename = filename ∧
    ∃ name, Blames registry seeds file site.context name site.location fault

/-! ## Faults of what is put together -/

section Results

variable {Q : Site → Fault → Prop} {α β : Type}

/-- If there is an error, it is a fault at a site as `Q` allows it. -/
def FailsAs (Q : Site → Fault → Prop) (x : Except CompileError α) : Prop :=
  ∀ e, x = .error e → ∃ site fault, e = .semantic site fault ∧ Q site fault

theorem failsAs_ok {a : α} : FailsAs Q (.ok a) := nofun

theorem failsAs_error {site : Site} {fault : Fault} (h : Q site fault) :
    FailsAs Q (.error (.semantic site fault) : Except CompileError α) := by
  rintro e ⟨⟩
  exact ⟨site, fault, rfl, h⟩

theorem FailsAs.bind {x : Except CompileError α} {f : α → Except CompileError β}
    (hx : FailsAs Q x) (hf : ∀ a, x = .ok a → FailsAs Q (f a)) : FailsAs Q (x >>= f) := by
  cases x with
  | error e =>
    rintro e' ⟨⟩
    exact hx e rfl
  | ok a => exact hf a rfl

theorem failsAs_ite {c : Prop} [Decidable c] {x y : Except CompileError α} (hx : c → FailsAs Q x)
    (hy : ¬ c → FailsAs Q y) : FailsAs Q (if c then x else y) := by
  split
  · exact hx ‹_›
  · exact hy ‹_›

theorem failsAs_mapM {f : α → Except CompileError β} {as : List α}
    (h : ∀ a ∈ as, FailsAs Q (f a)) : FailsAs Q (as.mapM f) := by
  induction as with
  | nil => exact failsAs_ok
  | cons a as ih =>
    rw [List.forall_mem_cons] at h
    rw [List.mapM_cons]
    exact h.1.bind fun b _ => (ih h.2).bind fun bs _ => failsAs_ok

/-- Each item of a fold comes after those before it. -/
theorem failsAs_foldlM {f : β → α → Except CompileError β} {as : List α} {b : β}
    (h : ∀ before a after b', as = before ++ a :: after → before.foldlM f b = .ok b' →
      FailsAs Q (f b' a)) : FailsAs Q (as.foldlM f b) := by
  induction as generalizing b with
  | nil => exact failsAs_ok
  | cons a as ih =>
    rw [List.foldlM_cons]
    refine (h [] a as b rfl rfl).bind fun b₁ hb₁ => ih fun before a' after b' split hb' => ?_
    refine h (a :: before) a' after b' (congrArg (a :: ·) split) ?_
    rw [List.foldlM_cons, hb₁]
    exact hb'

/-- The first of the items from an index on, and those behind it. -/
theorem getElem?_of_drop_eq_cons {as rest : List α} {a : α} {n : Nat}
    (h : as.drop n = a :: rest) : as[n]? = some a ∧ as.drop (n + 1) = rest := by
  constructor
  · rw [← List.head?_drop, h]
    rfl
  · rw [← List.tail_drop, h]
    rfl

end Results

end Compile

namespace Lowering

open Compile

variable {Q : Site → Fault → Prop} {α β : Type}

/-- The warnings that are added, and the error if there is one, are faults at sites as `Q` allows
them. -/
def ReportsAs (Q : Site → Fault → Prop) (p : Lowering α) : Prop :=
  ∀ ws, (∀ w ∈ ws, Q w.site w.fault) →
    (∀ w ∈ (p.run.run ws).2, Q w.site w.fault) ∧ FailsAs Q (p.run.run ws).1

theorem reportsAs_liftM {x : Except CompileError α} (h : FailsAs Q x) :
    ReportsAs Q (liftM x : Lowering α) :=
  fun _ hws => ⟨hws, h⟩

theorem reportsAs_pure {a : α} : ReportsAs Q (pure a : Lowering α) :=
  reportsAs_liftM failsAs_ok

theorem reportsAs_throw {site : Site} {fault : Fault} (h : Q site fault) :
    ReportsAs Q (throw (.semantic site fault) : Lowering α) :=
  reportsAs_liftM (failsAs_error h)

theorem ReportsAs.bind {p : Lowering α} {f : α → Lowering β} (hp : p.ReportsAs Q)
    (hf : ∀ ws a ws', p.Gives ws a ws' → (f a).ReportsAs Q) : (p >>= f).ReportsAs Q := by
  intro ws hws
  obtain ⟨hmid, herror⟩ := hp ws hws
  cases hrun : p.run.run ws with
  | mk result mid =>
    rw [hrun] at hmid herror
    cases result with
    | error e =>
      rw [run_bind_of_error hrun]
      exact ⟨hmid, herror.bind (f := fun _ => .error e) nofun⟩
    | ok a =>
      rw [run_bind_of_ok hrun]
      exact hf ws a mid hrun mid hmid

theorem reportsAs_foldlM {f : β → α → Lowering β} {as : List α}
    (h : ∀ a ∈ as, ∀ b, (f b a).ReportsAs Q) (b : β) : (as.foldlM f b).ReportsAs Q := by
  induction as generalizing b with
  | nil => exact reportsAs_pure
  | cons a as ih =>
    rw [List.forall_mem_cons] at h
    rw [List.foldlM_cons]
    exact (h.1 b).bind fun _ b' _ _ => ih h.2 b'

end Lowering

namespace Compile.Scope

open Lowering

variable {scope : Scope} {seeds : NameMap Value} {file : Syntax.File} {before : List Entry}
  {context : Context}

/-! ## Expressions and calls -/

section Expressions

variable {Q : Site → Fault → Prop} {site : Site} {e : Expr}

/-- Only a name without a value fails. -/
theorem failsAs_eval (h : ∀ name, e = .ref name →
    (∀ value, e.value? scope.constants ≠ some value) → Q site (.undefinedVariable name)) :
    FailsAs Q (scope.eval site e) := by
  cases e with
  | ref name =>
    cases hvalue : scope.constants.get? name with
    | none =>
      simp only [eval, hvalue]
      refine failsAs_error (h name rfl fun value hv => ?_)
      cases hvalue.symm.trans hv
    | some value =>
      simp only [eval, hvalue]
      exact failsAs_ok
  | _ => exact failsAs_ok

/-- Only a name that is not event data and has no value fails. -/
theorem failsAs_operand {eventData : NameMap ValueType} (h : ∀ name, e = .ref name →
    (∀ operand type, ¬ Lowers scope.constants eventData e operand type) →
      Q site (.undefinedVariable name)) :
    FailsAs Q (scope.operand eventData site e) := by
  cases e with
  | ref name =>
    cases hdata : eventData.get? name with
    | none =>
      simp only [operand, hdata]
      refine (failsAs_eval fun name' hname hvalue => h name' hname ?_).bind fun _ _ => failsAs_ok
      rintro operand type (@⟨_, _, hn⟩ | ⟨-, hv⟩)
      · cases hdata.symm.trans hn
      · exact hvalue _ hv
    | some type =>
      simp only [operand, hdata]
      exact failsAs_ok
  | _ => exact failsAs_ok

end Expressions

theorem not_evaluates (hbefore : Evaluable seeds before)
    (hconstants : scope.constants = constantsAfter seeds before) {e : Expr}
    (h : ∀ value, e.value? scope.constants ≠ some value) (value : Value) :
    ¬ Evaluates seeds before e value := by
  rw [evaluates_iff hbefore, ← hconstants]
  exact h value

section Calls

variable {eventData : NameMap ValueType} {last : Option Syntax.Condition} {c : Call}

theorem failsAs_supply {inputs : Signature} {args args' : List Arg} {a : Arg}
    {supplied : NameMap Operand} (hc : HasCall file before last context c)
    (htype : ∀ e type, (∃ operand, Lowers scope.constants eventData e operand type) ↔
      HasType scope.registry seeds before last e type)
    (hi : scope.registry.actions.get? c.name = some inputs) (split : c.args = args ++ a :: args')
    (hsupplied : supplied.contains a.name = true → (args.map (·.name)).count a.name = 1) :
    FailsAs (PointsAt scope.registry seeds file scope.filename)
      (scope.supply eventData context c.name inputs supplied a) := by
  have ha : a ∈ c.args := by simp [split]
  unfold supply
  cases hinput : inputs.type? a.name with
  | none => exact failsAs_error ⟨rfl, _, .unspecifiedArgument hc ha hi hinput⟩
  | some type =>
    refine failsAs_ite (fun h => ?_) fun _ => (failsAs_operand fun name hv hnone => ?_).bind
      fun r hr => failsAs_ite (fun hne => ?_) fun _ => failsAs_ok
    · exact failsAs_error ⟨rfl, _, .duplicateArgument hc split (hsupplied h)⟩
    · refine ⟨rfl, _, .argumentValue hc ha hv fun type h => ?_⟩
      obtain ⟨operand, hoperand⟩ := (htype _ _).2 h
      exact hnone operand type hoperand
    · have hactual := (htype _ _).1 ⟨r.1, operand_eq_ok_iff.1 hr⟩
      exact failsAs_error ⟨rfl, _, .argumentType hc ha hi hinput hactual hne⟩

/-- The arguments that have been taken have distinct names. -/
theorem count_of_contains {action : String} {inputs : Signature} {args : List Arg}
    {supplied : NameMap Operand} {name : String}
    (h : args.foldlM (scope.supply eventData context action inputs) .empty = .ok supplied)
    (hname : supplied.contains name = true) : (args.map (·.name)).count name = 1 := by
  obtain ⟨hnodup, -, operands, -, rfl⟩ := foldlM_supply_eq_ok_iff.1 h
  refine List.count_eq_one_of_mem hnodup ?_
  obtain ⟨operand, hget⟩ := Option.isSome_iff_exists.1 hname
  have hmem := NameMap.mem_names_ofList.1 ((NameMap.mem_names _).2 ⟨operand, hget⟩)
  obtain ⟨p, hp, rfl⟩ := List.mem_map.1 hmem
  exact (List.of_mem_zip hp).1

/-- A call fails for its action or for one of its arguments. -/
theorem failsAs_call (hc : HasCall file before last context c)
    (htype : ∀ e type, (∃ operand, Lowers scope.constants eventData e operand type) ↔
      HasType scope.registry seeds before last e type) :
    FailsAs (PointsAt scope.registry seeds file scope.filename)
      (scope.call eventData context c) := by
  unfold call
  cases hi : scope.registry.actions.get? c.name with
  | none => exact failsAs_error ⟨rfl, _, .unspecifiedAction hc hi⟩
  | some inputs =>
    refine (failsAs_foldlM fun args a args' supplied split h => ?_).bind fun _ _ => failsAs_ok
    exact failsAs_supply hc htype hi split (count_of_contains h)

theorem failsAs_statements {statements : List Statement}
    (h : ∀ c, .call c ∈ statements → HasCall file before last context c)
    (htype : ∀ e type, (∃ operand, Lowers scope.constants eventData e operand type) ↔
      HasType scope.registry seeds before last e type) :
    FailsAs (PointsAt scope.registry seeds file scope.filename)
      (statements.mapM (scope.statement eventData context)) := by
  refine failsAs_mapM fun s hs => ?_
  cases s with
  | move destination location => exact failsAs_ok
  | call c => exact failsAs_call (h c hs) htype

end Calls

/-! ## Conditions -/

section Conditions

variable {t : Syntax.Trigger} {index : Nat}

/-- Every visible name has its type from the condition in front of the one with the index. -/
def DeclaredBefore (scope : Scope) (t : Syntax.Trigger) (index : Nat)
    (visible : NameMap ValueType) : Prop :=
  ∀ name type, visible.get? name = some type →
    ∃ i b, index = i + 1 ∧ t.conditions[i]? = some b ∧ Declares scope.registry b name type

theorem failsAs_param {c : Syntax.Condition} {fields : Signature} {p : Param}
    {visible : NameMap ValueType} {constraints : NameMap Value} (hbefore : Evaluable seeds before)
    (hconstants : scope.constants = constantsAfter seeds before)
    (ht : HasTrigger file before context t) (hc : t.conditions[index]? = some c)
    (hf : scope.registry.triggers.get? c.name = some fields) (hp : p ∈ c.params)
    (hvisible : ∀ previous, visible.get? p.name = some previous →
      fields.type? p.name = some previous ∨ ∃ i b, index = i + 1 ∧ t.conditions[i]? = some b ∧
        Declares scope.registry b p.name previous) :
    FailsAs (PointsAt scope.registry seeds file scope.filename)
      (scope.param context c.name fields (visible, constraints) p) := by
  have hmem : c ∈ t.conditions := List.mem_of_getElem? hc
  unfold param
  cases htype : fields.type? p.name with
  | none => exact failsAs_error ⟨rfl, _, .unspecifiedEventData ht hmem hp hf htype⟩
  | some type =>
    dsimp only
    have hdeclares : Declares scope.registry c p.name type :=
      ⟨List.mem_map_of_mem hp, fields, hf, htype⟩
    -- how the name was visible before
    have join {found : NameMap Value} {r : Except CompileError (NameMap ValueType × NameMap Value)}
        (hr : r = (visible.get? p.name).elim (.ok (visible.insert p.name type, found))
          fun previous =>
            if previous ≠ type then
              .error (.semantic (scope.site p.location context)
                (.typeMismatch .redeclaration p.name previous type))
            else .ok (visible, found)) :
        FailsAs (PointsAt scope.registry seeds file scope.filename) r := by
      subst hr
      cases hprevious : visible.get? p.name with
      | none => exact failsAs_ok
      | some previous =>
        refine failsAs_ite (fun hne => ?_) fun _ => failsAs_ok
        rcases hvisible previous hprevious with hsame | ⟨i, b, rfl, hb, hbd⟩
        · exact (hne (Option.some.inj (hsame.symm.trans htype))).elim
        · exact failsAs_error ⟨rfl, _, .redeclaration ht hb hc hp hbd hdeclares hne⟩
    cases hv : p.value with
    | none => exact @join constraints _ (by cases visible.get? p.name <;> rfl)
    | some e =>
      refine (failsAs_eval fun name he hnone => ?_).bind fun value hvalue =>
        failsAs_ite (fun hne => ?_) fun _ => ?_
      · subst he
        exact ⟨rfl, _, .fieldValue ht hmem hp hv (not_evaluates hbefore hconstants hnone)⟩
      · rw [eval_eq_ok_iff, hconstants, ← evaluates_iff hbefore] at hvalue
        refine FailsAs.bind (failsAs_error ?_) nofun
        exact ⟨rfl, _, .fieldType ht hmem hp hdeclares hv hvalue hne⟩
      · exact @join (constraints.insert p.name value) _ (by cases visible.get? p.name <;> rfl)

/-- Dropping a name is the warning, or the fault, at the site. -/
theorem reportsAs_drop {Q : Site → Fault → Prop} {site : Site} {name : String}
    {visible : NameMap ValueType} (h : Q site (.narrowedEventData name index)) :
    (scope.drop site index visible name).ReportsAs Q := by
  unfold drop
  cases scope.narrowing with
  | deny => exact reportsAs_throw h
  | warn =>
    refine ReportsAs.bind (fun ws hws => ⟨fun w hw => ?_, failsAs_ok⟩) fun _ _ _ _ => reportsAs_pure
    rcases List.mem_append.1 hw with hw | hw
    · exact hws w hw
    · rw [List.mem_singleton.1 hw]
      exact h

/-- A condition fails for its trigger or for a parameter, or for what it drops. -/
theorem reportsAs_condition {c : Syntax.Condition} {visible : NameMap ValueType}
    (hbefore : Evaluable seeds before)
    (hconstants : scope.constants = constantsAfter seeds before)
    (ht : HasTrigger file before context t) (hc : t.conditions[index]? = some c)
    (hvisible : scope.DeclaredBefore t index visible) :
    (scope.condition context index visible c).ReportsAs
      (PointsAt scope.registry seeds file scope.filename) := by
  unfold condition
  cases hf : scope.registry.triggers.get? c.name with
  | none => exact reportsAs_throw ⟨rfl, _, .unspecifiedTrigger ht (List.mem_of_getElem? hc) hf⟩
  | some fields =>
    refine (reportsAs_liftM (failsAs_foldlM fun params p params' found split hfound => ?_)).bind
      fun _ found _ _ => (reportsAs_foldlM (fun name hname left => ?_) found.1).bind
        fun _ _ _ _ => reportsAs_pure
    · -- what is visible comes from the condition before or from the parameters before
      obtain ⟨-, -, hvisible', -⟩ := foldlM_param_eq_ok_iff.1 hfound
      refine failsAs_param hbefore hconstants ht hc hf (by simp [split]) fun previous hget => ?_
      rw [hvisible'] at hget
      rcases NameMap.mem_or_get?_of_insertAll hget with hmem | hget
      · obtain ⟨q, -, hq⟩ := List.mem_filterMap.1 hmem
        obtain ⟨type, htype, heq⟩ := Option.map_eq_some_iff.1 hq
        obtain ⟨hname, rfl⟩ := Prod.mk.inj heq
        exact .inl (hname ▸ htype)
      · exact .inr (hvisible p.name previous hget)
    · obtain ⟨hname, hnew⟩ := List.mem_filter.1 hname
      obtain ⟨type, hget⟩ := (NameMap.mem_names _).1 hname
      obtain ⟨i, b, rfl, hb, hdeclares⟩ := hvisible name type hget
      rw [c.any_name_eq] at hnew
      refine reportsAs_drop ⟨rfl, _, .narrowed ht hb hc ?_⟩
      exact Syntax.Condition.mem_lost.2 ⟨hdeclares.1, by simpa using hnew⟩

theorem reportsAs_conditions {cs : List Syntax.Condition} {visible : NameMap ValueType}
    (hbefore : Evaluable seeds before)
    (hconstants : scope.constants = constantsAfter seeds before)
    (ht : HasTrigger file before context t) (hcs : t.conditions.drop index = cs)
    (hvisible : scope.DeclaredBefore t index visible) :
    (scope.conditions context index visible cs).ReportsAs
      (PointsAt scope.registry seeds file scope.filename) := by
  induction cs generalizing index visible with
  | nil => exact reportsAs_pure
  | cons c cs ih =>
    obtain ⟨hc, hrest⟩ := getElem?_of_drop_eq_cons hcs
    refine (reportsAs_condition hbefore hconstants ht hc hvisible).bind fun ws r ws' hr => ?_
    -- what this condition leaves is what it declares
    obtain ⟨-, -, -, hleft, -⟩ := condition_gives_iff.1 hr
    have hdeclared : scope.DeclaredBefore t (index + 1) r.2 := by
      intro name type hget
      rw [hleft] at hget
      exact ⟨index, c, rfl, hc, get?_eventData_eq_some_iff.1 hget⟩
    exact (ih hrest hdeclared).bind fun _ _ _ _ => reportsAs_pure

end Conditions

/-! ## Triggers and states -/

section States

variable {after : List Entry} {s : Syntax.State} {index : Nat}

theorem reportsAs_trigger {t : Syntax.Trigger} (hbefore : Evaluable seeds before)
    (hconstants : scope.constants = constantsAfter seeds before)
    (split : file.entries = before ++ .state s :: after) (ht : s.triggers[index]? = some t) :
    (scope.trigger s.name index t).ReportsAs
      (PointsAt scope.registry seeds file scope.filename) := by
  have htrigger : HasTrigger file before (.trigger s.name index) t := .intro split ht
  have hempty : scope.DeclaredBefore t 0 .empty := by
    intro name type hget
    cases hget
  refine (reportsAs_conditions hbefore hconstants htrigger rfl hempty).bind fun ws r ws' hr => ?_
  obtain ⟨hdeclared, -, -, -, hleft, -⟩ := conditions_gives_iff.1 hr
  have htype (e : Expr) (type : ValueType) :
      (∃ operand, Lowers scope.constants r.2 e operand type) ↔
        HasType scope.registry seeds before t.conditions.getLast? e type := by
    rw [hleft]
    exact exists_lowers_iff hbefore hconstants hdeclared
  exact (reportsAs_liftM (failsAs_statements (fun c hc => .trigger htrigger hc) htype)).bind
    fun _ _ _ _ => reportsAs_pure

theorem reportsAs_triggers {ts : List Syntax.Trigger} (hbefore : Evaluable seeds before)
    (hconstants : scope.constants = constantsAfter seeds before)
    (split : file.entries = before ++ .state s :: after) (hts : s.triggers.drop index = ts) :
    (scope.triggers s.name index ts).ReportsAs
      (PointsAt scope.registry seeds file scope.filename) := by
  induction ts generalizing index with
  | nil => exact reportsAs_pure
  | cons t ts ih =>
    obtain ⟨ht, hrest⟩ := getElem?_of_drop_eq_cons hts
    exact (reportsAs_trigger hbefore hconstants split ht).bind fun _ _ _ _ =>
      (ih hrest).bind fun _ _ _ _ => reportsAs_pure

theorem reportsAs_state {known : List Machine.State} (hbefore : Evaluable seeds before)
    (hconstants : scope.constants = constantsAfter seeds before)
    (split : file.entries = before ++ .state s :: after)
    (hknown : known.map (·.name) = stateNames before) (hdistinct : (stateNames before).Nodup) :
    (scope.state known s).ReportsAs (PointsAt scope.registry seeds file scope.filename) := by
  have htype (e : Expr) (type : ValueType) :
      (∃ operand, Lowers scope.constants .empty e operand type) ↔
        HasType scope.registry seeds before none e type :=
    exists_lowers_iff hbefore hconstants (List.forall_mem_nil _)
  unfold state
  split
  · next hany =>
    have hmem : s.name ∈ stateNames before := by
      rw [← hknown]
      simpa using hany
    exact reportsAs_throw ⟨rfl, _, .duplicateState split (List.count_eq_one_of_mem hdistinct hmem)⟩
  · refine (reportsAs_liftM (failsAs_statements (fun c hc => .init split hc) htype)).bind
      fun _ _ _ _ => ?_
    exact (reportsAs_triggers hbefore hconstants split rfl).bind fun _ _ _ _ => reportsAs_pure

end States

end Compile.Scope

namespace Compiler

open Compile Lowering

variable {compiler : Compiler} {filename : String} {file : Syntax.File}

/-! ## Files -/

/-- What is reported of entries after others, where the progress is that of the others. -/
theorem reportsAs_entries {before entries : List Entry} {progress : Progress}
    (split : file.entries = before ++ entries)
    (hbefore : Evaluable compiler.constants before)
    (hconstants : progress.constants = constantsAfter compiler.constants before)
    (hstates : progress.states.map (·.name) = stateNames before)
    (hdistinct : (stateNames before).Nodup) :
    (entries.foldlM (Compile.entry compiler filename) progress).ReportsAs
      (PointsAt compiler.registry compiler.constants file filename) := by
  induction entries generalizing before progress with
  | nil => exact reportsAs_pure
  | cons e entries ih =>
    have hsplit : file.entries = (before ++ [e]) ++ entries := by
      rw [split, List.append_assoc]
      rfl
    rw [List.foldlM_cons]
    cases e with
    | assign a =>
      have hentry : (entry compiler filename progress (.assign a)).ReportsAs
          (PointsAt compiler.registry compiler.constants file filename) := by
        refine (reportsAs_liftM (Scope.failsAs_eval fun name hv hnone => ?_)).bind
          fun _ _ _ _ => reportsAs_pure
        exact ⟨rfl, _, .assignedValue split hv (Scope.not_evaluates hbefore hconstants hnone)⟩
      refine hentry.bind fun _ progress' _ hgives => ?_
      obtain ⟨hvalue, rfl, -⟩ := entry_assign_gives_iff.1 hgives
      have hnames : stateNames (before ++ [.assign a]) = stateNames before := by
        simp [stateNames, Syntax.File.states]
      refine ih hsplit ?_ ?_ (hstates.trans hnames.symm) (hnames ▸ hdistinct)
      · rw [hconstants] at hvalue
        exact (evaluable_append _ _).2 ⟨hbefore, hvalue, trivial⟩
      · rw [constantsAfter_append, ← hconstants]
        rfl
    | state s =>
      have hscope : (compiler.scope filename progress.constants).constants =
          constantsAfter compiler.constants before := hconstants
      have hentry : (entry compiler filename progress (.state s)).ReportsAs
          (PointsAt compiler.registry compiler.constants file filename) :=
        (Scope.reportsAs_state hbefore hscope split hstates hdistinct).bind
          fun _ _ _ _ => reportsAs_pure
      refine hentry.bind fun _ progress' _ hgives => ?_
      obtain ⟨hnew, lowered, hlowered, rfl, -⟩ := entry_state_gives_iff.1 hgives
      have hnames : stateNames (before ++ [.state s]) = stateNames before ++ [s.name] := by
        simp [stateNames, Syntax.File.states]
      refine ih hsplit ((evaluable_append _ _).2 ⟨hbefore, trivial⟩) ?_ ?_ ?_
      · rw [constantsAfter_append, ← hconstants]
        rfl
      · rw [hnames, List.map_append, hstates, List.map_singleton, hlowered.name]
      · rw [hnames, List.nodup_append_comm]
        exact List.nodup_cons.2 ⟨hstates ▸ hnew, hdistinct⟩

/-- What is wrong with a file, and what it is warned of, is at the name that it is about. -/
theorem reportsAs_lower (compiler : Compiler) :
    (compiler.lower filename file).ReportsAs
      (PointsAt compiler.registry compiler.constants file filename) :=
  reportsAs_entries (List.nil_append _).symm trivial rfl rfl .nil

theorem pointsAt_of_compile_eq_error {site : Site} {fault : Fault}
    (h : compiler.compile filename file = .error (.semantic site fault)) :
    PointsAt compiler.registry compiler.constants file filename site fault := by
  obtain ⟨ws, hrun⟩ := exists_lower_of_compile_eq_error h nofun
  obtain ⟨-, herror⟩ := compiler.reportsAs_lower [] nofun
  obtain ⟨_, _, heq, hpoints⟩ := herror _ (congrArg Prod.fst hrun)
  cases heq
  exact hpoints

theorem pointsAt_of_mem_warnings {m : Machine} (h : compiler.compile filename file = .ok m)
    {w : Warning} (hw : w ∈ m.warnings) :
    PointsAt compiler.registry compiler.constants file filename w.site w.fault := by
  obtain ⟨constants, first, states, ws, hgives, rfl⟩ := compile_eq_ok_iff_gives.1 h
  obtain ⟨hwarnings, -⟩ := compiler.reportsAs_lower [] nofun
  rw [hgives] at hwarnings
  exact hwarnings w hw

end Compiler

open Compile

/-! ## Names of the source -/

section Located

variable {file : Syntax.File} {before : List Entry} {context : Context} {ts : List Token}

theorem located_of_split {after : List Entry} {s : Syntax.State} (hfile : file.Located ts)
    (split : file.entries = before ++ .state s :: after) : s.Located ts :=
  hfile (.state s) (by simp [split])

theorem Compile.HasTrigger.located {t : Syntax.Trigger} (h : HasTrigger file before context t)
    (hfile : file.Located ts) : t.Located ts := by
  obtain ⟨split, ht⟩ := h
  exact (located_of_split hfile split).triggers t (List.mem_of_getElem? ht)

theorem Compile.HasCall.located {last : Option Syntax.Condition} {c : Call}
    (h : HasCall file before last context c) (hfile : file.Located ts) : c.Located ts := by
  cases h with
  | init split hc => exact (located_of_split hfile split).init (.call c) hc
  | trigger ht hc => exact (ht.located hfile).actions (.call c) hc

/-- The name that a fault is about is where the fault is. -/
theorem Compile.Blames.isNameAt {registry : Registry} {seeds : NameMap Value} {name : String}
    {location : Location} {fault : Fault}
    (h : Blames registry seeds file context name location fault) (hfile : file.Located ts) :
    Syntax.IsNameAt ts name location := by
  cases h with
  | assignedValue split => exact hfile (.assign _) (by simp [split])
  | duplicateState split => exact (located_of_split hfile split).name
  | unspecifiedTrigger ht hc => exact ((ht.located hfile).conditions _ hc).name
  | unspecifiedEventData ht hc hp => exact ((ht.located hfile).conditions _ hc).params _ hp
  | fieldType ht hc hp => exact ((ht.located hfile).conditions _ hc).params _ hp
  | fieldValue ht hc hp => exact ((ht.located hfile).conditions _ hc).params _ hp
  | redeclaration ht _ hc hp =>
    exact ((ht.located hfile).conditions _ (List.mem_of_getElem? hc)).params _ hp
  | narrowed ht _ hc => exact ((ht.located hfile).conditions _ (List.mem_of_getElem? hc)).name
  | unspecifiedAction hc => exact (hc.located hfile).name
  | unspecifiedArgument hc ha => exact (hc.located hfile).args _ ha
  | duplicateArgument hc split => exact (hc.located hfile).args _ (by simp [split])
  | argumentType hc ha => exact (hc.located hfile).args _ ha
  | argumentValue hc ha => exact (hc.located hfile).args _ ha

end Located

/-- Errors and warnings point at names. If a source has a tree, then every error of its compilation
that has a site, and every warning of the machine that it is compiled to, is in its file and in the
construct that the context names, and is true of a name there (`Blames`). That name is what the
source has at the location. -/
theorem errors_point_at_names {r : Reader} {filename : String} {file : Syntax.File}
    (hparse : (Syntax.parse filename (.ofReader r)).1 = .ok file) (compiler : Compiler) :
    (∀ e site, compiler.compile filename file = .error e → e.site? = some site →
      ∃ fault name, e = .semantic site fault ∧ site.filename = filename ∧
        Blames compiler.registry compiler.constants file site.context name site.location fault ∧
        r.HasNameAt name site.location) ∧
    ∀ m, compiler.compile filename file = .ok m → ∀ w ∈ m.warnings,
      ∃ name, w.site.filename = filename ∧
        Blames compiler.registry compiler.constants file w.site.context name w.site.location
          (.narrowedEventData w.name w.condition) ∧
        r.HasNameAt name w.site.location := by
  have hlocated := Syntax.file_located_of_parse hparse
  have hasName {site : Site} {fault : Fault} {name : String}
      (h : Blames compiler.registry compiler.constants file site.context name site.location fault) :
      r.HasNameAt name site.location :=
    hasNameAt_of_mem_run (h.isNameAt hlocated)
  constructor
  · rintro (_ | ⟨site, fault⟩ | _) _ herror ⟨⟩
    obtain ⟨hfilename, name, hblames⟩ := Compiler.pointsAt_of_compile_eq_error herror
    exact ⟨fault, name, rfl, hfilename, hblames, hasName hblames⟩
  · intro m hm w hw
    obtain ⟨hfilename, name, hblames⟩ := Compiler.pointsAt_of_mem_warnings hm hw
    exact ⟨name, hfilename, hblames, hasName hblames⟩

namespace Gate

/-- A condition that leaves out the user, with a line break within its name. -/
def brokenSource : String := "state Shut \x7b\n  on Badge(user), Id\\\nle -> move Shut;\n\x7d;"

def brokenFile : Syntax.File :=
  ⟨[.state ⟨"Shut", ⟨1, 6, 4⟩, [],
    [⟨[⟨"Badge", [⟨"user", none, ⟨2, 11, 4⟩⟩], ⟨2, 5, 5⟩⟩, ⟨"Idle", [], ⟨2, 18, 4⟩⟩],
      [.move "Shut" ⟨2, 31, 4⟩], ⟨2, 2, 2⟩⟩]⟩]⟩

/-- Where the user is dropped. -/
def idleSite : Site := ⟨"gate", ⟨2, 18, 4⟩, .trigger "Shut" 0⟩

theorem parse_brokenSource :
    (Syntax.parse "gate" (.ofReader (.ofBytes (encode brokenSource)))).1 = .ok brokenFile := by
  show Syntax.parseText "gate" brokenSource = .ok brokenFile
  rw [Syntax.parseText_eq_ok_iff]
  decide +kernel

/-- The name of the second condition is pointed at, both by the error and by the warning. -/
theorem points_at_idle :
    (Syntax.parse "gate" (.ofReader (.ofBytes (encode brokenSource)))).1 = .ok brokenFile ∧
    (compiler.under .deny).compile "gate" brokenFile =
      .error (.semantic idleSite (.narrowedEventData "user" 1)) ∧
    (Reader.ofBytes (encode brokenSource)).HasNameAt "Idle" idleSite.location ∧
    ∃ m, compiler.compile "gate" brokenFile = .ok m ∧ m.warnings = [⟨idleSite, "user", 1⟩] ∧
      Blames compiler.registry compiler.constants brokenFile (.trigger "Shut" 0) "Idle" ⟨2, 18, 4⟩
        (.narrowedEventData "user" 1) := by
  have hdeny : (compiler.under .deny).compile "gate" brokenFile =
      .error (.semantic idleSite (.narrowedEventData "user" 1)) := rfl
  have hidle : (⟨.identifier, "Idle", ⟨2, 18, 4⟩⟩ : Token) ∈
      (Lexer.ofReader (.ofBytes (encode brokenSource))).run.1 := by
    rw [(Lexer.run_ofReader (Reader.delivers_ofBytes brokenSource)).1]
    decide +kernel
  obtain ⟨_, name, -, -, -, hname⟩ :=
    (errors_point_at_names parse_brokenSource (compiler.under .deny)).1 _ _ hdeny rfl
  obtain ⟨name', -, hblames, hname'⟩ :=
    (errors_point_at_names parse_brokenSource compiler).2 _ rfl ⟨idleSite, "user", 1⟩
      List.mem_cons_self
  obtain rfl : "Idle" = name := congrArg Token.text (hname.only _ hidle rfl)
  obtain rfl : "Idle" = name' := congrArg Token.text (hname'.only _ hidle rfl)
  exact ⟨parse_brokenSource, hdeny, hname, _, rfl, rfl, hblames⟩

end Gate

end EventMachine
