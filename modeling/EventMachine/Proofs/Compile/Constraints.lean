import EventMachine.Machine.Basic
import EventMachine.Proofs.Compile.WellFormed
import EventMachine.Proofs.NameMap

/-!
# What a condition asks for

A compiled condition holds of an event by its name and by the values in the event's data. This is
traced back to the source: the values are those of the parameters of the condition, evaluated by
the constants that stand before the state.

1. The states of a machine are those of its file, found by their names
   (`exists_lowersState_of_compile`, `exists_state_of_compile`).
2. `Value.Equals` says when two values are equal, and `Value.same` decides it
   (`Value.same_iff_equals`).
3. Of parameters with one name and values, the last counts (`Scope.get?_constraints_iff`). So a
   condition enforces what its parameters ask for as long as they do not repeat a name
   (`holds_iff_of_compile`); `Lock.forgets_first_value` shows that of a repeated one a
   value is lost.
-/

namespace EventMachine

open Syntax (Expr Param)

/-! ## The states of a machine -/

namespace Compile

variable {compiler : Compiler} {filename : String} {file : Syntax.File} {m : Machine}

/-- Among lowered states with distinct names, the state of a name is found by it. -/
theorem find?_of_forall₂ {ds : List (NameMap Value × Syntax.State)} {lowered : List Machine.State}
    (h : List.Forall₂ (fun d s => (compiler.scope filename d.1).LowersState d.2 s) ds lowered)
    (hd : (ds.map (·.2.name)).Nodup) {d : NameMap Value × Syntax.State} (hmem : d ∈ ds) :
    ∃ s, lowered.find? (·.name = d.2.name) = some s ∧
      (compiler.scope filename d.1).LowersState d.2 s := by
  induction h with
  | nil => cases hmem
  | @cons e s ds lowered hs _ ih =>
    rw [List.map_cons, List.nodup_cons] at hd
    rcases List.mem_cons.1 hmem with rfl | hmem
    · exact ⟨s, List.find?_cons_of_pos (decide_eq_true hs.name), hs⟩
    · obtain ⟨s', hfind, hs'⟩ := ih hd.2 hmem
      have hne : s.name ≠ d.2.name := by
        rw [hs.name]
        exact fun he => hd.1 (List.mem_map.2 ⟨d, hmem, he.symm⟩)
      rw [List.find?_cons_of_neg (by simpa using hne)]
      exact ⟨s', hfind, hs'⟩

/-- A state of a file that compiles is lowered, with the constants that stand before it, to the
machine's state of its name. -/
theorem exists_lowersState_of_compile (h : compiler.compile filename file = .ok m)
    {before after : List Syntax.Entry} {s : Syntax.State}
    (split : file.entries = before ++ .state s :: after) :
    ∃ lowered, m.state? s.name = some lowered ∧
      (compiler.scope filename (constantsAfter compiler.constants before)).LowersState
        s lowered := by
  have hlowers := compile_eq_ok_iff.1 h
  have hd : (constantsAfter compiler.constants before, s) ∈
      scopedStates compiler.constants file.entries :=
    mem_scopedStates.2 ⟨before, after, split, rfl⟩
  have hnodup := hlowers.distinct
  rw [← map_name_scopedStates compiler.constants] at hnodup
  exact find?_of_forall₂ hlowers.states hnodup hd

/-- Every state of the machine is lowered from a state of the file. -/
theorem exists_state_of_compile (h : compiler.compile filename file = .ok m) {name : String}
    {lowered : Machine.State} (hs : m.state? name = some lowered) :
    ∃ before s after, file.entries = before ++ .state s :: after ∧ s.name = name ∧
      (compiler.scope filename (constantsAfter compiler.constants before)).LowersState
        s lowered := by
  have hname : lowered.name = name := by simpa using List.find?_some hs
  obtain ⟨⟨constants, s⟩, hd, hlowers⟩ :=
    exists_of_forall₂_mem (compile_eq_ok_iff.1 h).states (List.mem_of_find?_eq_some hs)
  obtain ⟨before, after, split, rfl⟩ := mem_scopedStates.1 hd
  exact ⟨before, s, after, split, hlowers.name.symm.trans hname, hlowers⟩

/-- The assignments of a file that compiles have values. -/
theorem evaluable_of_compile (h : compiler.compile filename file = .ok m)
    {before after : List Syntax.Entry} (split : file.entries = before ++ after) :
    Evaluable compiler.constants before := by
  have heval := (compile_eq_ok_iff.1 h).evaluable
  rw [split, evaluable_append] at heval
  exact heval.1

end Compile

/-! ## Equality of values -/

namespace Number.Binary64

/-- There are two zeros. -/
theorem isZero_iff {x : Binary64} : x.isZero = true ↔ ∃ negative, x = zero negative := by
  constructor
  · intro h
    obtain ⟨bits⟩ := x
    simp only [isZero, exponentField, fraction, Bool.and_eq_true, beq_iff_eq, UInt64.toNat_and,
      UInt64.toNat_shiftRight] at h
    obtain ⟨he, hf⟩ := h
    have he' : bits.toNat / 2 ^ 52 % 2 ^ 11 = 0 := by
      rw [← Nat.shiftRight_eq_div_pow, ← Nat.and_two_pow_sub_one_eq_mod]
      exact he
    have hf' : bits.toNat % 2 ^ 52 = 0 := by
      rw [← Nat.and_two_pow_sub_one_eq_mod]
      exact hf
    have hlt := bits.toNat_lt
    -- only the sign bit is left
    have hcases : bits.toNat = (0 : UInt64).toNat ∨ bits.toNat = signBit.toNat := by
      have hsign : signBit.toNat = 2 ^ 63 := rfl
      rw [UInt64.toNat_zero, hsign]
      omega
    rcases hcases with h | h
    · exact ⟨false, congrArg mk (UInt64.toNat_inj.1 h)⟩
    · exact ⟨true, congrArg mk (UInt64.toNat_inj.1 h)⟩
  · rintro ⟨_ | _, rfl⟩ <;> rfl

end Number.Binary64

namespace Value

open Number (Binary64)

/-- Equality of values. Values of different types are never equal; of the floating-point numbers,
the two zeros are equal and a NaN equals nothing; opaque values are equal if they are one object. -/
inductive Equals : Value → Value → Prop
  | str (text : String) : Equals (.str text) (.str text)
  | int (n : Int64) : Equals (.int n) (.int n)
  | float {x : Binary64} (h : x.isNaN = false) : Equals (.float x) (.float x)
  | zero (a b : Bool) : Equals (.float (Binary64.zero a)) (.float (Binary64.zero b))
  | bool (b : Bool) : Equals (.bool b) (.bool b)
  | host {a b : HostObject} (h : a.identity = b.identity) : Equals (.host a) (.host b)

theorem same_iff_equals {v w : Value} : v.same w = true ↔ v.Equals w := by
  constructor
  · intro h
    cases v <;> cases w <;> first | cases h | skip
    case str.str a b =>
      obtain rfl : a = b := of_decide_eq_true h
      exact .str a
    case int.int a b =>
      obtain rfl : a = b := of_decide_eq_true h
      exact .int a
    case bool.bool a b =>
      obtain rfl : a = b := of_decide_eq_true h
      exact .bool a
    case host.host a b => exact .host (of_decide_eq_true h)
    case float.float x y =>
      have h : x.same y = true := h
      simp only [Binary64.same, Bool.and_eq_true, Bool.not_eq_true', Bool.or_eq_true,
        beq_iff_eq] at h
      obtain ⟨⟨hx, -⟩, hbits | ⟨hzero, hzero'⟩⟩ := h
      · obtain rfl : x = y := congrArg Binary64.mk hbits
        exact .float hx
      · obtain ⟨a, rfl⟩ := Binary64.isZero_iff.1 hzero
        obtain ⟨b, rfl⟩ := Binary64.isZero_iff.1 hzero'
        exact .zero a b
  · rintro (text | n | @⟨x, h⟩ | ⟨_ | _, _ | _⟩ | b | h)
    · exact decide_eq_true rfl
    · exact decide_eq_true rfl
    · show x.same x = true
      simp [Binary64.same, h]
    · rfl
    · rfl
    · rfl
    · rfl
    · exact decide_eq_true rfl
    · exact decide_eq_true h

end Value

/-! ## Conditions -/

/-- A condition looks at the event's name and at the values under the names it has constraints
for. -/
theorem Machine.Condition.holds_iff {c : Machine.Condition} {event : String} {payload : Payload} :
    c.holds event payload = true ↔ event = c.trigger ∧
      ∀ name asked, c.constraints.get? name = some asked →
        ∃ value, payload.get? name = some value ∧ value.Equals asked := by
  simp only [holds, Bool.and_eq_true, decide_eq_true_eq, List.all_eq_true, Option.any_eq_true,
    Prod.forall, NameMap.get?_eq_some_iff, Value.same_iff_equals, eq_comm (a := event)]

/-- No later parameter of the condition has the same name and a value. -/
def Syntax.Condition.Decides (c : Syntax.Condition) (p : Param) : Prop :=
  ∃ earlier later, c.params = earlier ++ p :: later ∧
    ∀ q ∈ later, q.name = p.name → q.value = none

namespace Compile

/-- The event is the condition's, and under the name of each parameter with a value that counts,
its data have a value equal to that one after the entries. -/
def Meets (seeds : NameMap Value) (before : List Syntax.Entry) (c : Syntax.Condition)
    (event : String) (payload : Payload) : Prop :=
  event = c.name ∧ ∀ p e, c.Decides p → p.value = some e → ∃ asked value,
    Evaluates seeds before e asked ∧ payload.get? p.name = some value ∧ value.Equals asked

variable {scope : Scope} {c : Syntax.Condition} {name : String} {asked : Value}

theorem Scope.asked?_eq_some_iff {p : Param} :
    scope.asked? p = some (name, asked) ↔
      p.name = name ∧ ∃ e, p.value = some e ∧ e.value? scope.constants = some asked := by
  unfold Scope.asked?
  simp only [Option.map_eq_some_iff, Option.bind_eq_some_iff, Prod.mk.injEq]
  constructor
  · rintro ⟨_, ⟨e, he, hv⟩, rfl, rfl⟩
    exact ⟨rfl, e, he, hv⟩
  · rintro ⟨rfl, e, he, hv⟩
    exact ⟨asked, ⟨e, he, hv⟩, rfl, rfl⟩

/-- The constraints of a declared condition are what the parameters that count ask for. -/
theorem Scope.get?_constraints_iff (hc : scope.Declared c) :
    (scope.lowered c).constraints.get? name = some asked ↔
      ∃ p e, c.Decides p ∧ p.name = name ∧ p.value = some e ∧
        e.value? scope.constants = some asked := by
  -- a parameter with a value asks for it
  have hasks : ∀ p ∈ c.params, ∀ e, p.value = some e → ∃ v, scope.asked? p = some (p.name, v) := by
    obtain ⟨fields, -, hfits⟩ := hc
    intro p hp e he
    obtain ⟨type, -, hvalue⟩ := hfits p hp
    obtain ⟨value, hv, -⟩ := hvalue e he
    exact ⟨value, Scope.asked?_eq_some_iff.2 ⟨rfl, e, he, hv⟩⟩
  unfold Scope.lowered
  rw [NameMap.get?_ofList_eq_some_iff]
  constructor
  · rintro ⟨earlier, later, hsplit, hlater⟩
    obtain ⟨xs, ys, hparams, rfl, hys⟩ := List.filterMap_eq_append_iff.1 hsplit
    obtain ⟨zs, p, rest, rfl, hzs, hp, rfl⟩ := List.filterMap_eq_cons_iff.1 hys
    obtain ⟨hn, e, he, hv⟩ := Scope.asked?_eq_some_iff.1 hp
    have hparams' : c.params = (xs ++ zs) ++ p :: rest := by rw [hparams, List.append_assoc]
    refine ⟨p, e, ⟨xs ++ zs, rest, hparams', fun q hq hname => ?_⟩, hn, he, hv⟩
    by_contra hvalue
    obtain ⟨e', he'⟩ := Option.ne_none_iff_exists'.1 hvalue
    obtain ⟨v, hasked⟩ := hasks q (by simp [hparams', hq]) e' he'
    exact hlater _ (List.mem_filterMap.2 ⟨q, hq, hasked⟩) (hname.trans hn)
  · rintro ⟨p, e, ⟨earlier, later, hparams, hlater⟩, rfl, he, hv⟩
    have hp : scope.asked? p = some (p.name, asked) := Scope.asked?_eq_some_iff.2 ⟨rfl, e, he, hv⟩
    refine ⟨earlier.filterMap scope.asked?, later.filterMap scope.asked?, ?_, fun pair hmem => ?_⟩
    · rw [hparams, List.filterMap_append, List.filterMap_cons_some hp]
    · obtain ⟨q, hq, hasked⟩ := List.mem_filterMap.1 hmem
      obtain ⟨hn, e', he', -⟩ := Scope.asked?_eq_some_iff.1 hasked
      rw [← hn]
      intro hname
      rw [hlater q hq hname] at he'
      cases he'

/-- A declared condition holds of the events that meet it. -/
theorem Scope.lowered_holds_iff {seeds : NameMap Value} {before : List Syntax.Entry}
    (hc : scope.Declared c)
    (hvalue : ∀ e value, Evaluates seeds before e value ↔ e.value? scope.constants = some value)
    {event : String} {payload : Payload} :
    (scope.lowered c).holds event payload = true ↔ Meets seeds before c event payload := by
  rw [Machine.Condition.holds_iff]
  refine and_congr_right fun _ => ?_
  simp only [Scope.get?_constraints_iff hc, hvalue]
  constructor
  · intro h p e hp he
    obtain ⟨earlier, later, hparams, -⟩ := id hp
    obtain ⟨fields, -, hfits⟩ := hc
    obtain ⟨type, -, hasks⟩ := hfits p (by simp [hparams])
    obtain ⟨asked, hasked, -⟩ := hasks e he
    obtain ⟨value, hv⟩ := h p.name asked ⟨p, e, hp, rfl, he, hasked⟩
    exact ⟨asked, value, hasked, hv⟩
  · rintro h _ asked ⟨p, e, hp, rfl, he, hasked⟩
    obtain ⟨asked', value, hasked', hv⟩ := h p e hp he
    rw [hasked] at hasked'
    cases hasked'
    exact ⟨value, hv⟩

end Compile

open Compile

/-- The conditions of a machine hold of exactly the events that meet those of its file, where of
parameters with one name the last with a value counts. -/
theorem holds_iff_of_compile {compiler : Compiler} {filename : String} {file : Syntax.File}
    {m : Machine} (h : compiler.compile filename file = .ok m) {before after : List Syntax.Entry}
    {s : Syntax.State} (split : file.entries = before ++ .state s :: after) :
    ∃ state, m.state? s.name = some state ∧
      List.Forall₂ (fun t trigger =>
        List.Forall₂ (fun c condition => ∀ event payload,
          condition.holds event payload = true ↔
            Meets compiler.constants before c event payload) t.conditions trigger.conditions)
        s.triggers state.triggers := by
  obtain ⟨state, hstate, hlowers⟩ := exists_lowersState_of_compile h split
  have hbefore : Evaluable compiler.constants before := by
    have heval := (compile_eq_ok_iff.1 h).evaluable
    rw [split, evaluable_append] at heval
    exact heval.1
  refine ⟨state, hstate, hlowers.triggers.imp fun t trigger ht => ?_⟩
  rw [ht.conditions, List.forall₂_map_right_iff, List.forall₂_same]
  intro c hc event payload
  exact Scope.lowered_holds_iff (ht.declared c hc) fun e value => evaluates_iff hbefore

/-! ## A combination lock -/

namespace Lock

def compiler : Compiler where
  registry :=
    { triggers := .ofList [("Turn", .ofDeclarations [("digit", .int)])]
      actions := .empty }
  narrowing := .warn
  constants := .empty

def limit : Syntax.Assignment := ⟨"limit", .int 2, ⟨1, 0, 5⟩⟩

def repeated : Syntax.Condition :=
  ⟨"Turn", [⟨"digit", some (.int 1), ⟨2, 23, 5⟩⟩, ⟨"digit", some (.ref "limit"), ⟨2, 34, 5⟩⟩],
    ⟨2, 18, 4⟩⟩

def locked : Syntax.State :=
  ⟨"Locked", ⟨2, 6, 6⟩, [], [⟨[repeated], [.move "Open" ⟨2, 57, 4⟩], ⟨2, 15, 2⟩⟩]⟩

/-- ```text
limit = 2;
state Locked { on Turn(digit = 1, digit = limit) -> move Open; };
state Open {};
``` -/
def file : Syntax.File := ⟨[.assign limit, .state locked, .state ⟨"Open", ⟨3, 6, 4⟩, [], []⟩]⟩

def machine : Machine where
  constants := .ofList [("limit", .int 2)]
  entry := "Locked"
  states :=
    [{ name := "Locked"
       init := []
       triggers :=
         [{ conditions := [⟨"Turn", .ofList [("digit", .int 2)]⟩]
            eventData := .ofList [("digit", .int)]
            actions := [.move "Open"] }] },
     { name := "Open", init := [], triggers := [] }]
  warnings := []
  checksum := none

theorem compile_file : compiler.compile "lock" file = .ok machine := rfl

/-- A turn to the limit opens the lock. -/
theorem meets_limit :
    compiler.compile "lock" file = .ok machine ∧
      Meets compiler.constants [.assign limit] repeated "Turn" (.ofList [("digit", .int 2)]) := by
  refine ⟨compile_file, ?_⟩
  have hsplit : file.entries = [.assign limit] ++ .state locked :: [.state _] := rfl
  obtain ⟨state, hstate, htriggers⟩ := holds_iff_of_compile compile_file hsplit
  cases hstate
  cases htriggers with
  | cons hconditions _ =>
    cases hconditions with
    | cons hholds _ => exact (hholds _ _).1 rfl

/-- The first of the two values is lost: a turn to the second one is enough. -/
theorem forgets_first_value :
    ¬ ∀ (compiler : Compiler) (filename : String) (file : Syntax.File) (m : Machine),
      compiler.compile filename file = .ok m → ∀ before s after,
        file.entries = before ++ .state s :: after → ∃ state, m.state? s.name = some state ∧
          List.Forall₂ (fun t trigger =>
            List.Forall₂ (fun (c : Syntax.Condition) condition => ∀ event payload,
              condition.holds event payload = true ↔ event = c.name ∧
                ∀ p ∈ c.params, ∀ e, p.value = some e → ∃ asked value,
                  Evaluates compiler.constants before e asked ∧
                    payload.get? p.name = some value ∧ value.Equals asked)
              t.conditions trigger.conditions) s.triggers state.triggers := by
  intro h
  have hsplit : file.entries = [.assign limit] ++ .state locked :: [.state _] := rfl
  obtain ⟨state, hstate, htriggers⟩ := h compiler "lock" file machine compile_file _ _ _ hsplit
  cases hstate
  cases htriggers with
  | cons hconditions _ =>
    cases hconditions with
    | cons hholds _ =>
      have hall := ((hholds "Turn" (.ofList [("digit", .int 2)])).1 rfl).2
      obtain ⟨asked, value, hasked, hvalue, hequals⟩ := hall _ List.mem_cons_self _ rfl
      cases hasked
      cases hvalue
      cases hequals

end Lock

end EventMachine
