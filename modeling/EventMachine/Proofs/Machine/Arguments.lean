import EventMachine.Proofs.Compile.Reordering
import EventMachine.Proofs.Machine.Typing

/-!
# Arguments

The arguments of a call are resolved at three times: literals are what they are, constants have the
value that they had before the state, and event data that of the event under way. `HasValue` says
which it is by looking at the source alone, and `Fills` puts the values in the order of the inputs.
The compiled arguments of a call have these values, in this order
(`Scope.LowersCall.exists_fills_iff`), whatever the order in which they were written.
-/

namespace EventMachine

open Syntax (Expr Arg Call Entry)

namespace Compile

/-! ## Arguments by the source -/

/-- The value of an argument where `last` is the last condition of the trigger: a name that this
condition mentions has the value of the event, and any other the constant value that it has after
the entries. -/
inductive HasValue (seeds : NameMap Value) (before : List Entry) (last : Option Syntax.Condition)
    (payload : Payload) : Expr → Value → Prop
  | eventData {c : Syntax.Condition} {name : String} {value : Value} (hc : last = some c)
      (hn : name ∈ c.names) (h : payload.get? name = some value) :
      HasValue seeds before last payload (.ref name) value
  | constant {e : Expr} {value : Value}
      (hidden : ∀ c name, last = some c → e = .ref name → name ∉ c.names)
      (h : Evaluates seeds before e value) : HasValue seeds before last payload e value

/-- For each input in turn the value of its argument; where there is none the zero value of the
type, and nothing if the input is opaque. -/
inductive Fills (args : List Arg) (hasValue : Expr → Value → Prop) :
    List (String × ValueType) → Arguments → Prop
  | nil : Fills args hasValue [] []
  | supplied {arg : Arg} {name : String} {type : ValueType} {value : Value}
      {inputs : List (String × ValueType)} {arguments : Arguments} (harg : arg ∈ args)
      (hn : arg.name = name) (h : hasValue arg.value value)
      (rest : Fills args hasValue inputs arguments) :
      Fills args hasValue ((name, type) :: inputs) ((name, value) :: arguments)
  | zero {name : String} {type : ValueType} {value : Value} {inputs : List (String × ValueType)}
      {arguments : Arguments} (omitted : ∀ arg ∈ args, arg.name ≠ name)
      (h : type.zero? = some value) (rest : Fills args hasValue inputs arguments) :
      Fills args hasValue ((name, type) :: inputs) ((name, value) :: arguments)
  | absent {name : String} {inputs : List (String × ValueType)} {arguments : Arguments}
      (omitted : ∀ arg ∈ args, arg.name ≠ name) (rest : Fills args hasValue inputs arguments) :
      Fills args hasValue ((name, .constant) :: inputs) arguments

/-! ## Event data -/

/-- The bound event data are the values that the payload has for the names. -/
def Takes (eventData : NameMap ValueType) (payload : Payload) (data : NameMap Value) : Prop :=
  ∀ name type, eventData.get? name = some type →
    ∃ value, payload.get? name = some value ∧ data.get? name = some value

theorem takes_empty (payload : Payload) (data : NameMap Value) : Takes .empty payload data := by
  intro name type h
  cases h

theorem takes_of_bind {t : Machine.Trigger} {event : String} {payload : Payload}
    {data : NameMap Value} (h : t.bind event payload = .ok data) :
    Takes t.eventData payload data := by
  intro name type ht
  obtain ⟨value, hp, hv, -⟩ := Machine.get?_of_bind h ht
  exact ⟨value, hp, hv⟩

/-! ## Inputs -/

section Filling

variable {args : List Arg} {hasValue : Expr → Value → Prop} {data : NameMap Value}
  {supplied : NameMap Operand} {arguments : Arguments}

/-- What an input is called with, by the operands supplied. -/
def filled? (supplied : NameMap Operand) (data : NameMap Value) (input : String × ValueType) :
    Option (String × Value) :=
  ((supplied.get? input.1).elim input.2.zero? (Operand.value? data)).map (input.1, ·)

theorem argumentValues_bindings (inputs : Signature) :
    argumentValues data (Scope.bindings inputs supplied) =
      inputs.entries.filterMap (filled? supplied data) := by
  unfold argumentValues Scope.bindings
  rw [List.filterMap_filterMap]
  refine List.filterMap_congr ?_
  rintro ⟨name, type⟩ -
  unfold filled?
  dsimp only
  cases supplied.get? name with
  | some operand => rfl
  | none => cases type.zero? <;> rfl

/-- The inputs are filled as the compiled arguments are resolved, if the operands that are supplied
are those of the arguments and have their values. -/
theorem fills_iff {inputs : List (String × ValueType)}
    (hsupplied : ∀ name operand, supplied.get? name = some operand → ∃ arg ∈ args, arg.name = name)
    (hvalues : ∀ arg ∈ args, ∃ operand value, supplied.get? arg.name = some operand ∧
      operand.value? data = some value ∧ ∀ v, hasValue arg.value v ↔ v = value) :
    Fills args hasValue inputs arguments ↔
      arguments = inputs.filterMap (filled? supplied data) := by
  induction inputs generalizing arguments with
  | nil =>
    constructor
    · rintro ⟨⟩
      rfl
    · rintro rfl
      exact .nil
  | cons input inputs ih =>
    obtain ⟨name, type⟩ := input
    rw [List.filterMap_cons]
    cases hs : supplied.get? name with
    | some operand =>
      -- the operand is that of every argument of this name
      obtain ⟨arg, harg, hn⟩ := hsupplied name operand hs
      have hresolved : ∀ arg ∈ args, arg.name = name →
          ∃ value, operand.value? data = some value ∧ ∀ v, hasValue arg.value v ↔ v = value := by
        rintro arg harg rfl
        obtain ⟨operand', value, hs', hvalue⟩ := hvalues arg harg
        cases hs.symm.trans hs'
        exact ⟨value, hvalue⟩
      obtain ⟨value, hvalue, hhas⟩ := hresolved arg harg hn
      have hfilled : filled? supplied data (name, type) = some (name, value) := by
        simp [filled?, hs, hvalue]
      simp only [hfilled]
      constructor
      · intro h
        cases h with
        | supplied harg' hn' h rest =>
          obtain ⟨value', hvalue', hhas'⟩ := hresolved _ harg' hn'
          cases hvalue.symm.trans hvalue'
          rw [(hhas' _).1 h, ih.1 rest]
        | zero omitted => exact (omitted arg harg hn).elim
        | absent omitted => exact (omitted arg harg hn).elim
      · rintro rfl
        exact .supplied harg hn ((hhas _).2 rfl) (ih.2 rfl)
    | none =>
      have homitted : ∀ arg ∈ args, arg.name ≠ name := by
        rintro arg harg rfl
        obtain ⟨operand, value, hs', -⟩ := hvalues arg harg
        cases hs.symm.trans hs'
      have hfilled : filled? supplied data (name, type) = type.zero?.map (name, ·) := by
        simp [filled?, hs]
      rw [hfilled]
      cases hz : type.zero? with
      | none =>
        simp only [Option.map_none]
        rw [← ih]
        constructor
        · intro h
          cases h with
          | supplied harg hn => exact (homitted _ harg hn).elim
          | zero _ hz' => cases hz.symm.trans hz'
          | absent _ rest => exact rest
        · intro rest
          obtain rfl : type = .constant := by
            by_contra ht
            obtain ⟨value, hz'⟩ := ValueType.exists_zero? ht
            cases hz.symm.trans hz'
          exact .absent homitted rest
      | some value =>
        simp only [Option.map_some]
        constructor
        · intro h
          cases h with
          | supplied harg hn => exact (homitted _ harg hn).elim
          | zero _ hz' rest =>
            cases hz.symm.trans hz'
            rw [ih.1 rest]
          | absent => cases hz
        · rintro rfl
          exact .zero homitted hz (ih.2 rfl)

end Filling

/-! ## Calls -/

namespace Scope

variable {scope : Scope} {seeds : NameMap Value} {before : List Entry} {cs : List Syntax.Condition}
  {payload : Payload} {data : NameMap Value}

/-- An argument has the value of its operand. -/
theorem exists_hasValue_iff (hbefore : Evaluable seeds before)
    (hconstants : scope.constants = constantsAfter seeds before)
    (hcs : ∀ c ∈ cs, scope.Declared c) (hdata : Takes (scope.lastEventData .empty cs) payload data)
    {e : Expr} {operand : Operand} {type : ValueType}
    (h : Lowers scope.constants (scope.lastEventData .empty cs) e operand type) :
    ∃ value, operand.value? data = some value ∧
      ∀ v, HasValue seeds before cs.getLast? payload e v ↔ v = value := by
  cases h with
  | @eventData name _ h =>
    obtain ⟨value, hp, hd⟩ := hdata name type h
    obtain ⟨c, hlast, hn, -⟩ := get?_lastEventData_eq_some_iff.1 h
    refine ⟨value, hd, fun v => ⟨fun hv => ?_, ?_⟩⟩
    · cases hv with
      | eventData _ _ hv => exact Option.some.inj (hv.symm.trans hp)
      | constant hidden => exact (hidden c name hlast rfl hn).elim
    · rintro rfl
      exact .eventData hlast hn hp
  | @constant _ value visible h =>
    rw [hconstants] at h
    -- a name that the last condition mentions is event data
    have hhidden : ∀ c name, cs.getLast? = some c → e = .ref name → name ∉ c.names := by
      rintro c name hlast he hn
      obtain ⟨type, hc⟩ := exists_declares (hcs c (List.mem_of_getLast? hlast)) hn
      have hvisible := visible name he
      rw [get?_lastEventData_eq_some_iff.2 ⟨c, hlast, hc⟩] at hvisible
      cases hvisible
    refine ⟨value, rfl, fun v => ⟨fun hv => ?_, ?_⟩⟩
    · cases hv with
      | eventData hlast hn => exact (hhidden _ _ hlast rfl hn).elim
      | constant _ hv => exact Option.some.inj (((evaluates_iff hbefore).1 hv).symm.trans h)
    · rintro rfl
      exact .constant hhidden ((evaluates_iff hbefore).2 h)

/-- The compiled arguments of a call are resolved to what its inputs are filled with. -/
theorem LowersCall.exists_fills_iff (hbefore : Evaluable seeds before)
    (hconstants : scope.constants = constantsAfter seeds before)
    (hcs : ∀ c ∈ cs, scope.Declared c) (hdata : Takes (scope.lastEventData .empty cs) payload data)
    {c : Call} {step : Step} (h : scope.LowersCall (scope.lastEventData .empty cs) c step) :
    ∃ inputs bound, scope.registry.actions.get? c.name = some inputs ∧ step = .call c.name bound ∧
      ∀ arguments, Fills c.args (HasValue seeds before cs.getLast? payload) inputs.entries
        arguments ↔ arguments = argumentValues data bound := by
  obtain ⟨inputs, operands, hi, hnodup, hoperands, rfl⟩ := h
  refine ⟨inputs, _, hi, rfl, fun arguments => ?_⟩
  rw [argumentValues_bindings]
  refine fills_iff (fun name operand hs => ?_) fun arg harg => ?_
  · obtain ⟨arg, harg, hn, -⟩ := (get?_supplied_eq_some_iff hnodup hoperands).1 hs
    exact ⟨arg, harg, hn⟩
  · obtain ⟨operand, haccepts⟩ := exists_forall₂_iff.1 ⟨operands, hoperands⟩ arg harg
    have hs := (get?_supplied_eq_some_iff hnodup hoperands).2 ⟨arg, harg, rfl, haccepts⟩
    obtain ⟨type, -, hlowers⟩ := haccepts
    obtain ⟨value, hvalue⟩ := exists_hasValue_iff hbefore hconstants hcs hdata hlowers
    exact ⟨operand, value, hs, hvalue⟩

end Scope

end Compile

end EventMachine
