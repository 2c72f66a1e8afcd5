import EventMachine.Proofs.Machine.Dispatch
import EventMachine.Proofs.NameOrder

/-!
# When event data cannot be bound

Before a trigger runs its steps, it takes its event data from the payload. A value that is missing
or of another type is found before any step has run (`binding_fails_first`):

1. Binding fails at the least name, in the order of the bytes, whose value is missing or of another
   type (`bind_eq_error_iff`).
2. Steps never fail in this way, for what a move refuses is a state or the depth
   (`not_isBinding_of_refuse`).
-/

namespace EventMachine

universe u

/-- The error is one of binding event data. -/
def RuntimeError.IsBinding : RuntimeError → Prop
  | missingEventData _ _ => True
  | typeMismatch _ _ _ => True
  | _ => False

namespace Machine

/-! ## Binding -/

section Binding

variable {event : String} {payload : Payload} {name : String} {type : ValueType} {e : RuntimeError}

/-- The payload has no value of this name and type: it has none at all, or one of another type where
the type is not opaque. -/
inductive Lacks (event : String) (payload : Payload) (name : String) (type : ValueType) :
    RuntimeError → Prop
  | missing (absent : payload.get? name = none) :
      Lacks event payload name type (.missingEventData event name)
  | mistyped {value : Value} (present : payload.get? name = some value) (typed : type ≠ .constant)
      (other : value.type ≠ type) :
      Lacks event payload name type (.typeMismatch name type value.type)

theorem Lacks.isBinding (h : Lacks event payload name type e) : e.IsBinding := by
  cases h <;> trivial

theorem Lacks.unique {e' : RuntimeError} (h : Lacks event payload name type e)
    (h' : Lacks event payload name type e') : e = e' := by
  cases h with
  | missing absent =>
    cases h' with
    | missing => rfl
    | mistyped present => cases absent.symm.trans present
  | mistyped present =>
    cases h' with
    | missing absent => cases absent.symm.trans present
    | mistyped present' =>
      cases present.symm.trans present'
      rfl

variable {entries : List (String × ValueType)} {data : NameMap Value}

theorem bindEntries_of_lacks (h : Lacks event payload name type e) :
    bindEntries event payload ((name, type) :: entries) data = .error e := by
  unfold bindEntries
  cases h with
  | missing absent => rw [absent]
  | mistyped present typed other =>
    rw [present]
    exact if_pos ⟨typed, other⟩

theorem bindEntries_of_not_lacks (h : ∀ e, ¬ Lacks event payload name type e) :
    ∃ value, bindEntries event payload ((name, type) :: entries) data =
      bindEntries event payload entries (data.insert name value) := by
  cases hp : payload.get? name with
  | none => exact (h _ (.missing hp)).elim
  | some value =>
    refine ⟨value, ?_⟩
    rw [bindEntries, hp]
    exact if_neg fun hother => h _ (.mistyped hp hother.1 hother.2)

/-- Binding fails at the first entry that the payload lacks. -/
theorem bindEntries_eq_error_iff :
    bindEntries event payload entries data = .error e ↔
      ∃ before name type after, entries = before ++ (name, type) :: after ∧
        (∀ p ∈ before, ∀ e, ¬ Lacks event payload p.1 p.2 e) ∧ Lacks event payload name type e := by
  induction entries generalizing data with
  | nil => simp [bindEntries]
  | cons entry entries ih =>
    obtain ⟨name, type⟩ := entry
    by_cases hlacks : ∃ e', Lacks event payload name type e'
    · obtain ⟨e', he'⟩ := hlacks
      rw [bindEntries_of_lacks he', Except.error.injEq]
      constructor
      · rintro rfl
        exact ⟨[], name, type, entries, rfl, nofun, he'⟩
      · rintro ⟨_ | ⟨p, before⟩, name', type', after, heq, hbefore, he⟩
        · cases heq
          exact he'.unique he
        · cases heq
          exact (hbefore _ List.mem_cons_self _ he').elim
    · rw [not_exists] at hlacks
      obtain ⟨value, hbind⟩ := bindEntries_of_not_lacks hlacks
      rw [hbind, ih]
      constructor
      · rintro ⟨before, name', type', after, rfl, hbefore, he⟩
        exact ⟨(name, type) :: before, name', type', after, rfl,
          List.forall_mem_cons.2 ⟨hlacks, hbefore⟩, he⟩
      · rintro ⟨_ | ⟨p, before⟩, name', type', after, heq, hbefore, he⟩
        · cases heq
          exact (hlacks _ he).elim
        · cases heq
          exact ⟨before, name', type', after, rfl, (List.forall_mem_cons.1 hbefore).2, he⟩

/-- The event data of the trigger has the name, and the payload lacks it. -/
def Unbound (event : String) (payload : Payload) (t : Trigger) (name : String) (e : RuntimeError) :
    Prop :=
  ∃ type, t.eventData.get? name = some type ∧ Lacks event payload name type e

/-- The error is about the least name, in the order of the bytes, that the payload lacks. -/
def LeastUnbound (event : String) (payload : Payload) (t : Trigger) (e : RuntimeError) : Prop :=
  ∃ name, Unbound event payload t name e ∧ ∀ name' e', Unbound event payload t name' e' →
    ¬ Source.encode name' < Source.encode name

theorem bind_eq_error_iff {t : Trigger} :
    t.bind event payload = .error e ↔ LeastUnbound event payload t e := by
  unfold LeastUnbound
  simp only [Source.encode_lt_encode_iff]
  unfold Trigger.bind
  rw [bindEntries_eq_error_iff]
  have hsorted := t.eventData.sorted
  constructor
  · rintro ⟨before, name, type, after, heq, hbefore, he⟩
    refine ⟨name, ⟨type, (NameMap.get?_eq_some_iff _).2 (by simp [heq]), he⟩, ?_⟩
    rintro name' e' ⟨type', htype', he'⟩ hlt
    have hmem := (NameMap.get?_eq_some_iff _).1 htype'
    rw [heq] at hmem hsorted
    rcases List.mem_append.1 hmem with hmem | hmem
    · exact hbefore _ hmem e' he'
    · -- the names that follow are not less
      rcases List.mem_cons.1 hmem with heq' | hmem
      · cases heq'
        exact String.lt_irrefl _ hlt
      · have hafter := (List.pairwise_cons.1 (List.pairwise_append.1 hsorted).2.1).1 _ hmem
        exact String.lt_irrefl _ (String.lt_trans hlt hafter)
  · rintro ⟨name, ⟨type, htype, he⟩, hleast⟩
    obtain ⟨before, after, heq⟩ := List.append_of_mem ((NameMap.get?_eq_some_iff _).1 htype)
    refine ⟨before, name, type, after, heq, fun p hp e' he' => ?_, he⟩
    rw [heq] at hsorted
    refine hleast p.1 e' ⟨p.2, (NameMap.get?_eq_some_iff _).2 (by simp [heq, hp]), he'⟩ ?_
    exact (List.pairwise_append.1 hsorted).2.2 p hp _ List.mem_cons_self

/-- Binding fails if the payload lacks some name. -/
theorem exists_bind_eq_error_iff {t : Trigger} :
    (∃ e, t.bind event payload = .error e) ↔ ∃ name e, Unbound event payload t name e := by
  constructor
  · rintro ⟨e, h⟩
    obtain ⟨name, hname, -⟩ := bind_eq_error_iff.1 h
    exact ⟨name, e, hname⟩
  · rintro ⟨name, e, type, htype, he⟩
    cases hb : t.bind event payload with
    | error e' => exact ⟨e', rfl⟩
    | ok data =>
      obtain ⟨value, hv, hvalue⟩ := (bindEntries_eq_ok_iff.1 hb).1 _
        ((NameMap.get?_eq_some_iff _).1 htype)
      cases he with
      | missing absent => cases absent.symm.trans hv
      | mistyped present typed other =>
        cases present.symm.trans hv
        exact (other (hvalue typed)).elim

theorem isBinding_of_bind_eq_error {t : Trigger} (h : t.bind event payload = .error e) :
    e.IsBinding := by
  obtain ⟨name, ⟨type, -, he⟩, -⟩ := bind_eq_error_iff.1 h
  exact he.isBinding

end Binding

/-! ## Steps -/

section Steps

variable {σ : Type u} {host : Host σ} {registry : Registry} {m : Machine} {e : RuntimeError}

/-- What a move refuses is the depth or a state. -/
theorem not_isBinding_of_refuse {room : Nat} {destination : String}
    (h : .refuse e ∈ m.expandMove room destination) : ¬ e.IsBinding := by
  obtain ⟨-, name, -, -, ⟨-, rfl⟩ | ⟨-, -, rfl⟩⟩ := refuse_mem_expandMove_iff.1 h
  · exact id
  · exact id

theorem not_isBinding_of_plays {acts made : List Act} {h h' : σ}
    (hp : Plays host acts h made (.error e) h')
    (hacts : ∀ e, .refuse e ∈ acts → ¬ e.IsBinding) : ¬ e.IsBinding := by
  intro he
  refine hacts e (hp.refuse_mem ?_) he
  rintro action cause rfl
  exact he

theorem not_isBinding_of_moveTo (hm : m.WellTyped registry) {inst : Instance}
    (hdepth : inst.depth = 0) {destination : String} {h : σ}
    (he : (m.moveTo host destination ⟨inst, h⟩).1 = .error e) : ¬ e.IsBinding := by
  obtain ⟨current, depth⟩ := inst
  obtain rfl : depth = 0 := hdepth
  have hrealizes : Realizes host 0 _ (m.moveTo host destination) := moveTo_plays hm destination
  obtain ⟨made, r, h', hplays, hrun⟩ := hrealizes current h
  rw [hrun] at he
  cases he
  exact not_isBinding_of_plays hplays fun _ => not_isBinding_of_refuse

theorem not_isBinding_of_instantiate (hm : m.WellTyped registry) {h : σ}
    (he : (m.instantiate host h).1 = .error e) : ¬ e.IsBinding :=
  not_isBinding_of_moveTo hm rfl (moveTo_of_instantiate_eq_error he)

end Steps

/-! ## Events -/

section Events

variable {σ : Type u} {registry : Registry} {m : Machine} {host : Host σ} {state : State}
  {event : String} {payload : Payload} {current : String} {h : σ} {index : Nat} {t : Trigger}
  {e : RuntimeError}

/-- An error of binding is one of the trigger that fires, and not of its steps. -/
theorem emit_eq_error_iff_bind (hm : m.WellTyped registry) (hs : m.state? current = some state)
    (ht : FirstFires event payload state.triggers index t) (he : e.IsBinding) :
    (m.emit host event payload ⟨⟨current, 0⟩, h⟩).1 = .error e ↔
      t.bind event payload = .error e := by
  have hf := firstFiring?_zero_eq_some_iff.2 ht
  cases hb : t.bind event payload with
  | error e' =>
    rw [emit_of_bind_eq_error hs hf hb]
    simp only [Except.error.injEq]
  | ok data =>
    refine iff_of_false (fun hemit => ?_) nofun
    have hsteps : Realizes host 0 (m.expand maxMoveDepth data t.actions)
        (runSteps host (m.moveTo host) data t.actions) := realizes_of_firstFiring? hm hs hf hb
    obtain ⟨made, r, h', hplays, hrun⟩ := hsteps current h
    rw [emit_of_bind_eq_ok hs hf hb, hrun] at hemit
    cases r with
    | ok => cases hemit
    | error e' =>
      cases hemit
      refine not_isBinding_of_plays hplays (fun e'' hrefuse => ?_) he
      obtain ⟨next, -, hrefuse⟩ := refuse_mem_flatMap_expandStep_iff.1 hrefuse
      exact not_isBinding_of_refuse hrefuse

/-- What cannot be bound is event data of a trigger of the current state that fires. -/
theorem exists_firstFires_of_emit_eq_error (hm : m.WellTyped registry)
    (hs : m.state? current = some state)
    (hemit : (m.emit host event payload ⟨⟨current, 0⟩, h⟩).1 = .error e) (he : e.IsBinding) :
    ∃ index t, FirstFires event payload state.triggers index t ∧
      t.bind event payload = .error e := by
  cases hf : firstFiring? event payload 0 state.triggers with
  | none =>
    rw [emit_of_firstFiring?_eq_none hs hf] at hemit
    cases hemit
  | some fired =>
    have hfirst := firstFiring?_zero_eq_some_iff.1 hf
    exact ⟨fired.1, fired.2, hfirst, (emit_eq_error_iff_bind hm hs hfirst he).1 hemit⟩

end Events

end Machine

/-- Whatever operations were done on the instances of a compiled machine, an event that goes to a
trigger fails to bind its event data exactly if the payload lacks some name of it. The error is
about the least such name, nothing has happened, and the triggers that follow do not matter. Moves
and the creation of instances never fail in this way. -/
theorem binding_fails_first {compiler : Compiler} {filename : String} {file : Syntax.File}
    {m : Machine} (hc : compiler.compile filename file = .ok m) {σ : Type u} (host : Host σ)
    (start : σ) (operations : List Operation) :
    (∀ inst ∈ ((Fleet.start start).run m host operations).2.instances,
      (∀ h destination e, (m.moveTo host destination ⟨inst, h⟩).1 = .error e → ¬ e.IsBinding) ∧
      ∃ state, m.state? inst.current = some state ∧ ∀ h log event payload index t,
        Machine.FirstFires event payload state.triggers index t →
          ((∃ e, (m.emit host.recorded event payload ⟨inst, h, log⟩).1 = .error e ∧ e.IsBinding) ↔
            ∃ name e, Machine.Unbound event payload t name e) ∧
          ∀ e, (m.emit host.recorded event payload ⟨inst, h, log⟩).1 = .error e → e.IsBinding →
            Machine.LeastUnbound event payload t e ∧
            (m.emit host.recorded event payload ⟨inst, h, log⟩).2 = ⟨inst, h, log⟩ ∧
            ∀ (other : Machine) state', other.state? inst.current = some state' →
              state.triggers.take (index + 1) <+: state'.triggers →
              other.emit host.recorded event payload ⟨inst, h, log⟩ =
                (.error e, ⟨inst, h, log⟩)) ∧
    ∀ h e, (m.instantiate host h).1 = .error e → ¬ e.IsBinding := by
  have hm := wellTyped_of_compile hc
  refine ⟨?_, fun h e => Machine.not_isBinding_of_instantiate hm⟩
  rintro ⟨current, depth⟩ hinst
  have hstart : ∀ inst ∈ (Fleet.start start).instances, m.Rests inst := nofun
  obtain ⟨rfl, state, hs⟩ :=
    Fleet.rests_of_run host hm (rests_entry_of_compile hc) hstart operations _ hinst
  refine ⟨fun h destination e => Machine.not_isBinding_of_moveTo hm rfl, state, hs,
    fun h log event payload index t ht => ⟨?_, fun e hemit he => ?_⟩⟩
  · rw [← Machine.exists_bind_eq_error_iff]
    constructor
    · rintro ⟨e, hemit, he⟩
      exact ⟨e, (Machine.emit_eq_error_iff_bind hm hs ht he).1 hemit⟩
    · rintro ⟨e, hb⟩
      have he := Machine.isBinding_of_bind_eq_error hb
      exact ⟨e, (Machine.emit_eq_error_iff_bind hm hs ht he).2 hb, he⟩
  · have hb := (Machine.emit_eq_error_iff_bind hm hs ht he).1 hemit
    refine ⟨Machine.bind_eq_error_iff.1 hb, ?_, fun other state' hs' hp => ?_⟩
    · rw [Machine.emit_of_bind_eq_error hs (Machine.firstFiring?_zero_eq_some_iff.2 ht) hb]
    · exact Machine.emit_of_bind_eq_error hs'
        (Machine.firstFiring?_zero_eq_some_iff.2 (ht.of_take_prefix hp)) hb

namespace Doorbell

/-- The bell is not rung by a volume that is not a number, and not touched. -/
theorem refuses_loud_volume :
    compiler.compile "bell" file = .ok machine ∧
      ⟨"Idle", 0⟩ ∈ ((Fleet.start 0).run machine host operations).2.instances ∧
      machine.emit host.recorded "Ring" (.ofList [("volume", .str "loud")]) ⟨⟨"Idle", 0⟩, 3, []⟩ =
        (.error (.typeMismatch "volume" .int .string), ⟨⟨"Idle", 0⟩, 3, []⟩) := by
  have hrun : (Fleet.start 0).run machine host operations =
    ([.ok (), .error (.actionFailed "chime" "jammed"), .ok ()], ⟨[⟨"Idle", 0⟩], 3⟩) := rfl
  have hinst : ⟨"Idle", 0⟩ ∈ ((Fleet.start 0).run machine host operations).2.instances := by
    rw [hrun]
    exact List.mem_singleton.2 rfl
  refine ⟨compile_file, hinst, ?_⟩
  obtain ⟨-, state, hs, hevent⟩ := (binding_fails_first compile_file host 0 operations).1 _ hinst
  cases hs
  have hring := hevent 3 [] "Ring" (.ofList [("volume", .str "loud")]) 0 _
    (Machine.firstFiring?_zero_eq_some_iff.1 rfl)
  obtain ⟨e, hemit, he⟩ := hring.1.2 ⟨"volume", _, .int, rfl, .mistyped rfl nofun nofun⟩
  obtain ⟨⟨name, ⟨type, htype, hlacks⟩, -⟩, hworld, -⟩ := hring.2 e hemit he
  have hname : (name, type) ∈ [("volume", ValueType.int)] := (NameMap.get?_eq_some_iff _).1 htype
  cases List.mem_singleton.1 hname
  cases hlacks with
  | missing absent => cases absent
  | mistyped present =>
    cases present
    exact Prod.ext hemit hworld

end Doorbell

end EventMachine
