import EventMachine.Proofs.Compile.Warnings
import EventMachine.Proofs.Machine.Dispatch

/-!
# What an event's data are looked at for

An event has the same effect with any two payloads that agree on the names its current state reads:
those that its triggers have constraints for, and those of their event data
(`emit_eq_of_agreesOn`). The names that other states read play no part, although the steps may enter
them.

1. Testing a trigger looks at the names of its constraints (`Trigger.fires_eq`), and binding at the
   names of its event data (`Trigger.bind_eq`).
2. After that the payload is gone: the steps are run with the data that were bound
   (`Machine.emit_eq_of_agreesOn`).
3. The names that a compiled state reads are written in the state of the file
   (`Scope.LowersState.mem_reads`).
-/

namespace EventMachine

universe u

/-- Each of the names is in both payloads with the same value, or in neither. -/
def Payload.AgreesOn (names : List String) (payload payload' : Payload) : Prop :=
  ∀ name ∈ names, payload.get? name = payload'.get? name

namespace Machine

/-- The names that a trigger reads. -/
def Trigger.reads (t : Trigger) : List String :=
  t.conditions.flatMap (·.constraints.names) ++ t.eventData.names

/-- The names that the triggers of a state read. -/
def State.reads (s : State) : List String := s.triggers.flatMap Trigger.reads

section Agreement

variable {event : String} {payload payload' : Payload}

theorem Condition.holds_eq {c : Condition} (h : payload.AgreesOn c.constraints.names payload') :
    c.holds event payload = c.holds event payload' := by
  have hagree : ∀ name asked, c.constraints.get? name = some asked →
      payload.get? name = payload'.get? name := fun name asked hasked =>
    h name ((NameMap.mem_names _).2 ⟨asked, hasked⟩)
  rw [Bool.eq_iff_iff, Condition.holds_iff, Condition.holds_iff]
  refine and_congr_right fun _ => forall₃_congr fun name asked hasked => ?_
  rw [hagree name asked hasked]

theorem Trigger.fires_eq {t : Trigger} (h : payload.AgreesOn t.reads payload') :
    t.fires event payload = t.fires event payload' := by
  have hconditions : ∀ c ∈ t.conditions, c.holds event payload = c.holds event payload' :=
    fun c hc => Condition.holds_eq fun name hname =>
      h name (List.mem_append_left _ (List.mem_flatMap.2 ⟨c, hc, hname⟩))
  rw [Bool.eq_iff_iff, fires_iff, fires_iff]
  refine exists_congr fun c => and_congr_right fun hc => ?_
  rw [hconditions c hc]

theorem firstFiring?_eq {triggers : List Trigger} {index : Nat}
    (h : payload.AgreesOn (triggers.flatMap Trigger.reads) payload') :
    firstFiring? event payload index triggers = firstFiring? event payload' index triggers := by
  induction triggers generalizing index with
  | nil => rfl
  | cons t ts ih =>
    have hfirst : payload.AgreesOn t.reads payload' := fun name hname =>
      h name (List.mem_append_left _ hname)
    have hrest : payload.AgreesOn (ts.flatMap Trigger.reads) payload' := fun name hname =>
      h name (List.mem_append_right _ hname)
    unfold firstFiring?
    rw [Trigger.fires_eq hfirst, ih hrest]

theorem bindEntries_eq {entries : List (String × ValueType)} {data : NameMap Value}
    (h : payload.AgreesOn (entries.map (·.1)) payload') :
    bindEntries event payload entries data = bindEntries event payload' entries data := by
  induction entries generalizing data with
  | nil => rfl
  | cons entry entries ih =>
    obtain ⟨name, type⟩ := entry
    unfold bindEntries
    rw [h name List.mem_cons_self]
    split
    · rfl
    · rw [ih fun name hname => h name (List.mem_cons_of_mem _ hname)]

theorem Trigger.bind_eq {t : Trigger} (h : payload.AgreesOn t.reads payload') :
    t.bind event payload = t.bind event payload' :=
  bindEntries_eq fun name hname => h name (List.mem_append_right _ hname)

/-- An event has the same effect with payloads that agree on what the current state reads. -/
theorem emit_eq_of_agreesOn {σ : Type u} {m : Machine} {host : Host σ} {w : World σ}
    (h : ∀ state, m.state? w.inst.current = some state → payload.AgreesOn state.reads payload') :
    m.emit host event payload w = m.emit host event payload' w := by
  cases hs : m.state? w.inst.current with
  | none => rw [emit_of_state?_eq_none hs, emit_of_state?_eq_none hs]
  | some state =>
    have hfirst : firstFiring? event payload 0 state.triggers =
        firstFiring? event payload' 0 state.triggers := firstFiring?_eq (h state hs)
    cases hf : firstFiring? event payload 0 state.triggers with
    | none =>
      rw [emit_of_firstFiring?_eq_none hs hf, emit_of_firstFiring?_eq_none hs (hfirst ▸ hf)]
    | some fired =>
      obtain ⟨index, t⟩ := fired
      have hbind : t.bind event payload = t.bind event payload' :=
        Trigger.bind_eq fun name hname =>
          h state hs name (List.mem_flatMap.2 ⟨t, mem_of_firstFiring? hf, hname⟩)
      -- the steps have what was bound, and nothing else of the payload
      cases hb : t.bind event payload with
      | error e =>
        rw [emit_of_bind_eq_error hs hf hb, emit_of_bind_eq_error hs (hfirst ▸ hf) (hbind ▸ hb)]
      | ok data =>
        rw [emit_of_bind_eq_ok hs hf hb, emit_of_bind_eq_ok hs (hfirst ▸ hf) (hbind ▸ hb)]

end Agreement

end Machine

/-! ## Names of the file -/

/-- A condition of the trigger asks for a value under the name, or the last one mentions it. -/
def Syntax.Trigger.Reads (t : Syntax.Trigger) (name : String) : Prop :=
  (∃ c ∈ t.conditions, ∃ p ∈ c.params, p.name = name ∧ p.value.isSome = true) ∨
    ∃ c ∈ t.conditions.getLast?, name ∈ c.names

namespace Compile

variable {scope : Scope} {name : String}

theorem Scope.mem_names_constraints {c : Syntax.Condition} (hc : scope.Declared c) :
    name ∈ (scope.lowered c).constraints.names ↔
      ∃ p ∈ c.params, p.name = name ∧ p.value.isSome = true := by
  have hasked : ∀ p ∈ c.params, (∃ asked, scope.asked? p = some (name, asked)) ↔
      p.name = name ∧ p.value.isSome = true := by
    obtain ⟨fields, -, hfits⟩ := hc
    intro p hp
    obtain ⟨type, -, hvalue⟩ := hfits p hp
    simp only [Scope.asked?_eq_some_iff, exists_and_left, Option.isSome_iff_exists]
    refine and_congr_right fun _ => ⟨?_, ?_⟩
    · rintro ⟨asked, e, he, -⟩
      exact ⟨e, he⟩
    · rintro ⟨e, he⟩
      obtain ⟨value, hv, -⟩ := hvalue e he
      exact ⟨value, e, he, hv⟩
  rw [lowered, NameMap.mem_names_ofList]
  simp only [List.mem_map, List.mem_filterMap, Prod.exists]
  constructor
  · rintro ⟨_, asked, ⟨p, hp, hpair⟩, rfl⟩
    exact ⟨p, hp, (hasked p hp).1 ⟨asked, hpair⟩⟩
  · rintro ⟨p, hp, hvalue⟩
    obtain ⟨asked, hpair⟩ := (hasked p hp).2 hvalue
    exact ⟨name, asked, ⟨p, hp, hpair⟩, rfl⟩

theorem Scope.LowersTrigger.mem_reads {t : Syntax.Trigger} {lowered : Machine.Trigger}
    (h : scope.LowersTrigger t lowered) : name ∈ lowered.reads ↔ t.Reads name := by
  have hconstraints : name ∈ lowered.conditions.flatMap (·.constraints.names) ↔
      ∃ c ∈ t.conditions, ∃ p ∈ c.params, p.name = name ∧ p.value.isSome = true := by
    simp only [h.conditions, List.mem_flatMap, List.mem_map, exists_exists_and_eq_and]
    exact exists_congr fun c => and_congr_right fun hc =>
      Scope.mem_names_constraints (h.declared c hc)
  have heventData : name ∈ lowered.eventData.names ↔
      ∃ c ∈ t.conditions.getLast?, name ∈ c.names := by
    rw [h.eventData, Scope.lastEventData]
    cases hlast : t.conditions.getLast? with
    | none => simp [NameMap.names, NameMap.empty]
    | some c =>
      have hdeclared := h.declared c (List.mem_of_getLast? hlast)
      simpa using Scope.mem_names_eventData hdeclared
  rw [Machine.Trigger.reads, List.mem_append, hconstraints, heventData]
  rfl

/-- The names that a compiled state reads are written in its triggers. -/
theorem Scope.LowersState.mem_reads {s : Syntax.State} {lowered : Machine.State}
    (h : scope.LowersState s lowered) :
    name ∈ lowered.reads ↔ ∃ t ∈ s.triggers, t.Reads name := by
  have htriggers : ∀ {ts lowered}, List.Forall₂ scope.LowersTrigger ts lowered →
      (name ∈ lowered.flatMap Machine.Trigger.reads ↔ ∃ t ∈ ts, t.Reads name) := by
    intro ts lowered hts
    induction hts with
    | nil => simp
    | cons ht _ ih =>
      rw [List.flatMap_cons, List.mem_append, ht.mem_reads, ih, List.exists_mem_cons_iff]
  exact htriggers h.triggers

end Compile

open Compile

/-- In every instance of a compiled machine an event has the same effect with any two payloads that
agree on the names that the current state reads: the calls and their arguments, the result, the
state that is entered and that of the host are the same. These names are those that a condition of
the state asks a value for, and those that the last condition of a trigger mentions. -/
theorem emit_looks_at_own_names {compiler : Compiler} {filename : String} {file : Syntax.File}
    {m : Machine} (hc : compiler.compile filename file = .ok m) {σ : Type u} (host : Host σ)
    (event : String) (w : World (σ × List (String × Arguments))) :
    (∀ payload payload',
      (∀ state, m.state? w.inst.current = some state → payload.AgreesOn state.reads payload') →
        m.emit host.recorded event payload w = m.emit host.recorded event payload' w) ∧
    ∀ state, m.state? w.inst.current = some state →
      ∃ before s after, file.entries = before ++ .state s :: after ∧ s.name = w.inst.current ∧
        ∀ name, name ∈ state.reads ↔ ∃ t ∈ s.triggers, t.Reads name := by
  refine ⟨fun payload payload' h => Machine.emit_eq_of_agreesOn h, fun state hs => ?_⟩
  obtain ⟨before, s, after, split, hname, hlowers⟩ := exists_state_of_compile hc hs
  exact ⟨before, s, after, split, hname, fun name => hlowers.mem_reads⟩

namespace Doorbell

/-- The idle bell looks at the volume only: the colour of the button does not matter. -/
theorem rings_whatever_colour :
    compiler.compile "bell" file = .ok machine ∧
      machine.emit host.recorded "Ring"
          (.ofList [("volume", .int 7), ("colour", .str "red")]) ⟨⟨"Idle", 0⟩, 0, []⟩ =
        machine.emit host.recorded "Ring" (.ofList [("volume", .int 7)]) ⟨⟨"Idle", 0⟩, 0, []⟩ := by
  refine ⟨compile_file, (emit_looks_at_own_names compile_file host "Ring" _).1 _ _ ?_⟩
  intro state hs name hname
  cases hs
  have hvolume : name ∈ ["volume"] := hname
  rw [List.mem_singleton.1 hvolume]
  rfl

end Doorbell

end EventMachine
