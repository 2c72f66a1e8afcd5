import EventMachine.Proofs.Machine.Expansion

/-!
# Many instances of one machine

A fleet is any number of instances of one machine that share a host. Whatever operations follow
each other on it, a compiled machine calls actions only with what their signatures admit and misses
no event data (`results_and_calls_of_compile`).

1. The acts of an expansion are admitted (`expand_admitted`, `expandMove_admitted`).
2. Hence an operation on an instance at rest is safe (`safe_moveTo`, `safe_emit`).
3. An operation on a fleet keeps it sound (`Fleet.Sound.step`), and so does a run of operations
   (`Fleet.Sound.run`).
-/

namespace EventMachine

universe u

/-- The action is known and its signature admits the arguments. -/
def Registry.AdmitsCall (registry : Registry) (call : String × Arguments) : Prop :=
  ∃ inputs, registry.actions.get? call.1 = some inputs ∧ inputs.Admits call.2

/-! ## Acts -/

/-- The act is a call that is admitted, or else does not miss event data. -/
def Act.Admitted (registry : Registry) : Act → Prop
  | .call action arguments => registry.AdmitsCall (action, arguments)
  | .enter _ => True
  | .refuse e => ∀ name, e ≠ .undefinedVariable name

theorem Step.WellTyped.admitted {registry : Registry} {eventData : NameMap ValueType}
    {data : NameMap Value} {move : String → List Act} {step : Step}
    (hmove : ∀ destination, ∀ act ∈ move destination, act.Admitted registry)
    (ht : step.WellTyped registry eventData) (hd : Carries eventData data) :
    ∀ act ∈ Machine.expandStep move data step, act.Admitted registry := by
  cases ht with
  | move destination => exact hmove destination
  | call hi hb =>
    intro act hact
    rw [Machine.expandStep, List.mem_singleton] at hact
    rw [hact]
    exact ⟨_, hi, hb.admits hd⟩

section Expansion

variable {registry : Registry} {m : Machine}

theorem expandMove_admitted (hm : m.WellTyped registry) (room : Nat) (destination : String) :
    ∀ act ∈ m.expandMove room destination, act.Admitted registry := by
  induction room generalizing destination with
  | zero =>
    intro act hact
    rw [Machine.expandMove, List.mem_singleton] at hact
    rw [hact]
    intro name h
    cases h
  | succ room ih =>
    unfold Machine.expandMove
    intro act hact
    split at hact
    · rw [List.mem_singleton] at hact
      rw [hact]
      intro name h
      cases h
    · next state hs =>
      rcases List.mem_cons.1 hact with rfl | hact
      · trivial
      · obtain ⟨step, hstep, hact⟩ := List.mem_flatMap.1 hact
        have ht := hm.init state (Machine.mem_of_state? hs) step hstep
        exact ht.admitted ih (carries_empty .empty) act hact

theorem expand_admitted (hm : m.WellTyped registry) (room : Nat) {eventData : NameMap ValueType}
    {data : NameMap Value} (hd : Carries eventData data) {steps : List Step}
    (ht : ∀ step ∈ steps, step.WellTyped registry eventData) :
    ∀ act ∈ m.expand room data steps, act.Admitted registry := by
  intro act hact
  obtain ⟨step, hstep, hact⟩ := List.mem_flatMap.1 hact
  exact (ht step hstep).admitted (expandMove_admitted hm room) hd act hact

end Expansion

section Playing

variable {σ : Type u} {host : Host σ} {acts made : List Act} {r : Except RuntimeError Unit}
  {h h' : σ}

theorem Plays.subset (hp : Plays host acts h made r h') : made ⊆ acts := by
  cases hp with
  | through => exact List.Subset.refl _
  | stopped split =>
    rw [split]
    exact List.append_subset.2 ⟨List.subset_append_left _ _, by simp⟩

theorem admitsCall_of_mem_calls {registry : Registry} {call : String × Arguments}
    (ha : ∀ act ∈ acts, act.Admitted registry) (hc : call ∈ calls acts) :
    registry.AdmitsCall call := by
  obtain ⟨act, hact, heq⟩ := List.mem_filterMap.1 hc
  have := ha act hact
  cases act <;> cases heq
  exact this

theorem Plays.ne_undefinedVariable {registry : Registry} (hp : Plays host acts h made r h')
    (ha : ∀ act ∈ acts, act.Admitted registry) (name : String) :
    r ≠ .error (.undefinedVariable name) := by
  cases hp with
  | through => nofun
  | @stopped before after act e mid _ split _ stops =>
    have hact := ha act (by rw [split]; exact List.mem_append_right _ List.mem_cons_self)
    rintro ⟨⟩
    cases stops
    exact hact name rfl

end Playing

/-! ## Operations on one instance -/

section Safety

variable {σ : Type u} {host : Host σ} {registry : Registry} {m : Machine} {α : Type}

/-- From an instance at rest and admitted calls, the run comes to rest, has made admitted calls
only, and missed no event data. -/
def Safe (registry : Registry) (run : Run (σ × List (String × Arguments)) α) : Prop :=
  ∀ w, w.inst.depth = 0 → (∀ call ∈ w.host.2, registry.AdmitsCall call) →
    (∀ name, (run w).1 ≠ .error (.undefinedVariable name)) ∧ (run w).2.inst.depth = 0 ∧
      ∀ call ∈ (run w).2.host.2, registry.AdmitsCall call

theorem Realizes.safe {acts : List Act} {run : Run (σ × List (String × Arguments)) Unit}
    (hr : Realizes host.recorded 0 acts run) (ha : ∀ act ∈ acts, act.Admitted registry) :
    Safe registry run := by
  rintro ⟨⟨current, depth⟩, h, log⟩ rfl hlog
  obtain ⟨made, h', hp, hw⟩ := hr.recorded_eq_iff.1 (Prod.eta (run ⟨⟨current, 0⟩, h, log⟩)).symm
  rw [hw]
  refine ⟨hp.ne_undefinedVariable ha, rfl, fun call hcall => ?_⟩
  rcases List.mem_append.1 hcall with hcall | hcall
  · exact hlog call hcall
  · exact admitsCall_of_mem_calls (fun act hact => ha act (hp.subset hact)) hcall

theorem Safe.map {β : Type} {run : Run (σ × List (String × Arguments)) α}
    (hs : Safe registry run) (f : World (σ × List (String × Arguments)) → α → β) :
    Safe registry fun w => ((run w).1.map (f (run w).2), (run w).2) := by
  intro w hw hlog
  obtain ⟨hr, hrest⟩ := hs w hw hlog
  refine ⟨fun name h => ?_, hrest⟩
  cases hrun : (run w).1 with
  | ok a =>
    simp only [hrun] at h
    cases h
  | error e =>
    simp only [hrun] at h
    cases h
    exact hr name hrun

/-- An error that is not about event data, with nothing done. -/
theorem safe_error {e : RuntimeError} (he : ∀ name, e ≠ .undefinedVariable name) :
    Safe (σ := σ) (α := α) registry fun w => (.error e, w) := by
  intro w hw hlog
  refine ⟨fun name h => ?_, hw, hlog⟩
  cases h
  exact he name rfl

theorem safe_moveTo (hm : m.WellTyped registry) (destination : String) :
    Safe registry (m.moveTo host.recorded destination) :=
  (moveTo_plays hm destination).safe (expandMove_admitted hm maxMoveDepth destination)

theorem Machine.bindEntries_ne_undefinedVariable {event : String} {payload : Payload}
    {entries : List (String × ValueType)} {data : NameMap Value} {e : RuntimeError}
    (h : bindEntries event payload entries data = .error e) (name : String) :
    e ≠ .undefinedVariable name := by
  induction entries generalizing data with
  | nil => cases h
  | cons entry entries ih =>
    unfold bindEntries at h
    split at h
    · cases h
      nofun
    · split at h
      · cases h
        nofun
      · exact ih h

theorem safe_emit (hm : m.WellTyped registry) (event : String) (payload : Payload) :
    Safe registry (m.emit host.recorded event payload) := by
  intro w hw hlog
  cases hs : m.state? w.inst.current with
  | none =>
    rw [Machine.emit_of_state?_eq_none hs]
    refine safe_error (fun name h => ?_) w hw hlog
    cases h
  | some state =>
    cases hf : Machine.firstFiring? event payload 0 state.triggers with
    | none =>
      rw [Machine.emit_of_firstFiring?_eq_none hs hf]
      exact ⟨nofun, hw, hlog⟩
    | some fired =>
      obtain ⟨index, t⟩ := fired
      cases hb : t.bind event payload with
      | error e =>
        rw [Machine.emit_of_bind_eq_error hs hf hb]
        exact safe_error (Machine.bindEntries_ne_undefinedVariable hb) w hw hlog
      | ok data =>
        have hd := Machine.carries_of_bind hb
        have ht := hm.actions state (Machine.mem_of_state? hs) t (Machine.mem_of_firstFiring? hf)
        have hsteps : Safe registry
            (Machine.runSteps host.recorded (m.moveTo host.recorded) data t.actions) :=
          (runSteps_plays (moveTo_plays hm) hd ht).safe (expand_admitted hm maxMoveDepth hd ht)
        rw [Machine.emit_of_bind_eq_ok hs hf hb]
        exact (hsteps.map fun after _ =>
          Outcome.fired ⟨w.inst.current, after.inst.current, index⟩) w hw hlog

theorem safe_instantiate (host : Host σ) (hm : m.WellTyped registry)
    {h : σ × List (String × Arguments)}
    (hlog : ∀ call ∈ h.2, registry.AdmitsCall call) :
    (∀ name, (m.instantiate host.recorded h).1 ≠ .error (.undefinedVariable name)) ∧
      (∀ inst, (m.instantiate host.recorded h).1 = .ok inst → inst.depth = 0) ∧
      ∀ call ∈ (m.instantiate host.recorded h).2.2, registry.AdmitsCall call := by
  have hmove : Safe registry (m.moveTo host.recorded m.entry) := safe_moveTo hm m.entry
  obtain ⟨hr, hdepth, hlog⟩ := hmove ⟨⟨m.entry, 0⟩, h⟩ rfl hlog
  unfold Machine.instantiate
  rcases hrun : m.moveTo host.recorded m.entry ⟨⟨m.entry, 0⟩, h⟩ with ⟨e | a, w⟩
  · rw [hrun] at hr hlog
    refine ⟨fun name he => hr name ?_, fun inst hi => ?_, hlog⟩
    · cases he
      rfl
    · cases hi
  · rw [hrun] at hdepth hlog
    refine ⟨fun name he => ?_, fun inst hi => ?_, hlog⟩
    · cases he
    · cases hi
      exact hdepth

end Safety

/-! ## Operations on a fleet -/

/-- An operation on a fleet, whose instances are known by their index. -/
inductive Operation
  | instantiate
  | emit (index : Nat) (event : String) (payload : Payload)
  | moveTo (index : Nat) (destination : String)

/-- The instances of a machine in the order of their creation, and the state of their host. -/
structure Fleet (σ : Type u) where
  instances : List Instance
  host : σ

namespace Fleet

variable {σ : Type u} {α : Type}

/-- The fleet before any operation. -/
def start (h : σ) : Fleet σ := ⟨[], h⟩

/-- An operation on the instance of an index; without that instance nothing happens. -/
def operate (fleet : Fleet σ) (index : Nat) (run : Run σ α) : Except RuntimeError Unit × Fleet σ :=
  match fleet.instances[index]? with
  | none => (.ok (), fleet)
  | some inst =>
    let (r, w) := run ⟨inst, fleet.host⟩
    (r.map fun _ => (), ⟨fleet.instances.set index w.inst, w.host⟩)

/-- What an operation results in, and the fleet after it. -/
def step (m : Machine) (host : Host σ) (fleet : Fleet σ) :
    Operation → Except RuntimeError Unit × Fleet σ
  | .instantiate =>
    match m.instantiate host fleet.host with
    | (.ok inst, h) => (.ok (), ⟨fleet.instances ++ [inst], h⟩)
    | (.error e, h) => (.error e, { fleet with host := h })
  | .emit index event payload => fleet.operate index (m.emit host event payload)
  | .moveTo index destination => fleet.operate index (m.moveTo host destination)

/-- The results of operations one after the other, and the fleet after them. An operation that
fails does not keep the others from following. -/
def run (m : Machine) (host : Host σ) (fleet : Fleet σ) :
    List Operation → List (Except RuntimeError Unit) × Fleet σ
  | [] => ([], fleet)
  | operation :: operations =>
    let (r, fleet) := fleet.step m host operation
    let (rs, fleet) := fleet.run m host operations
    (r :: rs, fleet)

/-- The instances are at rest, and the calls made are admitted. -/
structure Sound (registry : Registry) (fleet : Fleet (σ × List (String × Arguments))) : Prop where
  atRest : ∀ inst ∈ fleet.instances, inst.depth = 0
  admitted : ∀ call ∈ fleet.host.2, registry.AdmitsCall call

variable {registry : Registry} {m : Machine} {host : Host σ}
  {fleet : Fleet (σ × List (String × Arguments))}

theorem sound_start (h : σ) : (start (h, [])).Sound registry :=
  ⟨by nofun, by nofun⟩

theorem Sound.operate (hf : fleet.Sound registry) (index : Nat)
    {run : Run (σ × List (String × Arguments)) α} (hs : Safe registry run) :
    (∀ name, (fleet.operate index run).1 ≠ .error (.undefinedVariable name)) ∧
      (fleet.operate index run).2.Sound registry := by
  unfold Fleet.operate
  cases hi : fleet.instances[index]? with
  | none => exact ⟨by nofun, hf⟩
  | some inst =>
    obtain ⟨hr, hdepth, hlog⟩ := hs.map (fun _ _ => ()) ⟨inst, fleet.host⟩
      (hf.atRest inst (List.mem_of_getElem? hi)) hf.admitted
    refine ⟨hr, fun inst' hinst => ?_, hlog⟩
    rcases List.mem_or_eq_of_mem_set hinst with hmem | rfl
    · exact hf.atRest inst' hmem
    · exact hdepth

/-- One operation on a sound fleet. -/
theorem Sound.step (host : Host σ) (hm : m.WellTyped registry) (hf : fleet.Sound registry)
    (operation : Operation) :
    (∀ name, (fleet.step m host.recorded operation).1 ≠ .error (.undefinedVariable name)) ∧
      (fleet.step m host.recorded operation).2.Sound registry := by
  cases operation with
  | emit index event payload => exact hf.operate index (safe_emit hm event payload)
  | moveTo index destination => exact hf.operate index (safe_moveTo hm destination)
  | instantiate =>
    obtain ⟨hr, hdepth, hlog⟩ := safe_instantiate host hm hf.admitted
    unfold Fleet.step
    rcases hi : m.instantiate host.recorded fleet.host with ⟨e | inst, h⟩
    · rw [hi] at hr hlog
      exact ⟨fun name he => hr name (by cases he; rfl), hf.atRest, hlog⟩
    · rw [hi] at hdepth hlog
      refine ⟨nofun, fun inst' hinst => ?_, hlog⟩
      rcases List.mem_append.1 hinst with hmem | hmem
      · exact hf.atRest inst' hmem
      · rw [List.mem_singleton.1 hmem]
        exact hdepth inst rfl

/-- A run of operations on a sound fleet; by induction on the operations. -/
theorem Sound.run (host : Host σ) (hm : m.WellTyped registry) (operations : List Operation)
    (hf : fleet.Sound registry) :
    (∀ r ∈ (fleet.run m host.recorded operations).1,
      ∀ name, r ≠ .error (.undefinedVariable name)) ∧
      (fleet.run m host.recorded operations).2.Sound registry := by
  induction operations generalizing fleet with
  | nil => exact ⟨by nofun, hf⟩
  | cons operation operations ih =>
    obtain ⟨hr, hstep⟩ := hf.step host hm operation
    obtain ⟨hrs, hrun⟩ := ih hstep
    refine ⟨fun r h => ?_, hrun⟩
    rcases List.mem_cons.1 h with rfl | h
    · exact hr
    · exact hrs r h

end Fleet

/-- Whatever happens to the instances of a compiled machine, no operation fails for want of event
data, and every call is one that the signature of its action admits. -/
theorem results_and_calls_of_compile {compiler : Compiler} {filename : String} {file : Syntax.File}
    {m : Machine} (hc : compiler.compile filename file = .ok m) {σ : Type u} (host : Host σ)
    (h : σ) (operations : List Operation) :
    (∀ r ∈ ((Fleet.start (h, [])).run m host.recorded operations).1,
      ∀ name, r ≠ .error (.undefinedVariable name)) ∧
    ∀ call ∈ ((Fleet.start (h, [])).run m host.recorded operations).2.host.2,
      ∃ inputs, compiler.registry.actions.get? call.1 = some inputs ∧ inputs.Admits call.2 := by
  obtain ⟨hr, hf⟩ := (Fleet.sound_start h).run host (wellTyped_of_compile hc) operations
  exact ⟨hr, hf.admitted⟩

namespace Doorbell

def operations : List Operation :=
  [.instantiate, .emit 0 "Ring" (.ofList [("volume", .int 7)]), .moveTo 0 "Ringing"]

/-- The calls of a bell that jams. -/
theorem results_and_calls :
    compiler.compile "bell" file = .ok machine ∧
      (∀ r ∈ ((Fleet.start (0, [])).run machine host.recorded operations).1,
        ∀ name, r ≠ .error (.undefinedVariable name)) ∧
      ∀ call ∈ ((Fleet.start (0, [])).run machine host.recorded operations).2.host.2,
        ∃ inputs, compiler.registry.actions.get? call.1 = some inputs ∧ inputs.Admits call.2 :=
  ⟨compile_file, results_and_calls_of_compile compile_file host 0 operations⟩

end Doorbell

end EventMachine
