import EventMachine.Proofs.Compile.Constraints
import EventMachine.Proofs.Machine.Lifetime

/-!
# Which trigger fires

An event goes to the triggers of the current state in their order, and the first of which some
condition holds runs its steps (`FirstFires`, `firstFiring?_eq_some_iff`). `Dispatches` states all
that an event does in these terms, and an instance of a compiled machine does exactly that
(`dispatches_first_match`).

Nothing else takes part: what becomes of an event does not depend on the triggers that come after
the one that fires, nor on those of other states, the states that its steps enter among them
(`emit_eq_of_sameUpToFirst`).
-/

namespace EventMachine

universe u

namespace Machine

/-! ## The first trigger that fires -/

section Triggers

variable {event : String} {payload : Payload} {triggers others : List Trigger} {index : Nat}
  {t : Trigger}

/-- Some condition of a trigger holds of the event. -/
def SomeHolds (event : String) (payload : Payload) (t : Trigger) : Prop :=
  ∃ c ∈ t.conditions, c.holds event payload = true

/-- The trigger stands at the index, some condition of it holds, and none of any trigger before. -/
structure FirstFires (event : String) (payload : Payload) (triggers : List Trigger) (index : Nat)
    (t : Trigger) : Prop where
  stands : triggers[index]? = some t
  holds : SomeHolds event payload t
  first : ∀ i < index, ∀ t', triggers[i]? = some t' → ¬ SomeHolds event payload t'

theorem fires_iff : t.fires event payload = true ↔ SomeHolds event payload t := by
  simp [Trigger.fires, SomeHolds]

theorem firstFires_cons_zero {t' : Trigger} :
    FirstFires event payload (t' :: triggers) 0 t ↔ t' = t ∧ SomeHolds event payload t := by
  constructor
  · rintro ⟨hstands, hholds, -⟩
    exact ⟨Option.some.inj hstands, hholds⟩
  · rintro ⟨rfl, hholds⟩
    exact ⟨rfl, hholds, nofun⟩

theorem firstFires_cons_succ {t' : Trigger} :
    FirstFires event payload (t' :: triggers) (index + 1) t ↔
      ¬ SomeHolds event payload t' ∧ FirstFires event payload triggers index t := by
  constructor
  · rintro ⟨hstands, hholds, hfirst⟩
    exact ⟨hfirst 0 (Nat.succ_pos index) t' rfl, hstands, hholds, fun i hi =>
      hfirst (i + 1) (Nat.succ_lt_succ hi)⟩
  · rintro ⟨hnot, hstands, hholds, hfirst⟩
    refine ⟨hstands, hholds, fun i hi t'' ht => ?_⟩
    cases i with
    | zero => exact Option.some.inj ht ▸ hnot
    | succ i => exact hfirst i (Nat.lt_of_succ_lt_succ hi) t'' ht

theorem firstFiring?_eq_some_iff {start : Nat} :
    firstFiring? event payload start triggers = some (index, t) ↔
      ∃ i, index = start + i ∧ FirstFires event payload triggers i t := by
  induction triggers generalizing start with
  | nil =>
    constructor
    · nofun
    · rintro ⟨i, -, ⟨⟩, -⟩
  | cons t' triggers ih =>
    unfold firstFiring?
    split
    · next hfires =>
      have hholds := fires_iff.1 hfires
      constructor
      · rintro ⟨⟩
        exact ⟨0, rfl, firstFires_cons_zero.2 ⟨rfl, hholds⟩⟩
      · rintro ⟨_ | i, rfl, h⟩
        · rw [(firstFires_cons_zero.1 h).1]
        · exact ((firstFires_cons_succ.1 h).1 hholds).elim
    · next hfires =>
      have hnot : ¬ SomeHolds event payload t' := fun hholds => hfires (fires_iff.2 hholds)
      rw [ih]
      constructor
      · rintro ⟨i, rfl, h⟩
        exact ⟨i + 1, by omega, firstFires_cons_succ.2 ⟨hnot, h⟩⟩
      · rintro ⟨_ | i, rfl, h⟩
        · obtain ⟨rfl, hholds⟩ := firstFires_cons_zero.1 h
          exact (hnot hholds).elim
        · exact ⟨i, by omega, (firstFires_cons_succ.1 h).2⟩

theorem firstFiring?_zero_eq_some_iff :
    firstFiring? event payload 0 triggers = some (index, t) ↔
      FirstFires event payload triggers index t := by
  rw [firstFiring?_eq_some_iff]
  simp

theorem firstFiring?_eq_none_iff {start : Nat} :
    firstFiring? event payload start triggers = none ↔
      ∀ t ∈ triggers, ¬ SomeHolds event payload t := by
  induction triggers generalizing start with
  | nil => simp [firstFiring?]
  | cons t triggers ih =>
    unfold firstFiring?
    rw [List.forall_mem_cons, ← @ih (start + 1), ← fires_iff]
    split
    · next h => simp [h]
    · next h => simp [h]

/-- The triggers are the same up to the first that fires, or altogether if none does. -/
def SameUpToFirst (event : String) (payload : Payload) (triggers others : List Trigger) : Prop :=
  others = triggers ∨
    ∃ index t, FirstFires event payload triggers index t ∧ triggers.take (index + 1) <+: others

theorem FirstFires.of_take_prefix (h : FirstFires event payload triggers index t)
    (hp : triggers.take (index + 1) <+: others) : FirstFires event payload others index t := by
  have hget {i : Nat} {t' : Trigger} (hi : i ≤ index) :
      others[i]? = some t' ↔ triggers[i]? = some t' := by
    obtain ⟨rest, rfl⟩ := hp
    have hlt : index < triggers.length := (List.getElem?_eq_some_iff.1 h.stands).1
    have hlen : i < (triggers.take (index + 1)).length := by
      rw [List.length_take]
      omega
    rw [List.getElem?_append_left hlen, List.getElem?_take_of_lt (Nat.lt_succ_of_le hi)]
  exact ⟨(hget (Nat.le_refl index)).2 h.stands, h.holds, fun i hi t' ht' =>
    h.first i hi t' ((hget (Nat.le_of_lt hi)).1 ht')⟩

theorem firstFiring?_eq_of_sameUpToFirst (h : SameUpToFirst event payload triggers others) :
    firstFiring? event payload 0 others = firstFiring? event payload 0 triggers := by
  rcases h with rfl | ⟨index, t, hfirst, hp⟩
  · rfl
  · rw [firstFiring?_zero_eq_some_iff.2 hfirst,
      firstFiring?_zero_eq_some_iff.2 (hfirst.of_take_prefix hp)]

end Triggers

/-! ## What an event depends on -/

section Independence

variable {σ : Type u} {m other : Machine}

/-- The machines have the same states with the same steps on entry; their triggers may differ. -/
def SameEntries (m other : Machine) : Prop :=
  ∀ name, (other.state? name).map (·.init) = (m.state? name).map (·.init)

/-- Entering a state looks at steps on entry only. The induction is on the room. -/
theorem enter_eq_of_sameEntries (h : m.SameEntries other) (host : Host σ) (room : Nat) :
    other.enter host room = m.enter host room := by
  induction room with
  | zero => rfl
  | succ room ih =>
    funext destination w
    have hinit := h destination
    unfold enter
    rw [ih]
    cases hs : m.state? destination with
    | none =>
      rw [hs, Option.map_none, Option.map_eq_none_iff] at hinit
      simp only [hinit]
    | some state =>
      rw [hs, Option.map_some] at hinit
      obtain ⟨state', hs', hinit⟩ := Option.map_eq_some_iff.1 hinit
      simp only [hs', hinit]

theorem moveTo_eq_of_sameEntries (h : m.SameEntries other) (host : Host σ) :
    other.moveTo host = m.moveTo host := by
  funext destination w
  unfold moveTo
  rw [enter_eq_of_sameEntries h]

/-- An event looks at the triggers of the current state, up to the first that fires. -/
theorem emit_eq_of_sameUpToFirst (h : m.SameEntries other) {host : Host σ} {event : String}
    {payload : Payload} {w : World σ} {state state' : State}
    (hs : m.state? w.inst.current = some state) (hs' : other.state? w.inst.current = some state')
    (htriggers : SameUpToFirst event payload state.triggers state'.triggers) :
    other.emit host event payload w = m.emit host event payload w := by
  unfold emit
  simp only [hs, hs', firstFiring?_eq_of_sameUpToFirst htriggers, moveTo_eq_of_sameEntries h]

end Independence

/-! ## What an event does -/

section Dispatch

variable {σ : Type u}

/-- What an event results in, and the world after it, for an instance at rest in the state. The
host also keeps the calls made of it. -/
inductive Dispatches (m : Machine) (host : Host σ) (state : State) (event : String)
    (payload : Payload) (current : String) (h : σ) (log : List (String × Arguments)) :
    Except RuntimeError Outcome → World (σ × List (String × Arguments)) → Prop
  /-- No condition holds, and nothing happens. -/
  | unmatched (none : ∀ t ∈ state.triggers, ¬ SomeHolds event payload t) :
      Dispatches m host state event payload current h log (.ok .noMatch) ⟨⟨current, 0⟩, h, log⟩
  /-- The first trigger cannot bind its event data, and nothing happens. -/
  | unbound {index : Nat} {t : Trigger} {e : RuntimeError}
      (first : FirstFires event payload state.triggers index t)
      (bind : t.bind event payload = .error e) :
      Dispatches m host state event payload current h log (.error e) ⟨⟨current, 0⟩, h, log⟩
  /-- The steps of the first trigger are run, and those on the entries that they make. -/
  | ran {index : Nat} {t : Trigger} {data : NameMap Value} {made : List Act}
      {result : Except RuntimeError Unit} {h' : σ}
      (first : FirstFires event payload state.triggers index t)
      (bind : t.bind event payload = .ok data)
      (plays : Plays host (m.expand maxMoveDepth data t.actions) h made result h') :
      Dispatches m host state event payload current h log
        (result.map fun _ => .fired ⟨current, lastEntered current made, index⟩)
        ⟨⟨lastEntered current made, 0⟩, h', log ++ calls made⟩

variable {registry : Registry} {m : Machine} {host : Host σ} {state : State} {event : String}
  {payload : Payload} {current : String} {h : σ} {log : List (String × Arguments)}

theorem dispatches_emit (hm : m.WellTyped registry) (hs : m.state? current = some state) :
    m.Dispatches host state event payload current h log
      (m.emit host.recorded event payload ⟨⟨current, 0⟩, h, log⟩).1
      (m.emit host.recorded event payload ⟨⟨current, 0⟩, h, log⟩).2 := by
  cases hf : firstFiring? event payload 0 state.triggers with
  | none =>
    rw [emit_of_firstFiring?_eq_none hs hf]
    exact .unmatched (firstFiring?_eq_none_iff.1 hf)
  | some fired =>
    obtain ⟨index, t⟩ := fired
    have hfirst := firstFiring?_zero_eq_some_iff.1 hf
    cases hb : t.bind event payload with
    | error e =>
      rw [emit_of_bind_eq_error hs hf hb]
      exact .unbound hfirst hb
    | ok data =>
      rw [emit_of_bind_eq_ok hs hf hb]
      have hsteps : Realizes host.recorded 0 (m.expand maxMoveDepth data t.actions)
          (runSteps host.recorded (m.moveTo host.recorded) data t.actions) :=
        realizes_of_firstFiring? hm hs hf hb
      obtain ⟨made, h', hplays, hw⟩ := hsteps.recorded_eq_iff.1
        (Prod.eta (runSteps host.recorded (m.moveTo host.recorded) data t.actions
          ⟨⟨current, 0⟩, h, log⟩)).symm
      simp only [hw]
      exact .ran hfirst hb hplays

/-- The first trigger that fires is one. -/
theorem FirstFires.unique {triggers : List Trigger} {i j : Nat} {t t' : Trigger}
    (ht : FirstFires event payload triggers i t) (ht' : FirstFires event payload triggers j t') :
    i = j ∧ t = t' := by
  have heq := (firstFiring?_zero_eq_some_iff.2 ht).symm.trans (firstFiring?_zero_eq_some_iff.2 ht')
  cases heq
  exact ⟨rfl, rfl⟩

theorem FirstFires.not_none {triggers : List Trigger} {i : Nat} {t : Trigger}
    (ht : FirstFires event payload triggers i t) :
    ¬ ∀ t ∈ triggers, ¬ SomeHolds event payload t :=
  fun hnone => hnone t (List.mem_of_getElem? ht.stands) ht.holds

/-- Dispatching is a function of the world. -/
theorem Dispatches.unique {r r' : Except RuntimeError Outcome}
    {w w' : World (σ × List (String × Arguments))}
    (hr : m.Dispatches host state event payload current h log r w)
    (hr' : m.Dispatches host state event payload current h log r' w') : r = r' ∧ w = w' := by
  cases hr with
  | unmatched hnone =>
    cases hr' with
    | unmatched => exact ⟨rfl, rfl⟩
    | unbound first => exact (first.not_none hnone).elim
    | ran first => exact (first.not_none hnone).elim
  | unbound first bind =>
    cases hr' with
    | unmatched hnone => exact (first.not_none hnone).elim
    | unbound first' bind' =>
      obtain ⟨rfl, rfl⟩ := first.unique first'
      cases bind.symm.trans bind'
      exact ⟨rfl, rfl⟩
    | ran first' bind' =>
      obtain ⟨rfl, rfl⟩ := first.unique first'
      cases bind.symm.trans bind'
  | ran first bind plays =>
    cases hr' with
    | unmatched hnone => exact (first.not_none hnone).elim
    | unbound first' bind' =>
      obtain ⟨rfl, rfl⟩ := first.unique first'
      cases bind.symm.trans bind'
    | ran first' bind' plays' =>
      obtain ⟨rfl, rfl⟩ := first.unique first'
      cases bind.symm.trans bind'
      obtain ⟨rfl, rfl, rfl⟩ := plays.unique plays'
      exact ⟨rfl, rfl⟩

theorem emit_eq_iff_dispatches (hm : m.WellTyped registry) (hs : m.state? current = some state)
    {r : Except RuntimeError Outcome} {w : World (σ × List (String × Arguments))} :
    m.emit host.recorded event payload ⟨⟨current, 0⟩, h, log⟩ = (r, w) ↔
      m.Dispatches host state event payload current h log r w := by
  have hemit : m.Dispatches host state event payload current h log _ _ := dispatches_emit hm hs
  constructor
  · intro heq
    rw [heq] at hemit
    exact hemit
  · intro hr
    obtain ⟨hr, hw⟩ := hemit.unique hr
    exact Prod.ext hr hw

theorem Dispatches.eq_noMatch_iff {r : Except RuntimeError Outcome}
    {w : World (σ × List (String × Arguments))}
    (hr : m.Dispatches host state event payload current h log r w) :
    r = .ok .noMatch ↔ ∀ t ∈ state.triggers, ¬ SomeHolds event payload t := by
  cases hr with
  | unmatched hnone => exact iff_of_true rfl hnone
  | unbound first => exact iff_of_false nofun first.not_none
  | @ran _ _ _ _ result _ first =>
    refine iff_of_false (fun heq => ?_) first.not_none
    cases result <;> cases heq

end Dispatch

end Machine

open Compile

/-- Whatever operations were done on the instances of a compiled machine, an event goes to the
first trigger of the current state, in the order of the file, of which some condition holds; to no
other trigger of any state; and to none if there is no such trigger. -/
theorem dispatches_first_match {compiler : Compiler} {filename : String} {file : Syntax.File}
    {m : Machine} (hc : compiler.compile filename file = .ok m) {σ : Type u} (host : Host σ)
    (start : σ) (operations : List Operation) :
    ∀ inst ∈ ((Fleet.start start).run m host operations).2.instances,
      ∃ before s after state, file.entries = before ++ .state s :: after ∧
        s.name = inst.current ∧ m.state? inst.current = some state ∧
        (compiler.scope filename (constantsAfter compiler.constants before)).LowersState s state ∧
        ∀ h log event payload,
          (∀ r w, m.emit host.recorded event payload ⟨inst, h, log⟩ = (r, w) ↔
            m.Dispatches host state event payload inst.current h log r w) ∧
          ((m.emit host.recorded event payload ⟨inst, h, log⟩).1 = .ok .noMatch ↔
            ∀ t ∈ state.triggers, ∀ c ∈ t.conditions, c.holds event payload = false) ∧
          ∀ other state', m.SameEntries other → other.state? inst.current = some state' →
            Machine.SameUpToFirst event payload state.triggers state'.triggers →
            other.emit host.recorded event payload ⟨inst, h, log⟩ =
              m.emit host.recorded event payload ⟨inst, h, log⟩ := by
  rintro ⟨current, depth⟩ hinst
  have hm := wellTyped_of_compile hc
  have hstart : ∀ inst ∈ (Fleet.start start).instances, m.Rests inst := nofun
  obtain ⟨rfl, state, hs⟩ :=
    Fleet.rests_of_run host hm (rests_entry_of_compile hc) hstart operations _ hinst
  obtain ⟨before, s, after, split, hname, hlowers⟩ := exists_state_of_compile hc hs
  refine ⟨before, s, after, state, split, hname, hs, hlowers, fun h log event payload => ?_⟩
  refine ⟨fun r w => Machine.emit_eq_iff_dispatches hm hs, ?_,
    fun other state' hentries hs' htriggers =>
      Machine.emit_eq_of_sameUpToFirst hentries hs hs' htriggers⟩
  rw [(Machine.dispatches_emit hm hs).eq_noMatch_iff]
  simp [Machine.SomeHolds]

namespace Doorbell

/-- The idle bell rings by its only trigger and is idle again, by way of the other state. -/
theorem rings_once_more :
    compiler.compile "bell" file = .ok machine ∧
      ⟨"Idle", 0⟩ ∈ ((Fleet.start 0).run machine host operations).2.instances ∧
      machine.emit host.recorded "Ring" (.ofList [("volume", .int 7)]) ⟨⟨"Idle", 0⟩, 3, []⟩ =
        (.ok (.fired ⟨"Idle", "Idle", 0⟩),
          ⟨⟨"Idle", 0⟩, 5, [("chime", [("volume", .int 0), ("times", .int 2)]),
            ("chime", [("volume", .int 7), ("times", .int 0)])]⟩) := by
  have hrun : (Fleet.start 0).run machine host operations =
    ([.ok (), .error (.actionFailed "chime" "jammed"), .ok ()], ⟨[⟨"Idle", 0⟩], 3⟩) := rfl
  have hinst : ⟨"Idle", 0⟩ ∈ ((Fleet.start 0).run machine host operations).2.instances := by
    rw [hrun]
    exact List.mem_singleton.2 rfl
  refine ⟨compile_file, hinst, ?_⟩
  obtain ⟨_, _, _, state, -, -, hs, -, hemit⟩ :=
    dispatches_first_match compile_file host 0 operations _ hinst
  cases hs
  have hplays : Plays host (machine.expand maxMoveDepth (.ofList [("volume", .int 7)])
      [.move "Ringing",
        .call "chime" [("volume", .eventData "volume"), ("times", .literal (.int 0))]]) 3
      [.enter "Ringing", .call "chime" [("volume", .int 0), ("times", .int 2)], .enter "Idle",
        .call "chime" [("volume", .int 7), ("times", .int 0)]] (.ok ()) 5 :=
    .through (.enter (.call rfl (.enter (.call rfl (.nil 5)))))
  have hring := ((hemit 3 [] "Ring" (.ofList [("volume", .int 7)])).1 _ _).2
    (.ran (Machine.firstFiring?_zero_eq_some_iff.1 rfl) rfl hplays)
  exact hring

end Doorbell

end EventMachine
