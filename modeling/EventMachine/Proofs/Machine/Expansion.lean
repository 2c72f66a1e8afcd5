import EventMachine.Proofs.Machine.Typing

/-!
# Runs as flat lists of acts

Steps expand to a flat list of acts: every move is replaced in place by the entry of its
destination and the acts of the steps on that entry (`Machine.expand`). Nesting is gone from such a
list, so `Plays` can say what playing it does without a depth or a stack: acts pass one after the
other up to the first that stops.

1. Playing is a function of the list and the host's state (`Plays.unique`), and follows the list
   (`Plays.append`, `Plays.append_of_error`).
2. A run of steps plays their expansion (`runSteps_plays`); by induction on the entries that may
   still be under way, so does entering a state (`enter_plays`).
3. So do moves and events of a compiled machine at rest, and the calls they make are those played
   (`run_plays_expansion`).
-/

namespace EventMachine

universe u

/-- One thing that happens in a run, or a move that cannot be made. -/
inductive Act
  | call (action : String) (arguments : Arguments)
  | enter (state : String)
  | refuse (e : RuntimeError)

namespace Machine

/-! ## Expansion -/

/-- The acts of a step, where `move` gives those of a move. -/
def expandStep (move : String → List Act) (data : NameMap Value) : Step → List Act
  | .move destination => move destination
  | .call action arguments => [.call action (argumentValues data arguments)]

/-- The acts of a move, where `room` more entries may be under way: the destination is entered and
the steps on its entry follow, without event data. -/
def expandMove (m : Machine) : (room : Nat) → String → List Act
  | 0, destination => [.refuse (.moveDepthExceeded destination)]
  | room + 1, destination =>
    match m.state? destination with
    | none => [.refuse (.unknownState destination)]
    | some state => .enter destination :: state.init.flatMap (expandStep (m.expandMove room) .empty)

/-- The acts of steps that run with the given event data, in order. -/
def expand (m : Machine) (room : Nat) (data : NameMap Value) (steps : List Step) : List Act :=
  steps.flatMap (expandStep (m.expandMove room) data)

end Machine

/-! ## Playing acts -/

section Playing

variable {σ : Type u} {host : Host σ}

/-- The acts happen one after the other, from one state of the host to another. -/
inductive Passes (host : Host σ) : List Act → σ → σ → Prop
  | nil (h : σ) : Passes host [] h h
  | enter {state : String} {acts : List Act} {h h' : σ} (rest : Passes host acts h h') :
      Passes host (.enter state :: acts) h h'
  | call {action : String} {arguments : Arguments} {acts : List Act} {h mid h' : σ}
      (performed : host.perform action arguments h = (.ok (), mid))
      (rest : Passes host acts mid h') : Passes host (.call action arguments :: acts) h h'

/-- The act stops a run with an error: a call that fails, or a move that cannot be made. -/
inductive Stops (host : Host σ) : Act → σ → RuntimeError → σ → Prop
  | call {action cause : String} {arguments : Arguments} {h h' : σ}
      (failed : host.perform action arguments h = (.error cause, h')) :
      Stops host (.call action arguments) h (.actionFailed action cause) h'
  | refuse (e : RuntimeError) (h : σ) : Stops host (.refuse e) h e h

/-- What playing acts does: those made, the result and the host's state after it. Either all pass,
or those before the first that stops. -/
inductive Plays (host : Host σ) (acts : List Act) (h : σ) :
    List Act → Except RuntimeError Unit → σ → Prop
  | through {h' : σ} (passes : Passes host acts h h') : Plays host acts h acts (.ok ()) h'
  | stopped {before after : List Act} {act : Act} {e : RuntimeError} {mid h' : σ}
      (split : acts = before ++ act :: after) (passes : Passes host before h mid)
      (stops : Stops host act mid e h') : Plays host acts h (before ++ [act]) (.error e) h'

/-- The calls among acts. -/
def calls (acts : List Act) : List (String × Arguments) :=
  acts.filterMap fun
    | .call action arguments => some (action, arguments)
    | _ => none

/-- A host that also keeps the calls made of it, those that fail included. -/
def Host.recorded (host : Host σ) : Host (σ × List (String × Arguments)) where
  perform action arguments h :=
    ((host.perform action arguments h.1).1,
      (host.perform action arguments h.1).2, h.2 ++ [(action, arguments)])

/-- The state that was entered last, or the given one. -/
def lastEntered (current : String) (acts : List Act) : String :=
  acts.foldl (fun current act => match act with
    | .enter state => state
    | _ => current) current

theorem calls_append (xs ys : List Act) : calls (xs ++ ys) = calls xs ++ calls ys :=
  List.filterMap_append

theorem lastEntered_append (current : String) (xs ys : List Act) :
    lastEntered current (xs ++ ys) = lastEntered (lastEntered current xs) ys :=
  List.foldl_append

theorem Passes.append {xs ys : List Act} {h mid h' : σ} (hx : Passes host xs h mid)
    (hy : Passes host ys mid h') : Passes host (xs ++ ys) h h' := by
  induction hx with
  | nil => exact hy
  | enter _ ih => exact .enter (ih hy)
  | call performed _ ih => exact .call performed (ih hy)

theorem Passes.unique {acts : List Act} {h a b : σ} (ha : Passes host acts h a)
    (hb : Passes host acts h b) : a = b := by
  induction ha with
  | nil =>
    cases hb
    rfl
  | enter _ ih =>
    cases hb with
    | enter rest => exact ih rest
  | call performed _ ih =>
    cases hb with
    | call performed' rest =>
      rw [performed] at performed'
      cases performed'
      exact ih rest

/-- Acts do not pass a stop. -/
theorem Passes.not_stops {before after : List Act} {act : Act} {e : RuntimeError} {h mid a b : σ}
    (hall : Passes host (before ++ act :: after) h a) (hp : Passes host before h mid)
    (hs : Stops host act mid e b) : False := by
  induction hp with
  | nil =>
    cases hs with
    | call failed =>
      cases hall with
      | call performed =>
        rw [performed] at failed
        cases failed
    | refuse => cases hall
  | enter _ ih =>
    cases hall with
    | enter rest => exact ih rest hs
  | call performed _ ih =>
    cases hall with
    | call performed' rest =>
      rw [performed] at performed'
      cases performed'
      exact ih rest hs

theorem Stops.unique {act : Act} {e e' : RuntimeError} {h a b : σ} (ha : Stops host act h e a)
    (hb : Stops host act h e' b) : e = e' ∧ a = b := by
  cases ha with
  | call failed =>
    cases hb with
    | call failed' =>
      rw [failed] at failed'
      cases failed'
      exact ⟨rfl, rfl⟩
  | refuse =>
    cases hb
    exact ⟨rfl, rfl⟩

/-- There is one first stop. -/
theorem Stops.first_unique {xs ys xs' ys' : List Act} {x y : Act} {e e' : RuntimeError}
    {h mid mid' a b : σ} (split : xs ++ x :: xs' = ys ++ y :: ys') (hx : Passes host xs h mid)
    (hsx : Stops host x mid e a) (hy : Passes host ys h mid') (hsy : Stops host y mid' e' b) :
    xs = ys ∧ x = y ∧ e = e' ∧ a = b := by
  rcases List.append_eq_append_iff.1 split with ⟨zs, rfl, hzs⟩ | ⟨zs, rfl, hzs⟩
  · cases zs with
    | nil =>
      cases hzs
      rw [List.append_nil] at hy ⊢
      cases hx.unique hy
      obtain ⟨rfl, rfl⟩ := hsx.unique hsy
      exact ⟨rfl, rfl, rfl, rfl⟩
    | cons z zs =>
      cases hzs
      exact (hy.not_stops hx hsx).elim
  · cases zs with
    | nil =>
      cases hzs
      rw [List.append_nil] at hx ⊢
      cases hx.unique hy
      obtain ⟨rfl, rfl⟩ := hsx.unique hsy
      exact ⟨rfl, rfl, rfl, rfl⟩
    | cons z zs =>
      cases hzs
      exact (hx.not_stops hy hsy).elim

/-- Playing acts is a function of the host's state. -/
theorem Plays.unique {acts made made' : List Act} {r r' : Except RuntimeError Unit} {h a b : σ}
    (ha : Plays host acts h made r a) (hb : Plays host acts h made' r' b) :
    made = made' ∧ r = r' ∧ a = b := by
  cases ha with
  | through hp =>
    cases hb with
    | through hp' => exact ⟨rfl, rfl, hp.unique hp'⟩
    | stopped split hp' hs => exact ((split ▸ hp).not_stops hp' hs).elim
  | stopped split hp hs =>
    cases hb with
    | through hp' => exact ((split ▸ hp').not_stops hp hs).elim
    | stopped split' hp' hs' =>
      obtain ⟨rfl, rfl, rfl, rfl⟩ := Stops.first_unique (split.symm.trans split') hp hs hp' hs'
      exact ⟨rfl, rfl, rfl⟩

/-- After acts that all pass, the next ones are played. -/
theorem Plays.append {xs ys made made' : List Act} {r : Except RuntimeError Unit} {h mid h' : σ}
    (hx : Plays host xs h made (.ok ()) mid) (hy : Plays host ys mid made' r h') :
    Plays host (xs ++ ys) h (made ++ made') r h' := by
  cases hx with
  | through hp =>
    cases hy with
    | through hp' => exact .through (hp.append hp')
    | @stopped before after act e mid' _ split hp' hs =>
      rw [← List.append_assoc]
      exact .stopped (by rw [split, List.append_assoc]) (hp.append hp') hs

/-- After a stop nothing is played. -/
theorem Plays.append_of_error {xs made : List Act} {e : RuntimeError} {h h' : σ}
    (hx : Plays host xs h made (.error e) h') (ys : List Act) :
    Plays host (xs ++ ys) h made (.error e) h' := by
  cases hx with
  | stopped split hp hs =>
    exact .stopped (by rw [split, List.append_assoc, List.cons_append]) hp hs

end Playing

/-! ## Runs play their expansion -/

section Runs

variable {σ : Type u} {host : Host σ} {depth : Nat}

/-- From a world of the given depth, the run ends as playing the acts does, and at that depth. -/
def Realizes (host : Host σ) (depth : Nat) (acts : List Act) (run : Run σ Unit) : Prop :=
  ∀ current h, ∃ made r h', Plays host acts h made r h' ∧
    run ⟨⟨current, depth⟩, h⟩ = (r, ⟨⟨lastEntered current made, depth⟩, h'⟩)

/-- The result of such a run is the only one that playing the acts has. -/
theorem Realizes.eq_iff {acts : List Act} {run : Run σ Unit} (hr : Realizes host depth acts run)
    {current : String} {h : σ} {r : Except RuntimeError Unit} {w : World σ} :
    run ⟨⟨current, depth⟩, h⟩ = (r, w) ↔
      ∃ made h', Plays host acts h made r h' ∧ w = ⟨⟨lastEntered current made, depth⟩, h'⟩ := by
  obtain ⟨made, r', h', hp, hrun⟩ := hr current h
  rw [hrun]
  constructor
  · rintro ⟨⟩
    exact ⟨made, h', hp, rfl⟩
  · rintro ⟨made', h'', hp', rfl⟩
    obtain ⟨rfl, rfl, rfl⟩ := hp.unique hp'
    rfl

theorem Realizes.nested {acts : List Act} {run : Run σ Unit}
    (hr : Realizes host (depth + 1) acts run) :
    Realizes host depth acts (Machine.nested run) := by
  intro current h
  obtain ⟨made, r, h', hp, hrun⟩ := hr current h
  refine ⟨made, r, h', hp, ?_⟩
  unfold Machine.nested
  rw [hrun]
  rfl

theorem realizes_call {registry : Registry} {eventData : NameMap ValueType} {data : NameMap Value}
    {action : String} {arguments : List (String × Operand)}
    (ht : (Step.call action arguments).WellTyped registry eventData)
    (hd : Carries eventData data) :
    Realizes host depth [.call action (argumentValues data arguments)]
      (Machine.call host data action arguments) := by
  intro current h
  cases ht with
  | call _ hb =>
    have hargs := resolveArguments_eq_ok_iff.2 ⟨hb.exists_value hd, rfl⟩
    unfold Machine.call
    rw [hargs]
    rcases hperform : host.perform action (argumentValues data arguments) h with ⟨_ | ⟨⟨⟩⟩, h'⟩
    · refine ⟨_, _, h', .stopped rfl (.nil h) (.call hperform), ?_⟩
      simp only [hperform]
      rfl
    · refine ⟨_, _, h', .through (.call hperform (.nil h')), ?_⟩
      simp only [hperform]
      rfl

/-- Steps play their expansion, when moves play theirs. -/
theorem runSteps_plays {registry : Registry} {eventData : NameMap ValueType}
    {data : NameMap Value} {move : String → Run σ Unit} {acts : String → List Act}
    (hmove : ∀ destination, Realizes host depth (acts destination) (move destination))
    (hd : Carries eventData data) {steps : List Step}
    (ht : ∀ step ∈ steps, step.WellTyped registry eventData) :
    Realizes host depth (steps.flatMap (Machine.expandStep acts data))
      (Machine.runSteps host move data steps) := by
  induction steps with
  | nil =>
    intro current h
    exact ⟨[], .ok (), h, .through (.nil h), rfl⟩
  | cons step steps ih =>
    rw [List.forall_mem_cons] at ht
    have hstep : Realizes host depth (Machine.expandStep acts data step)
        (Machine.runStep host move data step) := by
      cases step with
      | move destination => exact hmove destination
      | call action arguments => exact realizes_call ht.1 hd
    intro current h
    rw [List.flatMap_cons]
    unfold Machine.runSteps
    obtain ⟨made, r, mid, hp, hrun⟩ := hstep current h
    rw [hrun]
    cases r with
    | error e => exact ⟨made, .error e, mid, hp.append_of_error _, rfl⟩
    | ok =>
      obtain ⟨made', r', h', hp', hrun'⟩ := ih ht.2 (lastEntered current made) mid
      refine ⟨made ++ made', r', h', hp.append hp', ?_⟩
      rw [lastEntered_append]
      exact hrun'

theorem carries_empty (data : NameMap Value) : Carries .empty data := by
  intro name type h
  cases h

theorem Machine.mem_of_state? {m : Machine} {name : String} {state : State}
    (h : m.state? name = some state) : state ∈ m.states :=
  List.mem_of_find?_eq_some h

theorem Plays.enter {state : String} {acts made : List Act} {r : Except RuntimeError Unit}
    {h h' : σ} (hp : Plays host acts h made r h') :
    Plays host (.enter state :: acts) h (.enter state :: made) r h' :=
  Plays.append (.through (.enter (.nil h))) hp

/-- Entering a state plays the expansion of the move. The induction is on the entries that may
still be under way. -/
theorem enter_plays {registry : Registry} {m : Machine} (hm : m.WellTyped registry) (room : Nat)
    (depth : Nat) (destination : String) :
    Realizes host depth (m.expandMove room destination) (m.enter host room destination) := by
  induction room generalizing depth destination with
  | zero =>
    intro current h
    exact ⟨_, _, h, .stopped rfl (.nil h) (.refuse _ h), rfl⟩
  | succ room ih =>
    intro current h
    unfold Machine.expandMove Machine.enter
    cases hs : m.state? destination with
    | none => exact ⟨_, _, h, .stopped rfl (.nil h) (.refuse _ h), rfl⟩
    | some state =>
      have hsteps := runSteps_plays (ih (depth + 1)) (carries_empty .empty)
        (hm.init state (Machine.mem_of_state? hs))
      obtain ⟨made, r, h', hp, hrun⟩ := hsteps.nested destination h
      exact ⟨.enter destination :: made, r, h', hp.enter, hrun⟩

/-- A move of an instance at rest may nest `maxMoveDepth` entries. -/
theorem moveTo_plays {registry : Registry} {m : Machine} (hm : m.WellTyped registry)
    (destination : String) :
    Realizes host 0 (m.expandMove maxMoveDepth destination) (m.moveTo host destination) :=
  enter_plays hm maxMoveDepth 0 destination

end Runs

/-! ## The calls made -/

section Recording

variable {σ : Type u} {host : Host σ}

theorem Passes.recorded {acts : List Act} {h h' : σ} (hp : Passes host acts h h')
    (log : List (String × Arguments)) :
    Passes host.recorded acts (h, log) (h', log ++ calls acts) := by
  induction hp generalizing log with
  | nil h =>
    rw [calls, List.filterMap_nil, List.append_nil]
    exact .nil _
  | enter _ ih => exact .enter (ih log)
  | @call action arguments acts h mid h' performed _ ih =>
    have hlog : log ++ calls (.call action arguments :: acts) =
        (log ++ [(action, arguments)]) ++ calls acts := List.append_cons ..
    rw [hlog]
    refine .call ?_ (ih _)
    simp only [Host.recorded, performed]

theorem Stops.recorded {act : Act} {e : RuntimeError} {h h' : σ} (hs : Stops host act h e h')
    (log : List (String × Arguments)) :
    Stops host.recorded act (h, log) e (h', log ++ calls [act]) := by
  cases hs with
  | call failed =>
    apply Stops.call
    simp only [Host.recorded, failed]
    rfl
  | refuse =>
    rw [calls, List.filterMap_cons_none rfl, List.filterMap_nil, List.append_nil]
    exact .refuse e _

theorem Plays.recorded {acts made : List Act} {r : Except RuntimeError Unit} {h h' : σ}
    (hp : Plays host acts h made r h') (log : List (String × Arguments)) :
    Plays host.recorded acts (h, log) made r (h', log ++ calls made) := by
  cases hp with
  | through passes => exact .through (passes.recorded log)
  | stopped split passes stops =>
    rw [calls_append, ← List.append_assoc]
    exact .stopped split (passes.recorded log) (stops.recorded _)

/-- Any acts can be played. -/
theorem Plays.exists (host : Host σ) (acts : List Act) (h : σ) :
    ∃ made r h', Plays host acts h made r h' := by
  induction acts generalizing h with
  | nil => exact ⟨[], .ok (), h, .through (.nil h)⟩
  | cons act acts ih =>
    cases act with
    | enter state =>
      obtain ⟨made, r, h', hp⟩ := ih h
      exact ⟨_, r, h', hp.enter⟩
    | call action arguments =>
      rcases hperform : host.perform action arguments h with ⟨_ | ⟨⟨⟩⟩, mid⟩
      · exact ⟨_, _, mid, .stopped rfl (.nil h) (.call hperform)⟩
      · obtain ⟨made, r, h', hp⟩ := ih mid
        exact ⟨_, r, h', Plays.append (.through (.call hperform (.nil mid))) hp⟩
    | refuse e => exact ⟨_, _, h, .stopped rfl (.nil h) (.refuse e h)⟩

theorem plays_recorded_iff {acts made : List Act} {r : Except RuntimeError Unit} {h : σ}
    {log : List (String × Arguments)} {p : σ × List (String × Arguments)} :
    Plays host.recorded acts (h, log) made r p ↔
      ∃ h', Plays host acts h made r h' ∧ p = (h', log ++ calls made) := by
  constructor
  · intro hp
    obtain ⟨made', r', h', hp'⟩ := Plays.exists host acts h
    obtain ⟨rfl, rfl, rfl⟩ := hp.unique (hp'.recorded log)
    exact ⟨h', hp', rfl⟩
  · rintro ⟨h', hp, rfl⟩
    exact hp.recorded log

theorem Realizes.recorded_eq_iff {depth : Nat} {acts : List Act}
    {run : Run (σ × List (String × Arguments)) Unit} (hr : Realizes host.recorded depth acts run)
    {current : String} {h : σ} {log : List (String × Arguments)} {r : Except RuntimeError Unit}
    {w : World (σ × List (String × Arguments))} :
    run ⟨⟨current, depth⟩, h, log⟩ = (r, w) ↔
      ∃ made h', Plays host acts h made r h' ∧
        w = ⟨⟨lastEntered current made, depth⟩, h', log ++ calls made⟩ := by
  rw [hr.eq_iff]
  constructor
  · rintro ⟨made, p, hp, rfl⟩
    obtain ⟨h', hp', rfl⟩ := plays_recorded_iff.1 hp
    exact ⟨made, h', hp', rfl⟩
  · rintro ⟨made, h', hp, rfl⟩
    exact ⟨made, _, plays_recorded_iff.2 ⟨h', hp, rfl⟩, rfl⟩

end Recording

/-! ## Events -/

namespace Machine

variable {σ : Type u} {host : Host σ} {m : Machine} {event : String} {payload : Payload}
  {state : State} {index : Nat} {t : Trigger}

theorem mem_of_firstFiring? {first : Nat} {triggers : List Trigger}
    (h : firstFiring? event payload first triggers = some (index, t)) : t ∈ triggers := by
  induction triggers generalizing first with
  | nil => cases h
  | cons t' triggers ih =>
    unfold firstFiring? at h
    split at h
    · cases h
      exact List.mem_cons_self
    · exact List.mem_cons_of_mem _ (ih h)

theorem emit_of_state?_eq_none {w : World σ} (hs : m.state? w.inst.current = none) :
    m.emit host event payload w = (.error (.unknownState w.inst.current), w) := by
  unfold emit
  simp only [hs]

theorem emit_of_firstFiring?_eq_none {w : World σ} (hs : m.state? w.inst.current = some state)
    (hf : firstFiring? event payload 0 state.triggers = none) :
    m.emit host event payload w = (.ok .noMatch, w) := by
  unfold emit
  simp only [hs, hf]

theorem emit_of_bind_eq_error {w : World σ} {e : RuntimeError}
    (hs : m.state? w.inst.current = some state)
    (hf : firstFiring? event payload 0 state.triggers = some (index, t))
    (hb : t.bind event payload = .error e) : m.emit host event payload w = (.error e, w) := by
  unfold emit
  simp only [hs, hf, hb]

theorem emit_of_bind_eq_ok {w : World σ} {data : NameMap Value}
    (hs : m.state? w.inst.current = some state)
    (hf : firstFiring? event payload 0 state.triggers = some (index, t))
    (hb : t.bind event payload = .ok data) :
    m.emit host event payload w =
      ((runSteps host (m.moveTo host) data t.actions w).1.map fun _ =>
          .fired ⟨w.inst.current, (runSteps host (m.moveTo host) data t.actions w).2.inst.current,
            index⟩,
        (runSteps host (m.moveTo host) data t.actions w).2) := by
  unfold emit
  simp only [hs, hf, hb]

end Machine

/-- Moves and events of a compiled machine at rest play the expansion of their steps: the calls
made, the result and the state afterwards are those of the flat list, up to its first stop. -/
theorem run_plays_expansion {compiler : Compiler} {filename : String} {file : Syntax.File}
    {m : Machine} (hc : compiler.compile filename file = .ok m) {σ : Type u} (host : Host σ)
    (current : String) (h : σ) (log : List (String × Arguments)) :
    (∀ destination r w,
      m.moveTo host.recorded destination ⟨⟨current, 0⟩, h, log⟩ = (r, w) ↔
        ∃ made h', Plays host (m.expandMove maxMoveDepth destination) h made r h' ∧
          w = ⟨⟨lastEntered current made, 0⟩, h', log ++ calls made⟩) ∧
    ∀ event payload state index t data, m.state? current = some state →
      Machine.firstFiring? event payload 0 state.triggers = some (index, t) →
      t.bind event payload = .ok data →
      ∀ r w, m.emit host.recorded event payload ⟨⟨current, 0⟩, h, log⟩ = (r, w) ↔
        ∃ made result h', Plays host (m.expand maxMoveDepth data t.actions) h made result h' ∧
          r = result.map (fun _ => .fired ⟨current, lastEntered current made, index⟩) ∧
          w = ⟨⟨lastEntered current made, 0⟩, h', log ++ calls made⟩ := by
  have hm := wellTyped_of_compile hc
  refine ⟨fun destination r w => (moveTo_plays hm destination).recorded_eq_iff, ?_⟩
  intro event payload state index t data hs hf hb r w
  have ht := hm.actions state (Machine.mem_of_state? hs) t (Machine.mem_of_firstFiring? hf)
  have hsteps : Realizes host.recorded 0 (m.expand maxMoveDepth data t.actions)
      (Machine.runSteps host.recorded (m.moveTo host.recorded) data t.actions) :=
    runSteps_plays (moveTo_plays hm) (Machine.carries_of_bind hb) ht
  rw [Machine.emit_of_bind_eq_ok hs hf hb]
  rcases hrun : Machine.runSteps host.recorded (m.moveTo host.recorded) data t.actions
    ⟨⟨current, 0⟩, h, log⟩ with ⟨result, w'⟩
  obtain ⟨made, h', hp, rfl⟩ := hsteps.recorded_eq_iff.1 hrun
  constructor
  · rintro ⟨⟩
    exact ⟨made, result, h', hp, rfl, rfl⟩
  · rintro ⟨made', result', h'', hp', rfl, rfl⟩
    obtain ⟨rfl, rfl, rfl⟩ := hp.unique hp'
    rfl

/-! ## A doorbell -/

namespace Doorbell

def compiler : Compiler where
  registry :=
    { triggers := .ofList [("Ring", .ofDeclarations [("volume", .int)])]
      actions := .ofList [("chime", .ofDeclarations [("volume", .int), ("times", .int)])] }
  narrowing := .warn
  constants := .empty

/-- ```text
state Idle { on Ring(volume) -> move Ringing, chime(volume); };
state Ringing { chime(times = 2), move Idle; };
``` -/
def file : Syntax.File :=
  ⟨[.state ⟨"Idle", ⟨1, 6, 4⟩, [],
      [⟨[⟨"Ring", [⟨"volume", none, ⟨1, 21, 6⟩⟩], ⟨1, 16, 4⟩⟩],
        [.move "Ringing" ⟨1, 37, 7⟩,
          .call ⟨"chime", [⟨"volume", .ref "volume", ⟨1, 52, 6⟩⟩], ⟨1, 46, 5⟩⟩], ⟨1, 13, 2⟩⟩]⟩,
    .state ⟨"Ringing", ⟨2, 6, 7⟩,
      [.call ⟨"chime", [⟨"times", .int 2, ⟨2, 22, 5⟩⟩], ⟨2, 16, 5⟩⟩, .move "Idle" ⟨2, 39, 4⟩],
      []⟩]⟩

def machine : Machine where
  constants := .empty
  entry := "Idle"
  states :=
    [{ name := "Idle"
       init := []
       triggers :=
         [{ conditions := [⟨"Ring", .empty⟩]
            eventData := .ofList [("volume", .int)]
            actions :=
              [.move "Ringing",
                .call "chime" [("volume", .eventData "volume"), ("times", .literal (.int 0))]] }] },
     { name := "Ringing"
       init :=
         [.call "chime" [("volume", .literal (.int 0)), ("times", .literal (.int 2))],
           .move "Idle"]
       triggers := [] }]
  warnings := []
  checksum := none

theorem compile_file : compiler.compile "bell" file = .ok machine := rfl

/-- A bell that jams when it is rung for the second time. -/
def host : Host Nat where
  perform _ _ rung := (if rung = 1 then .error "jammed" else .ok (), rung + 1)

/-- The move within the steps passes, the call after it fails. -/
theorem emit_ring :
    compiler.compile "bell" file = .ok machine ∧
      machine.emit host.recorded "Ring" (.ofList [("volume", .int 7)]) ⟨⟨"Idle", 0⟩, 0, []⟩ =
        (.error (.actionFailed "chime" "jammed"),
          ⟨⟨"Idle", 0⟩, 2, [("chime", [("volume", .int 0), ("times", .int 2)]),
            ("chime", [("volume", .int 7), ("times", .int 0)])]⟩) := by
  refine ⟨compile_file, ?_⟩
  have hplays : Plays host (machine.expand maxMoveDepth (.ofList [("volume", .int 7)])
      [.move "Ringing",
        .call "chime" [("volume", .eventData "volume"), ("times", .literal (.int 0))]]) 0
      [.enter "Ringing", .call "chime" [("volume", .int 0), ("times", .int 2)], .enter "Idle",
        .call "chime" [("volume", .int 7), ("times", .int 0)]]
      (.error (.actionFailed "chime" "jammed")) 2 :=
    .stopped rfl (.enter (.call rfl (.enter (.nil 1)))) (.call rfl)
  exact ((run_plays_expansion compile_file host "Idle" 0 []).2 "Ring" _ _ _ _ _ rfl rfl rfl _ _).2
    ⟨_, _, _, hplays, rfl, rfl⟩

end Doorbell

end EventMachine
