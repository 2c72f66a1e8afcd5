import EventMachine.Proofs.Machine.Arguments
import EventMachine.Proofs.Machine.Dispatch

/-!
# What actions are called with

`Does` and `Compiler.MoveDoes` spell out the acts of statements and of moves by the source alone,
with the arguments that calls have by it.

1. These acts are those that the compiled steps expand to (`Scope.does_iff`, `moveDoes_iff`).
2. So the operations on an instance make exactly the calls that the source tells
   (`Machine.Rests.runsAsWritten`).
3. A machine of the same states has the same runs (`Fleet.run_eq_of_states_eq`), and a file with its
   arguments in another order has such a machine (`arguments_as_written`).
-/

namespace EventMachine

universe u

open Syntax (Expr Arg Call Statement Entry)

namespace Compile

/-! ## Acts by the source -/

/-- The acts of statements one after the other, where `moves` tells those of a move. -/
inductive Does (registry : Registry) (hasValue : Expr → Value → Prop)
    (moves : String → List Act → Prop) : List Statement → List Act → Prop
  | nil : Does registry hasValue moves [] []
  | call {c : Call} {inputs : Signature} {arguments : Arguments} {statements : List Statement}
      {acts : List Act} (hi : registry.actions.get? c.name = some inputs)
      (h : Fills c.args hasValue inputs.entries arguments)
      (rest : Does registry hasValue moves statements acts) :
      Does registry hasValue moves (.call c :: statements) (.call c.name arguments :: acts)
  | move {destination : String} {location : Location} {entered acts : List Act}
      {statements : List Statement} (h : moves destination entered)
      (rest : Does registry hasValue moves statements acts) :
      Does registry hasValue moves (.move destination location :: statements) (entered ++ acts)

end Compile

open Compile

/-- The acts of a move, where `room` more entries may be under way: the statements on entry of the
destination, by the constants before it. -/
def Compiler.MoveDoes (compiler : Compiler) (file : Syntax.File) :
    (room : Nat) → String → List Act → Prop
  | 0, destination, acts => acts = [.refuse (.moveDepthExceeded destination)]
  | room + 1, destination, acts =>
    (∀ s ∈ file.states, s.name ≠ destination) ∧ acts = [.refuse (.unknownState destination)] ∨
    ∃ before s after rest, file.entries = before ++ .state s :: after ∧ s.name = destination ∧
      Does compiler.registry (HasValue compiler.constants before none .empty)
        (compiler.MoveDoes file room) s.init rest ∧
      acts = .enter destination :: rest

namespace Compile.Scope

variable {scope : Scope} {seeds : NameMap Value} {before : List Entry} {cs : List Syntax.Condition}
  {payload : Payload} {data : NameMap Value}

/-- Statements do what their steps expand to. -/
theorem does_iff (hbefore : Evaluable seeds before)
    (hconstants : scope.constants = constantsAfter seeds before)
    (hcs : ∀ c ∈ cs, scope.Declared c) (hdata : Takes (scope.lastEventData .empty cs) payload data)
    {moves : String → List Act → Prop} {move : String → List Act}
    (hmove : ∀ destination acts, moves destination acts ↔ acts = move destination)
    {statements : List Statement} {steps : List Step}
    (h : List.Forall₂ (scope.LowersStatement (scope.lastEventData .empty cs)) statements steps)
    {acts : List Act} :
    Does scope.registry (HasValue seeds before cs.getLast? payload) moves statements acts ↔
      acts = steps.flatMap (Machine.expandStep move data) := by
  induction h generalizing acts with
  | nil =>
    constructor
    · rintro ⟨⟩
      rfl
    · rintro rfl
      exact .nil
  | cons hs _ ih =>
    rw [List.flatMap_cons]
    cases hs with
    | move =>
      constructor
      · intro h
        cases h with
        | move h rest => rw [(hmove _ _).1 h, ih.1 rest, Machine.expandStep]
      · rintro rfl
        exact .move ((hmove _ _).2 rfl) (ih.2 rfl)
    | call hc =>
      obtain ⟨inputs, bound, hi, rfl, hfills⟩ :=
        hc.exists_fills_iff hbefore hconstants hcs hdata
      constructor
      · intro h
        cases h with
        | call hi' h rest =>
          cases hi.symm.trans hi'
          rw [(hfills _).1 h, ih.1 rest]
          rfl
      · rintro rfl
        exact .call hi ((hfills _).2 rfl) (ih.2 rfl)

end Compile.Scope

/-! ## Moves -/

section Compiled

variable {compiler : Compiler} {filename : String} {file : Syntax.File} {m : Machine}

/-- A move does what it expands to. The induction is on the room. -/
theorem moveDoes_iff (hc : compiler.compile filename file = .ok m) {room : Nat}
    {destination : String} {acts : List Act} :
    compiler.MoveDoes file room destination acts ↔ acts = m.expandMove room destination := by
  induction room generalizing destination acts with
  | zero => exact Iff.rfl
  | succ room ih =>
    unfold Compiler.MoveDoes Machine.expandMove
    -- what the source tells of a state of this name
    have hstate {before after : List Entry} {s : Syntax.State}
        (split : file.entries = before ++ .state s :: after) (hn : s.name = destination) :
        ∃ state, m.state? destination = some state ∧ ∀ rest,
          Does compiler.registry (HasValue compiler.constants before none .empty)
            (compiler.MoveDoes file room) s.init rest ↔
          rest = state.init.flatMap (Machine.expandStep (m.expandMove room) .empty) := by
      obtain ⟨state, hs, hlowers⟩ := exists_lowersState_of_compile hc split
      rw [hn] at hs
      have hnone : ∀ c ∈ ([] : List Syntax.Condition), Scope.Declared
          (compiler.scope filename (constantsAfter compiler.constants before)) c := by simp
      have hmove : ∀ destination acts, compiler.MoveDoes file room destination acts ↔
          acts = m.expandMove room destination := fun _ _ => ih
      exact ⟨state, hs, fun rest => Scope.does_iff (evaluable_of_compile hc split) rfl hnone
        (takes_empty _ _) hmove hlowers.init⟩
    cases hs : m.state? destination with
    | none =>
      have hnone : ∀ s ∈ file.states, s.name ≠ destination := by
        intro s hmem hn
        obtain ⟨before, after, split⟩ := mem_states.1 hmem
        obtain ⟨state, hs', -⟩ := hstate split hn
        cases hs.symm.trans hs'
      constructor
      · rintro (⟨-, rfl⟩ | ⟨before, s, after, rest, split, hn, -⟩)
        · rfl
        · exact (hnone s (mem_states.2 ⟨before, after, split⟩) hn).elim
      · rintro rfl
        exact .inl ⟨hnone, rfl⟩
    | some state =>
      constructor
      · rintro (⟨hnone, -⟩ | ⟨before, s, after, rest, split, hn, hdoes, rfl⟩)
        · obtain ⟨before, s, after, split, hn, -⟩ := exists_state_of_compile hc hs
          exact (hnone s (mem_states.2 ⟨before, after, split⟩) hn).elim
        · obtain ⟨state', hs', hrest⟩ := hstate split hn
          cases hs.symm.trans hs'
          rw [(hrest _).1 hdoes]
      · rintro rfl
        obtain ⟨before, s, after, split, hn, -⟩ := exists_state_of_compile hc hs
        obtain ⟨state', hs', hrest⟩ := hstate split hn
        cases hs.symm.trans hs'
        exact .inr ⟨before, s, after, _, split, hn, (hrest _).2 rfl, rfl⟩

end Compiled

/-! ## Runs -/

section Runs

variable {σ : Type u} {host : Host σ} {compiler : Compiler} {filename : String}
  {file : Syntax.File} {m : Machine} {current : String} {h : σ} {log : List (String × Arguments)}

/-- Playing the acts, from an instance at rest in the state `current`, leads to the result and the
world. The host also keeps the calls made of it. -/
def PlaysTo (host : Host σ) (acts : List Act) (current : String) (h : σ)
    (log : List (String × Arguments)) (r : Except RuntimeError Unit)
    (w : World (σ × List (String × Arguments))) : Prop :=
  ∃ made h', Plays host acts h made r h' ∧
    w = ⟨⟨lastEntered current made, 0⟩, h', log ++ calls made⟩

theorem moveTo_eq_iff_moveDoes (hc : compiler.compile filename file = .ok m)
    {destination : String} {r : Except RuntimeError Unit}
    {w : World (σ × List (String × Arguments))} :
    m.moveTo host.recorded destination ⟨⟨current, 0⟩, h, log⟩ = (r, w) ↔
      ∃ acts, compiler.MoveDoes file maxMoveDepth destination acts ∧
        PlaysTo host acts current h log r w := by
  simp only [moveDoes_iff hc, exists_eq_left]
  exact (moveTo_plays (wellTyped_of_compile hc) destination).recorded_eq_iff

theorem instantiate_eq_iff_moveDoes (hc : compiler.compile filename file = .ok m)
    {r : Except RuntimeError Instance} {p : σ × List (String × Arguments)} :
    m.instantiate host.recorded (h, log) = (r, p) ↔
      ∃ acts result w, compiler.MoveDoes file maxMoveDepth m.entry acts ∧
        PlaysTo host acts m.entry h log result w ∧ r = result.map (fun _ => w.inst) ∧
        p = w.host := by
  unfold Machine.instantiate
  rcases hrun : m.moveTo host.recorded m.entry ⟨⟨m.entry, 0⟩, h, log⟩ with ⟨result, w⟩
  obtain ⟨acts, hacts, hplays⟩ := (moveTo_eq_iff_moveDoes hc).1 hrun
  constructor
  · rintro ⟨⟩
    exact ⟨acts, result, w, hacts, hplays, rfl, rfl⟩
  · rintro ⟨acts', result', w', hacts', hplays', rfl, rfl⟩
    cases hrun.symm.trans ((moveTo_eq_iff_moveDoes hc).2 ⟨acts', hacts', hplays'⟩)
    rfl

variable {event : String} {payload : Payload} {state : Machine.State} {index : Nat}
  {trigger : Machine.Trigger}

theorem emit_eq_iff_does (hc : compiler.compile filename file = .ok m) {before after : List Entry}
    {s : Syntax.State} {t : Syntax.Trigger} (split : file.entries = before ++ .state s :: after)
    (ht : (compiler.scope filename (constantsAfter compiler.constants before)).LowersTrigger
      t trigger)
    (hs : m.state? current = some state)
    (hfirst : Machine.FirstFires event payload state.triggers index trigger)
    {data : NameMap Value} (hb : trigger.bind event payload = .ok data)
    {r : Except RuntimeError Outcome} {w : World (σ × List (String × Arguments))} :
    m.emit host.recorded event payload ⟨⟨current, 0⟩, h, log⟩ = (r, w) ↔
      ∃ acts result, Does compiler.registry
          (HasValue compiler.constants before t.conditions.getLast? payload)
          (compiler.MoveDoes file maxMoveDepth) t.actions acts ∧
        PlaysTo host acts current h log result w ∧
        r = result.map fun _ => .fired ⟨current, w.inst.current, index⟩ := by
  have hm := wellTyped_of_compile hc
  have hf := Machine.firstFiring?_zero_eq_some_iff.2 hfirst
  have hmove : ∀ destination acts, compiler.MoveDoes file maxMoveDepth destination acts ↔
      acts = m.expandMove maxMoveDepth destination := fun _ _ => moveDoes_iff hc
  have hdata := takes_of_bind hb
  have hactions := ht.actions
  rw [ht.eventData] at hdata hactions
  have hdoes (acts : List Act) : Does compiler.registry
      (HasValue compiler.constants before t.conditions.getLast? payload)
      (compiler.MoveDoes file maxMoveDepth) t.actions acts ↔
        acts = m.expand maxMoveDepth data trigger.actions :=
    Scope.does_iff (evaluable_of_compile hc split) rfl ht.declared hdata hmove hactions
  have hsteps : Realizes host.recorded 0 (m.expand maxMoveDepth data trigger.actions)
      (Machine.runSteps host.recorded (m.moveTo host.recorded) data trigger.actions) :=
    Machine.realizes_of_firstFiring? hm hs hf hb
  rw [Machine.emit_of_bind_eq_ok hs hf hb]
  simp only [hdoes, exists_and_left, exists_eq_left]
  rcases hrun : Machine.runSteps host.recorded (m.moveTo host.recorded) data trigger.actions
    ⟨⟨current, 0⟩, h, log⟩ with ⟨result, w'⟩
  constructor
  · rintro ⟨⟩
    exact ⟨result, hsteps.recorded_eq_iff.1 hrun, rfl⟩
  · rintro ⟨result', hplays, rfl⟩
    cases hrun.symm.trans (hsteps.recorded_eq_iff.2 hplays)
    rfl

/-- An event that runs no steps changes nothing. -/
theorem emit_eq_self (hs : m.state? current = some state)
    (hnone : ∀ index trigger data, Machine.FirstFires event payload state.triggers index trigger →
      trigger.bind event payload ≠ .ok data) {w : World σ} (hw : w.inst.current = current) :
    (m.emit host event payload w).2 = w := by
  subst hw
  cases hf : Machine.firstFiring? event payload 0 state.triggers with
  | none => rw [Machine.emit_of_firstFiring?_eq_none hs hf]
  | some fired =>
    obtain ⟨index, t⟩ := fired
    cases hb : t.bind event payload with
    | error e => rw [Machine.emit_of_bind_eq_error hs hf hb]
    | ok data =>
      exact (hnone index t data (Machine.firstFiring?_zero_eq_some_iff.1 hf) hb).elim

/-! ## Machines of the same states -/

section SameStates

variable {m' : Machine}

theorem Machine.moveTo_eq_of_states_eq (hstates : m'.states = m.states) (host : Host σ) :
    m'.moveTo host = m.moveTo host := by
  refine moveTo_eq_of_sameEntries (fun name => ?_) host
  unfold state?
  rw [hstates]

theorem Machine.emit_eq_of_states_eq (hstates : m'.states = m.states) (host : Host σ)
    (event : String) (payload : Payload) :
    m'.emit host event payload = m.emit host event payload := by
  funext w
  unfold emit state?
  simp only [moveTo_eq_of_states_eq hstates, hstates]

theorem Machine.instantiate_eq_of_states_eq (hstates : m'.states = m.states)
    (hentry : m'.entry = m.entry) (host : Host σ) : m'.instantiate host = m.instantiate host := by
  funext h
  unfold instantiate
  rw [moveTo_eq_of_states_eq hstates, hentry]

/-- What instances do depends on the states, and not on the warnings. -/
theorem Fleet.run_eq_of_states_eq (hstates : m'.states = m.states) (hentry : m'.entry = m.entry)
    (host : Host σ) (fleet : Fleet σ) (operations : List Operation) :
    fleet.run m' host operations = fleet.run m host operations := by
  induction operations generalizing fleet with
  | nil => rfl
  | cons operation operations ih =>
    have hstep : fleet.step m' host operation = fleet.step m host operation := by
      unfold Fleet.step
      rw [Machine.instantiate_eq_of_states_eq hstates hentry]
      simp only [Machine.emit_eq_of_states_eq hstates, Machine.moveTo_eq_of_states_eq hstates]
    unfold Fleet.run
    simp only [hstep, ih]

end SameStates

end Runs

/-- The operations on an instance make exactly the calls of the statements in the source. -/
structure Compiler.RunsAsWritten {σ : Type u} (compiler : Compiler) (file : Syntax.File)
    (m : Machine) (host : Host σ) (inst : Instance) : Prop where
  moveTo : ∀ h log destination r w, m.moveTo host.recorded destination ⟨inst, h, log⟩ = (r, w) ↔
    ∃ acts, compiler.MoveDoes file maxMoveDepth destination acts ∧
      PlaysTo host acts inst.current h log r w
  /-- An event runs the steps of the first trigger that fires and can bind its event data, with
  the constants before the state and the values of the event; without one nothing happens. -/
  emit : ∃ before s after state, file.entries = before ++ .state s :: after ∧
    s.name = inst.current ∧ m.state? inst.current = some state ∧ ∀ h log event payload,
      (∀ index trigger data, Machine.FirstFires event payload state.triggers index trigger →
        trigger.bind event payload = .ok data → ∃ t, s.triggers[index]? = some t ∧
          ∀ r w, m.emit host.recorded event payload ⟨inst, h, log⟩ = (r, w) ↔
            ∃ acts result, Does compiler.registry
                (HasValue compiler.constants before t.conditions.getLast? payload)
                (compiler.MoveDoes file maxMoveDepth) t.actions acts ∧
              PlaysTo host acts inst.current h log result w ∧
              r = result.map fun _ => .fired ⟨inst.current, w.inst.current, index⟩) ∧
      ((∀ index trigger data, Machine.FirstFires event payload state.triggers index trigger →
        trigger.bind event payload ≠ .ok data) →
          (m.emit host.recorded event payload ⟨inst, h, log⟩).2 = ⟨inst, h, log⟩)

theorem Machine.Rests.runsAsWritten {compiler : Compiler} {filename : String} {file : Syntax.File}
    {m : Machine} (hc : compiler.compile filename file = .ok m) {σ : Type u} (host : Host σ)
    {inst : Instance} (hi : m.Rests inst) : compiler.RunsAsWritten file m host inst := by
  obtain ⟨current, depth⟩ := inst
  obtain ⟨rfl, state, hs⟩ := hi
  refine ⟨fun h log destination r w => moveTo_eq_iff_moveDoes hc, ?_⟩
  obtain ⟨before, s, after, split, hname, hlowers⟩ := exists_state_of_compile hc hs
  refine ⟨before, s, after, state, split, hname, hs, fun h log event payload => ⟨?_, ?_⟩⟩
  · intro index trigger data hfirst hb
    obtain ⟨t, ht, htrigger⟩ := exists_getElem?_of_forall₂ hlowers.triggers hfirst.stands
    exact ⟨t, ht, fun r w => emit_eq_iff_does hc split htrigger hs hfirst hb⟩
  · intro hnone
    exact emit_eq_self hs hnone rfl

/-- The arguments of every call are those that the source tells: for each input in the order of its
declaration the value of the argument, or else the zero value of the type. The value is a literal;
or that of the event under way, if the last condition of the trigger mentions the name; or that of
the constant before the state. In particular the order of the arguments matters neither to the
compiler nor to any run. -/
theorem arguments_as_written (compiler : Compiler) (filename : String) (file : Syntax.File)
    {σ : Type u} (host : Host σ) :
    (∀ m, compiler.compile filename file = .ok m →
      (∀ h log r p, m.instantiate host.recorded (h, log) = (r, p) ↔
        ∃ acts result w, compiler.MoveDoes file maxMoveDepth m.entry acts ∧
          PlaysTo host acts m.entry h log result w ∧ r = result.map (fun _ => w.inst) ∧
          p = w.host) ∧
      ∀ start operations, ∀ inst ∈ ((Fleet.start start).run m host operations).2.instances,
        compiler.RunsAsWritten file m host inst) ∧
    ∀ file', file.Reorders file' →
      ((∃ m', compiler.compile filename file' = .ok m') ↔
        ∃ m, compiler.compile filename file = .ok m) ∧
      ∀ m m', compiler.compile filename file = .ok m → compiler.compile filename file' = .ok m' →
        ∀ (fleet : Fleet σ) operations, fleet.run m' host operations =
          fleet.run m host operations := by
  refine ⟨fun m hc => ⟨fun h log r p => instantiate_eq_iff_moveDoes hc, ?_⟩, fun file' hr => ?_⟩
  · intro start operations inst hinst
    exact (rests_of_compile hc host start operations inst hinst).runsAsWritten hc host
  · refine ⟨⟨?_, ?_⟩, ?_⟩
    · rintro ⟨m', hc'⟩
      obtain ⟨ws, hc⟩ := compile_of_reorders hr.symm hc'
      exact ⟨_, hc⟩
    · rintro ⟨m, hc⟩
      obtain ⟨ws, hc'⟩ := compile_of_reorders hr hc
      exact ⟨_, hc'⟩
    · intro m m' hc hc' fleet operations
      obtain ⟨ws, hws⟩ := compile_of_reorders hr hc
      cases hws.symm.trans hc'
      have hstates : { m with warnings := ws }.states = m.states := rfl
      exact Fleet.run_eq_of_states_eq hstates rfl host fleet operations

/-! ## A kettle -/

namespace Kettle

/-- The inputs of the only action. -/
def heat : Signature := .ofDeclarations [("level", .int), ("times", .int), ("note", .constant)]

def compiler : Compiler where
  registry :=
    { triggers := .ofList [("Press", .ofDeclarations [("level", .int)])]
      actions := .ofList [("heat", heat)] }
  narrowing := .warn
  constants := .ofList [("level", .int 9), ("limit", .int 1)]

def press : Syntax.Condition := ⟨"Press", [⟨"level", none, ⟨2, 21, 5⟩⟩], ⟨2, 15, 5⟩⟩

def times : Arg := ⟨"times", .ref "limit", ⟨2, 36, 5⟩⟩

def level : Arg := ⟨"level", .ref "level", ⟨2, 51, 5⟩⟩

def again : Arg := ⟨"level", .ref "level", ⟨4, 16, 5⟩⟩

def limit (n : Int64) (line : Nat) : Syntax.Assignment := ⟨"limit", .int n, ⟨line, 0, 5⟩⟩

def off (args : List Arg) : Syntax.State :=
  ⟨"Off", ⟨2, 6, 3⟩, [],
    [⟨[press], [.call ⟨"heat", args, ⟨2, 31, 4⟩⟩, .move "On" ⟨2, 64, 2⟩], ⟨2, 12, 2⟩⟩]⟩

def on : Syntax.State := ⟨"On", ⟨4, 6, 2⟩, [.call ⟨"heat", [again], ⟨4, 11, 4⟩⟩], []⟩

/-- ```text
limit = 2;
state Off { on Press(level) -> heat(times = limit, level), move On; };
limit = 3;
state On { heat(level); };
``` -/
def file : Syntax.File :=
  ⟨[.assign (limit 2 1), .state (off [times, level]), .assign (limit 3 3), .state on]⟩

/-- The file with the arguments of the first call in the order of the inputs. -/
def reordered : Syntax.File :=
  ⟨[.assign (limit 2 1), .state (off [level, times]), .assign (limit 3 3), .state on]⟩

def machine : Machine where
  constants := .ofList [("level", .int 9), ("limit", .int 3)]
  entry := "Off"
  states :=
    [{ name := "Off"
       init := []
       triggers :=
         [{ conditions := [⟨"Press", .empty⟩]
            eventData := .ofList [("level", .int)]
            actions :=
              [.call "heat" [("level", .eventData "level"), ("times", .literal (.int 2))],
                .move "On"] }] },
     { name := "On"
       init := [.call "heat" [("level", .literal (.int 9)), ("times", .literal (.int 0))]]
       triggers := [] }]
  warnings := []
  checksum := none

theorem compile_file : compiler.compile "kettle" file = .ok machine := rfl

theorem reorders_file : file.Reorders reordered := by
  have hstatement (s : Statement) : s.Reorders s := by
    cases s with
    | call c => exact .call ⟨rfl, .refl _⟩
    | move destination location => exact .move destination location location
  have hcall : Statement.Reorders (.call ⟨"heat", [times, level], ⟨2, 31, 4⟩⟩)
      (.call ⟨"heat", [level, times], ⟨2, 31, 4⟩⟩) := .call ⟨rfl, .swap _ _ _⟩
  have hoff : (off [times, level]).Reorders (off [level, times]) :=
    ⟨rfl, .nil, .cons ⟨rfl, .cons hcall (.cons (hstatement _) .nil)⟩ .nil⟩
  have hon : on.Reorders on := ⟨rfl, .cons (hstatement _) .nil, .nil⟩
  exact .cons (.assign _ _ _ _) (.cons (.state hoff) (.cons (.assign _ _ _ _)
    (.cons (.state hon) .nil)))

def host : Host Unit where
  perform _ _ h := (.ok (), h)

def payload : Payload := .ofList [("level", .int 7)]

theorem fills_off : Fills [times, level]
    (HasValue compiler.constants [.assign (limit 2 1)] (some press) payload) heat.entries
    [("level", .int 7), ("times", .int 2)] := by
  have hheat : heat.entries = [("level", .int), ("times", .int), ("note", .constant)] := rfl
  have hlimit : Evaluates compiler.constants [.assign (limit 2 1)] (.ref "limit") (.int 2) :=
    .assigned (List.nil_append _).symm rfl nofun (.int 2)
  have hhidden : ∀ c name, some press = some c → Expr.ref "limit" = .ref name →
      name ∉ c.names := by
    rintro c name ⟨⟩ ⟨⟩
    decide
  have hlevel : level ∈ [times, level] := by decide
  have htimes : times ∈ [times, level] := by decide
  rw [hheat]
  refine .supplied hlevel rfl (.eventData rfl (by decide) rfl) ?_
  exact .supplied htimes rfl (.constant hhidden hlimit) (.absent (by decide) .nil)

theorem fills_on : Fills [again]
    (HasValue compiler.constants
      [.assign (limit 2 1), .state (off [times, level]), .assign (limit 3 3)] none .empty)
    heat.entries [("level", .int 9), ("times", .int 0)] := by
  have hheat : heat.entries = [("level", .int), ("times", .int), ("note", .constant)] := rfl
  have hagain : again ∈ [again] := by decide
  rw [hheat]
  refine .supplied hagain rfl (.constant nofun (.seed ?_ rfl)) ?_
  · simp [limit]
  · exact .zero (by decide) rfl (.absent (by decide) .nil)

/-- The event's level hides the constant, which is used on entry; the first limit is kept. -/
theorem heats_twice :
    compiler.compile "kettle" file = .ok machine ∧ file.Reorders reordered ∧
      machine.emit host.recorded "Press" payload ⟨⟨"Off", 0⟩, (), []⟩ =
        (.ok (.fired ⟨"Off", "On", 0⟩), ⟨⟨"On", 0⟩, (),
          [("heat", [("level", .int 7), ("times", .int 2)]),
            ("heat", [("level", .int 9), ("times", .int 0)])]⟩) ∧
      ∃ m', compiler.compile "kettle" reordered = .ok m' := by
  obtain ⟨hruns, hreorders⟩ := arguments_as_written compiler "kettle" file host
  refine ⟨compile_file, reorders_file, ?_,
    (hreorders reordered reorders_file).1.2 ⟨machine, compile_file⟩⟩
  have hinst : ⟨"Off", 0⟩ ∈ ((Fleet.start ()).run machine host [.instantiate]).2.instances := by
    have hrun : (Fleet.start ()).run machine host [.instantiate] =
      ([.ok ()], ⟨[⟨"Off", 0⟩], ()⟩) := rfl
    rw [hrun]
    exact List.mem_singleton.2 rfl
  obtain ⟨before, s, after, state, split, hname, hs, hemit⟩ :=
    ((hruns machine compile_file).2 () [.instantiate] _ hinst).emit
  cases hs
  obtain ⟨t, ht, hpress⟩ := (hemit () [] "Press" payload).1 0 _ _
    (Machine.firstFiring?_zero_eq_some_iff.1 rfl) rfl
  rcases before with _ | ⟨_, _ | ⟨_, _ | ⟨_, _ | ⟨_, before⟩⟩⟩⟩
  · cases split
  · cases split
    cases ht
    have hon : compiler.MoveDoes file maxMoveDepth "On"
        [.enter "On", .call "heat" [("level", .int 9), ("times", .int 0)]] :=
      .inr ⟨_, on, [], _, rfl, rfl, .call rfl fills_on .nil, rfl⟩
    exact (hpress _ _).2 ⟨_, .ok (), .call rfl fills_off (.move hon .nil),
      ⟨_, (), .through (.call rfl (.enter (.call rfl (.nil ())))), rfl⟩, rfl⟩
  · cases split
  · cases split
    have hon : on.name ≠ "Off" := by decide
    exact (hon hname).elim
  · simp [file] at split

end Kettle

end EventMachine
