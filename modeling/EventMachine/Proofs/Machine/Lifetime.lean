import EventMachine.Proofs.Machine.Fleet
import EventMachine.Proofs.Machine.InitPath
import Mathlib.Algebra.BigOperators.Group.List.Basic
import Mathlib.Algebra.Ring.Int.Defs

/-!
# The life of an instance

Between operations an instance rests: it is in a state of its machine, and no entry is under way.
Operations leave it so, whether they succeed or fail (`instances_rest`).

1. A name that is refused as unknown is the destination of a move (`Plays.refuse_mem`,
   `strays_of_refuse`).
2. Moves and events keep an instance at rest (`Rests.moveTo`, `Rests.emit`), and so does every run
   of operations on a fleet (`Fleet.rests_of_run`).
3. For what happens during an operation, the changes of the instance are noted as they are made.
   Noting changes nothing else (`Notes`), and the changes nest as deep as there is room (`Nests`).
-/

namespace EventMachine

universe u

open Relation

/-! ## Rest -/

namespace Machine

variable {m : Machine} {name destination : String} {room : Nat}

/-- The instance is in a state of the machine, and no entry is under way. -/
structure Rests (m : Machine) (inst : Instance) : Prop where
  depth : inst.depth = 0
  defined : ∃ state, m.state? inst.current = some state

/-- A move to the destination, or a move on entry that follows it, is to a name that no state
has. -/
def Strays (m : Machine) (destination name : String) : Prop :=
  ReflTransGen m.MovesOn destination name ∧ m.state? name = none

theorem InitPath.reflTransGen {path : List String} (h : m.InitPath destination path)
    (hlast : path.getLast? = some name) : ReflTransGen m.MovesOn destination name := by
  induction h with
  | single =>
    cases hlast
    exact .refl
  | cons hmove hpath ih =>
    rw [List.getLast?_cons, List.getLast?_eq_some_getLast hpath.ne_nil] at hlast
    refine .head hmove (ih ?_)
    rw [List.getLast?_eq_some_getLast hpath.ne_nil]
    exact hlast

theorem strays_of_refuse (h : .refuse (.unknownState name) ∈ m.expandMove room destination) :
    m.Strays destination name := by
  obtain ⟨path, last, hpath, hlast, ⟨-, he⟩ | ⟨-, hnone, he⟩⟩ := refuse_mem_expandMove_iff.1 h
  · cases he
  · cases he
    exact ⟨hpath.reflTransGen hlast, hnone⟩

theorem strays_of_refuse_expand {data : NameMap Value} {steps : List Step}
    (h : .refuse (.unknownState name) ∈ m.expand room data steps) :
    ∃ destination, .move destination ∈ steps ∧ m.Strays destination name := by
  obtain ⟨destination, hmove, h⟩ := refuse_mem_flatMap_expandStep_iff.1 h
  exact ⟨destination, hmove, strays_of_refuse h⟩

/-- Only states are entered. -/
theorem exists_state_of_enter_mem (h : .enter name ∈ m.expandMove room destination) :
    ∃ state, m.state? name = some state := by
  induction room generalizing destination with
  | zero => cases List.mem_singleton.1 h
  | succ room ih =>
    unfold expandMove at h
    split at h
    · cases List.mem_singleton.1 h
    · next state hs =>
      rcases List.mem_cons.1 h with heq | h
      · cases heq
        exact ⟨state, hs⟩
      · obtain ⟨step, -, h⟩ := List.mem_flatMap.1 h
        cases step with
        | move next => exact ih h
        | call => cases List.mem_singleton.1 h

theorem exists_state_of_enter_mem_expand {data : NameMap Value} {steps : List Step}
    (h : .enter name ∈ m.expand room data steps) : ∃ state, m.state? name = some state := by
  obtain ⟨step, -, h⟩ := List.mem_flatMap.1 h
  cases step with
  | move next => exact exists_state_of_enter_mem h
  | call => cases List.mem_singleton.1 h

end Machine

theorem lastEntered_eq_or_mem (current : String) (acts : List Act) :
    lastEntered current acts = current ∨ .enter (lastEntered current acts) ∈ acts := by
  induction acts generalizing current with
  | nil => exact .inl rfl
  | cons act acts ih =>
    cases act with
    | enter state =>
      rcases ih state with heq | hmem
      · exact .inr (List.mem_cons.2 (.inl (congrArg Act.enter heq)))
      · exact .inr (List.mem_cons_of_mem _ hmem)
    | call => exact (ih current).imp_right (List.mem_cons_of_mem _)
    | refuse => exact (ih current).imp_right (List.mem_cons_of_mem _)

section Operations

variable {σ : Type u} {host : Host σ} {registry : Registry} {m : Machine} {inst : Instance} {h : σ}
  {acts : List Act} {run : Run σ Unit}

/-- What stops a run other than the failure of a call is an act that is refused. -/
theorem Plays.refuse_mem {made : List Act} {e : RuntimeError} {h' : σ}
    (hp : Plays host acts h made (.error e) h')
    (he : ∀ action cause, e ≠ .actionFailed action cause) :
    .refuse e ∈ acts := by
  cases hp with
  | stopped split _ stops =>
    cases stops with
    | call => exact (he _ _ rfl).elim
    | refuse =>
      rw [split]
      exact List.mem_append_right _ List.mem_cons_self

theorem Realizes.rests (hr : Realizes host 0 acts run)
    (henter : ∀ name, .enter name ∈ acts → ∃ state, m.state? name = some state)
    (hi : m.Rests inst) : m.Rests (run ⟨inst, h⟩).2.inst := by
  obtain ⟨current, depth⟩ := inst
  obtain rfl : depth = 0 := hi.depth
  obtain ⟨made, r, h', hp, hrun⟩ := hr current h
  rw [hrun]
  refine ⟨rfl, ?_⟩
  rcases lastEntered_eq_or_mem current made with heq | hmem
  · rw [heq]
    exact hi.defined
  · exact henter _ (hp.subset hmem)

theorem Realizes.refuse_mem (hr : Realizes host 0 acts run) (hi : m.Rests inst) {name : String}
    (he : (run ⟨inst, h⟩).1 = .error (.unknownState name)) :
    .refuse (.unknownState name) ∈ acts := by
  obtain ⟨current, depth⟩ := inst
  obtain rfl : depth = 0 := hi.depth
  obtain ⟨made, r, h', hp, hrun⟩ := hr current h
  rw [hrun] at he
  cases he
  exact hp.refuse_mem nofun

namespace Machine

variable {event name destination : String} {payload : Payload} {w : World σ}

theorem bindEntries_ne_unknownState {entries : List (String × ValueType)} {data : NameMap Value}
    {e : RuntimeError} (h : bindEntries event payload entries data = .error e) (name : String) :
    e ≠ .unknownState name := by
  induction entries generalizing data with
  | nil => cases h
  | cons entry entries ih =>
    unfold bindEntries at h
    split at h
    · cases h
      nofun
    · split at h
      · cases h
        nofun
      · exact ih h

/-- What an event can do in a state of the machine. -/
theorem emit_cases {state : State} (host : Host σ) (event : String) (payload : Payload)
    (hs : m.state? w.inst.current = some state) :
    m.emit host event payload w = (.ok .noMatch, w) ∨
    (∃ e, (∀ name, e ≠ .unknownState name) ∧ m.emit host event payload w = (.error e, w)) ∨
    ∃ index t data, firstFiring? event payload 0 state.triggers = some (index, t) ∧
      t.bind event payload = .ok data ∧
      m.emit host event payload w =
        ((runSteps host (m.moveTo host) data t.actions w).1.map fun _ =>
            .fired ⟨w.inst.current, (runSteps host (m.moveTo host) data t.actions w).2.inst.current,
              index⟩,
          (runSteps host (m.moveTo host) data t.actions w).2) := by
  cases hf : firstFiring? event payload 0 state.triggers with
  | none => exact .inl (emit_of_firstFiring?_eq_none hs hf)
  | some fired =>
    obtain ⟨index, t⟩ := fired
    cases hb : t.bind event payload with
    | error e =>
      exact .inr (.inl ⟨e, bindEntries_ne_unknownState hb, emit_of_bind_eq_error hs hf hb⟩)
    | ok data => exact .inr (.inr ⟨index, t, data, rfl, hb, emit_of_bind_eq_ok hs hf hb⟩)

/-- The steps of a trigger that fires play their expansion. -/
theorem realizes_of_firstFiring? (hm : m.WellTyped registry) {state : State} {index : Nat}
    {t : Trigger} {data : NameMap Value} {first : Nat} (hs : m.state? name = some state)
    (hf : firstFiring? event payload first state.triggers = some (index, t))
    (hb : t.bind event payload = .ok data) :
    Realizes host 0 (m.expand maxMoveDepth data t.actions)
      (runSteps host (m.moveTo host) data t.actions) :=
  runSteps_plays (moveTo_plays hm) (carries_of_bind hb)
    (hm.actions state (mem_of_state? hs) t (mem_of_firstFiring? hf))

theorem Rests.moveTo (hm : m.WellTyped registry) (host : Host σ) (hi : m.Rests inst)
    (destination : String) (h : σ) : m.Rests (m.moveTo host destination ⟨inst, h⟩).2.inst :=
  (moveTo_plays hm destination).rests (fun _ => exists_state_of_enter_mem) hi

theorem Rests.emit (hm : m.WellTyped registry) (host : Host σ) (hi : m.Rests inst) (event : String)
    (payload : Payload) (h : σ) : m.Rests (m.emit host event payload ⟨inst, h⟩).2.inst := by
  obtain ⟨state, hs⟩ := hi.defined
  have hcases := emit_cases (w := ⟨inst, h⟩) host event payload hs
  rcases hcases with hrun | ⟨e, -, hrun⟩ | ⟨index, t, data, hf, hb, hrun⟩
  · rw [hrun]
    exact hi
  · rw [hrun]
    exact hi
  · rw [hrun]
    exact (realizes_of_firstFiring? hm hs hf hb).rests
      (fun _ => exists_state_of_enter_mem_expand) hi

theorem Rests.instantiate (hm : m.WellTyped registry) (hentry : m.Rests ⟨m.entry, 0⟩)
    (hinst : (m.instantiate host h).1 = .ok inst) : m.Rests inst := by
  obtain ⟨h', hrun⟩ := instantiate_eq_ok_iff_moveTo.1 hinst
  have hrests := hentry.moveTo hm host m.entry h
  rw [hrun] at hrests
  exact hrests

/-- An unknown state is one that a move was to. -/
theorem Rests.moveTo_strays (hm : m.WellTyped registry) (hi : m.Rests inst)
    (he : (m.moveTo host destination ⟨inst, h⟩).1 = .error (.unknownState name)) :
    m.Strays destination name :=
  strays_of_refuse ((moveTo_plays hm destination).refuse_mem hi he)

/-- An unknown state is one that a move of the trigger was to, and not the current one. -/
theorem Rests.emit_strays (hm : m.WellTyped registry) (hi : m.Rests inst)
    (he : (m.emit host event payload ⟨inst, h⟩).1 = .error (.unknownState name)) :
    ∃ state index t destination, m.state? inst.current = some state ∧
      firstFiring? event payload 0 state.triggers = some (index, t) ∧
      .move destination ∈ t.actions ∧ m.Strays destination name := by
  obtain ⟨state, hs⟩ := hi.defined
  have hcases := emit_cases (w := ⟨inst, h⟩) host event payload hs
  rcases hcases with hrun | ⟨e, hne, hrun⟩ | ⟨index, t, data, hf, hb, hrun⟩
  · rw [hrun] at he
    cases he
  · rw [hrun] at he
    cases he
    exact (hne name rfl).elim
  · rw [hrun] at he
    have hsteps : (runSteps host (m.moveTo host) data t.actions ⟨inst, h⟩).1 =
        .error (.unknownState name) := by
      cases hr : (runSteps host (m.moveTo host) data t.actions ⟨inst, h⟩).1 with
      | ok =>
        rw [hr] at he
        cases he
      | error e =>
        rw [hr] at he
        cases he
        rfl
    obtain ⟨destination, hmove, hstrays⟩ :=
      strays_of_refuse_expand ((realizes_of_firstFiring? hm hs hf hb).refuse_mem hi hsteps)
    exact ⟨state, index, t, destination, hs, hf, hmove, hstrays⟩

end Machine

end Operations

/-! ## During an operation -/

/-- A change of an instance: another state is current, or one entry more or less is under way. -/
inductive Change
  | enter (state : String)
  | descend
  | ascend

namespace Change

/-- The instance after a change. -/
def apply (inst : Instance) : Change → Instance
  | .enter state => { inst with current := state }
  | .descend => { inst with depth := inst.depth + 1 }
  | .ascend => { inst with depth := inst.depth - 1 }

/-- How much the depth grows, if it is not cut off at zero. -/
def growth : Change → ℤ
  | .enter _ => 0
  | .descend => 1
  | .ascend => -1

end Change

/-- Every descent is followed by its ascent, and at most `room` of them are open at a time. -/
inductive Nests : (room : Nat) → List Change → Prop
  | nil (room : Nat) : Nests room []
  | enter {room : Nat} {state : String} {changes : List Change} (rest : Nests room changes) :
      Nests room (.enter state :: changes)
  | nest {room : Nat} {changes : List Change} (inner : Nests room changes) :
      Nests (room + 1) (.descend :: changes ++ [.ascend])
  | append {room : Nat} {xs ys : List Change} (first : Nests room xs) (second : Nests room ys) :
      Nests room (xs ++ ys)

/-- After each of the changes in turn the depth is within the limit, and never was cut off. -/
def StaysWithin (limit : Nat) (inst : Instance) (changes : List Change) : Prop :=
  ∀ before, before <+: changes →
    ((before.foldl Change.apply inst).depth : ℤ) = inst.depth + (before.map Change.growth).sum ∧
      (before.foldl Change.apply inst).depth ≤ limit

section Nesting

variable {room : Nat} {changes : List Change}

theorem Nests.depth_eq (h : Nests room changes) (inst : Instance) :
    (changes.foldl Change.apply inst).depth = inst.depth := by
  induction h generalizing inst with
  | nil => rfl
  | enter _ ih => exact ih _
  | nest _ ih =>
    rw [List.cons_append, List.foldl_cons, List.foldl_append]
    show (List.foldl Change.apply _ _).depth - 1 = inst.depth
    rw [ih]
    rfl
  | append _ _ ihx ihy => rw [List.foldl_append, ihy, ihx]

theorem Nests.sum_growth (h : Nests room changes) : (changes.map Change.growth).sum = 0 := by
  induction h with
  | nil => rfl
  | enter _ ih => simp [Change.growth, ih]
  | nest _ ih => simp [Change.growth, ih]
  | append _ _ ihx ihy => rw [List.map_append, List.sum_append, ihx, ihy, add_zero]

/-- Changes that nest stay as close to the depth they begin at as there is room. -/
theorem Nests.staysWithin (h : Nests room changes) (inst : Instance) :
    StaysWithin (inst.depth + room) inst changes := by
  induction h generalizing inst with
  | nil =>
    intro before hb
    rw [List.prefix_nil.1 hb]
    simp
  | @enter _ state _ _ ih =>
    intro before hb
    rcases List.prefix_cons_iff.1 hb with rfl | ⟨before, rfl, hrest⟩
    · simp
    · have := ih { inst with current := state } before hrest
      simpa [Change.apply, Change.growth] using this
  | @nest room changes inner ih =>
    intro before hb
    rw [List.cons_append] at hb
    rcases List.prefix_cons_iff.1 hb with rfl | ⟨before, rfl, hrest⟩
    · simp
    · rcases List.prefix_concat_iff.1 hrest with rfl | hinner
      · -- all of it: the last ascent starts where the descent led
        have hdepth := inner.depth_eq { inst with depth := inst.depth + 1 }
        simp [Change.apply, Change.growth, hdepth, inner.sum_growth]
      · have := ih { inst with depth := inst.depth + 1 } before hinner
        simp only [List.map_cons, List.sum_cons, List.foldl_cons, Change.apply,
          Change.growth] at this ⊢
        push_cast at this
        constructor <;> omega
  | @append room xs ys first second ihx ihy =>
    rintro before ⟨rest, hb⟩
    rcases List.append_eq_append_iff.1 hb with ⟨zs, rfl, -⟩ | ⟨zs, rfl, rfl⟩
    · exact ihx inst before (List.prefix_append _ _)
    · have := ihy (xs.foldl Change.apply inst) zs (List.prefix_append _ _)
      rw [first.depth_eq] at this
      rwa [List.foldl_append, List.map_append, List.sum_append, first.sum_growth, zero_add]

end Nesting

section Noting

variable {σ : Type u} {α : Type}

/-- A host that leaves alone the notes that are kept beside its state. -/
def Host.noting (host : Host σ) : Host (σ × List Change) where
  perform action arguments h :=
    ((host.perform action arguments h.1).1, (host.perform action arguments h.1).2, h.2)

/-- The world after a change of the instance, which is noted. -/
def World.change (w : World (σ × List Change)) (change : Change) : World (σ × List Change) :=
  ⟨change.apply w.inst, w.host.1, w.host.2 ++ [change]⟩

namespace Machine

/-- `nested`, with the changes noted. -/
def nestedNoting (p : Run (σ × List Change) α) : Run (σ × List Change) α := fun w =>
  let (result, w) := p (w.change .descend)
  (result, w.change .ascend)

/-- `enter`, with the changes noted. -/
def enterNoting (m : Machine) (host : Host σ) : (room : Nat) → String → Run (σ × List Change) Unit
  | 0, destination => fun w => (.error (.moveDepthExceeded destination), w)
  | room + 1, destination => fun w =>
    match m.state? destination with
    | none => (.error (.unknownState destination), w)
    | some state =>
      nestedNoting (runSteps host.noting (enterNoting m host room) .empty state.init)
        (w.change (.enter destination))

/-- `moveTo`, with the changes noted. -/
def moveToNoting (m : Machine) (host : Host σ) (destination : String) :
    Run (σ × List Change) Unit := fun w =>
  enterNoting m host (maxMoveDepth - w.inst.depth) destination w

/-- `emit`, with the changes noted. -/
def emitNoting (m : Machine) (host : Host σ) (event : String) (payload : Payload) :
    Run (σ × List Change) Outcome := fun w =>
  let source := w.inst.current
  match m.state? source with
  | none => (.error (.unknownState source), w)
  | some state =>
    match firstFiring? event payload 0 state.triggers with
    | none => (.ok .noMatch, w)
    | some (index, t) =>
      match t.bind event payload with
      | .error e => (.error e, w)
      | .ok data =>
        let (result, w) := runSteps host.noting (moveToNoting m host) data t.actions w
        (result.map fun _ => .fired ⟨source, w.inst.current, index⟩, w)

end Machine

/-- At the given depth, the second run is the first with the changes noted: they account for all
that becomes of the instance, and nest as deep as there is room. -/
def Notes (depth room : Nat) (run : Run σ α) (noting : Run (σ × List Change) α) : Prop :=
  ∀ inst h notes, inst.depth = depth → ∃ changes r h', Nests room changes ∧
    run ⟨inst, h⟩ = (r, ⟨changes.foldl Change.apply inst, h'⟩) ∧
    noting ⟨inst, h, notes⟩ = (r, ⟨changes.foldl Change.apply inst, h', notes ++ changes⟩)

variable {host : Host σ} {depth room : Nat}

/-- When the instance is left as it is, there is nothing to note. -/
theorem notes_unchanged (r : Except RuntimeError α) (inst : Instance) (h : σ)
    (notes : List Change) : ∃ changes r' h', Nests room changes ∧
      (r, (⟨inst, h⟩ : World σ)) = (r', ⟨changes.foldl Change.apply inst, h'⟩) ∧
      (r, (⟨inst, h, notes⟩ : World (σ × List Change))) =
        (r', ⟨changes.foldl Change.apply inst, h', notes ++ changes⟩) := by
  refine ⟨[], r, h, .nil room, rfl, ?_⟩
  rw [List.append_nil]
  rfl

theorem notes_call (data : NameMap Value) (action : String) (arguments : List (String × Operand)) :
    Notes depth room (Machine.call host data action arguments)
      (Machine.call host.noting data action arguments) := by
  intro inst h notes _
  unfold Machine.call
  cases resolveArguments data arguments with
  | error e => exact notes_unchanged _ inst h notes
  | ok arguments =>
    rcases hperform : host.perform action arguments h with ⟨_ | ⟨⟨⟩⟩, h'⟩
    · simp only [Host.noting, hperform]
      exact notes_unchanged _ inst h' notes
    · simp only [Host.noting, hperform]
      exact notes_unchanged _ inst h' notes

theorem Notes.runSteps {move : String → Run σ Unit} {noting : String → Run (σ × List Change) Unit}
    (hmove : ∀ destination, Notes depth room (move destination) (noting destination))
    (data : NameMap Value) (steps : List Step) :
    Notes depth room (Machine.runSteps host move data steps)
      (Machine.runSteps host.noting noting data steps) := by
  induction steps with
  | nil =>
    intro inst h notes _
    exact notes_unchanged (.ok ()) inst h notes
  | cons step steps ih =>
    have hstep : Notes depth room (Machine.runStep host move data step)
        (Machine.runStep host.noting noting data step) := by
      cases step with
      | move destination => exact hmove destination
      | call action arguments => exact notes_call data action arguments
    intro inst h notes hdepth
    unfold Machine.runSteps
    obtain ⟨changes, r, h', hnests, hrun, hnoting⟩ := hstep inst h notes hdepth
    rw [hrun, hnoting]
    cases r with
    | error e => exact ⟨changes, .error e, h', hnests, rfl, rfl⟩
    | ok =>
      obtain ⟨changes', r', h'', hnests', hrun', hnoting'⟩ :=
        ih (changes.foldl Change.apply inst) h' (notes ++ changes)
          ((hnests.depth_eq inst).trans hdepth)
      refine ⟨changes ++ changes', r', h'', hnests.append hnests', ?_, ?_⟩
      · rw [List.foldl_append]
        exact hrun'
      · rw [List.foldl_append, ← List.append_assoc]
        exact hnoting'

theorem Notes.nested {run : Run σ α} {noting : Run (σ × List Change) α}
    (hn : Notes (depth + 1) room run noting) :
    Notes depth (room + 1) (Machine.nested run) (Machine.nestedNoting noting) := by
  intro inst h notes hdepth
  obtain ⟨changes, r, h', hnests, hrun, hnoting⟩ :=
    hn { inst with depth := inst.depth + 1 } h (notes ++ [.descend]) (by rw [hdepth])
  refine ⟨.descend :: changes ++ [.ascend], r, h', hnests.nest, ?_, ?_⟩
  · unfold Machine.nested
    rw [hrun, List.cons_append, List.foldl_cons, List.foldl_append]
    rfl
  · unfold Machine.nestedNoting
    have hdescend : World.change ⟨inst, h, notes⟩ .descend =
      ⟨{ inst with depth := inst.depth + 1 }, h, notes ++ [.descend]⟩ := rfl
    rw [hdescend, hnoting, List.cons_append, List.foldl_cons, List.foldl_append]
    simp only [World.change, List.append_assoc, List.singleton_append]
    rfl

/-- Entering a state nests as deep as there is room. The induction is on the room. -/
theorem notes_enter (m : Machine) (host : Host σ) (room depth : Nat) (destination : String) :
    Notes depth room (m.enter host room destination) (m.enterNoting host room destination) := by
  induction room generalizing depth destination with
  | zero =>
    intro inst h notes _
    exact notes_unchanged _ inst h notes
  | succ room ih =>
    intro inst h notes hdepth
    unfold Machine.enter Machine.enterNoting
    cases hs : m.state? destination with
    | none => exact notes_unchanged _ inst h notes
    | some state =>
      obtain ⟨changes, r, h', hnests, hrun, hnoting⟩ :=
        (Notes.runSteps (ih (depth + 1)) .empty state.init).nested
          { inst with current := destination } h (notes ++ [.enter destination]) hdepth
      refine ⟨.enter destination :: changes, r, h', hnests.enter, hrun, ?_⟩
      rw [List.append_assoc] at hnoting
      exact hnoting

theorem notes_moveTo (m : Machine) (host : Host σ) (destination : String) :
    Notes 0 maxMoveDepth (m.moveTo host destination) (m.moveToNoting host destination) := by
  intro inst h notes hdepth
  unfold Machine.moveTo Machine.moveToNoting
  simp only [hdepth]
  exact notes_enter m host maxMoveDepth 0 destination inst h notes hdepth

theorem notes_emit (m : Machine) (host : Host σ) (event : String) (payload : Payload) :
    Notes 0 maxMoveDepth (m.emit host event payload) (m.emitNoting host event payload) := by
  intro inst h notes hdepth
  unfold Machine.emit Machine.emitNoting
  cases hs : m.state? inst.current with
  | none =>
    simp only [hs]
    exact notes_unchanged _ inst h notes
  | some state =>
    cases hf : Machine.firstFiring? event payload 0 state.triggers with
    | none =>
      simp only [hs, hf]
      exact notes_unchanged _ inst h notes
    | some fired =>
      cases hb : fired.2.bind event payload with
      | error e =>
        simp only [hs, hf, hb]
        exact notes_unchanged _ inst h notes
      | ok data =>
        have hsteps : Notes 0 maxMoveDepth
            (Machine.runSteps host (m.moveTo host) data fired.2.actions)
            (Machine.runSteps host.noting (m.moveToNoting host) data fired.2.actions) :=
          Notes.runSteps (notes_moveTo m host) data fired.2.actions
        obtain ⟨changes, r, h', hnests, hrun, hnoting⟩ := hsteps inst h notes hdepth
        let target := (changes.foldl Change.apply inst).current
        refine ⟨changes, r.map fun _ => .fired ⟨inst.current, target, fired.1⟩, h', hnests, ?_, ?_⟩
        · simp only [hs, hf, hb, hrun]
          rfl
        · simp only [hs, hf, hb, hnoting]
          rfl

end Noting

/-! ## Fleets -/

namespace Fleet

variable {σ : Type u} {registry : Registry} {m : Machine} {fleet : Fleet σ}

theorem rests_of_operate {α : Type} {run : Run σ α} (hf : ∀ inst ∈ fleet.instances, m.Rests inst)
    (hrun : ∀ inst h, m.Rests inst → m.Rests (run ⟨inst, h⟩).2.inst) (index : Nat) :
    ∀ inst ∈ (fleet.operate index run).2.instances, m.Rests inst := by
  unfold Fleet.operate
  cases hi : fleet.instances[index]? with
  | none => exact hf
  | some inst =>
    intro inst' hmem
    rcases List.mem_or_eq_of_mem_set hmem with hmem | rfl
    · exact hf inst' hmem
    · exact hrun inst _ (hf inst (List.mem_of_getElem? hi))

theorem rests_of_step (host : Host σ) (hm : m.WellTyped registry) (hentry : m.Rests ⟨m.entry, 0⟩)
    (hf : ∀ inst ∈ fleet.instances, m.Rests inst) (operation : Operation) :
    ∀ inst ∈ (fleet.step m host operation).2.instances, m.Rests inst := by
  cases operation with
  | emit index event payload =>
    exact rests_of_operate hf (fun _ h hi => hi.emit hm host event payload h) index
  | moveTo index destination =>
    exact rests_of_operate hf (fun _ h hi => hi.moveTo hm host destination h) index
  | instantiate =>
    unfold Fleet.step
    rcases hrun : m.instantiate host fleet.host with ⟨e | inst, h⟩
    · exact hf
    · intro inst' hmem
      rcases List.mem_append.1 hmem with hmem | hmem
      · exact hf inst' hmem
      · rw [List.mem_singleton.1 hmem]
        exact hentry.instantiate hm (congrArg Prod.fst hrun)

/-- Operations keep all instances at rest; by induction on the operations. -/
theorem rests_of_run (host : Host σ) (hm : m.WellTyped registry) (hentry : m.Rests ⟨m.entry, 0⟩)
    (hf : ∀ inst ∈ fleet.instances, m.Rests inst) (operations : List Operation) :
    ∀ inst ∈ (fleet.run m host operations).2.instances, m.Rests inst := by
  induction operations generalizing fleet with
  | nil => exact hf
  | cons operation operations ih => exact ih (rests_of_step host hm hentry hf operation)

end Fleet

theorem rests_entry_of_compile {compiler : Compiler} {filename : String} {file : Syntax.File}
    {m : Machine} (hc : compiler.compile filename file = .ok m) : m.Rests ⟨m.entry, 0⟩ := by
  have hhead := (compile_eq_ok_iff.1 hc).entry
  refine ⟨rfl, ?_⟩
  unfold Machine.state?
  cases hstates : m.states with
  | nil =>
    rw [hstates] at hhead
    cases hhead
  | cons first rest =>
    rw [hstates] at hhead
    have hname : first.name = m.entry := Option.some.inj hhead
    exact ⟨first, List.find?_cons_of_pos (decide_eq_true hname)⟩

/-! ## Compiled machines -/

section Compiled

variable {σ : Type u} {α : Type}

/-- The run makes the changes that are noted, and they keep the depth within its limit. -/
def KeepsDepth (run : Run σ α) (noting : Run (σ × List Change) α) (inst : Instance) (h : σ) :
    Prop :=
  ∃ changes r h', StaysWithin maxMoveDepth inst changes ∧
    run ⟨inst, h⟩ = (r, ⟨changes.foldl Change.apply inst, h'⟩) ∧
    noting ⟨inst, h, []⟩ = (r, ⟨changes.foldl Change.apply inst, h', changes⟩)

theorem Notes.keepsDepth {run : Run σ α} {noting : Run (σ × List Change) α}
    (hn : Notes 0 maxMoveDepth run noting) {inst : Instance} (hi : inst.depth = 0) (h : σ) :
    KeepsDepth run noting inst h := by
  obtain ⟨changes, r, h', hnests, hrun, hnoting⟩ := hn inst h [] hi
  have hstays := hnests.staysWithin inst
  rw [hi, zero_add] at hstays
  exact ⟨changes, r, h', hstays, hrun, hnoting⟩

/-- What operations on the instance do: the depth is kept within its limit, and a state that is
unknown is the destination of a move. -/
structure Machine.Governs (m : Machine) (host : Host σ) (inst : Instance) (h : σ) : Prop where
  moveTo : ∀ destination,
    KeepsDepth (m.moveTo host destination) (m.moveToNoting host destination) inst h
  emit : ∀ event payload,
    KeepsDepth (m.emit host event payload) (m.emitNoting host event payload) inst h
  moveTo_unknown : ∀ destination name,
    (m.moveTo host destination ⟨inst, h⟩).1 = .error (.unknownState name) →
      m.Strays destination name
  emit_unknown : ∀ event payload name,
    (m.emit host event payload ⟨inst, h⟩).1 = .error (.unknownState name) →
      ∃ state index t destination, m.state? inst.current = some state ∧
        Machine.firstFiring? event payload 0 state.triggers = some (index, t) ∧
        .move destination ∈ t.actions ∧ m.Strays destination name

theorem Machine.Rests.governs {registry : Registry} {m : Machine} (hm : m.WellTyped registry)
    (host : Host σ) {inst : Instance} (hi : m.Rests inst) (h : σ) : m.Governs host inst h where
  moveTo destination := (notes_moveTo m host destination).keepsDepth hi.depth h
  emit event payload := (notes_emit m host event payload).keepsDepth hi.depth h
  moveTo_unknown _ _ := hi.moveTo_strays hm
  emit_unknown _ _ _ := hi.emit_strays hm

/-- Whatever operations were done, the instances of a compiled machine are at rest. -/
theorem rests_of_compile {compiler : Compiler} {filename : String} {file : Syntax.File}
    {m : Machine} (hc : compiler.compile filename file = .ok m) (host : Host σ) (start : σ)
    (operations : List Operation) :
    ∀ inst ∈ ((Fleet.start start).run m host operations).2.instances, m.Rests inst := by
  have hstart : ∀ inst ∈ (Fleet.start start).instances, m.Rests inst := nofun
  exact Fleet.rests_of_run host (wellTyped_of_compile hc) (rests_entry_of_compile hc) hstart
    operations

/-- An instance is not created for the reason that its first state could not be entered. -/
theorem Machine.moveTo_of_instantiate_eq_error {m : Machine} {host : Host σ} {h : σ}
    {e : RuntimeError} (he : (m.instantiate host h).1 = .error e) :
    (m.moveTo host m.entry ⟨⟨m.entry, 0⟩, h⟩).1 = .error e := by
  unfold Machine.instantiate at he
  rcases hrun : m.moveTo host m.entry ⟨⟨m.entry, 0⟩, h⟩ with ⟨e | _, w⟩
  · rw [hrun] at he
    cases he
    rfl
  · rw [hrun] at he
    cases he

end Compiled

/-- Whatever operations were done on the instances of a compiled machine, each of them rests in a
state of the machine, and so it can be operated on as deep as the limit allows. Instances are
created from rest as well. -/
theorem instances_rest {compiler : Compiler} {filename : String} {file : Syntax.File} {m : Machine}
    (hc : compiler.compile filename file = .ok m) {σ : Type u} (host : Host σ) (start : σ)
    (operations : List Operation) :
    (∀ inst ∈ ((Fleet.start start).run m host operations).2.instances,
      m.Rests inst ∧ ∀ h, m.Governs host inst h) ∧
    m.Rests ⟨m.entry, 0⟩ ∧ ∀ h, m.Governs host ⟨m.entry, 0⟩ h ∧
      ∀ name, (m.instantiate host h).1 = .error (.unknownState name) → m.Strays m.entry name := by
  have hm := wellTyped_of_compile hc
  have hentry := rests_entry_of_compile hc
  refine ⟨fun inst hinst => ?_, hentry, fun h => ⟨hentry.governs hm host h, fun name he => ?_⟩⟩
  · have hstart : ∀ inst ∈ (Fleet.start start).instances, m.Rests inst := nofun
    have hi := Fleet.rests_of_run host hm hentry hstart operations inst hinst
    exact ⟨hi, hi.governs hm host⟩
  · exact (hentry.governs hm host h).moveTo_unknown _ _ (Machine.moveTo_of_instantiate_eq_error he)

namespace Doorbell

/-- After a jam in the midst of an event the bell is idle. -/
theorem idle_after_jam :
    compiler.compile "bell" file = .ok machine ∧
      ((Fleet.start 0).run machine host operations).1 =
        [.ok (), .error (.actionFailed "chime" "jammed"), .ok ()] ∧
      machine.Rests ⟨"Idle", 0⟩ ∧ ∀ h, machine.Governs host ⟨"Idle", 0⟩ h := by
  have hrun : (Fleet.start 0).run machine host operations =
    ([.ok (), .error (.actionFailed "chime" "jammed"), .ok ()], ⟨[⟨"Idle", 0⟩], 3⟩) := rfl
  have h := (instances_rest compile_file host 0 operations).1
  rw [hrun] at h ⊢
  exact ⟨compile_file, rfl, h _ (List.mem_singleton.2 rfl)⟩

end Doorbell

end EventMachine
