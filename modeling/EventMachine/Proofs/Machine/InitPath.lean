import EventMachine.Proofs.Machine.Expansion
import Mathlib.Logic.Relation

/-!
# Moves on entry

The steps on entry of a state may move on, and so may those of the state moved to. An init path
follows such moves from name to name. Entering a state succeeds when all names on its init paths
are states, no init path is longer than `maxMoveDepth`, and no call fails (`enters_iff_settles`).

1. A move within the expansion is refused at the end of an init path: at an undefined name, or where
   the path has used up the room (`refuse_mem_expandMove_iff`). So nothing is refused when the
   destination settles (`not_refuse_iff_settles`).
2. Without refusals the state entered last ends the chain of last moves (`endsAt_lastEntered`).
3. Acts pass if none is refused and no call fails (`Plays.ok_iff`).
-/

namespace EventMachine

universe u

open Relation

/-- The destinations of the moves among steps, in order. -/
def destinations (steps : List Step) : List String :=
  steps.filterMap fun
    | .move destination => some destination
    | .call _ _ => none

theorem mem_destinations {steps : List Step} {destination : String} :
    destination ∈ destinations steps ↔ .move destination ∈ steps := by
  unfold destinations
  rw [List.mem_filterMap]
  constructor
  · rintro ⟨_ | _, hstep, h⟩
    · cases h
      exact hstep
    · cases h
  · exact fun h => ⟨_, h, rfl⟩

namespace Machine

variable {m : Machine} {name next destination : String} {path : List String}

/-! ## Init paths -/

/-- The state of the first name moves to the second name on entry. -/
def MovesOn (m : Machine) (name next : String) : Prop :=
  ∃ state, m.state? name = some state ∧ .move next ∈ state.init

/-- Names that begin with the given one, each but the first moved to on entry of the one before. -/
inductive InitPath (m : Machine) : String → List String → Prop
  | single (name : String) : InitPath m name [name]
  | cons {name next : String} {path : List String} (h : m.MovesOn name next)
      (rest : InitPath m next path) : InitPath m name (name :: path)

theorem InitPath.ne_nil (h : m.InitPath name path) : path ≠ [] := by
  cases h <;> exact List.cons_ne_nil _ _

theorem InitPath.of_prefix (h : m.InitPath name path) {start : List String} (hs : start ≠ [])
    (hp : start <+: path) : m.InitPath name start := by
  induction h generalizing start with
  | single name =>
    rcases List.prefix_cons_iff.1 hp with rfl | ⟨rest, rfl, hrest⟩
    · exact (hs rfl).elim
    · rw [List.prefix_nil.1 hrest]
      exact .single name
  | cons hmove _ ih =>
    rcases List.prefix_cons_iff.1 hp with rfl | ⟨rest, rfl, hrest⟩
    · exact (hs rfl).elim
    · by_cases hnil : rest = []
      · rw [hnil]
        exact .single _
      · exact .cons hmove (ih hnil hrest)

/-- Moves on entry can be put before a path. -/
theorem InitPath.exists_of_transGen (h : m.InitPath next path) (hm : TransGen m.MovesOn name next) :
    ∃ longer, m.InitPath name longer ∧ path.length < longer.length := by
  induction hm using TransGen.head_induction_on with
  | single hmove => exact ⟨_, .cons hmove h, Nat.lt_succ_self _⟩
  | head hmove _ ih =>
    obtain ⟨longer, hlonger, hlt⟩ := ih
    exact ⟨_, .cons hmove hlonger, Nat.lt_succ_of_lt hlt⟩

/-- Around a cycle there are init paths of any length. -/
theorem exists_initPath_of_cycle (h : TransGen m.MovesOn name name) (n : Nat) :
    ∃ path, m.InitPath name path ∧ n < path.length := by
  induction n with
  | zero => exact ⟨_, .single name, Nat.one_pos⟩
  | succ n ih =>
    obtain ⟨path, hpath, hn⟩ := ih
    obtain ⟨longer, hlonger, hlt⟩ := hpath.exists_of_transGen h
    exact ⟨longer, hlonger, Nat.lt_of_le_of_lt hn hlt⟩

/-- All names on the init paths of a destination are states, and the paths are as short as moves
may be nested. -/
structure Settles (m : Machine) (destination : String) : Prop where
  defined : ∀ path, m.InitPath destination path → ∀ name ∈ path, ∃ state, m.state? name = some state
  short : ∀ path, m.InitPath destination path → path.length ≤ maxMoveDepth

/-- No state that is reached lies on a cycle of moves on entry. -/
theorem Settles.acyclic (h : m.Settles destination) (hr : ReflTransGen m.MovesOn destination name) :
    ¬ TransGen m.MovesOn name name := by
  intro hcycle
  obtain ⟨path, hpath, hn⟩ := exists_initPath_of_cycle hcycle maxMoveDepth
  rcases reflTransGen_iff_eq_or_transGen.1 hr with rfl | hr
  · exact Nat.not_lt.2 (h.short path hpath) hn
  · obtain ⟨longer, hlonger, hlt⟩ := hpath.exists_of_transGen hr
    exact Nat.not_lt.2 (h.short longer hlonger) (hn.trans hlt)

/-! ## Refused moves -/

theorem refuse_mem_expandStep_iff {move : String → List Act} {data : NameMap Value} {step : Step}
    {e : RuntimeError} :
    .refuse e ∈ expandStep move data step ↔ ∃ next, step = .move next ∧ .refuse e ∈ move next := by
  cases step with
  | move destination => simp [expandStep]
  | call action arguments => simp [expandStep]

theorem refuse_mem_flatMap_expandStep_iff {move : String → List Act} {data : NameMap Value}
    {steps : List Step} {e : RuntimeError} :
    .refuse e ∈ steps.flatMap (expandStep move data) ↔
      ∃ next, .move next ∈ steps ∧ .refuse e ∈ move next := by
  simp only [List.mem_flatMap, refuse_mem_expandStep_iff]
  constructor
  · rintro ⟨_, hstep, next, rfl, h⟩
    exact ⟨next, hstep, h⟩
  · rintro ⟨next, hstep, h⟩
    exact ⟨_, hstep, next, rfl, h⟩

/-- A move fails at the end of an init path, where there is no more room or no such state. The
induction is on the room. -/
theorem refuse_mem_expandMove_iff {room : Nat} {e : RuntimeError} :
    .refuse e ∈ m.expandMove room destination ↔
      ∃ path name, m.InitPath destination path ∧ path.getLast? = some name ∧
        (path.length = room + 1 ∧ e = .moveDepthExceeded name ∨
          path.length ≤ room ∧ m.state? name = none ∧ e = .unknownState name) := by
  induction room generalizing destination with
  | zero =>
    unfold expandMove
    rw [List.mem_singleton, Act.refuse.injEq]
    constructor
    · rintro rfl
      exact ⟨_, _, .single destination, rfl, .inl ⟨rfl, rfl⟩⟩
    · rintro ⟨_, name, _ | ⟨hmove, hrest⟩, hlast, ⟨hlength, rfl⟩ | ⟨hlength, -⟩⟩
      · cases hlast
        rfl
      · cases hlength
      · exact (hrest.ne_nil (List.length_eq_zero_iff.1 (Nat.succ.inj hlength))).elim
      · cases hlength
  | succ room ih =>
    unfold expandMove
    cases hs : m.state? destination with
    | none =>
      rw [List.mem_singleton, Act.refuse.injEq]
      constructor
      · rintro rfl
        exact ⟨_, _, .single destination, rfl, .inr ⟨Nat.le_add_left _ _, hs, rfl⟩⟩
      · rintro ⟨_, name, _ | ⟨⟨state, hstate, -⟩, -⟩, hlast, h⟩
        · cases hlast
          rcases h with ⟨hlength, -⟩ | ⟨-, -, rfl⟩
          · cases hlength
          · rfl
        · rw [hs] at hstate
          cases hstate
    | some state =>
      have hne : Act.refuse e ≠ .enter destination := by
        intro h
        cases h
      rw [List.mem_cons, or_iff_right hne, refuse_mem_flatMap_expandStep_iff]
      constructor
      · rintro ⟨next, hmove, h⟩
        obtain ⟨path, name, hpath, hlast, h⟩ := ih.1 h
        refine ⟨_, name, .cons ⟨state, hs, hmove⟩ hpath, ?_, ?_⟩
        · rw [List.getLast?_cons, hlast]
          rfl
        · rw [List.length_cons, Nat.add_right_cancel_iff, Nat.add_le_add_iff_right]
          exact h
      · rintro ⟨_, name, _ | @⟨_, next, path, ⟨state', hs', hmove⟩, hpath⟩, hlast, h⟩
        · obtain rfl : destination = name := Option.some.inj hlast
          rcases h with ⟨hlength, -⟩ | ⟨-, hnone, -⟩
          · cases hlength
          · rw [hs] at hnone
            cases hnone
        · rw [hs] at hs'
          cases hs'
          refine ⟨next, hmove, ih.2 ⟨path, name, hpath, ?_, ?_⟩⟩
          · have hsome := List.getLast?_eq_some_getLast hpath.ne_nil
            rw [List.getLast?_cons, hsome] at hlast
            rw [hsome]
            exact hlast
          · rw [List.length_cons, Nat.add_right_cancel_iff, Nat.add_le_add_iff_right] at h
            exact h

theorem not_refuse_iff_settles :
    (∀ e, .refuse e ∉ m.expandMove maxMoveDepth destination) ↔ m.Settles destination := by
  constructor
  · intro h
    have hshort : ∀ path, m.InitPath destination path → path.length ≤ maxMoveDepth := by
      intro path hpath
      by_contra hlong
      -- one name more than there is room for
      have hlength : (path.take (maxMoveDepth + 1)).length = maxMoveDepth + 1 := by
        rw [List.length_take]
        omega
      have hne : path.take (maxMoveDepth + 1) ≠ [] := List.ne_nil_of_length_eq_add_one hlength
      exact h _ (refuse_mem_expandMove_iff.2 ⟨_, _, hpath.of_prefix hne (List.take_prefix _ _),
        List.getLast?_eq_some_getLast hne, .inl ⟨hlength, rfl⟩⟩)
    refine ⟨fun path hpath name hname => ?_, hshort⟩
    obtain ⟨before, after, rfl⟩ := List.mem_iff_append.1 hname
    have hstart : m.InitPath destination (before ++ [name]) :=
      hpath.of_prefix (by simp) ⟨after, by simp⟩
    by_contra hnone
    exact h (.unknownState name) (refuse_mem_expandMove_iff.2 ⟨_, name, hstart, by simp,
      .inr ⟨hshort _ hstart, Option.eq_none_iff_forall_ne_some.2 fun s hs => hnone ⟨s, hs⟩, rfl⟩⟩)
  · intro h e he
    obtain ⟨path, name, hpath, hlast, ⟨hlength, -⟩ | ⟨-, hnone, -⟩⟩ :=
      refuse_mem_expandMove_iff.1 he
    · have := h.short path hpath
      omega
    · obtain ⟨state, hs⟩ := h.defined path hpath name (List.mem_of_getLast? hlast)
      rw [hnone] at hs
      cases hs

/-! ## The chain of last moves -/

/-- The destination of the last move on entry of a state. -/
def lastMove? (m : Machine) (name : String) : Option String :=
  (m.state? name).bind fun state => (destinations state.init).getLast?

/-- The chain that follows the last move on entry, from state to state, ends with `last`. -/
def EndsAt (m : Machine) (destination last : String) : Prop :=
  ReflTransGen (fun name next => m.lastMove? name = some next) destination last ∧
    m.lastMove? last = none

theorem lastMove?_eq_none_iff {state : State} (hs : m.state? name = some state) :
    m.lastMove? name = none ↔ destinations state.init = [] := by
  unfold lastMove?
  rw [hs, Option.bind_some, List.getLast?_eq_none_iff]

theorem endsAt_self (h : m.lastMove? name = none) : m.EndsAt name name :=
  ⟨.refl, h⟩

theorem EndsAt.head {last : String} (h : m.EndsAt next last) (hn : m.lastMove? name = some next) :
    m.EndsAt name last :=
  ⟨h.1.head hn, h.2⟩

/-- Steps leave the instance where their last move ends, if they move at all. -/
theorem lastEntered_flatMap_expandStep {move : String → List Act} {data : NameMap Value}
    {steps : List Step}
    (hmove : ∀ next ∈ destinations steps, ∀ current,
      m.EndsAt next (lastEntered current (move next)))
    (current : String) :
    (destinations steps = [] ∧
        lastEntered current (steps.flatMap (expandStep move data)) = current) ∨
      ∃ next, (destinations steps).getLast? = some next ∧
        m.EndsAt next (lastEntered current (steps.flatMap (expandStep move data))) := by
  induction steps using List.reverseRecOn with
  | nil => exact .inl ⟨rfl, rfl⟩
  | append_singleton steps step ih =>
    have happend : destinations (steps ++ [step]) = destinations steps ++ destinations [step] :=
      List.filterMap_append
    rw [happend] at hmove ⊢
    rw [List.flatMap_append, lastEntered_append, List.flatMap_singleton]
    cases step with
    | move next =>
      have hnext : destinations [.move next] = [next] := rfl
      rw [hnext] at hmove ⊢
      exact .inr ⟨next, by simp, hmove next (by simp) _⟩
    | call action arguments =>
      have hnone : destinations [.call action arguments] = [] := rfl
      rw [hnone, List.append_nil] at hmove ⊢
      exact ih hmove

/-- Without refusals the state that is entered last ends the chain; by induction on the room. -/
theorem endsAt_lastEntered {room : Nat} (h : ∀ e, .refuse e ∉ m.expandMove room destination)
    (current : String) :
    m.EndsAt destination (lastEntered current (m.expandMove room destination)) := by
  induction room generalizing destination current with
  | zero => exact (h _ (List.mem_singleton.2 rfl)).elim
  | succ room ih =>
    unfold expandMove at h ⊢
    cases hs : m.state? destination with
    | none =>
      rw [hs] at h
      exact (h _ (List.mem_singleton.2 rfl)).elim
    | some state =>
      rw [hs] at h
      have hmove : ∀ next ∈ destinations state.init, ∀ current,
          m.EndsAt next (lastEntered current (m.expandMove room next)) := by
        intro next hnext
        refine ih fun e he => h e (List.mem_cons_of_mem _ ?_)
        exact refuse_mem_flatMap_expandStep_iff.2 ⟨next, mem_destinations.1 hnext, he⟩
      show m.EndsAt destination (lastEntered destination _)
      rcases lastEntered_flatMap_expandStep hmove destination with ⟨hnil, hlast⟩ | ⟨next, hn, hends⟩
      · rw [hlast]
        exact endsAt_self ((lastMove?_eq_none_iff hs).2 hnil)
      · refine hends.head ?_
        unfold lastMove?
        rw [hs]
        exact hn

/-- An instance that entered the destination has come to rest in its current state: moves on entry
do not run in a circle, and the last of them were followed to their end. -/
structure ComesToRest (m : Machine) (destination current : String) : Prop where
  acyclic : ∀ name, ReflTransGen m.MovesOn destination name → ¬ TransGen m.MovesOn name name
  ends : m.EndsAt destination current
  stays : current = destination ↔
    ∃ state, m.state? destination = some state ∧ destinations state.init = []

theorem EndsAt.eq_iff {last : String} (h : m.EndsAt destination last) :
    last = destination ↔ m.lastMove? destination = none := by
  constructor
  · rintro rfl
    exact h.2
  · intro hnone
    rcases h.1.cases_head with heq | ⟨next, hn, -⟩
    · exact heq.symm
    · rw [hnone] at hn
      cases hn

theorem Settles.comesToRest (h : m.Settles destination) (current : String) :
    m.ComesToRest destination (lastEntered current (m.expandMove maxMoveDepth destination)) := by
  have hends := endsAt_lastEntered (not_refuse_iff_settles.2 h) current
  obtain ⟨state, hs⟩ := h.defined _ (.single destination) _ (List.mem_singleton.2 rfl)
  refine ⟨fun _ => h.acyclic, hends, ?_⟩
  rw [hends.eq_iff, lastMove?_eq_none_iff hs]
  constructor
  · exact fun hnil => ⟨state, hs, hnil⟩
  · rintro ⟨state', hs', hnil⟩
    rw [hs] at hs'
    cases hs'
    exact hnil

end Machine

/-! ## The outcomes of calls -/

section Auditing

variable {σ : Type u} {host : Host σ}

/-- A host that also keeps what became of every call. -/
def Host.audited (host : Host σ) : Host (σ × List (Except String Unit)) where
  perform action arguments h :=
    ((host.perform action arguments h.1).1,
      (host.perform action arguments h.1).2, h.2 ++ [(host.perform action arguments h.1).1])

theorem Passes.not_refuse {acts : List Act} {h h' : σ} (hp : Passes host acts h h')
    (e : RuntimeError) : .refuse e ∉ acts := by
  induction hp with
  | nil => exact List.not_mem_nil
  | enter _ ih => exact List.not_mem_cons_of_ne_of_not_mem nofun ih
  | call _ _ ih => exact List.not_mem_cons_of_ne_of_not_mem nofun ih

/-- Calls that pass are kept as such. -/
theorem Passes.audited {acts : List Act} {h h' : σ} (hp : Passes host acts h h')
    {kept : List (Except String Unit)} (hk : ∀ outcome ∈ kept, outcome = .ok ()) :
    ∃ kept', Passes host.audited acts (h, kept) (h', kept') ∧
      ∀ outcome ∈ kept', outcome = .ok () := by
  induction hp generalizing kept with
  | nil => exact ⟨kept, .nil _, hk⟩
  | enter _ ih =>
    obtain ⟨kept', hp', hk'⟩ := ih hk
    exact ⟨kept', .enter hp', hk'⟩
  | @call action arguments _ h mid _ performed _ ih =>
    have hperform : host.audited.perform action arguments (h, kept) =
        (.ok (), mid, kept ++ [.ok ()]) := by
      simp only [Host.audited, performed]
    have hkept : ∀ outcome ∈ kept ++ [.ok ()], outcome = .ok () := fun outcome ho =>
      (List.mem_append.1 ho).elim (hk outcome) List.mem_singleton.1
    obtain ⟨kept', hp', hk'⟩ := ih hkept
    exact ⟨kept', .call hperform hp', hk'⟩

/-- A stop is a move that is refused, or is kept as a failure. -/
theorem Stops.audited {act : Act} {e : RuntimeError} {h h' : σ} (hs : Stops host act h e h')
    (kept : List (Except String Unit)) :
    ∃ kept', Stops host.audited act (h, kept) e (h', kept') ∧
      (act = .refuse e ∨ ∃ cause, .error cause ∈ kept') := by
  cases hs with
  | @call action cause arguments _ h' failed =>
    have hperform : host.audited.perform action arguments (h, kept) =
        (.error cause, h', kept ++ [.error cause]) := by
      simp only [Host.audited, failed]
    exact ⟨_, .call hperform, .inr ⟨cause, by simp⟩⟩
  | refuse => exact ⟨kept, .refuse e _, .inl rfl⟩

/-- Acts pass when none of them is refused and no call fails. -/
theorem Plays.ok_iff {acts made : List Act} {r : Except RuntimeError Unit} {h h' : σ}
    (hp : Plays host acts h made r h') :
    ∃ kept, Plays host.audited acts (h, []) made r (h', kept) ∧
      (r = .ok () ↔ (∀ e, .refuse e ∉ acts) ∧ ∀ outcome ∈ kept, outcome = .ok ()) := by
  have hnil : ∀ outcome ∈ ([] : List (Except String Unit)), outcome = .ok () := nofun
  cases hp with
  | through hp =>
    obtain ⟨kept, hp', hk⟩ := hp.audited hnil
    exact ⟨kept, .through hp', iff_of_true rfl ⟨hp.not_refuse, hk⟩⟩
  | @stopped before after act e mid _ split hp hs =>
    obtain ⟨kept, hp', -⟩ := hp.audited hnil
    obtain ⟨kept', hs', hstop⟩ := hs.audited kept
    refine ⟨kept', .stopped split hp' hs', iff_of_false nofun ?_⟩
    rintro ⟨hrefuse, hk⟩
    rcases hstop with rfl | ⟨cause, hmem⟩
    · exact hrefuse e (by rw [split]; exact List.mem_append_right _ List.mem_cons_self)
    · cases hk _ hmem

end Auditing

/-! ## Moves of a compiled machine -/

section Entering

variable {σ : Type u} {registry : Registry} {m : Machine}

/-- A move from rest succeeds when the destination settles and no call fails. -/
theorem moveTo_eq_ok_iff (hm : m.WellTyped registry) (host : Host σ) (current destination : String)
    (h : σ) :
    (m.moveTo host destination ⟨⟨current, 0⟩, h⟩).1 = .ok () ↔
      m.Settles destination ∧
        ∀ outcome ∈ (m.moveTo host.audited destination ⟨⟨current, 0⟩, h, []⟩).2.host.2,
          outcome = .ok () := by
  have hplays : Realizes host 0 _ (m.moveTo host destination) := moveTo_plays hm destination
  obtain ⟨made, r, h', hp, hrun⟩ := hplays current h
  obtain ⟨kept, hp', hok⟩ := hp.ok_iff
  have hrun' : m.moveTo host.audited destination ⟨⟨current, 0⟩, h, []⟩ = (r, _) :=
    (moveTo_plays hm destination).eq_iff.2 ⟨made, _, hp', rfl⟩
  rw [hrun, hrun', ← Machine.not_refuse_iff_settles]
  exact hok

theorem comesToRest_of_moveTo (hm : m.WellTyped registry) {host : Host σ}
    {current destination : String} {h : σ} {w : World σ}
    (hok : m.moveTo host destination ⟨⟨current, 0⟩, h⟩ = (.ok (), w)) :
    m.ComesToRest destination w.inst.current := by
  have hs := ((moveTo_eq_ok_iff hm host current destination h).1 (congrArg Prod.fst hok)).1
  obtain ⟨made, h', hp, rfl⟩ := (moveTo_plays hm destination).eq_iff.1 hok
  cases hp with
  | through => exact hs.comesToRest current

theorem instantiate_eq_ok_iff_moveTo {host : Host σ} {h : σ} {inst : Instance} :
    (m.instantiate host h).1 = .ok inst ↔
      ∃ h', m.moveTo host m.entry ⟨⟨m.entry, 0⟩, h⟩ = (.ok (), ⟨inst, h'⟩) := by
  unfold Machine.instantiate
  rcases m.moveTo host m.entry ⟨⟨m.entry, 0⟩, h⟩ with ⟨_ | ⟨⟨⟩⟩, ⟨inst', h'⟩⟩
  · exact iff_of_false nofun nofun
  · constructor
    · rintro ⟨⟩
      exact ⟨h', rfl⟩
    · rintro ⟨_, ⟨⟩⟩
      rfl

end Entering

/-- A move from rest, and the creation of an instance, succeed exactly if the moves on entry that
follow come to an end among defined states, at most `maxMoveDepth` deep, and no call fails. Then the
current state is where the last moves lead. -/
theorem enters_iff_settles {compiler : Compiler} {filename : String} {file : Syntax.File}
    {m : Machine} (hc : compiler.compile filename file = .ok m) {σ : Type u} (host : Host σ)
    (h : σ) :
    (∀ current destination,
      ((m.moveTo host destination ⟨⟨current, 0⟩, h⟩).1 = .ok () ↔
        m.Settles destination ∧
          ∀ outcome ∈ (m.moveTo host.audited destination ⟨⟨current, 0⟩, h, []⟩).2.host.2,
            outcome = .ok ()) ∧
      ∀ w, m.moveTo host destination ⟨⟨current, 0⟩, h⟩ = (.ok (), w) →
        m.ComesToRest destination w.inst.current) ∧
    ((∃ inst, (m.instantiate host h).1 = .ok inst) ↔
      m.Settles m.entry ∧
        ∀ outcome ∈ (m.instantiate host.audited (h, [])).2.2, outcome = .ok ()) ∧
    ∀ inst, (m.instantiate host h).1 = .ok inst → m.ComesToRest m.entry inst.current := by
  have hm := wellTyped_of_compile hc
  refine ⟨fun current destination => ⟨moveTo_eq_ok_iff hm host current destination h,
    fun w => comesToRest_of_moveTo hm⟩, ?_, fun inst hinst => ?_⟩
  · refine Iff.trans ?_ (moveTo_eq_ok_iff hm host m.entry m.entry h)
    simp only [instantiate_eq_ok_iff_moveTo]
    constructor
    · rintro ⟨inst, h', hrun⟩
      rw [hrun]
    · intro hok
      exact ⟨_, _, Prod.ext hok rfl⟩
  · obtain ⟨h', hrun⟩ := instantiate_eq_ok_iff_moveTo.1 hinst
    exact comesToRest_of_moveTo hm hrun

namespace Doorbell

/-- A bell that never jams. -/
def quietHost : Host Unit where
  perform _ _ rung := (.ok (), rung)

/-- Ringing moves back to the idle state. -/
theorem ringing_comes_to_rest :
    compiler.compile "bell" file = .ok machine ∧ machine.Settles "Ringing" ∧
      machine.ComesToRest "Ringing" "Idle" := by
  have h := (enters_iff_settles compile_file quietHost ()).1 "Idle" "Ringing"
  exact ⟨compile_file, (h.1.1 rfl).1, h.2 _ rfl⟩

end Doorbell

end EventMachine
