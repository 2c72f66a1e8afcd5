import EventMachine.Proofs.Compile.Conditions

/-!
# Files that compile

`Compiler.Lowers` says what a machine has to do with the file it was compiled from: every assignment
has a value, the names of the states are distinct, and every state is lowered with the constants
that stand before it. `Compiler.compile` succeeds with exactly the machine that does so
(`compile_eq_ok_iff`).
-/

namespace EventMachine

open Syntax (Assignment Entry)

namespace Compile

/-! ## States -/

/-- The state compiles to the other one. Its statements on entry see no event data. -/
structure Scope.LowersState (scope : Scope) (s : Syntax.State) (lowered : Machine.State) :
    Prop where
  name : lowered.name = s.name
  init : List.Forall₂ (scope.LowersStatement .empty) s.init lowered.init
  triggers : List.Forall₂ scope.LowersTrigger s.triggers lowered.triggers

/-- The warnings of a state. -/
def Scope.stateWarnings (scope : Scope) (s : Syntax.State) : List Warning :=
  scope.triggersWarnings s.name 0 s.triggers

theorem Scope.state_gives_iff {scope : Scope} {ws ws' : List Warning} {known : List Machine.State}
    {s : Syntax.State} {lowered : Machine.State} :
    (scope.state known s).Gives ws lowered ws' ↔
      s.name ∉ known.map (·.name) ∧ scope.LowersState s lowered ∧
        ws' = ws ++ scope.stateWarnings s := by
  unfold Scope.state Scope.stateWarnings
  have hknown : known.any (·.name = s.name) = true ↔ s.name ∈ known.map (·.name) := by
    simp
  by_cases hk : known.any (·.name = s.name) = true
  · rw [if_pos hk]
    constructor
    · intro h
      exact (Lowering.gives_throw h).elim
    · rintro ⟨h, -⟩
      exact (h (hknown.1 hk)).elim
  · rw [if_neg hk]
    simp only [Lowering.gives_bind, Lowering.gives_liftM, Lowering.gives_pure,
      Scope.mapM_statement_eq_ok_iff, Scope.triggers_gives_iff]
    constructor
    · rintro ⟨_, _, ⟨hinit, rfl⟩, _, _, ⟨htriggers, rfl⟩, rfl, rfl⟩
      exact ⟨fun h => hk (hknown.2 h), ⟨rfl, hinit, htriggers⟩, rfl⟩
    · rintro ⟨-, ⟨hname, hinit, htriggers⟩, rfl⟩
      obtain ⟨name, init, triggers⟩ := lowered
      subst hname
      exact ⟨_, _, ⟨hinit, rfl⟩, _, _, ⟨htriggers, rfl⟩, rfl, rfl⟩

/-! ## Constants -/

/-- The constants after an assignment. One without a value changes nothing. -/
def assign (constants : NameMap Value) (a : Assignment) : NameMap Value :=
  match a.value.value? constants with
  | some value => constants.insert a.name value
  | none => constants

/-- The constants after entries. -/
def constantsAfter : NameMap Value → List Entry → NameMap Value
  | constants, [] => constants
  | constants, .assign a :: entries => constantsAfter (assign constants a) entries
  | constants, .state _ :: entries => constantsAfter constants entries

/-- The states of the entries, each with the constants before it. -/
def scopedStates : NameMap Value → List Entry → List (NameMap Value × Syntax.State)
  | _, [] => []
  | constants, .assign a :: entries => scopedStates (assign constants a) entries
  | constants, .state s :: entries => (constants, s) :: scopedStates constants entries

/-- Every assignment has a value by the constants before it. -/
def Evaluable : NameMap Value → List Entry → Prop
  | _, [] => True
  | constants, .assign a :: entries =>
    (∃ value, a.value.value? constants = some value) ∧ Evaluable (assign constants a) entries
  | constants, .state _ :: entries => Evaluable constants entries

/-- The names of the states that entries define. -/
def stateNames (entries : List Entry) : List String :=
  (Syntax.File.states ⟨entries⟩).map (·.name)

@[simp] theorem stateNames_nil : stateNames [] = [] := rfl

@[simp] theorem stateNames_assign (a : Assignment) (entries : List Entry) :
    stateNames (.assign a :: entries) = stateNames entries := rfl

@[simp] theorem stateNames_state (s : Syntax.State) (entries : List Entry) :
    stateNames (.state s :: entries) = s.name :: stateNames entries := rfl

theorem map_name_scopedStates (constants : NameMap Value) (entries : List Entry) :
    (scopedStates constants entries).map (·.2.name) = stateNames entries := by
  induction entries generalizing constants with
  | nil => rfl
  | cons e entries ih =>
    cases e with
    | assign a => exact ih _
    | state s =>
      unfold scopedStates
      rw [List.map_cons, ih, stateNames_state]

theorem map_snd_scopedStates (constants : NameMap Value) (entries : List Entry) :
    (scopedStates constants entries).map (·.2) = Syntax.File.states ⟨entries⟩ := by
  induction entries generalizing constants with
  | nil => rfl
  | cons e entries ih =>
    cases e with
    | assign a => exact ih _
    | state s => exact congrArg (s :: ·) (ih constants)

end Compile

open Compile

/-- What the compiler checks with, where the given constants are known. -/
def Compiler.scope (compiler : Compiler) (filename : String) (constants : NameMap Value) : Scope :=
  ⟨compiler.registry, compiler.narrowing, filename, constants⟩

namespace Compile

variable {compiler : Compiler} {filename : String} {ws ws' : List Warning}

theorem map_name_of_lowersState {ds : List (NameMap Value × Syntax.State)}
    {lowered : List Machine.State}
    (h : List.Forall₂ (fun d s => (compiler.scope filename d.1).LowersState d.2 s) ds lowered) :
    lowered.map (·.name) = ds.map (·.2.name) := by
  induction h with
  | nil => rfl
  | cons hs _ ih => rw [List.map_cons, List.map_cons, ih, hs.name]

/-! ## Entries -/

theorem entry_assign_gives_iff {progress progress' : Progress} {a : Assignment} :
    (entry compiler filename progress (.assign a)).Gives ws progress' ws' ↔
      (∃ value, a.value.value? progress.constants = some value) ∧
        progress' = ⟨assign progress.constants a, progress.states⟩ ∧ ws' = ws := by
  unfold entry assign
  simp only [Lowering.gives_bind, Lowering.gives_liftM, Lowering.gives_pure, Scope.eval_eq_ok_iff]
  constructor
  · rintro ⟨value, _, ⟨hv, rfl⟩, rfl, rfl⟩
    exact ⟨⟨value, hv⟩, by rw [hv], rfl⟩
  · rintro ⟨⟨value, hv⟩, rfl, rfl⟩
    exact ⟨value, _, ⟨hv, rfl⟩, by rw [hv], rfl⟩

theorem entry_state_gives_iff {progress progress' : Progress} {s : Syntax.State} :
    (entry compiler filename progress (.state s)).Gives ws progress' ws' ↔
      s.name ∉ progress.states.map (·.name) ∧
        ∃ lowered, (compiler.scope filename progress.constants).LowersState s lowered ∧
          progress' = ⟨progress.constants, progress.states ++ [lowered]⟩ ∧
          ws' = ws ++ (compiler.scope filename progress.constants).stateWarnings s := by
  unfold entry
  simp only [Lowering.gives_bind, Lowering.gives_pure, Scope.state_gives_iff]
  constructor
  · rintro ⟨lowered, _, ⟨hnew, hs, rfl⟩, rfl, rfl⟩
    exact ⟨hnew, lowered, hs, rfl, rfl⟩
  · rintro ⟨hnew, lowered, hs, rfl, rfl⟩
    exact ⟨lowered, _, ⟨hnew, hs, rfl⟩, rfl, rfl⟩

/-- Entries compile if every assignment has a value, the names of their states are new and distinct,
and every state compiles with the constants before it. -/
theorem foldlM_entry_gives_iff {entries : List Entry} {progress progress' : Progress} :
    (entries.foldlM (entry compiler filename) progress).Gives ws progress' ws' ↔
      Evaluable progress.constants entries ∧ (stateNames entries).Nodup ∧
        (∀ name ∈ stateNames entries, name ∉ progress.states.map (·.name)) ∧
        ∃ lowered,
          List.Forall₂ (fun d s => (compiler.scope filename d.1).LowersState d.2 s)
            (scopedStates progress.constants entries) lowered ∧
          progress' = ⟨constantsAfter progress.constants entries, progress.states ++ lowered⟩ ∧
          ws' = ws ++ (scopedStates progress.constants entries).flatMap fun d =>
            (compiler.scope filename d.1).stateWarnings d.2 := by
  induction entries generalizing progress ws with
  | nil =>
    rw [List.foldlM_nil, Lowering.gives_pure]
    constructor
    · rintro ⟨rfl, rfl⟩
      exact ⟨trivial, .nil, by simp, [], .nil, by simp [constantsAfter], by simp [scopedStates]⟩
    · rintro ⟨-, -, -, lowered, _ | _, rfl, rfl⟩
      exact ⟨by simp [constantsAfter], by simp [scopedStates]⟩
  | cons e entries ih =>
    rw [List.foldlM_cons, Lowering.gives_bind]
    cases e with
    | assign a =>
      simp only [entry_assign_gives_iff, ih, Evaluable, stateNames_assign, scopedStates,
        constantsAfter]
      constructor
      · rintro ⟨_, _, ⟨hv, rfl, rfl⟩, heval, hnodup, hnew, lowered, hlowered, rfl, rfl⟩
        exact ⟨⟨hv, heval⟩, hnodup, hnew, lowered, hlowered, rfl, rfl⟩
      · rintro ⟨⟨hv, heval⟩, hnodup, hnew, lowered, hlowered, rfl, rfl⟩
        exact ⟨_, _, ⟨hv, rfl, rfl⟩, heval, hnodup, hnew, lowered, hlowered, rfl, rfl⟩
    | state s =>
      simp only [entry_state_gives_iff, ih, Evaluable, stateNames_state, scopedStates,
        constantsAfter, List.nodup_cons, List.forall_mem_cons]
      constructor
      · rintro ⟨_, _, ⟨hs, d, hd, rfl, rfl⟩, heval, hnodup, hnew, lowered, hlowered, rfl, rfl⟩
        rw [List.map_append] at hnew
        refine ⟨heval, ⟨fun hmem => ?_, hnodup⟩, ⟨hs, fun name hn hmem => ?_⟩, d :: lowered,
          .cons hd hlowered, by simp, by simp⟩
        · exact hnew _ hmem (List.mem_append_right _ (by simp [hd.name]))
        · exact hnew _ hn (List.mem_append_left _ hmem)
      · rintro ⟨heval, ⟨hfresh, hnodup⟩, ⟨hs, hnew⟩, _, _ | ⟨hd, hlowered⟩, rfl, rfl⟩
        refine ⟨_, _, ⟨hs, _, hd, rfl, rfl⟩, heval, hnodup, fun name hn hmem => ?_, _, hlowered,
          by simp, by simp⟩
        rw [List.map_append, List.mem_append] at hmem
        rcases hmem with hmem | hmem
        · exact hnew name hn hmem
        · rw [List.map_singleton, List.mem_singleton, hd.name] at hmem
          exact hfresh (hmem ▸ hn)

end Compile

/-! ## Files -/

/-- The machine is what the file compiles to. -/
structure Compiler.Lowers (compiler : Compiler) (filename : String) (file : Syntax.File)
    (m : Machine) : Prop where
  evaluable : Evaluable compiler.constants file.entries
  distinct : (stateNames file.entries).Nodup
  states : List.Forall₂ (fun d s => (compiler.scope filename d.1).LowersState d.2 s)
    (scopedStates compiler.constants file.entries) m.states
  entry : (m.states.map (·.name)).head? = some m.entry
  constants : m.constants = constantsAfter compiler.constants file.entries
  warnings : m.warnings = (scopedStates compiler.constants file.entries).flatMap fun d =>
    (compiler.scope filename d.1).stateWarnings d.2
  checksum : m.checksum = none

/-- Compiling succeeds with exactly the machine that the file is lowered to. -/
theorem compile_eq_ok_iff {compiler : Compiler} {filename : String} {file : Syntax.File}
    {m : Machine} : compiler.compile filename file = .ok m ↔ compiler.Lowers filename file m := by
  have hlower (progress : Progress) (ws : List Warning) :
      (compiler.lower filename file).run.run [] = (.ok progress, ws) ↔ _ :=
    foldlM_entry_gives_iff
  unfold Compiler.compile
  constructor
  · intro h
    split at h
    · cases h
    · next progress ws hrun =>
      obtain ⟨heval, hnodup, -, lowered, hlowered, rfl, rfl⟩ := (hlower progress ws).1 hrun
      cases lowered with
      | nil => cases h
      | cons first lowered =>
        cases h
        exact ⟨heval, hnodup, hlowered, rfl, rfl, rfl, rfl⟩
  · rintro ⟨heval, hnodup, hlowered, hentry, hconstants, hwarnings, hchecksum⟩
    obtain ⟨constants, entry, states, warnings, checksum⟩ := m
    subst hconstants hwarnings hchecksum
    rw [(hlower ⟨_, states⟩ _).2 ⟨heval, hnodup, by simp, states, hlowered, rfl, rfl⟩]
    cases states with
    | nil => cases hentry
    | cons first states =>
      cases hentry
      rfl

end EventMachine
