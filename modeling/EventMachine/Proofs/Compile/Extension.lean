import EventMachine.Proofs.Compile.Constraints
import EventMachine.Proofs.Compile.Narrowing

/-!
# Files that grow

Entries are taken in order, so what the first entries of a file compile to does not depend on those
that follow: neither the error that ends the compilation, nor the states, the warnings and the state
to begin in (`entries_compile_in_order`). The states of a machine are those of its file, in order.

1. The entries of a longer file are compiled after those of the shorter one (`lower_append`), and so
   they are not reached after an error (`compile_append_eq_error`).
2. What has been gathered before stays as it is (`exists_extends_of_compile_append`).
3. A machine has the shape of its file (`mirrors_of_compile`).
-/

namespace EventMachine

open Compile
open Syntax (Entry)

namespace Machine

/-- The machine `m'` has all that `m` has, the states and the warnings in the same order and before
its own, and begins in the same state. -/
structure Extends (m' m : Machine) : Prop where
  entry : m'.entry = m.entry
  order : m.stateNames <+: m'.stateNames
  warnings : m.warnings <+: m'.warnings
  states : ∀ name state, m.state? name = some state → m'.state? name = some state

/-- The state has as many steps on entry, triggers, conditions and steps of triggers as were
written. -/
structure State.SameSizes (state : State) (s : Syntax.State) : Prop where
  init : state.init.length = s.init.length
  triggers : List.Forall₂ (fun (t : Syntax.Trigger) (trigger : Trigger) =>
    trigger.conditions.length = t.conditions.length ∧ trigger.actions.length = t.actions.length)
    s.triggers state.triggers

/-- The states of the machine are those of the file in their order, and their names are distinct.
The first of them is the one to begin in. -/
structure Mirrors (m : Machine) (file : Syntax.File) : Prop where
  order : m.stateNames = file.states.map (·.name)
  distinct : m.stateNames.Nodup
  entry : m.stateNames.head? = some m.entry
  defined : ∀ name, (∃ state, m.state? name = some state) ↔ name ∈ m.stateNames
  sizes : ∀ s ∈ file.states, ∃ state, m.state? s.name = some state ∧ state.SameSizes s

end Machine

namespace Compiler

variable {compiler : Compiler} {filename : String} {pre post : List Entry}

/-! ## Entries after others -/

theorem lower_append : compiler.lower filename ⟨pre ++ post⟩ =
    compiler.lower filename ⟨pre⟩ >>= fun progress =>
      post.foldlM (Compile.entry compiler filename) progress :=
  List.foldlM_append

/-- A compilation that gives a machine has gathered a state. -/
theorem compile_eq_ok_iff_gives {file : Syntax.File} {m : Machine} :
    compiler.compile filename file = .ok m ↔
      ∃ constants first states ws,
        (compiler.lower filename file).Gives [] ⟨constants, first :: states⟩ ws ∧
          m = ⟨constants, first.name, first :: states, ws, none⟩ := by
  unfold compile Lowering.Gives
  constructor
  · intro h
    split at h
    · cases h
    · next progress ws hrun =>
      obtain ⟨constants, _ | ⟨first, states⟩⟩ := progress
      · cases h
      · cases h
        exact ⟨constants, first, states, ws, hrun, rfl⟩
  · rintro ⟨constants, first, states, ws, hrun, rfl⟩
    rw [hrun]

/-- What is wrong with a file is found in its entries, unless there is no state. -/
theorem exists_lower_of_compile_eq_error {file : Syntax.File} {e : CompileError}
    (h : compiler.compile filename file = .error e) (he : e ≠ .emptyMachine filename) :
    ∃ ws, (compiler.lower filename file).run.run [] = (.error e, ws) := by
  unfold compile at h
  split at h
  · next ws hrun =>
    cases h
    exact ⟨ws, hrun⟩
  · split at h
    · cases h
      exact (he rfl).elim
    · cases h

/-- No entry is reached after an error. -/
theorem compile_append_eq_error {e : CompileError}
    (h : compiler.compile filename ⟨pre⟩ = .error e) (he : e ≠ .emptyMachine filename) :
    compiler.compile filename ⟨pre ++ post⟩ = .error e := by
  obtain ⟨ws, hrun⟩ := exists_lower_of_compile_eq_error h he
  unfold compile
  rw [lower_append, Lowering.run_bind_of_error hrun]

/-- Compiling more entries adds to what has been gathered and changes nothing of it. -/
theorem exists_extends_of_compile_append {m' : Machine}
    (h : compiler.compile filename ⟨pre ++ post⟩ = .ok m')
    (hpre : Syntax.File.states ⟨pre⟩ ≠ []) :
    ∃ m, compiler.compile filename ⟨pre⟩ = .ok m ∧ m'.Extends m := by
  obtain ⟨constants', first', states', ws', hgives, rfl⟩ := compile_eq_ok_iff_gives.1 h
  rw [lower_append, Lowering.gives_bind] at hgives
  obtain ⟨⟨constants, states⟩, ws, hmid, hrest⟩ := hgives
  obtain ⟨-, -, -, more, -, heq, rfl⟩ := foldlM_entry_gives_iff.1 hrest
  -- the entries before have a state, which comes first
  have hnames : states.map (·.name) = stateNames pre := by
    obtain ⟨-, -, -, lowered, hlowered, hprogress, -⟩ := foldlM_entry_gives_iff.1 hmid
    cases hprogress
    rw [List.nil_append, map_name_of_lowersState hlowered, map_name_scopedStates]
  cases states with
  | nil => exact (hpre (List.map_eq_nil_iff.1 hnames.symm)).elim
  | cons first states =>
    cases heq
    refine ⟨_, compile_eq_ok_iff_gives.2 ⟨_, first', states, ws, hmid, rfl⟩, rfl, ?_, ?_, ?_⟩
    · show (first' :: states).map (·.name) <+: (first' :: states ++ more).map (·.name)
      rw [List.map_append]
      exact List.prefix_append _ _
    · exact List.prefix_append _ _
    · intro name state hs
      show (first' :: states ++ more).find? (·.name = name) = some state
      rw [List.find?_append]
      exact Option.or_eq_some_iff.2 (.inl hs)

/-! ## Machines and their files -/

theorem mirrors_of_compile {file : Syntax.File} {m : Machine}
    (h : compiler.compile filename file = .ok m) : m.Mirrors file := by
  have hlowers := compile_eq_ok_iff.1 h
  have horder : m.stateNames = file.states.map (·.name) :=
    (map_name_of_lowersState hlowers.states).trans (map_name_scopedStates _ _)
  refine ⟨horder, horder ▸ hlowers.distinct, hlowers.entry, fun name => ?_, fun s hs => ?_⟩
  · rw [← Option.isSome_iff_exists]
    simp [Machine.state?, Machine.stateNames]
  · obtain ⟨before, after, split⟩ := mem_states.1 hs
    obtain ⟨state, hstate, hs⟩ := exists_lowersState_of_compile h split
    refine ⟨state, hstate, hs.init.length_eq.symm, hs.triggers.imp fun t trigger ht => ?_⟩
    rw [ht.conditions]
    exact ⟨List.length_map _, ht.actions.length_eq.symm⟩

end Compiler

/-- The entries of a file compile in order, and later ones never affect earlier ones: an error among
the first entries stays the error, and what they compile to stays as it is. A machine has the
states of its file, in order and in their sizes. -/
theorem entries_compile_in_order (compiler : Compiler) (filename : String) :
    (∀ (pre post : List Entry) e, compiler.compile filename ⟨pre⟩ = .error e →
      e ≠ .emptyMachine filename → compiler.compile filename ⟨pre ++ post⟩ = .error e) ∧
    (∀ (pre post : List Entry) m', compiler.compile filename ⟨pre ++ post⟩ = .ok m' →
      Syntax.File.states ⟨pre⟩ ≠ [] →
        ∃ m, compiler.compile filename ⟨pre⟩ = .ok m ∧ m'.Extends m) ∧
    ∀ file m, compiler.compile filename file = .ok m → m.Mirrors file :=
  ⟨fun _ _ _ h he => Compiler.compile_append_eq_error h he,
    fun _ _ _ h hpre => Compiler.exists_extends_of_compile_append h hpre,
    fun _ _ h => Compiler.mirrors_of_compile h⟩

/-! ## A lamp -/

namespace Lamp

def compiler : Compiler where
  registry :=
    { triggers := .ofList [("Turn", .ofDeclarations [("level", .int)])]
      actions := .empty }
  narrowing := .warn
  constants := .empty

def one : Syntax.Assignment := ⟨"limit", .int 1, ⟨1, 0, 5⟩⟩

def two : Syntax.Assignment := ⟨"limit", .int 2, ⟨3, 0, 5⟩⟩

/-- `name { on Turn(level = limit) -> move destination; }` -/
def state (name destination : String) (line : Nat) : Syntax.State :=
  ⟨name, ⟨line, 6, name.length⟩, [],
    [⟨[⟨"Turn", [⟨"level", some (.ref "limit"), ⟨line, 21, 5⟩⟩], ⟨line, 16, 4⟩⟩],
      [.move destination ⟨line, 44, destination.length⟩], ⟨line, 13, 2⟩⟩]⟩

/-- The first lines of the file, with a move to a state that comes later. -/
def pre : List Entry := [.assign one, .state (state "Off" "On" 2)]

/-- The other lines, which assign the constant again. -/
def post : List Entry := [.assign two, .state (state "On" "Off" 4)]

def machine : Machine where
  constants := .ofList [("limit", .int 2)]
  entry := "Off"
  states :=
    [{ name := "Off"
       init := []
       triggers :=
         [{ conditions := [⟨"Turn", .ofList [("level", .int 1)]⟩]
            eventData := .ofList [("level", .int)]
            actions := [.move "On"] }] },
     { name := "On"
       init := []
       triggers :=
         [{ conditions := [⟨"Turn", .ofList [("level", .int 2)]⟩]
            eventData := .ofList [("level", .int)]
            actions := [.move "Off"] }] }]
  warnings := []
  checksum := none

theorem compile_entries : compiler.compile "lamp" ⟨pre ++ post⟩ = .ok machine := rfl

def undefinedLimit : CompileError :=
  .semantic ⟨"lamp", ⟨2, 21, 5⟩, .trigger "Off" 0⟩ (.undefinedVariable "limit")

/-- The first state keeps the first limit; without that one, the later one does not help. -/
theorem later_limit_is_late :
    (∃ m, compiler.compile "lamp" ⟨pre⟩ = .ok m ∧ machine.Extends m) ∧
      machine.Mirrors ⟨pre ++ post⟩ ∧
      compiler.compile "lamp" ⟨[.state (state "Off" "On" 2)]⟩ = .error undefinedLimit ∧
      compiler.compile "lamp" ⟨[.state (state "Off" "On" 2)] ++ post⟩ = .error undefinedLimit := by
  obtain ⟨herror, hextends, hmirrors⟩ := entries_compile_in_order compiler "lamp"
  refine ⟨hextends pre post machine compile_entries (by decide),
    hmirrors _ machine compile_entries, rfl, ?_⟩
  exact herror _ post undefinedLimit rfl (by decide)

end Lamp

end EventMachine
