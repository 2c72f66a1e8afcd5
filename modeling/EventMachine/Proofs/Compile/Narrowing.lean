import EventMachine.Proofs.Compile.Redeclaration

/-!
# Denying instead of warning

Two compilations of one file, one that warns of dropped names and one that denies to drop them, do
the same up to the first name that is dropped. There the second one fails (`Lowering.Refuses`).

1. What is put together from parts so related is so related (`Refuses.bind`, `refuses_foldlM`).
2. Only `Scope.drop` looks at the policy, so conditions, triggers, states and whole files are so
   related, one after the other (`Compiler.refuses_lower`).
3. Hence the result under the one policy gives that under the other (`Compiler.compile_deny_eq`).
-/

namespace EventMachine

/-- The error that stands in the place of a warning where narrowing is denied. -/
def Warning.refusal (w : Warning) : CompileError :=
  .semantic w.site (.narrowedEventData w.name w.condition)

namespace Lowering

variable {α β : Type}

/-- Without a warning of `p` both do the same; otherwise `q` fails with the first warning of `p`. -/
def Refuses (p q : Lowering α) : Prop :=
  ∀ ws, (p.run.run ws).2 = ws ∧ q.run.run ws = p.run.run ws ∨
    ∃ w more, (p.run.run ws).2 = ws ++ w :: more ∧ q.run.run ws = (.error w.refusal, ws)

theorem refuses_liftM (x : Except CompileError α) : Refuses (liftM x) (liftM x) :=
  fun _ => .inl ⟨rfl, rfl⟩

theorem refuses_pure (a : α) : Refuses (pure a) (pure a) :=
  refuses_liftM (.ok a)

theorem refuses_throw (e : CompileError) : Refuses (throw e : Lowering α) (throw e) :=
  refuses_liftM (.error e)

theorem run_bind_of_error {p : Lowering α} {f : α → Lowering β} {ws ws' : List Warning}
    {e : CompileError} (h : p.run.run ws = (.error e, ws')) :
    (p >>= f).run.run ws = (.error e, ws') := by
  rw [ExceptT.run_bind, StateT.run_bind, h]
  rfl

theorem run_bind_of_ok {p : Lowering α} {f : α → Lowering β} {ws ws' : List Warning} {a : α}
    (h : p.run.run ws = (.ok a, ws')) : (p >>= f).run.run ws = (f a).run.run ws' := by
  rw [ExceptT.run_bind, StateT.run_bind, h]
  rfl

/-- The first warning of a sequence is that of its first part, if that part has any. -/
theorem Refuses.bind {p q : Lowering α} {f g : α → Lowering β} (h : Refuses p q)
    (hf : ∀ a, Refuses (f a) (g a)) : Refuses (p >>= f) (q >>= g) := by
  intro ws
  cases hp : p.run.run ws with
  | mk result mid =>
    have h := h ws
    rw [hp] at h
    rcases h with ⟨rfl, hq⟩ | ⟨w, more, rfl, hq⟩
    · cases result with
      | error e =>
        rw [run_bind_of_error hp, run_bind_of_error hq]
        exact .inl ⟨rfl, rfl⟩
      | ok a =>
        rw [run_bind_of_ok hp, run_bind_of_ok hq]
        exact hf a _
    · right
      refine ⟨w, ?_⟩
      rw [run_bind_of_error hq]
      cases result with
      | error e =>
        rw [run_bind_of_error hp]
        exact ⟨more, rfl, rfl⟩
      | ok a =>
        rw [run_bind_of_ok hp]
        -- what `f a` adds comes after the warnings of `p`
        rcases hf a (ws ++ w :: more) with ⟨hmore, -⟩ | ⟨w', more', hmore, -⟩
        · exact ⟨more, hmore, rfl⟩
        · exact ⟨more ++ w' :: more', by simp [hmore], rfl⟩

theorem refuses_foldlM {f g : β → α → Lowering β} (h : ∀ b a, Refuses (f b a) (g b a))
    (as : List α) (b : β) : Refuses (as.foldlM f b) (as.foldlM g b) := by
  induction as generalizing b with
  | nil => exact refuses_pure b
  | cons a as ih =>
    rw [List.foldlM_cons, List.foldlM_cons]
    exact (h b a).bind ih

end Lowering

/-! ## One part of a file after the other -/

namespace Compile.Scope

open Lowering

/-- The scope with another policy. -/
def under (scope : Scope) (policy : NarrowingPolicy) : Scope := { scope with narrowing := policy }

variable (scope : Scope) (context : Context)

theorem refuses_drop (site : Site) (index : Nat) (visible : NameMap ValueType) (name : String) :
    Refuses ((scope.under .warn).drop site index visible name)
      ((scope.under .deny).drop site index visible name) :=
  fun _ => .inr ⟨⟨site, name, index⟩, [], rfl, rfl⟩

theorem refuses_condition (index : Nat) (visible : NameMap ValueType) (c : Syntax.Condition) :
    Refuses ((scope.under .warn).condition context index visible c)
      ((scope.under .deny).condition context index visible c) := by
  unfold condition
  dsimp only [under]
  cases scope.registry.triggers.get? c.name with
  | none => exact refuses_throw _
  | some fields =>
    exact (refuses_liftM _).bind fun found =>
      (refuses_foldlM (scope.refuses_drop _ index) _ _).bind fun _ => refuses_pure _

theorem refuses_conditions (index : Nat) (visible : NameMap ValueType)
    (cs : List Syntax.Condition) :
    Refuses ((scope.under .warn).conditions context index visible cs)
      ((scope.under .deny).conditions context index visible cs) := by
  induction cs generalizing index visible with
  | nil => exact refuses_pure _
  | cons c cs ih =>
    exact (scope.refuses_condition context index visible c).bind fun first =>
      (ih (index + 1) first.2).bind fun _ => refuses_pure _

theorem refuses_trigger (state : String) (index : Nat) (t : Syntax.Trigger) :
    Refuses ((scope.under .warn).trigger state index t)
      ((scope.under .deny).trigger state index t) :=
  (scope.refuses_conditions _ 0 .empty t.conditions).bind fun _ =>
    (refuses_liftM _).bind fun _ => refuses_pure _

theorem refuses_triggers (state : String) (index : Nat) (ts : List Syntax.Trigger) :
    Refuses ((scope.under .warn).triggers state index ts)
      ((scope.under .deny).triggers state index ts) := by
  induction ts generalizing index with
  | nil => exact refuses_pure _
  | cons t ts ih =>
    exact (scope.refuses_trigger state index t).bind fun _ =>
      (ih (index + 1)).bind fun _ => refuses_pure _

theorem refuses_state (known : List Machine.State) (s : Syntax.State) :
    Refuses ((scope.under .warn).state known s) ((scope.under .deny).state known s) := by
  unfold state
  split
  · exact refuses_throw _
  · exact (refuses_liftM _).bind fun _ =>
      (scope.refuses_triggers s.name 0 s.triggers).bind fun _ => refuses_pure _

end Compile.Scope

namespace Compiler

open Lowering Compile

/-- The compiler with another policy. -/
def under (compiler : Compiler) (policy : NarrowingPolicy) : Compiler :=
  { compiler with narrowing := policy }

variable (compiler : Compiler) (filename : String) (file : Syntax.File)

theorem refuses_entry (progress : Progress) (e : Syntax.Entry) :
    Refuses (Compile.entry (compiler.under .warn) filename progress e)
      (Compile.entry (compiler.under .deny) filename progress e) := by
  cases e with
  | assign a => exact (refuses_liftM _).bind fun _ => refuses_pure _
  | state s =>
    let scope : Scope := ⟨compiler.registry, compiler.narrowing, filename, progress.constants⟩
    exact (scope.refuses_state progress.states s).bind fun _ => refuses_pure _

theorem refuses_lower :
    Refuses ((compiler.under .warn).lower filename file)
      ((compiler.under .deny).lower filename file) :=
  refuses_foldlM (compiler.refuses_entry filename) _ _

/-! ## Whole files -/

/-- The names that are dropped before the compilation ends, well or not, where dropping them is
allowed. -/
def drops : List Warning := (((compiler.under .warn).lower filename file).run.run []).2

/-- A machine carries the warnings of its whole file. -/
theorem warnings_eq_drops {m : Machine}
    (h : (compiler.under .warn).compile filename file = .ok m) :
    m.warnings = compiler.drops filename file := by
  unfold compile at h
  unfold drops
  split at h
  · cases h
  · next hrun =>
    rw [hrun]
    split at h
    · cases h
    · cases h
      rfl

theorem compile_deny_eq :
    (compiler.under .deny).compile filename file =
      match compiler.drops filename file with
      | [] => (compiler.under .warn).compile filename file
      | w :: _ => .error w.refusal := by
  rcases compiler.refuses_lower filename file [] with ⟨hdrops, hrun⟩ | ⟨w, more, hdrops, hrun⟩
  · have hnil : compiler.drops filename file = [] := hdrops
    rw [hnil]
    unfold compile
    rw [hrun]
  · have hcons : compiler.drops filename file = w :: more := hdrops
    rw [hcons]
    unfold compile
    rw [hrun]

/-- To deny narrowing is to warn of it and to want no warnings: the same machines come out, and a
file that gives a warning is refused at the first of them, also if it has an error after it. -/
theorem deny_iff_warns_of_nothing :
    (∀ m, (compiler.under .deny).compile filename file = .ok m ↔
      (compiler.under .warn).compile filename file = .ok m ∧ m.warnings = []) ∧
    (∀ m w ws, (compiler.under .warn).compile filename file = .ok m → m.warnings = w :: ws →
      (compiler.under .deny).compile filename file =
        .error (.semantic w.site (.narrowedEventData w.name w.condition))) ∧
    ∀ e, (compiler.under .warn).compile filename file = .error e →
      compiler.drops filename file = [] ∧
          (compiler.under .deny).compile filename file = .error e ∨
        ∃ w ws, compiler.drops filename file = w :: ws ∧
          (compiler.under .deny).compile filename file =
            .error (.semantic w.site (.narrowedEventData w.name w.condition)) := by
  rw [compile_deny_eq]
  refine ⟨fun m => ?_, fun m w ws hm hw => ?_, fun e he => ?_⟩
  · cases hdrops : compiler.drops filename file with
    | nil =>
      exact ⟨fun h => ⟨h, (compiler.warnings_eq_drops filename file h).trans hdrops⟩, And.left⟩
    | cons w ws =>
      refine iff_of_false nofun ?_
      rintro ⟨h, hnil⟩
      rw [compiler.warnings_eq_drops filename file h, hdrops] at hnil
      cases hnil
  · rw [← compiler.warnings_eq_drops filename file hm, hw]
    rfl
  · cases compiler.drops filename file with
    | nil => exact .inl ⟨rfl, he⟩
    | cons w ws => exact .inr ⟨w, ws, rfl, rfl⟩

end Compiler

namespace Keypad

/-- The keypad without the trigger that drops a name. -/
def steady : Syntax.File := ⟨[.state { state with triggers := [repeated] }]⟩

def ring : Syntax.Call := ⟨"ring", [], ⟨4, 13, 4⟩⟩

/-- The keypad and a state that calls an action that there is not. -/
def broken : Syntax.File := ⟨[.state state, .state ⟨"Shut", ⟨4, 6, 4⟩, [.call ring], []⟩]⟩

def unspecifiedRing : CompileError :=
  .semantic ⟨"keypad", ⟨4, 13, 4⟩, .init "Shut"⟩ (.unspecifiedAction "ring")

def droppedCode : CompileError :=
  .semantic ⟨"keypad", ⟨1, 27, 4⟩, .trigger "Open" 0⟩ (.narrowedEventData "code" 1)

/-- Where nothing is dropped the policy does not matter; where the code is, that is the error, also
before an error that is found later. -/
theorem denies_dropped_code :
    (∃ m, (compiler.under .warn).compile "keypad" steady = .ok m ∧ m.warnings = [] ∧
      (compiler.under .deny).compile "keypad" steady = .ok m) ∧
    ((compiler.under .warn).compile "keypad" file = .ok machine ∧ machine.warnings ≠ [] ∧
      (compiler.under .deny).compile "keypad" file = .error droppedCode) ∧
    ((compiler.under .warn).compile "keypad" broken = .error unspecifiedRing ∧
      (compiler.under .deny).compile "keypad" broken = .error droppedCode) := by
  refine ⟨⟨_, rfl, rfl, ?_⟩, ⟨compile_file, List.cons_ne_nil _ _, ?_⟩, rfl, ?_⟩
  · exact ((compiler.deny_iff_warns_of_nothing "keypad" steady).1 _).2 ⟨rfl, rfl⟩
  · exact (compiler.deny_iff_warns_of_nothing "keypad" file).2.1 machine _ _ compile_file rfl
  · rcases (compiler.deny_iff_warns_of_nothing "keypad" broken).2.2 unspecifiedRing rfl with
      ⟨hnil, -⟩ | ⟨w, ws, hcons, herror⟩
    · cases hnil
    · cases hcons
      exact herror

end Keypad

end EventMachine
