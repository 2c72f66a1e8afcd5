import EventMachine.Proofs.Compile.WellFormed

/-!
# Names that several conditions declare

What a condition declares is compared with what is visible before it, and that is what the
condition just before it has left. So a name has one type as long as it is kept, from condition to
condition (`Scope.Follows.declares`, `Scope.declares_of_isChain`): the conditions that declare it
agree if those between them mention it too, and where narrowing is denied they always do
(`exists_type_of_kept`).

A name that was dropped may come back with another type (`Keypad.returns_with_another_type`).
-/

namespace EventMachine

namespace Compile

variable {scope : Scope} {b c : Syntax.Condition} {name : String} {type : ValueType}

/-- A name that a condition keeps has the type that it had before. -/
theorem Scope.Follows.declares (h : scope.Follows (scope.eventData b) c)
    (hb : Declares scope.registry b name type) (hc : scope.narrowing = .deny ∨ name ∈ c.names) :
    Declares scope.registry c name type := by
  obtain ⟨hagree, hkept⟩ := h name type (get?_eventData_eq_some_iff.2 hb)
  have hmention : name ∈ c.names := hc.elim hkept id
  exact ⟨hmention, Option.bind_eq_some_iff.1 (hagree hmention)⟩

/-- By induction on the conditions in between, each of which keeps the name. -/
theorem Scope.declares_of_isChain {between : List Syntax.Condition}
    (h : (b :: (between ++ [c])).IsChain fun b c => scope.Follows (scope.eventData b) c)
    (hkept : ∀ d ∈ between, scope.narrowing = .deny ∨ name ∈ d.names) (hc : name ∈ c.names)
    (hb : Declares scope.registry b name type) : Declares scope.registry c name type := by
  induction between generalizing b with
  | nil =>
    obtain ⟨hfollows, -⟩ := List.isChain_cons_cons.1 h
    exact hfollows.declares hb (.inr hc)
  | cons d between ih =>
    obtain ⟨hfollows, hrest⟩ := List.isChain_cons_cons.1 h
    rw [List.forall_mem_cons] at hkept
    exact ih hrest hkept.2 (hfollows.declares hb hkept.1)

/-- The triggers of a file that compiles are lowered, each with the constants before its state. -/
theorem exists_lowersTrigger_of_compile {compiler : Compiler} {filename : String}
    {file : Syntax.File} {m : Machine} (h : compiler.compile filename file = .ok m)
    {s : Syntax.State} (hs : s ∈ file.states) {t : Syntax.Trigger} (ht : t ∈ s.triggers) :
    ∃ constants lowered, (compiler.scope filename constants).LowersTrigger t lowered := by
  obtain ⟨before, after, split⟩ := mem_states.1 hs
  have hd : (constantsAfter compiler.constants before, s) ∈
      scopedStates compiler.constants file.entries :=
    mem_scopedStates.2 ⟨before, after, split, rfl⟩
  obtain ⟨state, hstate⟩ := exists_forall₂_iff.1 ⟨_, (compile_eq_ok_iff.1 h).states⟩ _ hd
  obtain ⟨lowered, ht⟩ := exists_forall₂_iff.1 ⟨_, hstate.triggers⟩ t ht
  exact ⟨_, lowered, ht⟩

end Compile

open Compile

/-- In a file that compiles, two conditions of a trigger that mention a name declare it with one
type, if the conditions between them mention it too or narrowing is denied. -/
theorem exists_type_of_kept {compiler : Compiler} {filename : String} {file : Syntax.File}
    {m : Machine} (h : compiler.compile filename file = .ok m) {s : Syntax.State}
    (hs : s ∈ file.states) {t : Syntax.Trigger} (ht : t ∈ s.triggers)
    {before between after : List Syntax.Condition} {b c : Syntax.Condition}
    (split : t.conditions = before ++ b :: between ++ c :: after) {name : String}
    (hb : name ∈ b.names) (hc : name ∈ c.names)
    (hkept : compiler.narrowing = .deny ∨ ∀ d ∈ between, name ∈ d.names) :
    ∃ type, Declares compiler.registry b name type ∧ Declares compiler.registry c name type := by
  obtain ⟨constants, lowered, hlowers⟩ := exists_lowersTrigger_of_compile h hs ht
  obtain ⟨type, htype⟩ := exists_declares (hlowers.declared b (by simp [split])) hb
  have hsplit : t.conditions = before ++ ((b :: (between ++ [c])) ++ after) := by
    simp [split]
  have hchain := (List.isChain_append.1 (List.isChain_append.1 (hsplit ▸ hlowers.chain)).2.1).1
  refine ⟨type, htype, Scope.declares_of_isChain hchain (fun d hd => ?_) hc htype⟩
  exact hkept.imp id fun hall => hall d hd

/-! ## A keypad -/

namespace Keypad

def compiler : Compiler where
  registry :=
    { triggers := .ofList [("Key", .ofDeclarations [("code", .int)]), ("Idle", .empty),
        ("Word", .ofDeclarations [("code", .string)])]
      actions := .empty }
  narrowing := .warn
  constants := .empty

def key : Syntax.Condition := ⟨"Key", [⟨"code", none, ⟨1, 20, 4⟩⟩], ⟨1, 16, 3⟩⟩

def idle : Syntax.Condition := ⟨"Idle", [], ⟨1, 27, 4⟩⟩

def word : Syntax.Condition := ⟨"Word", [⟨"code", none, ⟨1, 38, 4⟩⟩], ⟨1, 33, 4⟩⟩

def zero : Syntax.Condition := ⟨"Key", [⟨"code", some (.int 0), ⟨2, 30, 4⟩⟩], ⟨2, 26, 3⟩⟩

/-- `on Key(code), Idle, Word(code) -> move Open;` -/
def interrupted : Syntax.Trigger := ⟨[key, idle, word], [.move "Open" ⟨1, 52, 4⟩], ⟨1, 13, 2⟩⟩

/-- `on Key(code), Key(code), Key(code = 0) -> move Open;` -/
def repeated : Syntax.Trigger := ⟨[key, key, zero], [.move "Open" ⟨2, 48, 4⟩], ⟨2, 2, 2⟩⟩

def state : Syntax.State := ⟨"Open", ⟨1, 6, 4⟩, [], [interrupted, repeated]⟩

def file : Syntax.File := ⟨[.state state]⟩

def machine : Machine where
  constants := .empty
  entry := "Open"
  states :=
    [{ name := "Open"
       init := []
       triggers :=
         [{ conditions := [⟨"Key", .empty⟩, ⟨"Idle", .empty⟩, ⟨"Word", .empty⟩]
            eventData := .ofList [("code", .string)]
            actions := [.move "Open"] },
          { conditions := [⟨"Key", .empty⟩, ⟨"Key", .empty⟩, ⟨"Key", .ofList [("code", .int 0)]⟩]
            eventData := .ofList [("code", .int)]
            actions := [.move "Open"] }] }]
  warnings := [⟨⟨"keypad", ⟨1, 27, 4⟩, .trigger "Open" 0⟩, "code", 1⟩]
  checksum := none

theorem compile_file : compiler.compile "keypad" file = .ok machine := rfl

/-- The first and the last key press have one code. -/
theorem exists_type_of_repeated :
    compiler.compile "keypad" file = .ok machine ∧
      ∃ type, Declares compiler.registry key "code" type ∧
        Declares compiler.registry zero "code" type := by
  have hs : state ∈ file.states := by decide
  have ht : repeated ∈ state.triggers := by decide
  have split : repeated.conditions = [] ++ key :: [key] ++ zero :: [] := rfl
  exact ⟨compile_file, exists_type_of_kept compile_file hs ht split (by decide) (by decide)
    (.inr (by decide))⟩

/-- The name that was dropped comes back with another type: no two conditions next to each other
disagree on it, but the first and the last do. -/
theorem returns_with_another_type :
    ¬ ∀ (compiler : Compiler) (filename : String) (file : Syntax.File) (m : Machine),
      compiler.compile filename file = .ok m → ∀ s ∈ file.states, ∀ t ∈ s.triggers,
        ∀ b ∈ t.conditions, ∀ c ∈ t.conditions, ∀ name ∈ b.names, name ∈ c.names →
          ∃ type, Declares compiler.registry b name type ∧
            Declares compiler.registry c name type := by
  intro h
  obtain ⟨type, ⟨-, fields, hf, ht⟩, -, fields', hf', ht'⟩ :=
    h compiler "keypad" file machine compile_file state (by decide) interrupted (by decide)
      key (by decide) word (by decide) "code" (by decide) (by decide)
  cases hf
  cases hf'
  have hint : (Signature.ofDeclarations [("code", .int)]).type? "code" = some .int := rfl
  have hstring : (Signature.ofDeclarations [("code", .string)]).type? "code" = some .string := rfl
  rw [hint] at ht
  rw [hstring] at ht'
  cases ht
  cases ht'

end Keypad

end EventMachine
