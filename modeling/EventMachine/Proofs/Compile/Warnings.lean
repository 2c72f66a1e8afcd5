import EventMachine.Proofs.Compile.Constraints
import EventMachine.Proofs.NameOrder
import Mathlib.Data.List.Sort

/-!
# What is left of event data, and what is warned of

Of the event data of a trigger, the names that its last condition mentions are left. All others
have been dropped on the way, each by a condition that does not mention it after one that does, and
the machine has a warning for every drop (`narrowing_of_compile`).

1. `Condition.lost` lists the names that are dropped between two conditions, and `File.warnings` the
   warnings of a whole file, without any state that is threaded through.
2. The names that are visible before a condition are those that the condition before it mentions
   (`Scope.names_eventData`), so those that are dropped are the lost ones
   (`Scope.droppedAll_eventData_eq`).
3. The warnings of triggers and states come one after the other (`Scope.triggersWarnings_eq`).
-/

namespace EventMachine

namespace Syntax

/-- The names that the condition mentions and the next one does not, each once, in ascending
order. -/
def Condition.lost (b c : Condition) : List String :=
  (NameMap.ofList (b.names.map (·, ()))).names.filter fun name => !decide (name ∈ c.names)

/-- The warnings of a trigger: for each condition but the first, by its index, the names that it
loses. -/
def Trigger.warnings (t : Trigger) (filename : String) (context : Context) : List Warning :=
  ((t.conditions.zip t.conditions.tail).zipIdx 1).flatMap fun ((b, c), index) =>
    (b.lost c).map (⟨⟨filename, c.location, context⟩, ·, index⟩)

/-- The indices of the conditions that do not mention the name, though the one before does. -/
def Trigger.lossesOf (t : Trigger) (name : String) : List Nat :=
  ((t.conditions.zip t.conditions.tail).zipIdx 1).filterMap fun ((b, c), index) =>
    if name ∈ b.names ∧ name ∉ c.names then some index else none

/-- The warnings of a file, in the order of its states, triggers and conditions. -/
def File.warnings (file : File) (filename : String) : List Warning :=
  file.states.flatMap fun s => s.triggers.zipIdx.flatMap fun (t, index) =>
    t.warnings filename (.trigger s.name index)

/-! ## Lost names -/

section Lost

variable {b c : Condition} {name : String}

theorem Condition.mem_names_ofList {names : List String} :
    name ∈ (NameMap.ofList (names.map (·, ()))).names ↔ name ∈ names := by
  rw [NameMap.mem_names_ofList, List.map_map]
  exact iff_of_eq (congrArg (name ∈ ·) (List.map_id names))

theorem Condition.mem_lost : name ∈ b.lost c ↔ name ∈ b.names ∧ name ∉ c.names := by
  simp [lost, mem_names_ofList]

theorem Condition.pairwise_lost (b c : Condition) :
    (b.lost c).Pairwise fun x y => Source.encode x < Source.encode y :=
  (NameMap.pairwise_encode_names _).filter _

theorem Condition.nodup_lost (b c : Condition) : (b.lost c).Nodup := by
  refine (b.pairwise_lost c).imp ?_
  rintro x _ hlt rfl
  exact List.lt_irrefl _ hlt

/-- A condition warns once of a name that it loses. -/
theorem Condition.filter_lost (b c : Condition) (name : String) :
    (b.lost c).filter (· = name) = if name ∈ b.names ∧ name ∉ c.names then [name] else [] := by
  rw [List.filter_eq, (b.nodup_lost c).count]
  simp only [mem_lost]
  split <;> rfl

/-- A trigger warns of a name once for each time that it is lost. -/
theorem Trigger.map_condition_warnings (t : Trigger) (filename : String) (context : Context)
    (name : String) :
    ((t.warnings filename context).filter (·.name = name)).map (·.condition) =
      t.lossesOf name := by
  unfold warnings lossesOf
  induction (t.conditions.zip t.conditions.tail).zipIdx 1 with
  | nil => rfl
  | cons p ps ih =>
    obtain ⟨⟨b, c⟩, index⟩ := p
    rw [List.flatMap_cons, List.filter_append, List.map_append, ih, List.filterMap_cons,
      List.filter_map]
    have hlost := b.filter_lost c name
    simp only [Function.comp_def, hlost]
    by_cases hn : name ∈ b.names ∧ name ∉ c.names
    · simp [hn]
    · simp [hn]

end Lost

end Syntax

namespace Compile

variable {scope : Scope} {context : Context}

/-! ## Conditions -/

theorem Scope.mem_names_eventData {c : Syntax.Condition} (hc : scope.Declared c) {name : String} :
    name ∈ (scope.eventData c).names ↔ name ∈ c.names := by
  simp only [NameMap.mem_names, get?_eventData_eq_some_iff]
  constructor
  · rintro ⟨type, h⟩
    exact h.1
  · exact exists_declares hc

theorem Scope.names_eventData {c : Syntax.Condition} (hc : scope.Declared c) :
    (scope.eventData c).names = (NameMap.ofList (c.names.map (·, ()))).names := by
  have hsorted {α : Type} (m : NameMap α) : m.names.Pairwise (· < ·) :=
    List.pairwise_map.2 m.sorted
  refine (hsorted _).eq_of_mem_iff (hsorted _) ?_
  intro name
  rw [mem_names_eventData hc, Syntax.Condition.mem_names_ofList]

/-- The names that a declared condition leaves are dropped if the next one loses them. -/
theorem Scope.dropped_eq {b c : Syntax.Condition} (hb : scope.Declared b) (index : Nat) :
    scope.dropped context index (scope.eventData b) c =
      (b.lost c).map (⟨⟨scope.filename, c.location, context⟩, ·, index⟩) := by
  unfold dropped Syntax.Condition.omitted Syntax.Condition.lost
  rw [names_eventData hb]
  rfl

/-- The drops after a condition, each with the index of the condition that makes it. -/
theorem Scope.droppedAll_eventData_eq {b : Syntax.Condition} {cs : List Syntax.Condition}
    (h : ∀ c ∈ b :: cs, scope.Declared c) (index : Nat) :
    scope.droppedAll context index (scope.eventData b) cs =
      (((b :: cs).zip cs).zipIdx index).flatMap fun ((b, c), index) =>
        (b.lost c).map (⟨⟨scope.filename, c.location, context⟩, ·, index⟩) := by
  induction cs generalizing b index with
  | nil => rfl
  | cons c cs ih =>
    rw [List.forall_mem_cons] at h
    unfold droppedAll
    rw [List.zip_cons_cons, List.zipIdx_cons, List.flatMap_cons, ih h.2, dropped_eq h.1]

/-! ## Triggers and states -/

theorem Scope.triggerWarnings_eq {t : Syntax.Trigger}
    (h : ∀ c ∈ t.conditions, scope.Declared c) (state : String) (index : Nat) :
    scope.triggerWarnings state index t =
      t.warnings scope.filename (.trigger state index) := by
  unfold triggerWarnings Syntax.Trigger.warnings
  cases hcs : t.conditions with
  | nil => rfl
  | cons c cs =>
    rw [hcs] at h
    unfold droppedAll
    rw [droppedAll_eventData_eq h, List.tail_cons]
    -- nothing is visible before the first condition
    rfl

theorem Scope.triggersWarnings_eq {ts : List Syntax.Trigger}
    (h : ∀ t ∈ ts, ∀ c ∈ t.conditions, scope.Declared c) (state : String) (index : Nat) :
    scope.triggersWarnings state index ts =
      (ts.zipIdx index).flatMap fun (t, index) =>
        t.warnings scope.filename (.trigger state index) := by
  induction ts generalizing index with
  | nil => rfl
  | cons t ts ih =>
    rw [List.forall_mem_cons] at h
    unfold triggersWarnings
    rw [List.zipIdx_cons, List.flatMap_cons, ih h.2, triggerWarnings_eq h.1]

end Compile

open Compile

/-- The warnings of a machine are those of its file. -/
theorem warnings_of_lowers {compiler : Compiler} {filename : String} {file : Syntax.File}
    {m : Machine} (h : compiler.Lowers filename file m) :
    m.warnings = file.warnings filename := by
  rw [h.warnings]
  unfold Syntax.File.warnings
  rw [← map_snd_scopedStates compiler.constants file.entries, List.flatMap_map]
  refine List.flatMap_congr fun d hd => Scope.triggersWarnings_eq ?_ d.2.name 0
  intro t ht
  obtain ⟨state, hstate⟩ := exists_forall₂_iff.1 ⟨_, h.states⟩ d hd
  obtain ⟨trigger, htrigger⟩ := exists_forall₂_iff.1 ⟨_, hstate.triggers⟩ t ht
  exact htrigger.declared

/-- In a compiled machine, the event data of a trigger are the names that its last condition
mentions, with the types that it declares. There is one warning for every name that a condition
mentions and the next one does not, also if it was lost before: in the order of states, triggers
and conditions of the file, and for one condition in the order of the bytes. -/
theorem narrowing_of_compile {compiler : Compiler} {filename : String} {file : Syntax.File}
    {m : Machine} (h : compiler.compile filename file = .ok m) :
    (∀ before s after, file.entries = before ++ .state s :: after →
      ∃ state, m.state? s.name = some state ∧
        List.Forall₂ (fun t trigger =>
          (∀ name, name ∈ trigger.eventData.names ↔
            ∃ c, t.conditions.getLast? = some c ∧ name ∈ c.names) ∧
          ∀ name type, trigger.eventData.get? name = some type →
            ∃ c, t.conditions.getLast? = some c ∧ Declares compiler.registry c name type)
          s.triggers state.triggers) ∧
    m.warnings = file.warnings filename ∧
    (∀ (t : Syntax.Trigger) context name,
      ((t.warnings filename context).filter (·.name = name)).map (·.condition) =
        t.lossesOf name) ∧
    ∀ b c : Syntax.Condition, (∀ name, name ∈ b.lost c ↔ name ∈ b.names ∧ name ∉ c.names) ∧
      (b.lost c).Pairwise fun x y => Source.encode x < Source.encode y := by
  refine ⟨fun before s after split => ?_, warnings_of_lowers (compile_eq_ok_iff.1 h),
    fun t context name => t.map_condition_warnings filename context name,
    fun b c => ⟨fun name => Syntax.Condition.mem_lost, b.pairwise_lost c⟩⟩
  obtain ⟨state, hstate, hlowers⟩ := exists_lowersState_of_compile h split
  refine ⟨state, hstate, hlowers.triggers.imp fun t trigger ht => ?_⟩
  rw [ht.eventData]
  constructor
  · intro name
    simp only [NameMap.mem_names, get?_lastEventData_eq_some_iff]
    constructor
    · rintro ⟨type, c, hc, hdeclares⟩
      exact ⟨c, hc, hdeclares.1⟩
    · rintro ⟨c, hc, hn⟩
      obtain ⟨type, hdeclares⟩ := exists_declares (ht.declared c (List.mem_of_getLast? hc)) hn
      exact ⟨type, c, hc, hdeclares⟩
  · intro name type htype
    exact get?_lastEventData_eq_some_iff.1 htype

/-! ## A gate -/

namespace Gate

def compiler : Compiler where
  registry :=
    { triggers := .ofList [("Badge", .ofDeclarations [("user", .string), ("door", .int)]),
        ("Idle", .empty)]
      actions := .empty }
  narrowing := .warn
  constants := .empty

/-- `on Badge(user, door), Badge(door), Badge(door, user), Idle -> move Shut;` -/
def badges : Syntax.Trigger where
  conditions :=
    [⟨"Badge", [⟨"user", none, ⟨1, 22, 4⟩⟩, ⟨"door", none, ⟨1, 28, 4⟩⟩], ⟨1, 16, 5⟩⟩,
      ⟨"Badge", [⟨"door", none, ⟨1, 41, 4⟩⟩], ⟨1, 35, 5⟩⟩,
      ⟨"Badge", [⟨"door", none, ⟨1, 54, 4⟩⟩, ⟨"user", none, ⟨1, 60, 4⟩⟩], ⟨1, 48, 5⟩⟩,
      ⟨"Idle", [], ⟨1, 67, 4⟩⟩]
  actions := [.move "Shut" ⟨1, 80, 4⟩]
  location := ⟨1, 13, 2⟩

def file : Syntax.File := ⟨[.state ⟨"Shut", ⟨1, 6, 4⟩, [], [badges]⟩]⟩

def machine : Machine where
  constants := .empty
  entry := "Shut"
  states :=
    [{ name := "Shut"
       init := []
       triggers :=
         [{ conditions := [⟨"Badge", .empty⟩, ⟨"Badge", .empty⟩, ⟨"Badge", .empty⟩,
              ⟨"Idle", .empty⟩]
            eventData := .empty
            actions := [.move "Shut"] }] }]
  warnings :=
    [⟨⟨"gate", ⟨1, 35, 5⟩, .trigger "Shut" 0⟩, "user", 1⟩,
      ⟨⟨"gate", ⟨1, 67, 4⟩, .trigger "Shut" 0⟩, "door", 3⟩,
      ⟨⟨"gate", ⟨1, 67, 4⟩, .trigger "Shut" 0⟩, "user", 3⟩]
  checksum := none

theorem compile_file : compiler.compile "gate" file = .ok machine := rfl

/-- The user is dropped twice, the second time together with the door. -/
theorem warns_of_user_twice :
    compiler.compile "gate" file = .ok machine ∧ machine.warnings = file.warnings "gate" ∧
      (machine.warnings.filter (·.name = "user")).map (·.condition) = [1, 3] := by
  obtain ⟨-, hwarnings, hlosses, -⟩ := narrowing_of_compile compile_file
  have htrigger : file.warnings "gate" = badges.warnings "gate" (.trigger "Shut" 0) := rfl
  refine ⟨compile_file, hwarnings, ?_⟩
  rw [hwarnings, htrigger, hlosses]
  rfl

end Gate

end EventMachine
