import EventMachine.Proofs.Compile.Constraints
import EventMachine.Proofs.Syntax.Printing

/-!
# The order of arguments

The arguments of a call are gathered in a map from names, so the call compiles to the same step in
whatever order they are written. Two files that differ in this order, and in the places of things,
compile to machines that differ in their warnings at most (`compile_of_reorders`).

1. Where arguments have distinct names, the map has for each name the operand of its argument
   (`Scope.get?_supplied_eq_some_iff`). This does not speak of an order, and so a reordered call is
   lowered to the same step (`Scope.LowersCall.of_reorders`).
2. Conditions are lowered without regard to their places (`Scope.LowersTrigger.of_reorders`).
3. The constants before a state are the same (`forall₂_scopedStates_of_reorders`).
-/

namespace EventMachine

open Syntax (Arg Call Statement Entry)

/-! ## Reordered files -/

namespace Syntax

/-- The calls are of one action, with the same arguments in any order. -/
structure Call.Reorders (c c' : Call) : Prop where
  name : c'.name = c.name
  args : (c'.args.map Arg.unlocated).Perm (c.args.map Arg.unlocated)

inductive Statement.Reorders : Statement → Statement → Prop
  | call {c c' : Call} (h : c.Reorders c') : Reorders (.call c) (.call c')
  | move (destination : String) (location location' : Location) :
      Reorders (.move destination location) (.move destination location')

structure Trigger.Reorders (t t' : Trigger) : Prop where
  conditions : t'.conditions.map Condition.unlocated = t.conditions.map Condition.unlocated
  actions : List.Forall₂ Statement.Reorders t.actions t'.actions

structure State.Reorders (s s' : State) : Prop where
  name : s'.name = s.name
  init : List.Forall₂ Statement.Reorders s.init s'.init
  triggers : List.Forall₂ Trigger.Reorders s.triggers s'.triggers

inductive Entry.Reorders : Entry → Entry → Prop
  | assign (name : String) (value : Expr) (location location' : Location) :
      Reorders (.assign ⟨name, value, location⟩) (.assign ⟨name, value, location'⟩)
  | state {s s' : State} (h : s.Reorders s') : Reorders (.state s) (.state s')

/-- The files are the same up to the order of the arguments of calls and all places. -/
def File.Reorders (file file' : File) : Prop :=
  List.Forall₂ Entry.Reorders file.entries file'.entries

section Symmetry

theorem Statement.Reorders.symm (s s' : Statement) (h : s.Reorders s') : s'.Reorders s := by
  cases h with
  | call h => exact .call ⟨h.name.symm, h.args.symm⟩
  | move destination location location' => exact .move destination location' location

theorem Trigger.Reorders.symm (t t' : Trigger) (h : t.Reorders t') : t'.Reorders t :=
  ⟨h.conditions.symm, forall₂_symm Statement.Reorders.symm h.actions⟩

theorem State.Reorders.symm {s s' : State} (h : s.Reorders s') : s'.Reorders s :=
  ⟨h.name.symm, forall₂_symm Statement.Reorders.symm h.init,
    forall₂_symm Trigger.Reorders.symm h.triggers⟩

theorem Entry.Reorders.symm (e e' : Entry) (h : e.Reorders e') : e'.Reorders e := by
  cases h with
  | assign name value location location' => exact .assign name value location' location
  | state h => exact .state h.symm

theorem File.Reorders.symm {file file' : File} (h : file.Reorders file') : file'.Reorders file :=
  forall₂_symm Entry.Reorders.symm h

end Symmetry

end Syntax

theorem NameMap.get?_ofList_of_nodup {α : Type} {pairs : List (String × α)} {name : String}
    {value : α} (h : (pairs.map (·.1)).Nodup) :
    (NameMap.ofList pairs).get? name = some value ↔ (name, value) ∈ pairs := by
  rw [get?_ofList_eq_some_iff]
  constructor
  · rintro ⟨earlier, later, rfl, -⟩
    exact List.mem_append_right _ List.mem_cons_self
  · intro hmem
    obtain ⟨earlier, later, rfl⟩ := List.append_of_mem hmem
    refine ⟨earlier, later, rfl, fun p hp heq => ?_⟩
    rw [List.map_append, List.nodup_append, List.map_cons, List.nodup_cons] at h
    exact h.2.1.1 (List.mem_map.2 ⟨p, hp, heq⟩)

namespace Compile

/-! ## Calls -/

/-- An expression is lowered to one operand. -/
theorem Lowers.unique {constants : NameMap Value} {eventData : NameMap ValueType}
    {e : Syntax.Expr} {o o' : Operand} {type type' : ValueType}
    (h : Lowers constants eventData e o type) (h' : Lowers constants eventData e o' type') :
    o = o' := by
  cases h with
  | eventData h =>
    cases h' with
    | eventData h' => rfl
    | constant visible => cases h.symm.trans (visible _ rfl)
  | constant visible h =>
    cases h' with
    | eventData h' => cases h'.symm.trans (visible _ rfl)
    | constant visible' h' =>
      cases h.symm.trans h'
      rfl

namespace Scope

variable {scope : Scope} {eventData : NameMap ValueType} {inputs : Signature}

theorem Accepts.unique {arg : Arg} {o o' : Operand} (h : scope.Accepts eventData inputs arg o)
    (h' : scope.Accepts eventData inputs arg o') : o = o' := by
  obtain ⟨type, -, h⟩ := h
  obtain ⟨type', -, h'⟩ := h'
  exact h.unique h'

/-- The operand of a name is that of its argument. -/
theorem get?_supplied_eq_some_iff {args : List Arg} {operands : List Operand} {name : String}
    {operand : Operand} (hnodup : (args.map (·.name)).Nodup)
    (h : List.Forall₂ (scope.Accepts eventData inputs) args operands) :
    (NameMap.ofList ((args.map (·.name)).zip operands)).get? name = some operand ↔
      ∃ arg ∈ args, arg.name = name ∧ scope.Accepts eventData inputs arg operand := by
  have hkeys : ((args.map (·.name)).zip operands).map (·.1) = args.map (·.name) :=
    List.map_fst_zip (by rw [List.length_map, h.length_eq])
  rw [← hkeys] at hnodup
  rw [NameMap.get?_ofList_of_nodup hnodup, List.zip_map_left, List.mem_map]
  constructor
  · rintro ⟨⟨arg, o⟩, hzip, heq⟩
    cases heq
    exact ⟨arg, (List.of_mem_zip hzip).1, rfl, List.forall₂_zip h hzip⟩
  · rintro ⟨arg, harg, rfl, haccepts⟩
    obtain ⟨o, hzip⟩ := exists_mem_zip_of_forall₂ h harg
    cases haccepts.unique (List.forall₂_zip h hzip)
    exact ⟨_, hzip, rfl⟩

/-- The same arguments in another order are lowered to the same step. -/
theorem LowersCall.of_reorders {c c' : Call} {step : Step} (hr : c.Reorders c')
    (h : scope.LowersCall eventData c step) : scope.LowersCall eventData c' step := by
  obtain ⟨inputs, operands, hi, hnodup, hoperands, rfl⟩ := h
  -- what is asked of an argument does not depend on its place
  have hexists (p : Arg → Prop) (hp : ∀ arg, p arg ↔ p arg.unlocated) :
      (∃ arg ∈ c'.args, p arg) ↔ ∃ arg ∈ c.args, p arg := by
    have hmap (args : List Arg) : (∃ arg ∈ args, p arg) ↔ ∃ a ∈ args.map Arg.unlocated, p a := by
      simp only [List.mem_map, exists_exists_and_eq_and, ← hp]
    rw [hmap c'.args, hmap c.args]
    simp only [hr.args.mem_iff]
  have haccepts : ∀ arg ∈ c'.args, ∃ o, scope.Accepts eventData inputs arg o := by
    intro arg harg
    obtain ⟨a, ha, heq⟩ :=
      (hexists (·.unlocated = arg.unlocated) fun _ => Iff.rfl).1 ⟨arg, harg, rfl⟩
    obtain ⟨o, ho⟩ := exists_forall₂_iff.1 ⟨operands, hoperands⟩ a ha
    refine ⟨o, ?_⟩
    show scope.Accepts eventData inputs arg.unlocated o
    rw [← heq]
    exact ho
  have hnodup' : (c'.args.map (·.name)).Nodup := by
    have hnames (args : List Arg) :
        args.map (·.name) = (args.map Arg.unlocated).map (·.name) := by
      rw [List.map_map]
      rfl
    rw [hnames] at hnodup ⊢
    exact (hr.args.map _).nodup_iff.2 hnodup
  obtain ⟨operands', hoperands'⟩ := exists_forall₂_iff.2 haccepts
  have hsupplied : NameMap.ofList ((c'.args.map (·.name)).zip operands') =
      NameMap.ofList ((c.args.map (·.name)).zip operands) := by
    refine NameMap.ext_get? fun name => Option.ext fun operand => ?_
    rw [get?_supplied_eq_some_iff hnodup' hoperands', get?_supplied_eq_some_iff hnodup hoperands]
    exact hexists _ fun _ => Iff.rfl
  refine ⟨inputs, operands', ?_, hnodup', hoperands', ?_⟩
  · rw [hr.name]
    exact hi
  · rw [hsupplied, hr.name]

theorem LowersStatement.of_reorders (s : Statement) (step : Step) (s' : Statement)
    (hr : s.Reorders s') (h : scope.LowersStatement eventData s step) :
    scope.LowersStatement eventData s' step := by
  cases hr with
  | move =>
    cases h
    exact .move
  | call hr =>
    cases h with
    | call h => exact .call (h.of_reorders hr)

/-! ## Triggers and states -/

section Unlocated

variable (scope) (c : Syntax.Condition)

theorem lowered_unlocated : scope.lowered c.unlocated = scope.lowered c := by
  unfold lowered Syntax.Condition.unlocated
  rw [List.filterMap_map]
  rfl

theorem eventData_unlocated : scope.eventData c.unlocated = scope.eventData c := by
  unfold eventData Syntax.Condition.typed Syntax.Condition.unlocated
  simp only [List.filterMap_map]
  rfl

theorem names_unlocated : c.unlocated.names = c.names := by
  unfold Syntax.Condition.names Syntax.Condition.unlocated
  rw [List.map_map]
  rfl

theorem declared_unlocated_iff : scope.Declared c.unlocated ↔ scope.Declared c := by
  unfold Declared Syntax.Condition.unlocated
  simp only [List.forall_mem_map]
  rfl

theorem follows_unlocated_iff (visible : NameMap ValueType) :
    scope.Follows visible c.unlocated ↔ scope.Follows visible c := by
  unfold Follows
  rw [names_unlocated]
  rfl

end Unlocated

theorem LowersTrigger.of_reorders (t : Syntax.Trigger) (lowered : Machine.Trigger)
    (t' : Syntax.Trigger) (hr : t.Reorders t') (h : scope.LowersTrigger t lowered) :
    scope.LowersTrigger t' lowered := by
  have hconditions (cs : List Syntax.Condition) :
      cs.map scope.lowered = (cs.map Syntax.Condition.unlocated).map scope.lowered := by
    simp only [List.map_map, Function.comp_def, lowered_unlocated]
  have hdeclared (cs : List Syntax.Condition) : (∀ c ∈ cs, scope.Declared c) ↔
      ∀ c ∈ cs.map Syntax.Condition.unlocated, scope.Declared c := by
    simp only [List.forall_mem_map, declared_unlocated_iff]
  have hchain (cs : List Syntax.Condition) :
      cs.IsChain (fun b c => scope.Follows (scope.eventData b) c) ↔
        (cs.map Syntax.Condition.unlocated).IsChain
          fun b c => scope.Follows (scope.eventData b) c := by
    simp only [List.isChain_map, eventData_unlocated, follows_unlocated_iff]
  have heventData (cs : List Syntax.Condition) : scope.lastEventData .empty cs =
      scope.lastEventData .empty (cs.map Syntax.Condition.unlocated) := by
    unfold lastEventData
    simp only [List.getLast?_map, Option.map_map, Function.comp_def, eventData_unlocated]
  refine ⟨?_, ?_, ?_, ?_, forall₂_of_forall₂ LowersStatement.of_reorders hr.actions h.actions⟩
  · rw [hdeclared, hr.conditions, ← hdeclared]
    exact h.declared
  · rw [hchain, hr.conditions, ← hchain]
    exact h.chain
  · rw [hconditions t'.conditions, hr.conditions, ← hconditions]
    exact h.conditions
  · rw [heventData t'.conditions, hr.conditions, ← heventData]
    exact h.eventData

theorem LowersState.of_reorders {s s' : Syntax.State} {lowered : Machine.State}
    (hr : s.Reorders s') (h : scope.LowersState s lowered) : scope.LowersState s' lowered :=
  ⟨h.name.trans hr.name.symm, forall₂_of_forall₂ LowersStatement.of_reorders hr.init h.init,
    forall₂_of_forall₂ LowersTrigger.of_reorders hr.triggers h.triggers⟩

end Scope

/-! ## Entries -/

section Entries

variable {entries entries' : List Entry}

theorem constantsAfter_of_reorders (hr : List.Forall₂ Entry.Reorders entries entries')
    (seeds : NameMap Value) : constantsAfter seeds entries' = constantsAfter seeds entries := by
  induction hr generalizing seeds with
  | nil => rfl
  | cons he _ ih => cases he <;> exact ih _

theorem evaluable_of_reorders (hr : List.Forall₂ Entry.Reorders entries entries')
    {seeds : NameMap Value} (h : Evaluable seeds entries) : Evaluable seeds entries' := by
  induction hr generalizing seeds with
  | nil => trivial
  | cons he _ ih =>
    cases he with
    | assign => exact ⟨h.1, ih h.2⟩
    | state => exact ih h

theorem stateNames_of_reorders (hr : List.Forall₂ Entry.Reorders entries entries') :
    stateNames entries' = stateNames entries := by
  induction hr with
  | nil => rfl
  | cons he _ ih =>
    cases he with
    | assign => exact ih
    | state hs => rw [stateNames_state, stateNames_state, ih, hs.name]

/-- The states have the same constants before them. -/
theorem forall₂_scopedStates_of_reorders (hr : List.Forall₂ Entry.Reorders entries entries')
    (seeds : NameMap Value) :
    List.Forall₂ (fun d d' => d'.1 = d.1 ∧ d.2.Reorders d'.2) (scopedStates seeds entries)
      (scopedStates seeds entries') := by
  induction hr generalizing seeds with
  | nil => exact .nil
  | cons he _ ih =>
    cases he with
    | assign => exact ih _
    | state hs => exact .cons ⟨rfl, hs⟩ (ih seeds)

end Entries

end Compile

open Compile

/-- A reordered file compiles to the same machine, up to the warnings. -/
theorem compile_of_reorders {compiler : Compiler} {filename : String} {file file' : Syntax.File}
    (hr : file.Reorders file') {m : Machine} (h : compiler.compile filename file = .ok m) :
    ∃ ws, compiler.compile filename file' = .ok { m with warnings := ws } := by
  have hm := compile_eq_ok_iff.1 h
  have hstates : List.Forall₂ (fun d s => (compiler.scope filename d.1).LowersState d.2 s)
      (scopedStates compiler.constants file'.entries) m.states := by
    refine forall₂_of_forall₂ (fun d s d' hd hs => ?_)
      (forall₂_scopedStates_of_reorders hr compiler.constants) hm.states
    rw [hd.1]
    exact hs.of_reorders hd.2
  refine ⟨(scopedStates compiler.constants file'.entries).flatMap fun d =>
      (compiler.scope filename d.1).stateWarnings d.2,
    compile_eq_ok_iff.2 ⟨evaluable_of_reorders hr hm.evaluable, ?_, hstates, hm.entry, ?_, rfl,
      hm.checksum⟩⟩
  · rw [stateNames_of_reorders hr]
    exact hm.distinct
  · rw [constantsAfter_of_reorders hr]
    exact hm.constants

end EventMachine
