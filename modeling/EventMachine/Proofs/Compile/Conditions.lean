import EventMachine.Proofs.Compile.Lowering

/-!
# Conditions and triggers that compile

A condition makes exactly the names that it mentions visible, whatever was visible before it
(`Scope.condition_gives_iff`). So a list of conditions compiles if each is well declared and each
follows the one before it, and what is visible in the end depends on the last one alone
(`Scope.conditions_gives_iff`).
-/

namespace EventMachine

open Syntax (Expr Param)

namespace Syntax.Condition

/-- The names that a condition mentions. -/
def names (c : Condition) : List String := c.params.map (·.name)

/-- The names that a condition mentions, with the types of the fields. -/
def typed (c : Condition) (fields : Signature) : List (String × ValueType) :=
  c.params.filterMap fun p => (fields.type? p.name).map (p.name, ·)

/-- The visible names that a condition does not mention. -/
def omitted (c : Condition) (visible : NameMap ValueType) : List String :=
  visible.names.filter fun name => !decide (name ∈ c.names)

theorem mem_omitted {c : Condition} {visible : NameMap ValueType} {name : String} :
    name ∈ c.omitted visible ↔
      (∃ type, visible.get? name = some type) ∧ name ∉ c.names := by
  simp [omitted, NameMap.mem_names]

theorem any_name_eq (c : Condition) (name : String) :
    c.params.any (·.name = name) = decide (name ∈ c.names) := by
  rw [Bool.eq_iff_iff]
  simp [names]

theorem mem_map_fst_typed {c : Condition} {fields : Signature} {name : String} :
    name ∈ (c.typed fields).map (·.1) ↔ name ∈ c.names ∧ ∃ type, fields.type? name = some type := by
  simp only [names, typed, List.mem_map, List.mem_filterMap, Option.map_eq_some_iff]
  constructor
  · rintro ⟨_, ⟨q, hq, type, ht, rfl⟩, rfl⟩
    exact ⟨⟨q, hq, rfl⟩, type, ht⟩
  · rintro ⟨⟨q, hq, rfl⟩, type, ht⟩
    exact ⟨_, ⟨q, hq, type, ht, rfl⟩, rfl⟩

theorem get?_insertAll_typed (c : Condition) (fields : Signature) (visible : NameMap ValueType)
    (name : String) :
    (visible.insertAll (c.typed fields)).get? name =
      if name ∈ c.names then (fields.type? name).or (visible.get? name) else visible.get? name := by
  have htyped : ∀ p ∈ c.typed fields, p.2 = (fields.type? p.1).getD .constant := by
    intro p hp
    obtain ⟨q, -, hq⟩ := List.mem_filterMap.1 hp
    obtain ⟨type, ht, rfl⟩ := Option.map_eq_some_iff.1 hq
    simp [ht]
  rw [NameMap.get?_insertAll (f := fun name => (fields.type? name).getD .constant) htyped]
  split
  · next h =>
    obtain ⟨hn, type, ht⟩ := mem_map_fst_typed.1 h
    rw [if_pos hn, ht]
    rfl
  · next h =>
    split
    · next hn =>
      have ht : fields.type? name = none :=
        Option.eq_none_iff_forall_ne_some.2 fun type ht => h (mem_map_fst_typed.2 ⟨hn, type, ht⟩)
      rw [ht, Option.none_or]
    · rfl

end Syntax.Condition

namespace Compile.Scope

variable {scope : Scope} {context : Context} {ws ws' : List Warning}

/-! ## Parameters -/

/-- The parameter names a field, and the value that it asks for has the field's type. -/
def Fits (scope : Scope) (fields : Signature) (p : Param) : Prop :=
  ∃ type, fields.type? p.name = some type ∧
    ∀ e, p.value = some e → ∃ value, e.value? scope.constants = some value ∧ value.type = type

/-- The value that a parameter asks for. -/
def asked? (scope : Scope) (p : Param) : Option (String × Value) :=
  (p.value.bind (·.value? scope.constants)).map (p.name, ·)

theorem param_eq_ok_iff {trigger : String} {fields : Signature}
    {visible visible' : NameMap ValueType} {constraints constraints' : NameMap Value} {p : Param} :
    scope.param context trigger fields (visible, constraints) p = .ok (visible', constraints') ↔
      scope.Fits fields p ∧
        ∃ type, fields.type? p.name = some type ∧
          (∀ previous, visible.get? p.name = some previous → previous = type) ∧
          visible' = visible.insert p.name type ∧
          constraints' = constraints.insertAll (scope.asked? p).toList := by
  unfold param Fits asked?
  cases ht : fields.type? p.name with
  | none => simp
  | some type =>
    simp only [Option.some.injEq, exists_eq_left']
    -- how the name was visible before
    have join {found : NameMap Value} {r : Except CompileError (NameMap ValueType × NameMap Value)}
        (hr : r = (visible.get? p.name).elim (.ok (visible.insert p.name type, found))
          fun previous =>
            if previous ≠ type then
              .error (.semantic (scope.site p.location context)
                (.typeMismatch .redeclaration p.name previous type))
            else .ok (visible, found)) :
        r = .ok (visible', constraints') ↔
          (∀ previous, visible.get? p.name = some previous → previous = type) ∧
            visible' = visible.insert p.name type ∧ constraints' = found := by
      subst hr
      cases hv : visible.get? p.name with
      | none => simp [eq_comm]
      | some previous =>
        by_cases he : previous = type
        · subst he
          simp [NameMap.insert_eq_self hv, eq_comm]
        · simp [he]
    cases hp : p.value with
    | none =>
      refine Iff.trans (@join constraints _ (by cases visible.get? p.name <;> rfl)) ?_
      simp
    | some e =>
      cases hv : e.value? scope.constants with
      | none =>
        cases he : scope.eval (scope.site p.location context) e with
        | error =>
          simp only [Option.some.injEq, forall_eq', hv, reduceCtorEq, false_and, exists_false,
            iff_false]
          rw [except_bind_eq_ok]
          simp [he, bind, Except.bind]
        | ok value => simp [eval_eq_ok_iff.1 he] at hv
      | some value =>
        have he : scope.eval (scope.site p.location context) e = .ok value := eval_eq_ok_iff.2 hv
        by_cases htype : value.type = type
        · simp only [he, bind, Except.bind, pure, Except.pure]
          rw [if_neg (not_not_intro htype)]
          refine Iff.trans (@join (constraints.insert p.name value) _
            (by cases visible.get? p.name <;> rfl)) ?_
          simp [hv, htype]
        · simp [he, bind, Except.bind, hv, htype]

/-- The names of a condition's parameters become visible, and what they ask for is kept. -/
theorem foldlM_param_eq_ok_iff {trigger : String} {fields : Signature} {params : List Param}
    {visible visible' : NameMap ValueType} {constraints constraints' : NameMap Value} :
    params.foldlM (scope.param context trigger fields) (visible, constraints) =
        .ok (visible', constraints') ↔
      (∀ p ∈ params, scope.Fits fields p) ∧
        (∀ p ∈ params, ∀ type, visible.get? p.name = some type →
          fields.type? p.name = some type) ∧
        visible' = visible.insertAll
          (params.filterMap fun p => (fields.type? p.name).map (p.name, ·)) ∧
        constraints' = constraints.insertAll (params.filterMap scope.asked?) := by
  induction params generalizing visible constraints with
  | nil =>
    constructor
    · rintro ⟨⟩
      exact ⟨by simp, by simp, rfl, rfl⟩
    · rintro ⟨-, -, rfl, rfl⟩
      rfl
  | cons p params ih =>
    rw [List.foldlM_cons, except_bind_eq_ok]
    have hasked (m : NameMap Value) : (m.insertAll (scope.asked? p).toList).insertAll
        (params.filterMap scope.asked?) = m.insertAll ((p :: params).filterMap scope.asked?) := by
      rw [List.filterMap_cons]
      cases scope.asked? p <;> rfl
    constructor
    · rintro ⟨⟨visible₁, constraints₁⟩, hp, hrest⟩
      obtain ⟨hfits, type, ht, hprevious, rfl, rfl⟩ := param_eq_ok_iff.1 hp
      obtain ⟨hall, hagree, rfl, rfl⟩ := ih.1 hrest
      refine ⟨List.forall_mem_cons.2 ⟨hfits, hall⟩, List.forall_mem_cons.2 ⟨?_, ?_⟩, ?_, hasked _⟩
      · intro previous hv
        rw [ht, hprevious previous hv]
      · intro q hq t hv
        refine hagree q hq t ?_
        rw [NameMap.get?_insert]
        split
        · next he =>
          rw [he] at hv
          rw [hprevious t hv]
        · exact hv
      · rw [List.filterMap_cons, ht]
        rfl
    · rintro ⟨hall, hagree, rfl, rfl⟩
      rw [List.forall_mem_cons] at hall hagree
      obtain ⟨type, ht, -⟩ := hall.1
      refine ⟨(visible.insert p.name type, constraints.insertAll (scope.asked? p).toList),
        param_eq_ok_iff.2 ⟨hall.1, type, ht, fun previous hv => ?_, rfl, rfl⟩,
        ih.2 ⟨hall.2, fun q hq t hv => ?_, ?_, (hasked _).symm⟩⟩
      · have := hagree.1 previous hv
        rw [ht] at this
        exact (Option.some.inj this).symm
      · rw [NameMap.get?_insert] at hv
        split at hv
        · next he => rw [he, ht, hv]
        · exact hagree.2 q hq t hv
      · rw [List.filterMap_cons, ht]
        rfl

/-! ## Narrowing -/

theorem drop_gives_iff {site : Site} {index : Nat} {name : String}
    {visible left : NameMap ValueType} :
    (scope.drop site index visible name).Gives ws left ws' ↔
      scope.narrowing ≠ .deny ∧ left = visible.erase name ∧ ws' = ws ++ [⟨site, name, index⟩] := by
  unfold drop
  cases scope.narrowing with
  | deny =>
    constructor
    · intro h
      exact (Lowering.gives_throw h).elim
    · rintro ⟨h, -⟩
      exact (h rfl).elim
  | warn =>
    simp only [Lowering.gives_bind, Lowering.gives_modify, Lowering.gives_pure]
    constructor
    · rintro ⟨-, mid, rfl, rfl, rfl⟩
      exact ⟨nofun, rfl, rfl⟩
    · rintro ⟨-, rfl, rfl⟩
      exact ⟨(), _, rfl, rfl, rfl⟩

/-- Under a policy that denies, nothing may be dropped. -/
theorem foldlM_drop_gives_iff {site : Site} {index : Nat} {names : List String}
    {visible left : NameMap ValueType} :
    (names.foldlM (scope.drop site index) visible).Gives ws left ws' ↔
      (scope.narrowing = .deny → names = []) ∧ left = names.foldl NameMap.erase visible ∧
        ws' = ws ++ names.map (⟨site, ·, index⟩) := by
  induction names generalizing visible ws with
  | nil =>
    rw [List.foldlM_nil, Lowering.gives_pure]
    simp
  | cons name names ih =>
    rw [List.foldlM_cons, Lowering.gives_bind]
    simp only [drop_gives_iff, ih]
    constructor
    · rintro ⟨a, mid, ⟨hn, rfl, rfl⟩, -, rfl, rfl⟩
      exact ⟨fun h => (hn h).elim, rfl, by simp⟩
    · rintro ⟨hn, rfl, rfl⟩
      have hwarn : scope.narrowing ≠ .deny := fun h => List.cons_ne_nil _ _ (hn h)
      exact ⟨_, _, ⟨hwarn, rfl, rfl⟩, fun h => (hwarn h).elim, rfl, by simp⟩

/-- The condition may come after one that has left the event data `visible`: a name of both has one
type, and a policy that denies wants every name to be mentioned again. -/
def Follows (scope : Scope) (visible : NameMap ValueType) (c : Syntax.Condition) : Prop :=
  ∀ name type, visible.get? name = some type →
    (name ∈ c.names → (scope.registry.triggers.get? c.name).bind (·.type? name) = some type) ∧
      (scope.narrowing = .deny → name ∈ c.names)

/-- The condition names a trigger, and its parameters fit the fields of the trigger. -/
def Declared (scope : Scope) (c : Syntax.Condition) : Prop :=
  ∃ fields, scope.registry.triggers.get? c.name = some fields ∧ ∀ p ∈ c.params, scope.Fits fields p

/-- The event data that a condition leaves visible. -/
def eventData (scope : Scope) (c : Syntax.Condition) : NameMap ValueType :=
  ((scope.registry.triggers.get? c.name).map fun fields => .ofList (c.typed fields)).getD .empty

/-- A condition, ready to be tested. -/
def lowered (scope : Scope) (c : Syntax.Condition) : Machine.Condition :=
  ⟨c.name, .ofList (c.params.filterMap scope.asked?)⟩

/-- The warnings for the names that a condition drops. -/
def dropped (scope : Scope) (context : Context) (index : Nat) (visible : NameMap ValueType)
    (c : Syntax.Condition) : List Warning :=
  (c.omitted visible).map (⟨scope.site c.location context, ·, index⟩)

theorem get?_eventData {c : Syntax.Condition} {fields : Signature}
    (h : scope.registry.triggers.get? c.name = some fields) (name : String) :
    (scope.eventData c).get? name = if name ∈ c.names then fields.type? name else none := by
  unfold eventData
  rw [h]
  show (NameMap.empty.insertAll (c.typed fields)).get? name = _
  rw [c.get?_insertAll_typed, NameMap.get?_empty, Option.or_none]

/-- What is left when the names that a condition does not mention are dropped. -/
theorem foldl_erase_eq_eventData {c : Syntax.Condition} {fields : Signature}
    (hf : scope.registry.triggers.get? c.name = some fields)
    (hfits : ∀ p ∈ c.params, scope.Fits fields p) (visible : NameMap ValueType) :
    (c.omitted visible).foldl NameMap.erase (visible.insertAll (c.typed fields)) =
      scope.eventData c := by
  refine NameMap.ext_get? fun name => ?_
  rw [NameMap.get?_foldl_erase, get?_eventData hf, c.get?_insertAll_typed]
  by_cases hn : name ∈ c.names
  · obtain ⟨p, hp, rfl⟩ := List.mem_map.1 hn
    obtain ⟨type, ht, -⟩ := hfits p hp
    rw [if_neg fun h => (Syntax.Condition.mem_omitted.1 h).2 hn, if_pos hn, if_pos hn, ht]
    rfl
  · rw [if_neg hn, if_neg hn]
    split
    · rfl
    · next h =>
      exact Option.eq_none_iff_forall_ne_some.2 fun type ht =>
        h (Syntax.Condition.mem_omitted.2 ⟨⟨type, ht⟩, hn⟩)

theorem condition_gives_iff {index : Nat} {visible left : NameMap ValueType}
    {c : Syntax.Condition} {lowered : Machine.Condition} :
    (scope.condition context index visible c).Gives ws (lowered, left) ws' ↔
      scope.Declared c ∧ scope.Follows visible c ∧ lowered = scope.lowered c ∧
        left = scope.eventData c ∧ ws' = ws ++ scope.dropped context index visible c := by
  unfold condition Declared Follows
  cases hf : scope.registry.triggers.get? c.name with
  | none =>
    constructor
    · intro h
      exact (Lowering.gives_throw h).elim
    · rintro ⟨⟨_, ⟨⟩, -⟩, -⟩
  | some fields =>
    simp only [condition.liftExcept, Lowering.gives_bind, Lowering.gives_liftM,
      Lowering.gives_pure, Prod.exists, foldlM_param_eq_ok_iff, foldlM_drop_gives_iff,
      c.any_name_eq, Option.some.injEq, exists_eq_left', Option.bind_some, Prod.mk.injEq]
    constructor
    · rintro ⟨all, constraints, _, ⟨⟨hfits, hagree, rfl, rfl⟩, rfl⟩, left', _, ⟨hdeny, rfl, rfl⟩,
        ⟨rfl, rfl⟩, rfl⟩
      refine ⟨hfits, fun name type hv => ⟨fun hn => ?_, fun hd => ?_⟩, rfl,
        foldl_erase_eq_eventData hf hfits visible, rfl⟩
      · obtain ⟨p, hp, rfl⟩ := List.mem_map.1 hn
        exact hagree p hp type hv
      · by_contra hn
        have hmem : name ∈ c.omitted visible := Syntax.Condition.mem_omitted.2 ⟨⟨type, hv⟩, hn⟩
        rw [show c.omitted visible = [] from hdeny hd] at hmem
        cases hmem
    · rintro ⟨hfits, hfollows, rfl, rfl, rfl⟩
      refine ⟨_, _, ws, ⟨⟨hfits, fun p hp type hv => ?_, rfl, rfl⟩, rfl⟩, _, _,
        ⟨fun hd => ?_, rfl, rfl⟩, ⟨rfl, (foldl_erase_eq_eventData hf hfits visible).symm⟩, rfl⟩
      · exact (hfollows p.name type hv).1 (List.mem_map_of_mem hp)
      · refine List.eq_nil_iff_forall_not_mem.2 fun name hmem => ?_
        obtain ⟨⟨type, hv⟩, hn⟩ := Syntax.Condition.mem_omitted.1 hmem
        exact hn ((hfollows name type hv).2 hd)

/-! ## Lists of conditions -/

/-- The event data that is visible after the last of several conditions. -/
def lastEventData (scope : Scope) (visible : NameMap ValueType) (cs : List Syntax.Condition) :
    NameMap ValueType :=
  (cs.getLast?.map scope.eventData).getD visible

/-- The warnings for the names that conditions drop, where the first has the given index. -/
def droppedAll (scope : Scope) (context : Context) :
    (index : Nat) → NameMap ValueType → List Syntax.Condition → List Warning
  | _, _, [] => []
  | index, visible, c :: cs =>
    scope.dropped context index visible c ++
      scope.droppedAll context (index + 1) (scope.eventData c) cs

theorem lastEventData_cons (visible : NameMap ValueType) (c : Syntax.Condition)
    (cs : List Syntax.Condition) :
    scope.lastEventData visible (c :: cs) = scope.lastEventData (scope.eventData c) cs := by
  cases cs with
  | nil => rfl
  | cons d cs =>
    unfold lastEventData
    rw [List.getLast?_cons_cons, List.getLast?_eq_some_getLast (List.cons_ne_nil d cs)]
    rfl

theorem conditions_gives_iff {index : Nat} {visible left : NameMap ValueType}
    {cs : List Syntax.Condition} {lowered : List Machine.Condition} :
    (scope.conditions context index visible cs).Gives ws (lowered, left) ws' ↔
      (∀ c ∈ cs, scope.Declared c) ∧ (∀ c ∈ cs.head?, scope.Follows visible c) ∧
        cs.IsChain (fun b c => scope.Follows (scope.eventData b) c) ∧
        lowered = cs.map scope.lowered ∧ left = scope.lastEventData visible cs ∧
        ws' = ws ++ scope.droppedAll context index visible cs := by
  induction cs generalizing index visible left lowered ws ws' with
  | nil =>
    unfold conditions
    rw [Lowering.gives_pure, Prod.mk.injEq]
    simp [lastEventData, droppedAll, and_assoc]
  | cons c cs ih =>
    unfold conditions
    simp only [Lowering.gives_bind, Lowering.gives_pure, Prod.exists, condition_gives_iff, ih,
      Prod.mk.injEq, List.isChain_cons, List.forall_mem_cons, List.head?_cons, Option.mem_some_iff,
      forall_eq', List.map_cons, lastEventData_cons]
    constructor
    · rintro ⟨_, _, _, ⟨hc, hv, rfl, rfl, rfl⟩, _, _, _, ⟨hcs, hhead, hchain, rfl, rfl, rfl⟩,
        ⟨rfl, rfl⟩, rfl⟩
      exact ⟨⟨hc, hcs⟩, hv, ⟨hhead, hchain⟩, rfl, rfl, List.append_assoc _ _ _⟩
    · rintro ⟨⟨hc, hcs⟩, hv, ⟨hhead, hchain⟩, rfl, rfl, rfl⟩
      exact ⟨_, _, _, ⟨hc, hv, rfl, rfl, rfl⟩, _, _, _, ⟨hcs, hhead, hchain, rfl, rfl, rfl⟩,
        ⟨rfl, rfl⟩, (List.append_assoc _ _ _).symm⟩

/-! ## Triggers -/

/-- The trigger compiles to the other one: its conditions are declared and follow each other, and
its statements are lowered with the event data of the last condition. -/
structure LowersTrigger (scope : Scope) (t : Syntax.Trigger) (lowered : Machine.Trigger) :
    Prop where
  declared : ∀ c ∈ t.conditions, scope.Declared c
  chain : t.conditions.IsChain fun b c => scope.Follows (scope.eventData b) c
  conditions : lowered.conditions = t.conditions.map scope.lowered
  eventData : lowered.eventData = scope.lastEventData .empty t.conditions
  actions : List.Forall₂ (scope.LowersStatement lowered.eventData) t.actions lowered.actions

/-- The warnings of a trigger. -/
def triggerWarnings (scope : Scope) (state : String) (index : Nat) (t : Syntax.Trigger) :
    List Warning :=
  scope.droppedAll (.trigger state index) 0 .empty t.conditions

theorem follows_empty (c : Syntax.Condition) : scope.Follows .empty c := by
  intro name type h
  cases h

theorem trigger_gives_iff {state : String} {index : Nat} {t : Syntax.Trigger}
    {lowered : Machine.Trigger} :
    (scope.trigger state index t).Gives ws lowered ws' ↔
      scope.LowersTrigger t lowered ∧ ws' = ws ++ scope.triggerWarnings state index t := by
  unfold trigger triggerWarnings
  simp only [Lowering.gives_bind, Lowering.gives_liftM, Lowering.gives_pure, Prod.exists,
    conditions_gives_iff, mapM_statement_eq_ok_iff]
  constructor
  · rintro ⟨_, _, _, ⟨hdeclared, -, hchain, rfl, rfl, rfl⟩, _, _, ⟨hactions, rfl⟩, rfl, rfl⟩
    exact ⟨⟨hdeclared, hchain, rfl, rfl, hactions⟩, rfl⟩
  · rintro ⟨⟨hdeclared, hchain, hconditions, heventData, hactions⟩, rfl⟩
    obtain ⟨conditions, eventData, actions⟩ := lowered
    subst hconditions heventData
    exact ⟨_, _, _, ⟨hdeclared, fun c _ => follows_empty c, hchain, rfl, rfl, rfl⟩, _, _,
      ⟨hactions, rfl⟩, rfl, rfl⟩

/-- The warnings of several triggers, where the first has the given index. -/
def triggersWarnings (scope : Scope) (state : String) :
    (index : Nat) → List Syntax.Trigger → List Warning
  | _, [] => []
  | index, t :: ts =>
    scope.triggerWarnings state index t ++ scope.triggersWarnings state (index + 1) ts

theorem triggers_gives_iff {state : String} {index : Nat} {ts : List Syntax.Trigger}
    {lowered : List Machine.Trigger} :
    (scope.triggers state index ts).Gives ws lowered ws' ↔
      List.Forall₂ scope.LowersTrigger ts lowered ∧
        ws' = ws ++ scope.triggersWarnings state index ts := by
  induction ts generalizing index lowered ws ws' with
  | nil =>
    unfold triggers triggersWarnings
    rw [Lowering.gives_pure, List.forall₂_nil_left_iff, List.append_nil]
  | cons t ts ih =>
    unfold triggers triggersWarnings
    simp only [Lowering.gives_bind, Lowering.gives_pure, trigger_gives_iff, ih]
    constructor
    · rintro ⟨_, _, ⟨ht, rfl⟩, _, _, ⟨hts, rfl⟩, rfl, rfl⟩
      exact ⟨.cons ht hts, List.append_assoc _ _ _⟩
    · rintro ⟨_ | ⟨ht, hts⟩, rfl⟩
      exact ⟨_, _, ⟨ht, rfl⟩, _, _, ⟨hts, rfl⟩, rfl, (List.append_assoc _ _ _).symm⟩

end Compile.Scope

end EventMachine
