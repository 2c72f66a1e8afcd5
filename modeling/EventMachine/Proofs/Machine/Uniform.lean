import EventMachine.Proofs.Compile.Redeclaration
import EventMachine.Proofs.Machine.Binding

/-!
# Triggers whose conditions mention the same names

The condition that holds of an event is one of several, and the types of the event data are those of
the last. Where all conditions mention the same names, the checks between neighbours carry the type
of a name from any condition to the last (`LowersTrigger.declares_of_uniform`). So an event with all
fields that are declared for it has all event data of any such trigger
(`LowersTrigger.not_unbound_of_uniform`), and never fails to bind them (`binds_where_uniform`).
-/

namespace EventMachine

universe u

/-- Every name that some condition mentions is mentioned by all. -/
def Syntax.Trigger.Uniform (t : Syntax.Trigger) : Prop :=
  ∀ b ∈ t.conditions, ∀ c ∈ t.conditions, ∀ name ∈ b.names, name ∈ c.names

/-- The payload has a value for each field that is declared for the event, and one of the field's
type unless that is opaque. -/
def Registry.AdmitsEvent (registry : Registry) (event : String) (payload : Payload) : Prop :=
  ∀ fields, registry.triggers.get? event = some fields →
    ∀ name type, fields.type? name = some type →
      ∃ value, payload.get? name = some value ∧ (type ≠ .constant → value.type = type)

namespace Compile.Scope

variable {scope : Scope} {t : Syntax.Trigger} {lowered : Machine.Trigger} {name : String}
  {type : ValueType} {event : String} {payload : Payload} {e : RuntimeError}

/-- A name has the type that the last condition declares in every condition. -/
theorem LowersTrigger.declares_of_uniform (h : scope.LowersTrigger t lowered) (hu : t.Uniform)
    {b c : Syntax.Condition} (hb : b ∈ t.conditions) (hlast : t.conditions.getLast? = some c)
    (hc : Declares scope.registry c name type) : Declares scope.registry b name type := by
  have hmem : c ∈ t.conditions := List.mem_of_getLast? hlast
  have hname : name ∈ b.names := hu c hmem b hb name hc.1
  obtain ⟨type', hb'⟩ := exists_declares (h.declared b hb) hname
  -- the type in `b` is handed on to the last condition
  have hc' : Declares scope.registry c name type' := by
    obtain ⟨before, rest, split⟩ := List.append_of_mem hb
    rcases List.eq_nil_or_concat' rest with rfl | ⟨between, d, rfl⟩
    · rw [split, List.getLast?_concat] at hlast
      cases hlast
      exact hb'
    · rw [split, ← List.cons_append, ← List.append_assoc, List.getLast?_concat] at hlast
      cases hlast
      have hchain := h.chain
      rw [split] at hchain
      refine declares_of_isChain (List.isChain_append.1 hchain).2.1 (fun d hd => ?_) hc.1 hb'
      exact .inr (hu b hb d (by simp [split, hd]) name hname)
  obtain ⟨-, fields, hf, ht⟩ := hc
  obtain ⟨-, fields', hf', ht'⟩ := hc'
  rw [hf] at hf'
  cases hf'
  rw [ht] at ht'
  cases ht'
  exact hb'

/-- The event has what its condition mentions, and so what the last condition declares. -/
theorem LowersTrigger.not_unbound_of_uniform (h : scope.LowersTrigger t lowered) (hu : t.Uniform)
    (hp : scope.registry.AdmitsEvent event payload)
    (hholds : Machine.SomeHolds event payload lowered) :
    ¬ Machine.Unbound event payload lowered name e := by
  rintro ⟨type, htype, hlacks⟩
  rw [h.eventData] at htype
  obtain ⟨c, hlast, hc⟩ := get?_lastEventData_eq_some_iff.1 htype
  obtain ⟨condition, hcondition, hholds⟩ := hholds
  rw [h.conditions] at hcondition
  obtain ⟨b, hb, rfl⟩ := List.mem_map.1 hcondition
  obtain ⟨-, fields, hf, ht⟩ := h.declares_of_uniform hu hb hlast hc
  obtain ⟨rfl, -⟩ := Machine.Condition.holds_iff.1 hholds
  obtain ⟨value, hvalue, htyped⟩ := hp fields hf name type ht
  cases hlacks with
  | missing absent => cases absent.symm.trans hvalue
  | mistyped present typed other =>
    cases present.symm.trans hvalue
    exact other (htyped typed)

end Compile.Scope

open Compile

/-- Whatever operations were done on the instances of a compiled machine: where every trigger of the
current state mentions the same names in all its conditions, an event with all fields that are
declared for it never fails to bind its event data. -/
theorem binds_where_uniform {compiler : Compiler} {filename : String} {file : Syntax.File}
    {m : Machine} (hc : compiler.compile filename file = .ok m) {σ : Type u} (host : Host σ)
    (start : σ) (operations : List Operation) :
    ∀ inst ∈ ((Fleet.start start).run m host operations).2.instances,
      ∃ s ∈ file.states, s.name = inst.current ∧
        ((∀ t ∈ s.triggers, t.Uniform) → ∀ event payload,
          compiler.registry.AdmitsEvent event payload →
          ∀ h e, (m.emit host event payload ⟨inst, h⟩).1 = .error e → ¬ e.IsBinding) := by
  rintro ⟨current, depth⟩ hinst
  obtain ⟨rfl, state, hs⟩ := rests_of_compile hc host start operations _ hinst
  obtain ⟨before, s, after, split, hname, hlowers⟩ := exists_state_of_compile hc hs
  refine ⟨s, mem_states.2 ⟨before, after, split⟩, hname, ?_⟩
  intro huniform event payload hadmits h e hemit he
  obtain ⟨index, trigger, hfires, hbind⟩ :=
    Machine.exists_firstFires_of_emit_eq_error (wellTyped_of_compile hc) hs hemit he
  obtain ⟨name, hunbound, -⟩ := Machine.bind_eq_error_iff.1 hbind
  obtain ⟨t, ht, htrigger⟩ :=
    exists_of_forall₂_mem hlowers.triggers (List.mem_of_getElem? hfires.stands)
  exact htrigger.not_unbound_of_uniform (huniform t ht) hadmits hfires.holds hunbound

/-! ## A till -/

namespace Till

def compiler : Compiler where
  registry :=
    { triggers := .ofList [("Cash", .ofDeclarations [("amount", .int)]),
        ("Card", .ofDeclarations [("holder", .string), ("amount", .int)])]
      actions := .empty }
  narrowing := .warn
  constants := .empty

def paid : Syntax.Trigger where
  conditions :=
    [⟨"Cash", [⟨"amount", none, ⟨1, 21, 6⟩⟩], ⟨1, 16, 4⟩⟩,
      ⟨"Card", [⟨"amount", some (.int 5), ⟨1, 35, 6⟩⟩], ⟨1, 30, 4⟩⟩]
  actions := [.move "Paid" ⟨1, 57, 4⟩]
  location := ⟨1, 13, 2⟩

/-- ```text
state Open { on Cash(amount), Card(amount = 5) -> move Paid; };
state Paid {};
``` -/
def file : Syntax.File :=
  ⟨[.state ⟨"Open", ⟨1, 6, 4⟩, [], [paid]⟩, .state ⟨"Paid", ⟨2, 6, 4⟩, [], []⟩]⟩

def machine : Machine where
  constants := .empty
  entry := "Open"
  states :=
    [{ name := "Open"
       init := []
       triggers :=
         [{ conditions := [⟨"Cash", .empty⟩, ⟨"Card", .ofList [("amount", .int 5)]⟩]
            eventData := .ofList [("amount", .int)]
            actions := [.move "Paid"] }] },
     { name := "Paid", init := [], triggers := [] }]
  warnings := []
  checksum := none

theorem compile_file : compiler.compile "till" file = .ok machine := rfl

def host : Host Unit where
  perform _ _ h := (.ok (), h)

theorem uniform_paid : paid.Uniform := by
  unfold Syntax.Trigger.Uniform
  decide

theorem admits_cash : compiler.registry.AdmitsEvent "Cash" (.ofList [("amount", .int 3)]) := by
  intro fields hf name type ht
  cases hf
  have hfields : (Signature.ofDeclarations [("amount", .int)]).entries = [("amount", .int)] := rfl
  rw [Signature.type?_eq_some_iff, hfields, List.mem_singleton] at ht
  cases ht
  exact ⟨.int 3, rfl, fun _ => rfl⟩

/-- Cash is taken by the first condition, with the type that the second declares. -/
theorem takes_cash :
    compiler.compile "till" file = .ok machine ∧
      ⟨"Open", 0⟩ ∈ ((Fleet.start ()).run machine host [.instantiate]).2.instances ∧
      paid.Uniform ∧ compiler.registry.AdmitsEvent "Cash" (.ofList [("amount", .int 3)]) ∧
      ∀ e, (machine.emit host "Cash" (.ofList [("amount", .int 3)]) ⟨⟨"Open", 0⟩, ()⟩).1 =
        .error e → ¬ e.IsBinding := by
  have hinst : ⟨"Open", 0⟩ ∈ ((Fleet.start ()).run machine host [.instantiate]).2.instances := by
    have hrun : (Fleet.start ()).run machine host [.instantiate] =
      ([.ok ()], ⟨[⟨"Open", 0⟩], ()⟩) := rfl
    rw [hrun]
    exact List.mem_singleton.2 rfl
  refine ⟨compile_file, hinst, uniform_paid, admits_cash, ?_⟩
  obtain ⟨s, hs, hname, hbinds⟩ := binds_where_uniform compile_file host () [.instantiate] _ hinst
  refine fun e => hbinds (fun t ht => ?_) "Cash" _ admits_cash () e
  rcases List.mem_pair.1 hs with rfl | rfl
  · rw [List.mem_singleton.1 ht]
    exact uniform_paid
  · cases ht

end Till

end EventMachine
