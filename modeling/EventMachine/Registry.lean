import EventMachine.Value

/-!
# What a host offers

A registry names the triggers that a host emits, with the fields of their event data, and the
actions that it performs, with their inputs. Fields and inputs have types and an order, that of
their first declaration.
-/

namespace EventMachine

/-- Typed names in the order of their declaration. -/
structure Signature where
  entries : List (String × ValueType)
  nodup : (entries.map (·.1)).Nodup
deriving DecidableEq

namespace Signature

/-- The signature without names. -/
def empty : Signature := ⟨[], .nil⟩

instance : Inhabited Signature := ⟨empty⟩

/-- The entries with the type of one name changed. -/
def retype (name : String) (type : ValueType) (entries : List (String × ValueType)) :
    List (String × ValueType) :=
  entries.map fun e => if e.1 = name then (name, type) else e

theorem names_retype (name : String) (type : ValueType) (entries : List (String × ValueType)) :
    (retype name type entries).map (·.1) = entries.map (·.1) := by
  induction entries with
  | nil => rfl
  | cons e entries ih =>
    simp only [retype, List.map_cons, List.map_map] at ih ⊢
    rw [ih]
    split <;> simp_all

/-- Declares a name: a new one comes last, a known one changes its type where it stands. -/
def declare (s : Signature) (name : String) (type : ValueType) : Signature :=
  if h : name ∈ s.entries.map (·.1) then
    ⟨retype name type s.entries, names_retype name type s.entries ▸ s.nodup⟩
  else
    ⟨s.entries ++ [(name, type)], by
      rw [List.map_append, List.nodup_append]
      exact ⟨s.nodup, by simp, by grind⟩⟩

/-- The signature of declarations made one after the other. -/
def ofDeclarations (declarations : List (String × ValueType)) : Signature :=
  declarations.foldl (fun s d => s.declare d.1 d.2) empty

/-- The type of a name. -/
def type? (s : Signature) (name : String) : Option ValueType := s.entries.lookup name

theorem type?_eq_some_iff (s : Signature) {name : String} {type : ValueType} :
    s.type? name = some type ↔ (name, type) ∈ s.entries :=
  NameMap.lookup_eq_some_iff_of_nodup s.nodup

end Signature

/-- The triggers and actions of a host. -/
structure Registry where
  triggers : NameMap Signature
  actions : NameMap Signature
deriving DecidableEq

namespace Registry

def empty : Registry := ⟨.empty, .empty⟩

instance : Inhabited Registry := ⟨empty⟩

/-- Adds a trigger with the fields of its event data, instead of one with the same name. -/
def addTrigger (r : Registry) (name : String) (fields : Signature) : Registry :=
  { r with triggers := r.triggers.insert name fields }

/-- Adds an action with its inputs, instead of one with the same name. -/
def addAction (r : Registry) (name : String) (inputs : Signature) : Registry :=
  { r with actions := r.actions.insert name inputs }

end Registry

end EventMachine
