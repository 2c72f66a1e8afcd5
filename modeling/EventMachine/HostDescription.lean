import EventMachine.Machine.Run
import EventMachine.Registry
import EventMachine.Yaml.Datum

/-!
# Descriptions of hosts

A YAML file may describe the triggers and actions of a host and the constants that it offers:

```text
triggers:
  Button: { pressed: bool, code: int }
actions:
  led: { lit: bool, level: int }
constants:
  brightness: 40
```

Fields and inputs have the order of the file. Of triggers, actions or constants with one name the
last counts. Actions described so do nothing of their own: the text of a call is handed on.
-/

namespace EventMachine

open Yaml

universe u

/-- The described triggers, actions and constants. -/
structure HostDescription where
  triggers : NameMap (List (Datum × Datum))
  actions : NameMap (List (Datum × Datum))
  constants : NameMap Json

namespace HostDescription

/-- Why a description yields no registry. -/
structure Invalid where
  /-- What is described: `trigger` or `action`. -/
  subject : String
  name : String
  reason : String
deriving DecidableEq

def Invalid.message (i : Invalid) : String := i.subject ++ " " ++ i.name ++ ": " ++ i.reason

/-- Reads the named entries of a section, each as `read` does. A section may be missing. -/
def section? (read : Node → Option α) (name : String) (fields : List (String × Node)) :
    Option (NameMap α) := do
  let node := (← field? name fields).getD .absent
  if node.depth < maxDepth then
    let entries ← node.fields?
    let values ← entries.mapM fun (name, node) => do return (name, ← read node)
    return NameMap.ofList values
  else none

/-- Reads typed names; which types there are is not looked at yet. -/
def typedNames? (node : Node) : Option (List (Datum × Datum)) := do
  let entries ← node.entries?
  Datum.ofEntries? [] entries

/-- The description in a document. -/
def ofDocument? (d : Document) : Option HostDescription := do
  let fields ← d.root.fields?
  return {
    triggers := ← section? typedNames? "triggers" fields
    actions := ← section? typedNames? "actions" fields
    constants := ← section? Node.json? "constants" fields }

/-- Reads a description. -/
def parse? (text : String) : Option HostDescription := (Document.parse? text).bind ofDocument?

/-- The declaration that a typed name makes. -/
def declaration (entry : Datum × Datum) : Except String (String × ValueType) :=
  match entry.1.string? with
  | none => .error ("field name " ++ entry.1.text ++ " is not a string")
  | some name =>
    match entry.2.string? with
    | none => .error ("type of " ++ name ++ " is not a string")
    | some type =>
      match ValueType.ofDescription type with
      | .error e => .error (name ++ ": " ++ e)
      | .ok type => .ok (name, type)

/-- The signatures of a section, which are looked at in ascending order of their names. -/
def signatures (subject : String) (described : NameMap (List (Datum × Datum))) :
    Except Invalid (NameMap Signature) := do
  let named ← described.entries.mapM fun (name, entries) =>
    match entries.mapM declaration with
    | .error reason => Except.error ⟨subject, name, reason⟩
    | .ok declarations => .ok (name, Signature.ofDeclarations declarations)
  return NameMap.ofList named

/-- The registry of the described triggers and actions; triggers are looked at first. -/
def registry (d : HostDescription) : Except Invalid Registry := do
  let triggers ← signatures "trigger" d.triggers
  let actions ← signatures "action" d.actions
  return ⟨triggers, actions⟩

/-- The values of the described constants; their identities count from `identity`. -/
def values (d : HostDescription) (identity : Nat) : List (String × Value) :=
  Value.ofMembers identity d.constants.entries

/-- The host whose actions hand the texts of their calls to `note` and never fail. -/
def host {σ : Type u} (note : String → σ → σ) : Host σ where
  perform action arguments h := (.ok (), note (callText action arguments) h)

end HostDescription

end EventMachine
