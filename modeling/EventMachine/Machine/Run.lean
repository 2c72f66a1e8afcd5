import EventMachine.Machine.Basic
import EventMachine.Machine.Error

/-!
# Running machines

An instance of a machine is in one of its states. `Machine.moveTo` enters a state and runs the
steps it takes on entry; `Machine.emit` lets the first trigger of the current state that fires run
its steps. Steps call the actions of a host, which has a state of its own and may fail; a failure
ends the operation and leaves everything as it is by then.

Steps on entry may move on. The number of entries that are under way is the depth of the instance;
it never exceeds `maxMoveDepth`.
-/

namespace EventMachine

universe u

/-- The arguments that an action is called with, in the order of its inputs. -/
abbrev Arguments := List (String × Value)

/-- A call of an action as `name(input=value, …)`. -/
def callText (action : String) (arguments : Arguments) : String :=
  action ++ "(" ++ ", ".intercalate (arguments.map fun (name, value) => name ++ "=" ++ value.text) ++
    ")"

/-- A host that performs actions; its state has the type `σ`. -/
structure Host (σ : Type u) where
  /-- Performs an action, or tells why it failed. -/
  perform : String → Arguments → σ → Except String Unit × σ

/-- Where an instance stands. -/
structure Instance where
  current : String
  /-- The number of entries that are under way. -/
  depth : Nat
deriving DecidableEq

/-- An instance and its host's state. -/
structure World (σ : Type u) where
  inst : Instance
  host : σ

/-- An operation on an instance. It changes the world also when it fails. -/
abbrev Run (σ : Type u) (α : Type) := World σ → Except RuntimeError α × World σ

/-- A trigger that fired. -/
structure Fired where
  /-- The state that the trigger belongs to. -/
  source : String
  /-- The current state after its steps. -/
  target : String
  /-- The index of the trigger among those of its state. -/
  trigger : Nat
deriving DecidableEq

/-- The firing ended in another state. -/
def Fired.transitioned (f : Fired) : Bool := f.source ≠ f.target

/-- What became of an event. -/
inductive Outcome
  | fired (f : Fired)
  /-- No trigger of the current state fired. -/
  | noMatch
deriving DecidableEq

/-- The value of an operand, by the bound event data. -/
def Operand.resolve (data : NameMap Value) : Operand → Except RuntimeError Value
  | .literal value => .ok value
  | .eventData name =>
    match data.get? name with
    | some value => .ok value
    | none => .error (.undefinedVariable name)

/-- The values of arguments, by the bound event data. -/
def resolveArguments (data : NameMap Value) :
    List (String × Operand) → Except RuntimeError Arguments
  | [] => .ok []
  | (name, operand) :: rest => do
    let value ← operand.resolve data
    return (name, value) :: (← resolveArguments data rest)

namespace Machine

variable {σ : Type u}

/-! ## Steps -/

/-- Calls an action with the values of its arguments. -/
def call (host : Host σ) (data : NameMap Value) (action : String)
    (arguments : List (String × Operand)) : Run σ Unit := fun w =>
  match resolveArguments data arguments with
  | .error e => (.error e, w)
  | .ok arguments =>
    match host.perform action arguments w.host with
    | (.ok (), h) => (.ok (), { w with host := h })
    | (.error cause, h) => (.error (.actionFailed action cause), { w with host := h })

/-- Runs a step, where `move` makes the moves. -/
def runStep (host : Host σ) (move : String → Run σ Unit) (data : NameMap Value) :
    Step → Run σ Unit
  | .move destination => move destination
  | .call action arguments => call host data action arguments

/-- Runs steps one after the other, up to the first that fails. -/
def runSteps (host : Host σ) (move : String → Run σ Unit) (data : NameMap Value) :
    List Step → Run σ Unit
  | [], w => (.ok (), w)
  | step :: steps, w =>
    match runStep host move data step w with
    | (.ok (), w) => runSteps host move data steps w
    | (.error e, w) => (.error e, w)

/-! ## Moves -/

/-- An operation during which one more entry is under way. -/
def nested (p : Run σ α) : Run σ α := fun w =>
  let (result, w) := p { w with inst.depth := w.inst.depth + 1 }
  (result, { w with inst.depth := w.inst.depth - 1 })

/-- Enters a state while `room` more entries may be under way: it becomes the current one, and the
steps on its entry are run without event data. -/
def enter (m : Machine) (host : Host σ) : (room : Nat) → String → Run σ Unit
  | 0, destination => fun w => (.error (.moveDepthExceeded destination), w)
  | room + 1, destination => fun w =>
    match m.state? destination with
    | none => (.error (.unknownState destination), w)
    | some state =>
      nested (runSteps host (enter m host room) .empty state.init)
        { w with inst.current := destination }

/-- Enters a state. -/
def moveTo (m : Machine) (host : Host σ) (destination : String) : Run σ Unit := fun w =>
  enter m host (maxMoveDepth - w.inst.depth) destination w

/-- A new instance, which has entered the machine's first state. There is none if that fails. -/
def instantiate (m : Machine) (host : Host σ) (h : σ) : Except RuntimeError Instance × σ :=
  let (result, w) := moveTo m host m.entry ⟨⟨m.entry, 0⟩, h⟩
  (result.map fun _ => w.inst, w.host)

/-! ## Events -/

/-- The first trigger that fires, with its index, where the first of the list has the index
`index`. -/
def firstFiring? (event : String) (payload : Payload) (index : Nat) :
    List Trigger → Option (Nat × Trigger)
  | [] => none
  | t :: ts =>
    if t.fires event payload then some (index, t) else firstFiring? event payload (index + 1) ts

/-- Takes the named values of the declared types from a payload, in ascending order of the names.
Opaque values are taken as they are. -/
def bindEntries (event : String) (payload : Payload) :
    List (String × ValueType) → NameMap Value → Except RuntimeError (NameMap Value)
  | [], data => .ok data
  | (name, type) :: rest, data =>
    match payload.get? name with
    | none => .error (.missingEventData event name)
    | some value =>
      if type ≠ .constant ∧ value.type ≠ type then
        .error (.typeMismatch name type value.type)
      else bindEntries event payload rest (data.insert name value)

/-- The event data of a trigger that fires. -/
def Trigger.bind (t : Trigger) (event : String) (payload : Payload) :
    Except RuntimeError (NameMap Value) :=
  bindEntries event payload t.eventData.entries .empty

/-- Lets an event happen: the first trigger of the current state that fires runs its steps. -/
def emit (m : Machine) (host : Host σ) (event : String) (payload : Payload) : Run σ Outcome :=
  fun w =>
    let source := w.inst.current
    match m.state? source with
    | none => (.error (.unknownState source), w)
    | some state =>
      match firstFiring? event payload 0 state.triggers with
      | none => (.ok .noMatch, w)
      | some (index, t) =>
        match t.bind event payload with
        | .error e => (.error e, w)
        | .ok data =>
          let (result, w) := runSteps host (moveTo m host) data t.actions w
          (result.map fun _ => .fired ⟨source, w.inst.current, index⟩, w)

end Machine

end EventMachine
