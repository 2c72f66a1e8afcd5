import EventMachine.Checksum
import EventMachine.Compile.Error

/-!
# Machines

A machine is what a source compiles to: its states in the order of their definition, each with the
steps it takes on entry and the triggers it waits for, and the constants as they are at the end.
-/

namespace EventMachine

/-- What an argument takes its value from. -/
inductive Operand
  | literal (value : Value)
  /-- The event data of this name that the trigger has bound. -/
  | eventData (name : String)
deriving DecidableEq

/-- A statement, ready to run. -/
inductive Step
  | move (destination : String)
  /-- A call of an action with its arguments, in the order of the action's inputs. -/
  | call (action : String) (arguments : List (String × Operand))
deriving DecidableEq

namespace Machine

/-- One alternative of a trigger: an event, and the values that its data must have. -/
structure Condition where
  trigger : String
  constraints : NameMap Value
deriving DecidableEq

/-- A trigger of a state, with the event data that its steps may use. -/
structure Trigger where
  conditions : List Condition
  eventData : NameMap ValueType
  actions : List Step
deriving DecidableEq

/-- A state with its steps on entry and its triggers, in order. -/
structure State where
  name : String
  init : List Step
  triggers : List Trigger
deriving DecidableEq

end Machine

/-- A compiled source. -/
structure Machine where
  constants : NameMap Value
  /-- The state that instances begin in. -/
  entry : String
  states : List Machine.State
  warnings : List Warning
  /-- The checksum of the source, if it was compiled from one. -/
  checksum : Option Checksum
deriving DecidableEq

namespace Machine

/-- The state of a name. -/
def state? (m : Machine) (name : String) : Option State := m.states.find? (·.name = name)

/-- The names of the states, in the order of their definition. -/
def stateNames (m : Machine) : List String := m.states.map (·.name)

/-- The event is the condition's and its data have every value that the condition asks for. -/
def Condition.holds (c : Condition) (event : String) (payload : Payload) : Bool :=
  c.trigger = event &&
    c.constraints.entries.all fun (name, value) => (payload.get? name).any (·.same value)

/-- Some alternative of the trigger holds. -/
def Trigger.fires (t : Trigger) (event : String) (payload : Payload) : Bool :=
  t.conditions.any (·.holds event payload)

end Machine

end EventMachine
