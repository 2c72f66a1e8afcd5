import EventMachine.Number.Binary64
import EventMachine.Token

/-!
# Syntax trees

A source file is a list of entries: assignments of constants and definitions of states. Every node
that an error can be about has the location of its name.
-/

namespace EventMachine.Syntax

open Number

/-- A literal, or the name of a constant or of event data. -/
inductive Expr
  | str (text : String)
  | int (n : Int64)
  | float (x : Binary64)
  | bool (b : Bool)
  | ref (name : String)
deriving DecidableEq

/-- A named argument of a call. -/
structure Arg where
  name : String
  value : Expr
  location : Location
deriving DecidableEq

/-- A call of an action, `name(arg = value, …)`. -/
structure Call where
  name : String
  args : List Arg
  location : Location
deriving DecidableEq

/-- What a state does on entry, or a trigger when it fires. -/
inductive Statement
  | call (call : Call)
  /-- `move destination`, with the location of the destination. -/
  | move (destination : String) (location : Location)
deriving DecidableEq

/-- The event data that a condition mentions, perhaps with the value that it must have. -/
structure Param where
  name : String
  value : Option Expr
  location : Location
deriving DecidableEq

/-- One alternative of a trigger, `Name(param, param = value)`. -/
structure Condition where
  name : String
  params : List Param
  location : Location
deriving DecidableEq

/-- `on condition, … -> statement, …;`, with the location of `on`. -/
structure Trigger where
  conditions : List Condition
  actions : List Statement
  location : Location
deriving DecidableEq

/-- The definition of a state: what it does on entry and the triggers it waits for. -/
structure State where
  name : String
  location : Location
  init : List Statement
  triggers : List Trigger
deriving DecidableEq

/-- `name = value;` -/
structure Assignment where
  name : String
  value : Expr
  location : Location
deriving DecidableEq

/-- An entry of a source file. -/
inductive Entry
  | assign (assignment : Assignment)
  | state (state : State)
deriving DecidableEq

/-- A source file. -/
structure File where
  entries : List Entry
deriving DecidableEq

/-- The states of a file, in order. -/
def File.states (file : File) : List State :=
  file.entries.filterMap fun
    | .state s => some s
    | .assign _ => none

end EventMachine.Syntax
