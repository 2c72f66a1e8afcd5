import EventMachine.Syntax.Error
import EventMachine.Value

/-!
# Compile errors and warnings

An error that is about a place in the source has a site: the file, the location of the name it is
about, and the construct around it.
-/

namespace EventMachine

/-- What to do when a condition leaves out event data of an earlier condition of its trigger. -/
inductive NarrowingPolicy
  /-- Drop the name and warn. -/
  | warn
  /-- Refuse the source. -/
  | deny
deriving DecidableEq

namespace NarrowingPolicy

def name : NarrowingPolicy → String
  | warn => "warn"
  | deny => "deny"

/-- The policy of this very name. -/
def ofName? (name : String) : Option NarrowingPolicy := [warn, deny].find? (·.name = name)

/-- The policy that a description names, in any letter case. -/
def ofDescription (text : String) : Except String NarrowingPolicy :=
  let text := Text.lowercase text
  match ofName? text with
  | some policy => .ok policy
  | none => .error ("unknown narrowing policy '" ++ text ++ "'")

end NarrowingPolicy

/-- The construct that an error or warning is found in. -/
inductive Context
  | assignment (name : String)
  | state (name : String)
  /-- The statements on entry of a state. -/
  | init (owner : String)
  /-- The trigger of a state with the given index. -/
  | trigger (owner : String) (index : Nat)
deriving DecidableEq

def Context.text : Context → String
  | assignment name => "assignment " ++ name
  | state name => "state " ++ name
  | init owner => "state " ++ owner ++ " init"
  | trigger owner index => "trigger " ++ owner ++ "#" ++ toString index

/-- Where an error or warning is found. -/
structure Site where
  filename : String
  location : Location
  context : Context
deriving DecidableEq

def Site.text (s : Site) : String :=
  s.filename ++ ":" ++ s.location.text ++ ": in " ++ s.context.text

/-- What has a type other than the declared one. -/
inductive MismatchKind
  /-- The value that a condition asks for. -/
  | eventData
  /-- An argument of a call. -/
  | argument
  /-- Event data that an earlier condition of the trigger has with another type. -/
  | redeclaration
deriving DecidableEq

def MismatchKind.name : MismatchKind → String
  | eventData => "event-data"
  | argument => "argument"
  | redeclaration => "redeclared event-data"

/-- What is wrong at a site. -/
inductive Fault
  | unspecifiedTrigger (trigger : String)
  | unspecifiedEventData (trigger name : String)
  | unspecifiedAction (action : String)
  | unspecifiedArgument (action argument : String)
  | duplicateArgument (action argument : String)
  | typeMismatch (kind : MismatchKind) (name : String) (expected actual : ValueType)
  | undefinedVariable (name : String)
  | narrowedEventData (name : String) (condition : Nat)
  | duplicateState (state : String)
deriving DecidableEq

namespace Fault

open Text (quote)

def message : Fault → String
  | unspecifiedTrigger trigger => "unspecified trigger " ++ quote trigger
  | unspecifiedEventData trigger name =>
    "unspecified event-data " ++ quote name ++ " for trigger " ++ trigger
  | unspecifiedAction action => "unspecified action " ++ quote action
  | unspecifiedArgument action argument =>
    "unspecified argument " ++ quote argument ++ " for action " ++ action
  | duplicateArgument action argument =>
    "argument " ++ quote argument ++ " given more than once to action " ++ action
  | typeMismatch kind name expected actual =>
    "type mismatch for " ++ kind.name ++ " " ++ quote name ++ ": expected " ++ expected.name ++
      ", got " ++ actual.name
  | undefinedVariable name => "undefined variable " ++ quote name
  | narrowedEventData name condition =>
    "event-data " ++ quote name ++ " not mentioned in condition #" ++ toString condition
  | duplicateState state => "state " ++ quote state ++ " already defined"

end Fault

/-- Why a source does not compile. -/
inductive CompileError
  | syntactic (cause : Syntax.ParseError)
  | semantic (site : Site) (fault : Fault)
  /-- The source defines no state. -/
  | emptyMachine (filename : String)
deriving DecidableEq

namespace CompileError

def message : CompileError → String
  | syntactic cause => cause.message
  | semantic site fault => site.text ++ ": " ++ fault.message
  | emptyMachine filename => filename ++ ": empty state machine"

def site? : CompileError → Option Site
  | semantic site _ => some site
  | _ => none

/-- The place in the source that the error is about. -/
def location? : CompileError → Option Location
  | syntactic cause => cause.location?
  | semantic site _ => some site.location
  | emptyMachine _ => none

end CompileError

/-- Notice that a condition leaves out event data of an earlier one. -/
structure Warning where
  site : Site
  name : String
  /-- The index of the condition that leaves the name out. -/
  condition : Nat
deriving DecidableEq

def Warning.message (w : Warning) : String :=
  w.site.text ++ ": dropping previous event-data " ++ Text.quote w.name ++
    ": not mentioned in condition #" ++ toString w.condition

end EventMachine
