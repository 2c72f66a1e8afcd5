import EventMachine.Compile.Error
import EventMachine.Yaml.Datum

/-!
# Settings

How the command line compiles and runs machines. Settings have defaults, a YAML file may change
them, and environment variables come last.
-/

namespace EventMachine

open Yaml

/-- The settings of the command line. -/
structure Settings where
  narrowing : NarrowingPolicy
  /-- Which notices the program logs. -/
  logFilter : String
  /-- The file that keeps the lines of sessions, if any does. -/
  history : Option String
  /-- What a session shows before each line. -/
  prompt : String
deriving DecidableEq

/-- The values of environment variables. -/
abbrev Environment := String → Option String

namespace Settings

/-- A file in a directory. -/
def inDirectory (directory file : String) : String :=
  match directory.toList.getLast? with
  | none | some '/' => directory ++ file
  | some _ => directory ++ "/" ++ file

/-- The name of the file that keeps the lines of sessions. -/
def historyFile : String := ".mova_history"

/-- The settings without a file and without environment variables other than the home directory. -/
def default (home : Option String) : Settings where
  narrowing := .warn
  logFilter := "warn"
  history := some <| match home with
    | some directory => inDirectory directory historyFile
    | none => historyFile
  prompt := "mova>"

/-- Reads an optional text: null stands for none. -/
def optionalText? : Node → Option (Option String)
  | .scalar s plain => some (if plain && meaning s = .null then none else some s)
  | _ => none

/-- Reads a field of a section, which may be missing and then has the value `default`. -/
def read? (section? : Option Node) (name : String) (decode : Node → Option α) (default : α) :
    Option α := do
  let fields ← (section?.getD .absent).fields?
  match ← field? name fields with
  | none => some default
  | some node => decode node

/-- The settings of a document, where `s` are the defaults. -/
def ofDocument? (s : Settings) (d : Document) : Option Settings := do
  let fields ← d.root.fields?
  let compiler ← field? "compiler" fields
  let log ← field? "log" fields
  let session ← field? "repl" fields
  let policy (node : Node) := node.text?.bind NarrowingPolicy.ofName?
  return {
    narrowing := ← read? compiler "narrowing" policy s.narrowing
    logFilter := ← read? log "filter" Node.text? s.logFilter
    history := ← read? session "history" optionalText? s.history
    prompt := ← read? session "prompt" Node.text? s.prompt }

/-- The settings with the changes that the environment makes. A policy that does not exist changes
nothing, and an empty history file means none. -/
def override (s : Settings) (env : Environment) : Settings where
  narrowing :=
    match (env "MOVA_NARROWING").map NarrowingPolicy.ofDescription with
    | some (.ok policy) => policy
    | _ => s.narrowing
  logFilter := (env "MOVA_LOG").getD s.logFilter
  history :=
    match env "MOVA_HISTORY" with
    | some file => if file.isEmpty then none else some file
    | none => s.history
  prompt := s.prompt

/-- The variable that names the settings file. -/
def fileVariable : String := "MOVA_CONFIG"

/-- The settings of an environment, without a file. -/
def ofEnvironment (env : Environment) : Settings := (default (env "HOME")).override env

/-- The settings of an environment and the text of a file. -/
def ofText? (env : Environment) (text : String) : Option Settings := do
  let document ← Document.parse? text
  let settings ← ofDocument? (default (env "HOME")) document
  return settings.override env

end Settings

end EventMachine
