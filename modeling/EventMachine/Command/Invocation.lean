import EventMachine.Command.Options
import EventMachine.Settings

/-!
# Invocations

The program has four commands, each about one source file; an invocation is a command with its
files, and the settings file that is named before the command or by the environment.
-/

namespace EventMachine

/-- The names of the commands. -/
inductive Verb
  | tokens
  | parse
  | check
  | run
deriving DecidableEq

namespace Verb

def all : List Verb := [tokens, parse, check, run]

def name : Verb → String
  | tokens => "tokens"
  | parse => "parse"
  | check => "check"
  | run => "run"

def ofName? (name : String) : Option Verb := all.find? (·.name = name)

/-- The options of a command. -/
def options : Verb → OptionSet
  | tokens | parse => ⟨[], false⟩
  | check => ⟨[.registry], false⟩
  | run => ⟨[.registry, .script], false⟩

/-- The options that must be given. -/
def required : Verb → List OptionName
  | tokens | parse => []
  | check | run => [.registry]

end Verb

/-- What a file is used for. -/
inductive FileRole
  | settings
  /-- The description of the host. -/
  | description
  | source
  | script
deriving DecidableEq

def FileRole.name : FileRole → String
  | .settings => "config"
  | .description => "registry"
  | .source => "source"
  | .script => "script"

/-- A command with its files. -/
inductive Command
  /-- Print the tokens of a source file. -/
  | tokens (file : String)
  /-- Print the syntax tree of a source file. -/
  | parse (file : String)
  /-- Compile a source file and print what it defines. -/
  | check (file registry : String)
  /-- Run a machine by a script, or else by the lines of a conversation. -/
  | run (file registry : String) (script : Option String)
deriving DecidableEq

/-- The files that a command reads, in this order. -/
def Command.files : Command → List (FileRole × String)
  | tokens file | parse file => [(.source, file)]
  | check file registry => [(.description, registry), (.source, file)]
  | run file registry script =>
    [(.description, registry), (.source, file)] ++ script.toList.map (.script, ·)

/-- What a command line asks for. -/
structure Invocation where
  settingsFile : Option String
  command : Command
deriving DecidableEq

/-- What help may be about. -/
inductive Topic
  | program
  | verb (verb : Verb)
  /-- The command `help`. -/
  | help
deriving DecidableEq

/-- Why a command line is not carried out. -/
inductive Refusal
  | help (topic : Topic)
  | version
  /-- It is wrong in the words for the topic. -/
  | misuse (topic : Topic) (cause : Misuse)
deriving DecidableEq

/-- An interruption among the options of a command, or of the program. -/
def Interruption.refusal (topic : Topic) : Interruption → Refusal
  | help => .help topic
  | version => .version
  | misuse cause => .misuse topic cause

namespace Invocation

/-- The files that an invocation reads, in this order. -/
def files (i : Invocation) : List (FileRole × String) :=
  i.settingsFile.toList.map (.settings, ·) ++ i.command.files

/-- The options that may stand before the command. -/
def options : OptionSet := ⟨[.config], true⟩

/-- Reads the options of a command and its file, which may be missing. -/
def readArguments (set : OptionSet) (words : List String) :
    Except Interruption (OptionValues × Option String) := do
  let before ← readOptions set [] none words
  match before.words with
  | [] => .ok (before.values, none)
  | file :: words =>
    if file.isEmpty then .error (.misuse .emptyFile)
    else
      let after ←
        if before.separated then .ok ⟨before.values, words, true⟩
        else readOptions set before.values none words
      match after.words with
      | [] => .ok (after.values, some file)
      | word :: _ => .error (.misuse (.unexpectedOperand word))

/-- Reads a command from the words after its name. -/
def readCommand (verb : Verb) (words : List String) : Except Interruption Command := do
  let (values, file) ← readArguments verb.options words
  match verb, file, values.lookup .registry with
  | .tokens, some file, _ => return .tokens file
  | .parse, some file, _ => return .parse file
  | .check, some file, some registry => return .check file registry
  | .run, some file, some registry => return .run file registry (values.lookup .script)
  | verb, file, _ =>
    let options := verb.required.filter fun name => (values.lookup name).isNone
    .error (.misuse (.missing options file.isNone))

/-- What the command `help` asks for. -/
def helpRefusal : List String → Refusal
  | [] => .help .program
  | word :: words =>
    match (Verb.ofName? word).map Topic.verb <|> if word = "help" then some .help else none with
    | none => .misuse .program (.unknownCommand word)
    | some topic =>
      match words with
      | [] => .help topic
      | word :: _ => .misuse topic (.unknownCommand word)

/-- The settings file: the one of the option, or else the one that the environment names. -/
def namedSettings (env : Environment) (values : OptionValues) : Except Refusal (Option String) :=
  match values.lookup .config, env Settings.fileVariable with
  | some file, _ => .ok (some file)
  | none, some file =>
    if file.isEmpty then .error (.misuse .program (.noValue .config)) else .ok (some file)
  | none, none => .ok none

/-- The invocation that the words of a command line make. -/
def ofWords (env : Environment) (words : List String) : Except Refusal Invocation := do
  let before ← (readOptions options [] none words).mapError (·.refusal .program)
  match before.words with
  | [] =>
    let file ← namedSettings env before.values
    .error (.misuse .program (if file.isSome then .noCommand else .nothing))
  | word :: words =>
    let verb := Verb.ofName? word
    let known := verb.isSome || word = "help"
    if before.separated && known then .error (.misuse .program (.separatedCommand word))
    else if word = "help" then .error (helpRefusal words)
    else
      match verb with
      | none => .error (.misuse .program (.unknownCommand word))
      | some verb =>
        let command ← (readCommand verb words).mapError (·.refusal (.verb verb))
        return ⟨← namedSettings env before.values, command⟩

end Invocation

end EventMachine
