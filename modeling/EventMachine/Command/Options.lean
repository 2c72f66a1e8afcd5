/-!
# Options and operands

A command line is a list of words. A word that begins with a dash is an option, by its letter or by
its name, unless it is a dash alone or stands after `--`; all others are operands. Some options take
a value: in the same word, after an equals sign or right after the letter, or in the next word.
-/

namespace EventMachine

/-- The options that take a value. -/
inductive OptionName
  /-- The settings file. -/
  | config
  /-- The description of the host. -/
  | registry
  /-- The script to run. -/
  | script
deriving DecidableEq

namespace OptionName

def long : OptionName → String
  | config => "config"
  | registry => "registry"
  | script => "script"

def short : OptionName → Char
  | config => 'c'
  | registry => 'r'
  | script => 's'

/-- What stands for the value. -/
def placeholder : OptionName → String
  | config => "<CONFIG>"
  | registry => "<REGISTRY>"
  | script => "<SCRIPT>"

end OptionName

/-- What is wrong with a command line. -/
inductive Misuse
  | unknownOption (option : String)
  /-- An option is given twice. -/
  | repeated (name : OptionName)
  /-- The value of an option is missing or empty. -/
  | noValue (name : OptionName)
  /-- A value is given to an option that takes none. -/
  | needlessValue (option value : String)
  | unexpectedOperand (word : String)
  | emptyFile
  /-- What must be given is missing: some options, and perhaps the file. -/
  | missing (options : List OptionName) (file : Bool)
  /-- No command is given, but something else is. -/
  | noCommand
  /-- Nothing at all is given. -/
  | nothing
  | unknownCommand (word : String)
  /-- A command stands behind `--`. -/
  | separatedCommand (word : String)
deriving DecidableEq

/-- Why a command line is not carried out as a command. -/
inductive Interruption
  | help
  | version
  | misuse (cause : Misuse)
deriving DecidableEq

/-- The options that a part of a command line may have besides the one for help. -/
structure OptionSet where
  names : List OptionName
  version : Bool

/-- An option of a set. -/
inductive Flag
  | help
  | version
  | value (name : OptionName)
deriving DecidableEq

namespace OptionSet

/-- The option of a name. -/
def long? (set : OptionSet) (name : String) : Option Flag :=
  if name = "help" then some .help
  else if set.version ∧ name = "version" then some .version
  else (set.names.find? (·.long = name)).map .value

/-- The option of a letter. -/
def short? (set : OptionSet) (letter : Char) : Option Flag :=
  if letter = 'h' then some .help
  else if set.version ∧ letter = 'V' then some .version
  else (set.names.find? (·.short = letter)).map .value

end OptionSet

/-- A word of a command line, by its form. -/
inductive ArgumentWord
  /-- `--`, after which all words are operands. -/
  | separator
  /-- `--name` or `--name=value`. -/
  | long (name : String) (value : Option String)
  /-- A dash, a letter, and what follows it. -/
  | short (letter : Char) (rest : List Char)
  | operand
deriving DecidableEq

/-- Cuts at the first equals sign. -/
def cutEquals (cs : List Char) : String × Option String :=
  match cs.dropWhile (· ≠ '=') with
  | [] => (String.ofList cs, none)
  | _ :: value => (String.ofList (cs.takeWhile (· ≠ '=')), some (String.ofList value))

/-- The form of a word. -/
def ArgumentWord.ofText (word : String) : ArgumentWord :=
  match word.toList with
  | ['-', '-'] => separator
  | '-' :: '-' :: cs => let (name, value) := cutEquals cs; long name value
  | ['-'] => operand
  | '-' :: letter :: rest => short letter rest
  | _ => operand

/-- The values of options. -/
abbrev OptionValues := List (OptionName × String)

/-- Adds the value of an option, which must not have one yet. -/
def OptionValues.give (values : OptionValues) (name : OptionName) (value : String) :
    Except Interruption OptionValues :=
  if (values.lookup name).isSome then .error (.misuse (.repeated name))
  else if value.isEmpty then .error (.misuse (.noValue name))
  else .ok ((name, value) :: values)

/-- The value in the letter's own word. -/
def attachedValue (rest : List Char) : Option String :=
  match rest with
  | [] => none
  | '=' :: value => some (String.ofList value)
  | value => some (String.ofList value)

/-- The words behind some options. -/
structure Remainder where
  /-- The values of the options. -/
  values : OptionValues
  /-- The first operand and all words after it. -/
  words : List String
  /-- All of them are operands, since `--` stood before them. -/
  separated : Bool
deriving DecidableEq

/-- Reads options up to the first operand. The value of the option `awaiting` is still to come. -/
def readOptions (set : OptionSet) (values : OptionValues) (awaiting : Option OptionName) :
    List String → Except Interruption Remainder
  | [] =>
    match awaiting with
    | some name => .error (.misuse (.noValue name))
    | none => .ok ⟨values, [], false⟩
  | word :: words =>
    match awaiting, ArgumentWord.ofText word with
    | some name, .operand => do readOptions set (← values.give name word) none words
    | some name, _ => .error (.misuse (.noValue name))
    | none, .operand => .ok ⟨values, word :: words, false⟩
    | none, .separator => .ok ⟨values, words, true⟩
    | none, .long name value =>
      match set.long? name, value with
      | none, _ => .error (.misuse (.unknownOption ("--" ++ name)))
      | some (.value name), none => readOptions set values (some name) words
      | some (.value name), some value => do readOptions set (← values.give name value) none words
      | some .help, none => .error .help
      | some .version, none => .error .version
      | some _, some value => .error (.misuse (.needlessValue ("--" ++ name) value))
    | none, .short letter rest =>
      match set.short? letter, attachedValue rest with
      | none, _ => .error (.misuse (.unknownOption ("-" ++ letter.toString)))
      | some (.value name), none => readOptions set values (some name) words
      | some (.value name), some value => do readOptions set (← values.give name value) none words
      | some .help, _ => .error .help
      | some .version, _ => .error .version

end EventMachine
