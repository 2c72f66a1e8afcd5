import EventMachine.Command.Invocation
import EventMachine.Command.Style
import EventMachine.Text.ControlSequence

/-!
# Help

How the program and its commands are used, and what is said about a command line that is not used
so (`Refusal.text`). All of it is laid out with colours; where these are not wanted, they are taken
out at the end together with all other control sequences.
-/

namespace EventMachine

/-- The name of the program and its version. -/
def versionText : String := "mova 0.1.0"

namespace Help

/-! ## Marks -/

/-- Help is laid out with colours. -/
def style : Style := ⟨true⟩

/-- Words to be typed as they stand. -/
def literal (text : String) : String := style.bold text

/-- What is right on a command line. -/
def valid (text : String) : String := style.green text

/-- What is wrong on a command line. -/
def invalid (text : String) : String := style.yellow text

def heading (text : String) : String := style.strong "4" (text ++ ":")

/-! ## Entries -/

/-- An entry in a list of arguments, commands or options. -/
structure Entry where
  /-- The words to type. -/
  words : List String
  /-- What stands for the value behind them. -/
  value : String
  summary : String

namespace Entry

/-- What the entry is about, with marks on the words. -/
def term (mark : String → String) (entry : Entry) : String :=
  ", ".intercalate (entry.words.map mark) ++ entry.value

/-- How many columns the term takes. -/
def width (entry : Entry) : Nat := (entry.term id).length

/-- The text of an entry, its term filled up to a width. All lines of its summary begin in one
column. -/
def text (width : Nat) (entry : Entry) : String :=
  let margin := "".pushn ' ' (width + 4)
  "  " ++ entry.term literal ++ "".pushn ' ' (width - entry.width + 2) ++
    ("\n" ++ margin).intercalate (entry.summary.splitOn "\n")

/-- The texts of entries, their summaries in one column. -/
def texts (entries : List Entry) : List String :=
  let width := (entries.map width).foldl max 0
  entries.map (text width)

/-- An operand. -/
def ofOperand (name summary : String) : Entry := ⟨[], name, summary⟩

/-- An option that takes no value. -/
def ofSwitch (letter : Char) (name summary : String) : Entry :=
  ⟨["-" ++ letter.toString, "--" ++ name], "", summary⟩

/-- An option that takes a value. -/
def ofOption (name : OptionName) (summary : String) : Entry :=
  ⟨["-" ++ name.short.toString, "--" ++ name.long], " " ++ name.placeholder, summary⟩

/-- The option that asks for help. -/
def help : Entry := ofSwitch 'h' "help" "Print help"

end Entry

/-- The heading and the texts of a list of entries, after an empty line. -/
def list (title : String) (entries : List Entry) : List String :=
  ["", heading title] ++ Entry.texts entries

end Help

open Help

/-! ## Topics -/

/-- An option with what stands for its value. -/
def OptionName.form (mark : String → String) (name : OptionName) : String :=
  mark ("--" ++ name.long) ++ " " ++ name.placeholder

namespace Verb

/-- What a command does. -/
def summary : Verb → String
  | tokens => "Print the token stream of a source file"
  | parse => "Print the syntax tree of a source file as JSON"
  | check => "Compile a source file against a registry"
  | run => "Run a machine, reading events from a script or interactively"

/-- The arguments that must be given to a command, and in front of them others that may. -/
def arguments (verb : Verb) (others : List String) : String :=
  " ".intercalate (verb.required.map (OptionName.form literal) ++ others ++ ["<FILE>"])

/-- The options of a command. -/
def entries (verb : Verb) : List Entry := verb.options.names.map ofName ++ [.help]
where
  ofName : OptionName → Entry
    | .config => .ofOption .config "Configuration file"
    | .registry => .ofOption .registry "Registry description (YAML)"
    | .script => .ofOption .script "Event script, one \x60EVENT [payload]\x60 per line"

end Verb

namespace Topic

/-- What a topic does. -/
def summary : Topic → String
  | program => "Compile and run mova state machines"
  | verb v => v.summary
  | help => "Print this message or the help of the given subcommand(s)"

/-- The words that a command line of the topic begins with. -/
def name : Topic → String
  | program => "mova"
  | verb v => "mova " ++ v.name
  | help => "mova help"

/-- A command line of the topic. -/
def usageOf (topic : Topic) (arguments : String) : String :=
  heading "Usage" ++ " " ++ literal topic.name ++ " " ++ arguments

/-- How a command line of the topic is written. -/
def usage (topic : Topic) : String :=
  topic.usageOf (match topic with
    | program => "[OPTIONS] <COMMAND>"
    | verb v =>
      let optional := v.options.names.any (· ∉ v.required)
      (if optional then "[OPTIONS] " else "") ++ v.arguments []
    | help => "[COMMAND]...")

/-- The lists of the help on a topic. -/
def sections (env : Environment) : Topic → List String
  | program =>
    let file := Settings.fileVariable ++ "=" ++ (env Settings.fileVariable).getD ""
    list "Commands"
        (Verb.all.map (fun verb => ⟨[verb.name], "", verb.summary⟩) ++
          [⟨["help"], "", help.summary⟩]) ++
      list "Options"
        [.ofOption .config ("Configuration file [env: " ++ file ++ "]"), .help,
          .ofSwitch 'V' "version" "Print version"]
  | verb v =>
    list "Arguments" [.ofOperand "<FILE>" "Source file"] ++ list "Options" v.entries
  | help =>
    list "Arguments" [.ofOperand "[COMMAND]..." "Print help for the subcommand(s)"]

/-- The help on a topic. -/
def text (env : Environment) (topic : Topic) : String :=
  "\n".intercalate ([topic.summary, "", topic.usage] ++ topic.sections env) ++ "\n"

end Topic

/-! ## Misuse -/

namespace Misuse

/-- A value is missing or empty. -/
def valueMissing (form : String) : String :=
  "a value is required for '" ++ invalid form ++ "' but none was supplied"

/-- What is wrong. -/
def complaint : Misuse → String
  | unknownOption word | unexpectedOperand word | separatedCommand word =>
    "unexpected argument '" ++ invalid word ++ "' found"
  | repeated name =>
    "the argument '" ++ invalid (name.form id) ++ "' cannot be used multiple times"
  | noValue name => valueMissing (name.form id)
  | emptyFile => valueMissing "<FILE>"
  | needlessValue option value =>
    "unexpected value '" ++ invalid value ++ "' for '" ++ literal option ++
      "' found; no more were expected"
  | missing options file =>
    "\n  ".intercalate ("the following required arguments were not provided:" ::
      (options.map (·.form id) ++ if file then ["<FILE>"] else []).map valid)
  | noCommand | nothing =>
    "'" ++ invalid "mova" ++ "' requires a subcommand but one was not provided\n  [subcommands: " ++
      ", ".intercalate ((Verb.all.map Verb.name ++ ["help"]).map valid) ++ "]"
  | unknownCommand word => "unrecognized subcommand '" ++ invalid word ++ "'"

/-- What may have been meant. -/
def tip? (topic : Topic) (cause : Misuse) : Option String :=
  match topic, cause with
  | .verb _, unknownOption option =>
    some ("to pass '" ++ invalid option ++ "' as a value, use '" ++ valid ("-- " ++ option) ++ "'")
  | _, separatedCommand word =>
    some ("subcommand '" ++ valid word ++ "' exists; to use it, remove the '" ++ invalid "--" ++
      "' before it")
  | _, _ => none

/-- The usage that answers a misuse, unless only a value is missing. -/
def usage? (topic : Topic) (cause : Misuse) : Option String :=
  let with? (others : List String) : Option String :=
    match topic with
    | .verb v => some (topic.usageOf (v.arguments others))
    | _ => some (topic.usageOf (" ".intercalate (others ++ ["<COMMAND>"])))
  match cause with
  | noValue _ | emptyFile => none
  | missing _ _ => with? []
  | needlessValue option _ => with? [literal option]
  | _ => some topic.usage

/-- What is said about a misuse. -/
def text (topic : Topic) (cause : Misuse) : String :=
  let hint :=
    match topic with
    | .help => ""
    | _ => "\n\nFor more information, try '" ++ literal "--help" ++ "'."
  style.strong "31" "error:" ++ " " ++ cause.complaint ++
    ((cause.tip? topic).elim "" ("\n\n  " ++ valid "tip:" ++ " " ++ ·)) ++
    ((cause.usage? topic).elim "" ("\n\n" ++ ·)) ++ hint ++ "\n"

end Misuse

namespace Refusal

/-- What a refusal prints, in the wanted style. -/
def text (wanted : Style) (env : Environment) (refusal : Refusal) : String :=
  let full :=
    match refusal with
    | help topic => topic.text env
    | version => versionText ++ "\n"
    | misuse topic .nothing => topic.text env
    | misuse topic cause => cause.text topic
  if wanted.styled then full else Text.withoutControls full

end Refusal

end EventMachine
