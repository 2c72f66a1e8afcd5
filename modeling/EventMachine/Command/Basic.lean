import EventMachine.Command.Help
import EventMachine.Command.Report
import EventMachine.Compile.Basic
import EventMachine.HostDescription
import EventMachine.Json.Printer
import EventMachine.Session.Basic
import EventMachine.Syntax.Json

/-!
# The commands

`Program.start` carries out a command line as far as that goes without further input. Only a
conversation is not at its end then: it is fed with `Conversation.reply`, one line at a time, and
ended with `Conversation.close`. `Program.run` does all of that for an input that is known.
-/

namespace EventMachine

/-- What is printed. -/
structure Transcript where
  /-- On the standard output. -/
  out : String
  /-- On the standard error. -/
  err : String
deriving DecidableEq

namespace Transcript

def empty : Transcript := ⟨"", ""⟩

/-- Prints a line on the standard output. -/
def print (text : String) (t : Transcript) : Transcript := { t with out := t.out ++ text ++ "\n" }

/-- Prints a line on the standard error. -/
def printError (text : String) (t : Transcript) : Transcript :=
  { t with err := t.err ++ text ++ "\n" }

/-- Prints lines on the standard output. -/
def printAll (lines : List String) (t : Transcript) : Transcript :=
  lines.foldl (fun t line => t.print line) t

/-- Prints lines on the standard error. -/
def printErrors (lines : List String) (t : Transcript) : Transcript :=
  lines.foldl (fun t line => t.printError line) t

end Transcript

/-- What is found as the file of each role. -/
abbrev Files := FileRole → Source.File

/-- Why a command fails. -/
inductive CommandError
  /-- A file cannot be read. -/
  | unreadable (role : FileRole) (file : String) (cause : Source.ReadError)
  /-- A file does not have the form that it should have. -/
  | malformed (role : FileRole) (file : String)
  | description (cause : HostDescription.Invalid)
  /-- The source file or the script does not open, or its tokens cannot be read. -/
  | source (cause : Source.ReadError)
  | compilation (cause : CompileError)
  | runtime (cause : RuntimeError)
  | script (cause : Session.ScriptError)

def CommandError.message : CommandError → String
  | unreadable role file cause =>
    "failed to read " ++ role.name ++ " file '" ++ file ++ "': " ++ cause.message
  | malformed role file =>
    "failed to parse " ++ role.name ++ " file '" ++ file ++ "': it does not have the expected form"
  | description cause => cause.message
  | source cause => cause.message
  | compilation cause => cause.message
  | runtime cause => cause.message
  | script cause => cause.message

/-- A machine that is driven by the lines of a conversation. -/
structure Conversation where
  style : Style
  machine : Machine
  session : Session Transcript

/-- How far a command line is carried out. -/
inductive Progress
  /-- It is at its end, with the given exit code. -/
  | ended (code : Nat) (printed : Transcript)
  /-- It waits for a line. -/
  | conversation (c : Conversation)

namespace Program

/-- The host that prints the calls of its actions. -/
def host (style : Style) : Host Transcript :=
  HostDescription.host fun call t => t.print (style.dimmed "->" ++ " " ++ call)

/-- An error as a line. -/
def errorLine (style : Style) (message : String) : String := style.red "Error" ++ ": " ++ message

/-! ## Files -/

/-- Reads the settings, from the file of the given name if there is one. -/
def settings (env : Environment) (found : Source.File) :
    Option String → Except CommandError Settings
  | none => .ok (.ofEnvironment env)
  | some file => do
    let text ← found.text.mapError (.unreadable .settings file)
    match Settings.ofText? env text with
    | some s => .ok s
    | none => .error (.malformed .settings file)

/-- Reads the description of a host from the file of the given name. -/
def description (found : Source.File) (file : String) : Except CommandError HostDescription := do
  let text ← found.text.mapError (.unreadable .description file)
  match HostDescription.parse? text with
  | some d => .ok d
  | none => .error (.malformed .description file)

/-- Compiles a source file for a described host. The least identity that no constant has comes with
the machine. -/
def compile (settings : Settings) (files : Files) (file registry : String) :
    Except CommandError (Machine × Nat) := do
  let d ← description (files .description) registry
  let registry ← d.registry.mapError .description
  let compiler : Compiler := ⟨registry, settings.narrowing, .ofList (d.values 0)⟩
  let machine ←
    match files .source with
    | .unopened cause => .error (.source cause)
    | .unreadable cause => .error (.compilation (.syntactic (.unreadable file cause)))
    | .content bytes => (compiler.build file (.ofBytes bytes)).mapError .compilation
  return (machine, d.constants.size)

/-! ## Commands -/

/-- Prints the tokens of a source file. -/
def printTokens (style : Style) (files : Files) (t : Transcript) :
    Except CommandError Unit × Transcript :=
  match files .source with
  | .unopened cause | .unreadable cause => (.error (.source cause), t)
  | .content bytes =>
    let (tokens, last) := (Lexer.ofBytes bytes).run
    let result := match last.takeFailure.1 with
      | some cause => .error (.source cause)
      | none => .ok ()
    (result, t.printAll (tokens.map (·.line style)))

/-- Prints the syntax tree of a source file. -/
def printTree (files : Files) (file : String) (t : Transcript) :
    Except CommandError Unit × Transcript :=
  let tree : Except CommandError Syntax.File := match files .source with
    | .unopened cause => .error (.source cause)
    | .unreadable cause => .error (.compilation (.syntactic (.unreadable file cause)))
    | .content bytes =>
      (Syntax.parse file (.ofBytes bytes)).1.mapError fun e => .compilation (.syntactic e)
  match tree with
  | .error e => (.error e, t)
  | .ok tree => (.ok (), t.print (tree.json.pretty 0))

/-- Prints what a source file defines. -/
def printMachine (style : Style) (settings : Settings) (files : Files) (file registry : String)
    (t : Transcript) : Except CommandError Unit × Transcript :=
  match compile settings files file registry with
  | .error e => (.error e, t)
  | .ok (machine, _) => (.ok (), t.printAll (machine.lines style))

/-- Prints the warnings on a machine and makes an instance of it. -/
def openSession (style : Style) (m : Machine) (identity : Nat) (t : Transcript) :
    Except (CommandError × Transcript) (Session Transcript) :=
  match m.instantiate (host style) (t.printErrors (m.warnings.map (·.line style))) with
  | (.error e, t) => .error (.runtime e, t)
  | (.ok inst, t) => .ok ⟨⟨inst, t⟩, identity⟩

/-- Runs a script. -/
def runScript (style : Style) (files : Files) (m : Machine) (s : Session Transcript) :
    Except CommandError Unit × Transcript :=
  match files .script with
  | .unopened cause => (.error (.source cause), s.world.host)
  | .unreadable cause => (.error (.script (.unreadable cause)), s.world.host)
  | .content bytes =>
    let (result, s) := s.runScript m (host style) Transcript.print bytes
    (result.mapError .script, s.world.host)

/-- The end of a command: what a failure is about goes to the standard error. -/
def finish (style : Style) : Except CommandError Unit × Transcript → Progress
  | (.ok (), t) => .ended 0 t
  | (.error e, t) => .ended 1 (t.printError (errorLine style e.message))

/-- Begins a conversation. -/
def converse (style : Style) (m : Machine) (s : Session Transcript) : Conversation :=
  let greeting :=
    [style.boldCyan "mova", "Entered state " ++ style.yellow s.current ++ ".",
     "Type 'help' for available commands.", ""]
  ⟨style, m, { s with world.host := s.world.host.printAll greeting }⟩

/-- Runs a machine by a script (`scripted`) or by the lines of a conversation. -/
def runMachine (style : Style) (settings : Settings) (files : Files) (file registry : String)
    (scripted : Bool) (t : Transcript) : Progress :=
  match compile settings files file registry with
  | .error e => finish style (.error e, t)
  | .ok (m, identity) =>
    match openSession style m identity t with
    | .error (e, t) => finish style (.error e, t)
    | .ok s =>
      if scripted then finish style (runScript style files m s)
      else .conversation (converse style m s)

/-- Carries out a command. -/
def perform (style : Style) (settings : Settings) (files : Files) (t : Transcript) :
    Command → Progress
  | .tokens _ => finish style (printTokens style files t)
  | .parse file => finish style (printTree files file t)
  | .check file registry => finish style (printMachine style settings files file registry t)
  | .run file registry script => runMachine style settings files file registry script.isSome t

/-- Carries out a command line, whose output may go to a terminal. -/
def start (terminal : Bool) (env : Environment) (files : Files) (words : List String) :
    Progress :=
  let help := Style.ofHelp env terminal
  let style := Style.ofEnvironment env terminal
  match Invocation.ofWords env words with
  | .error (.misuse topic cause) => .ended 2 ⟨"", (Refusal.misuse topic cause).text help env⟩
  | .error refusal => .ended 0 ⟨refusal.text help env, ""⟩
  | .ok invocation =>
    match settings env (files .settings) invocation.settingsFile with
    | .error e => finish style (.error e, .empty)
    | .ok settings => perform style settings files .empty invocation.command

end Program

namespace Conversation

/-- The conversation after a line was executed in `s` and something was printed. -/
def printing (c : Conversation) (text : String) (s : Session Transcript) : Progress :=
  .conversation { c with session := s.display (fun text t => t.print (text ++ "\n")) text }

/-- How the end of a conversation shows why a line is no text. -/
def brokenLine (e : Source.ReadError) : String :=
  "Io(Error \x7b kind: InvalidData, message: " ++ Text.quote e.message ++ " \x7d)"

/-- Executes a line. Whatever is shown has an empty line after it. -/
def reply (c : Conversation) (line : List UInt8) : Progress :=
  match Source.text line with
  | .error e => .ended 0 (c.session.world.host.print (Program.errorLine c.style (brokenLine e)))
  | .ok line =>
    match c.session.execute c.machine (Program.host c.style) line with
    | (.error e, s) => c.printing (Program.errorLine c.style e.message) s
    | (.ok (.text shown), s) => c.printing shown s
    | (.ok .quit, s) => .ended 0 s.world.host

/-- What is printed by the end of the conversation when the input ends. -/
def close (c : Conversation) : Transcript := c.session.world.host.print "^D"

end Conversation

namespace Progress

/-- Feeds lines up to the end, and the end of the input after them. -/
def feed : Progress → List (List UInt8) → Nat × Transcript
  | ended code t, _ => (code, t)
  | conversation c, [] => (0, c.close)
  | conversation c, line :: lines => feed (c.reply line) lines

end Progress

/-! ## Runs -/

/-- What is under a file name. -/
inductive Found
  | file (f : Source.File)
  /-- The standard input. Whoever reads it as a file leaves nothing of it. -/
  | standardInput

namespace Files

/-- No file is found. -/
def empty : Files := fun _ => .unopened .missing

/-- The files with one more. -/
def insert (files : Files) (role : FileRole) (f : Source.File) : Files := fun other =>
  if other = role then f else files other

/-- Reads files one after the other: what they are, and what is left of the standard input. -/
def read (find : String → Found) (input : List UInt8) :
    List (FileRole × String) → Files × List UInt8
  | [] => (empty, input)
  | (role, name) :: rest =>
    match find name with
    | .file f =>
      let (files, left) := read find input rest
      (files.insert role f, left)
    | .standardInput =>
      let (files, left) := read find [] rest
      (files.insert role (.content input), left)

end Files

/-- Carries out a command line with the given standard input, away from a terminal: the exit code,
and what is printed. -/
def Program.run (env : Environment) (find : String → Found) (words : List String)
    (input : List UInt8) : Nat × Transcript :=
  let names := (Invocation.ofWords env words).toOption.elim [] (·.files)
  let (files, input) := Files.read find input names
  (Program.start false env files words).feed (Source.lines input)

end EventMachine
