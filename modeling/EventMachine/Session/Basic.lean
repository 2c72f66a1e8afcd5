import EventMachine.Machine.Run
import EventMachine.Session.Line
import EventMachine.Source.File

/-!
# Sessions

A session drives an instance of a machine line by line (`Session.execute`). A script is a file of
such lines, which are executed until one ends the session or fails (`Session.runScript`).
-/

namespace EventMachine

universe u

/-- An instance that is driven by lines. -/
structure Session (σ : Type u) where
  world : World σ
  /-- The least identity that no opaque value has. -/
  identity : Nat

/-- What became of an event, where `current` is the state after it. -/
def Outcome.text (event current : String) : Outcome → String
  | fired f =>
    let trigger := event ++ " fired " ++ f.source ++ "#" ++ toString f.trigger
    if f.transitioned then trigger ++ ": " ++ f.source ++ " -> " ++ f.target
    else trigger ++ ", still in " ++ f.target
  | noMatch => event ++ " matched no trigger in " ++ current

namespace Session

/-- What a line is replied: a text, which may be empty, or that the session ends. -/
inductive Reply
  | text (shown : String)
  | quit
deriving DecidableEq

/-- Why a script fails. -/
inductive ScriptError
  /-- The script cannot be read further. -/
  | unreadable (cause : Source.ReadError)
  /-- A line fails; lines count from one. -/
  | line (number : Nat) (cause : LineError)
deriving DecidableEq

def ScriptError.message : ScriptError → String
  | unreadable cause => cause.message
  | line number cause => "line " ++ toString number ++ ": " ++ cause.message

variable {σ : Type u}

/-- The state that the session's instance is in. -/
def current (s : Session σ) : String := s.world.inst.current

/-- Moves to a state. -/
def move (m : Machine) (host : Host σ) (destination : String) (s : Session σ) :
    Except LineError Reply × Session σ :=
  let (result, world) := m.moveTo host destination s.world
  match result with
  | .error e => (.error (.runtime e), { s with world })
  | .ok () => (.ok (.text ("now in " ++ world.inst.current)), { s with world })

/-- Lets an event happen. -/
def emit (m : Machine) (host : Host σ) (event payload : String) (s : Session σ) :
    Except LineError Reply × Session σ :=
  match Payload.ofText s.identity payload with
  | .error e => (.error e, s)
  | .ok payload =>
    let (result, world) := m.emit host event payload s.world
    let s : Session σ := ⟨world, s.identity + payload.size⟩
    match result with
    | .error e => (.error (.runtime e), s)
    | .ok outcome => (.ok (.text (outcome.text event s.current)), s)

/-- Does what a line asks for. -/
def perform (m : Machine) (host : Host σ) (s : Session σ) :
    Request → Except LineError Reply × Session σ
  | .nothing => (.ok (.text ""), s)
  | .help => (.ok (.text Request.helpText), s)
  | .quit => (.ok .quit, s)
  | .state => (.ok (.text s.current), s)
  | .move destination => s.move m host destination
  | .emit event payload => s.emit m host event payload

/-- Executes a line. -/
def execute (m : Machine) (host : Host σ) (line : String) (s : Session σ) :
    Except LineError Reply × Session σ :=
  match Request.ofLine line with
  | .error e => (.error e, s)
  | .ok request => s.perform m host request

/-! ## Scripts -/

/-- Prints a text unless it is empty; the host's state keeps what is printed. -/
def display (print : String → σ → σ) (text : String) (s : Session σ) : Session σ :=
  if text = "" then s else { s with world.host := print text s.world.host }

/-- Executes the lines of a script, of which the first has the given number, and displays the
replies. -/
def runLines (m : Machine) (host : Host σ) (print : String → σ → σ) (number : Nat) :
    List (List UInt8) → Session σ → Except ScriptError Unit × Session σ
  | [], s => (.ok (), s)
  | line :: lines, s =>
    match Source.text line with
    | .error e => (.error (.unreadable e), s)
    | .ok line =>
      match s.execute m host line with
      | (.error e, s) => (.error (.line number e), s)
      | (.ok .quit, s) => (.ok (), s)
      | (.ok (.text shown), s) =>
        runLines m host print (number + 1) lines (s.display print shown)

/-- Executes a script. -/
def runScript (m : Machine) (host : Host σ) (print : String → σ → σ) (script : List UInt8)
    (s : Session σ) : Except ScriptError Unit × Session σ :=
  s.runLines m host print 1 (Source.lines script)

end Session

end EventMachine
