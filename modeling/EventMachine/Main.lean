import EventMachine.Command.Basic

/-!
# The program

Finds the files and environment variables that a command line is about, carries it out, and feeds
conversations from the standard input.
-/

namespace EventMachine.Main

/-- The environment variables that the program looks at. -/
def variableNames : List String :=
  ["HOME", Settings.fileVariable, "MOVA_NARROWING", "MOVA_LOG", "MOVA_HISTORY", "CLICOLOR",
    "CLICOLOR_FORCE", "NO_COLOR"]

def environment : IO Environment := do
  let values ← variableNames.mapM fun name => return (name, ← IO.getEnv name)
  return fun name => (values.lookup name).join

/-- The system's reason for a failure. -/
def readError : IO.Error → Source.ReadError
  | .noFileOrDirectory _ number reason => .system reason number.toNat
  | .inappropriateType _ number reason => .system reason number.toNat
  | .permissionDenied _ number reason => .system reason number.toNat
  | .resourceExhausted _ number reason => .system reason number.toNat
  | .invalidArgument _ number reason => .system reason number.toNat
  | error => .system (toString error) 5

/-- What is found under a file name. -/
def readFile (name : String) : IO Source.File := do
  let opened ← (IO.FS.Handle.mk name .read).toBaseIO
  match opened with
  | .error e => return .unopened (readError e)
  | .ok handle =>
    match ← handle.readBinToEnd.toBaseIO with
    | .ok bytes => return .content bytes.toList
    | .error e => return .unreadable (readError e)

/-- Prints and forgets what is printed. -/
def flush (t : Transcript) : IO Unit := do
  let out ← IO.getStdout
  let err ← IO.getStderr
  out.putStr t.out
  out.flush
  err.putStr t.err
  err.flush

/-- Carries on up to the end: the exit code. -/
partial def carryOn (input : IO.FS.Stream) : Progress → IO UInt32
  | .ended code t => do
    flush t
    return code.toUInt32
  | .conversation c => do
    flush c.session.world.host
    let c := { c with session.world.host := .empty }
    let line ← input.getLine
    if line.isEmpty then
      flush c.close
      return 0
    else carryOn input (c.reply (Source.chopLine (Source.encode line)))

end EventMachine.Main

open EventMachine in
def main (words : List String) : IO UInt32 := do
  let env ← Main.environment
  let found ← match Invocation.ofWords env words with
    | .error _ => pure []
    | .ok invocation =>
      invocation.files.mapM fun (role, name) => return (role, ← Main.readFile name)
  let files := found.foldr (fun (role, f) files => files.insert role f) Files.empty
  let terminal ← (← IO.getStdout).isTty
  Main.carryOn (← IO.getStdin) (Program.start terminal env files words)
