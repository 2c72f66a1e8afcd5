import EventMachine.Source.Line

/-!
# Files

What a program finds under a file name, and the text and the lines of a file.
-/

namespace EventMachine.Source

/-- What is found under a file name. -/
inductive File
  | content (bytes : List UInt8)
  /-- The file opens, but not a byte of it can be read. -/
  | unreadable (cause : ReadError)
  /-- The file does not open. -/
  | unopened (cause : ReadError)
deriving DecidableEq

/-- The bytes of a valid text, or why there is none. -/
def text (bytes : List UInt8) : Except ReadError String :=
  match decode? bytes with
  | some cs => .ok (String.ofList cs)
  | none => .error .invalidUtf8

namespace File

/-- The text of a file. -/
def text : File → Except ReadError String
  | content bytes => Source.text bytes
  | unreadable cause => .error cause
  | unopened cause => .error cause

end File

/-! ## Lines -/

/-- A line without its newline, or its carriage return and newline. -/
def chopLine (line : List UInt8) : List UInt8 :=
  match line.reverse with
  | 10 :: 13 :: body => body.reverse
  | 10 :: body => body.reverse
  | _ => line

/-- The lines of a byte string, without their ends. No line follows a newline at the end. -/
def lines (bytes : List UInt8) : List (List UInt8) :=
  match _ : cutLine? bytes with
  | some (line, rest) => chopLine line :: lines rest
  | none => if bytes.isEmpty then [] else [bytes]
termination_by bytes.length
decreasing_by
  have := congrArg List.length (cutLine?_append ‹_›)
  have := cutLine?_pos ‹_›
  grind

end EventMachine.Source
