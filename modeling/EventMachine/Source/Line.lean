import EventMachine.Source.Reader

/-!
# Logical lines

A physical line that ends in a backslash is joined with the line after it; the backslash and the
line end are taken out. A logical line is what is joined so, or a physical line alone. Text is
UTF-8, and a physical line that is not valid fails the reading.
-/

namespace EventMachine.Source

/-- Why a source cannot be read. -/
inductive ReadError
  | invalidUtf8
  /-- The operating system refuses, for a reason that has a number. -/
  | system (reason : String) (number : Nat)
deriving DecidableEq

namespace ReadError

/-- There is no file of this name. -/
def missing : ReadError := system "No such file or directory" 2

/-- The file is a directory. -/
def directory : ReadError := system "Is a directory" 21

def message : ReadError → String
  | invalidUtf8 => "stream did not contain valid UTF-8"
  | system reason number => reason ++ " (os error " ++ toString number ++ ")"

end ReadError

/-- The characters of a valid UTF-8 byte string. -/
def decode? (bytes : List UInt8) : Option (List Char) :=
  (String.fromUTF8? ⟨bytes.toArray⟩).map String.toList

/-- The UTF-8 bytes of a text. -/
def encode (text : String) : List UInt8 := text.toUTF8.toList

/-- What is left of a physical line that is joined with the next one: the part before a backslash
at its end, which a newline, a carriage return or both may follow. -/
def joined? (line : List Char) : Option (List Char) :=
  match line.reverse with
  | '\n' :: '\r' :: '\\' :: body => some body.reverse
  | '\n' :: '\\' :: body => some body.reverse
  | '\r' :: '\\' :: body => some body.reverse
  | '\\' :: body => some body.reverse
  | _ => none

/-- The outcome of reading a logical line. -/
structure LineRead where
  /-- The text so far; it is empty at the end of the source. -/
  text : List Char
  /-- The number of physical lines that were read. -/
  physicalLines : Nat
  reader : LineReader
  failure : Option ReadError

/-- Reads on in a logical line that has the text `start` so far, from `count` physical lines. -/
def readLogicalFrom (start : List Char) (count : Nat) (r : LineReader) : LineRead :=
  let next := r.readLine
  if _ : next.1 = [] then ⟨start, count, next.2, none⟩
  else
    match decode? next.1 with
    | none => ⟨start, count, next.2, some .invalidUtf8⟩
    | some line =>
      match joined? line with
      | some body => readLogicalFrom (start ++ body) (count + 1) next.2
      | none => ⟨start ++ line, count + 1, next.2, none⟩
termination_by r.pending.length
decreasing_by
  have := congrArg List.length r.readLine_pending
  have := List.length_pos_iff.2 ‹¬_›
  grind

/-- Reads the next logical line. -/
def readLogical (r : LineReader) : LineRead := readLogicalFrom [] 0 r

theorem readLine_pending_le (r : LineReader) :
    r.readLine.2.pending.length ≤ r.pending.length := by
  have := congrArg List.length r.readLine_pending
  simp only [List.length_append] at this
  omega

theorem readLogicalFrom_pending_le (start : List Char) (count : Nat) (r : LineReader) :
    (readLogicalFrom start count r).reader.pending.length ≤ r.pending.length := by
  fun_induction readLogicalFrom start count r with
  | case3 start count r next _ line _ body _ ih => exact Nat.le_trans ih (readLine_pending_le r)
  | _ => exact readLine_pending_le _

/-- A logical line takes something away from the source. -/
theorem readLogical_pending_lt {r : LineReader} (h : (readLogical r).text ≠ []) :
    (readLogical r).reader.pending.length < r.pending.length := by
  unfold readLogical at h ⊢
  have hp := congrArg List.length r.readLine_pending
  simp only [List.length_append] at hp
  unfold readLogicalFrom at h ⊢
  dsimp only at h ⊢
  split
  · next hn => simp [hn] at h
  · next hn =>
    have := List.length_pos_iff.2 hn
    split
    · dsimp only; omega
    · split
      · exact Nat.lt_of_le_of_lt (readLogicalFrom_pending_le _ _ _) (by omega)
      · dsimp only; omega

end EventMachine.Source
