import EventMachine.Checksum

/-!
# Reading bytes in parts

A `Reader` delivers a byte string in parts of the source's choosing and keeps the checksum of what
it has delivered. A `LineReader` cuts the delivered bytes into physical lines, each up to and with
its newline.
-/

namespace EventMachine.Source

/-- A byte source that delivers its chunks one after the other, each perhaps in several reads. -/
structure Reader where
  chunks : List (List UInt8)
  /-- The checksum of the bytes delivered so far. -/
  digest : Checksum
deriving DecidableEq

namespace Reader

/-- A reader that has delivered nothing yet. -/
def ofChunks (chunks : List (List UInt8)) : Reader := ⟨chunks, .empty⟩

/-- A reader of one chunk. -/
def ofBytes (bytes : List UInt8) : Reader := ofChunks [bytes]

/-- Asks for `n` bytes: as many are delivered as the first chunk still has, at most `n`. An
exhausted chunk is dropped. -/
def read (r : Reader) (n : Nat) : List UInt8 × Reader :=
  match r.chunks with
  | [] => ([], r)
  | chunk :: chunks =>
    let part := chunk.take n
    let rest := chunk.drop n
    (part, ⟨if rest.isEmpty then chunks else rest :: chunks, r.digest.append part⟩)

/-- The bytes that are still to be delivered. -/
def pending (r : Reader) : List UInt8 := r.chunks.flatten

-- Sums begin with the core library's zero, also where another library has one.
attribute [local instance (2000)] Zero.ofOfNat0

/-- What is left, counted in bytes and chunks. -/
def measure (r : Reader) : Nat := (r.chunks.map (·.length + 1)).sum

/-- A read of at least one byte takes something away, unless nothing is left. -/
theorem read_measure_lt {r : Reader} {n : Nat} (hn : 0 < n) (h : r.chunks ≠ []) :
    (r.read n).2.measure < r.measure := by
  unfold read measure
  split
  · contradiction
  · next chunk chunks hc =>
    simp only [hc, List.map_cons, List.sum_cons]
    split
    · omega
    · next hrest =>
      simp only [List.map_cons, List.sum_cons, List.length_drop]
      have : n < chunk.length := by
        have := List.isEmpty_eq_false_iff.1 (Bool.eq_false_iff.2 hrest)
        simpa using this
      omega

end Reader

/-- The newline byte. -/
def newlineByte : UInt8 := 10

/-- Cuts after the first newline, if there is one. -/
def cutLine? : List UInt8 → Option (List UInt8 × List UInt8)
  | [] => none
  | b :: bs =>
    if b = newlineByte then some ([b], bs)
    else (cutLine? bs).map fun (line, rest) => (b :: line, rest)

/-- How many bytes a line reader asks for at a time. -/
def bufferSize : Nat := 8192

/-- A reader with the bytes that it has delivered and that no line has used up. -/
structure LineReader where
  reader : Reader
  buffer : List UInt8
deriving DecidableEq

namespace LineReader

/-- A line reader that has read nothing yet. -/
def ofReader (reader : Reader) : LineReader := ⟨reader, []⟩

/-- The bytes that no line has used up. -/
def pending (r : LineReader) : List UInt8 := r.buffer ++ r.reader.pending

/-- The next physical line after the bytes `start` of it, with its newline if it has one: it is
empty at the end of the source. -/
def readLineFrom (start : List UInt8) (r : LineReader) : List UInt8 × LineReader :=
  match cutLine? r.buffer with
  | some (line, rest) => (start ++ line, ⟨r.reader, rest⟩)
  | none =>
    if _ : r.reader.chunks = [] then (start ++ r.buffer, ⟨r.reader, []⟩)
    else
      let part := r.reader.read bufferSize
      if part.1.isEmpty then (start ++ r.buffer, ⟨part.2, []⟩)
      else readLineFrom (start ++ r.buffer) ⟨part.2, part.1⟩
termination_by r.reader.measure
decreasing_by exact Reader.read_measure_lt (by decide) ‹_›

/-- The next physical line, with its newline if it has one: it is empty at the end of the
source. -/
def readLine (r : LineReader) : List UInt8 × LineReader := readLineFrom [] r

end LineReader

/-! ## Nothing is lost -/

theorem cutLine?_append {bs line rest : List UInt8} (h : cutLine? bs = some (line, rest)) :
    line ++ rest = bs := by
  induction bs generalizing line with
  | nil => simp [cutLine?] at h
  | cons b bs ih =>
    unfold cutLine? at h
    split at h
    · cases h; rfl
    · obtain ⟨⟨l, r⟩, hl, he⟩ := Option.map_eq_some_iff.1 h
      cases he
      simp [ih hl]

/-- The part that is cut off holds a byte at least. -/
theorem cutLine?_pos {bs line rest : List UInt8} (h : cutLine? bs = some (line, rest)) :
    0 < line.length := by
  cases bs with
  | nil => simp [cutLine?] at h
  | cons b bs =>
    unfold cutLine? at h
    split at h
    · cases h; exact Nat.one_pos
    · obtain ⟨⟨l, r⟩, -, he⟩ := Option.map_eq_some_iff.1 h
      cases he
      exact Nat.succ_pos _

theorem Reader.read_pending (r : Reader) (n : Nat) :
    (r.read n).1 ++ (r.read n).2.pending = r.pending := by
  unfold Reader.read Reader.pending
  split
  · rfl
  · next chunk chunks hc =>
    rw [hc]
    dsimp only
    split
    · next h =>
      have h := List.isEmpty_iff.1 h
      have := List.take_append_drop n chunk
      rw [h, List.append_nil] at this
      simp [this]
    · simp [← List.append_assoc, List.take_append_drop]

/-- What is delivered is taken into the checksum. -/
theorem Reader.read_digest (r : Reader) (n : Nat) :
    (r.read n).2.digest = r.digest.append (r.read n).1 := by
  unfold read
  split
  · exact (Checksum.append_nil _).symm
  · rfl

theorem LineReader.readLineFrom_pending (start : List UInt8) (r : LineReader) :
    (r.readLineFrom start).1 ++ (r.readLineFrom start).2.pending = start ++ r.pending := by
  fun_induction LineReader.readLineFrom start r with
  | case1 start r line rest h => simp [pending, ← cutLine?_append h]
  | case2 start r h hc => simp [pending]
  | case3 start r h hc part hp =>
    have := r.reader.read_pending bufferSize
    rw [List.isEmpty_iff.1 hp] at this
    simp only [List.nil_append] at this
    simp [pending, part, this]
  | case4 start r h hc part hp ih =>
    rw [ih]
    simp [pending, part, Reader.read_pending]

/-- A line and what is left after it make up what there was. -/
theorem LineReader.readLine_pending (r : LineReader) :
    r.readLine.1 ++ r.readLine.2.pending = r.pending :=
  r.readLineFrom_pending []

end EventMachine.Source
