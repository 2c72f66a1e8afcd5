/-!
# CRC32C

The cyclic redundancy check with the Castagnoli polynomial, in its reflected form: the register
starts with all bits set, takes in the bytes from the least significant bit on, and is inverted at
the end. `Checksum.append` resumes from a finished value, so a text may be checked in parts.
-/

namespace EventMachine

/-- A finished CRC32C value. -/
structure Checksum where
  value : UInt32
deriving DecidableEq

namespace Checksum

/-- The Castagnoli polynomial, reflected. -/
def polynomial : UInt32 := 0x82F63B78

/-- Takes one bit out of the register. -/
def shiftBit (register : UInt32) : UInt32 :=
  if register &&& 1 = 1 then (register >>> 1) ^^^ polynomial else register >>> 1

/-- Takes one byte into the register. -/
def takeByte (register : UInt32) (byte : UInt8) : UInt32 :=
  Nat.repeat shiftBit 8 (register ^^^ byte.toUInt32)

/-- The checksum of no bytes. -/
def empty : Checksum := ⟨0⟩

/-- The checksum of some bytes followed by `bytes`, from the checksum of the former. -/
def append (c : Checksum) (bytes : List UInt8) : Checksum :=
  ⟨~~~(bytes.foldl takeByte (~~~c.value))⟩

/-- The checksum of a byte string. -/
def ofBytes (bytes : List UInt8) : Checksum := empty.append bytes

/-- The value as eight hexadecimal digits. -/
def hex (c : Checksum) : String :=
  let digits := Nat.toDigits 16 c.value.toNat
  String.ofList (List.replicate (8 - digits.length) '0' ++ digits)

/-- Checking in two parts is checking the whole. -/
theorem append_append (c : Checksum) (xs ys : List UInt8) :
    c.append (xs ++ ys) = (c.append xs).append ys := by
  simp [append, List.foldl_append]

@[simp] theorem append_nil (c : Checksum) : c.append [] = c := by
  simp [append]

end Checksum

end EventMachine
