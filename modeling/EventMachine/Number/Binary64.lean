import EventMachine.Number.Rounding

/-!
# Binary floating-point numbers of 64 bits

A number is its bit pattern: sign, eleven bits of exponent, 52 bits of fraction. Every operation is
the exact one followed by one rounding, done in natural numbers.

`Binary64` keeps the structural equality of patterns, which tells `0.0` from `-0.0` and finds a
NaN equal to itself; `Binary64.same` is the equality of numbers.
-/

namespace EventMachine.Number

/-- A binary floating-point number of 64 bits. -/
structure Binary64 where
  bits : UInt64
deriving DecidableEq

namespace Binary64

/-- The largest pattern of a sign bit. -/
def signBit : UInt64 := 0x8000000000000000

/-- The sign bit is set. -/
def isNegative (x : Binary64) : Bool := x.bits &&& signBit != 0

/-- The eleven bits of the exponent. -/
def exponentField (x : Binary64) : Nat := ((x.bits >>> 52) &&& 0x7FF).toNat

/-- The 52 bits of the fraction. -/
def fraction (x : Binary64) : Nat := (x.bits &&& 0xFFFFFFFFFFFFF).toNat

def isNaN (x : Binary64) : Bool := x.exponentField == 0x7FF && x.fraction != 0

def isInfinite (x : Binary64) : Bool := x.exponentField == 0x7FF && x.fraction == 0

def isFinite (x : Binary64) : Bool := x.exponentField != 0x7FF

def isZero (x : Binary64) : Bool := x.exponentField == 0 && x.fraction == 0

/-- Equality of numbers: a NaN differs from everything and the two zeros are equal. -/
def same (x y : Binary64) : Bool :=
  !x.isNaN && !y.isNaN && (x.bits == y.bits || (x.isZero && y.isZero))

/-- The magnitude of a finite number. -/
def magnitude (x : Binary64) : Dyadic :=
  if x.exponentField = 0 then ⟨x.fraction, -1074⟩
  else ⟨2 ^ 52 + x.fraction, (x.exponentField : Int) - 1075⟩

/-- The number with the given sign whose other bits are `n`. -/
def ofPattern (negative : Bool) (n : Nat) : Binary64 :=
  ⟨(if negative then signBit else 0) ||| n.toUInt64⟩

def infinity (negative : Bool) : Binary64 := ofPattern negative (0x7FF * 2 ^ 52)

def zero (negative : Bool) : Binary64 := ofPattern negative 0

def nan : Binary64 := ⟨0x7FF8000000000000⟩

def neg (x : Binary64) : Binary64 := ⟨x.bits ^^^ signBit⟩

/-- The number nearest to `num / den`, for a positive `den`: beyond the largest finite number it
is infinite. The pattern of mantissa `m` and exponent `e` is `m + (e + 1074) * 2 ^ 52`, also when
rounding has carried into a further bit. -/
def ofRatio (negative : Bool) (num den : Nat) : Binary64 :=
  let d := roundBinary 53 (-1074) num den
  ofPattern negative (min (d.mantissa + (d.exponent + 1074).toNat * 2 ^ 52) (0x7FF * 2 ^ 52))

/-- The number nearest to a dyadic one. -/
def ofDyadic (negative : Bool) (d : Dyadic) : Binary64 :=
  ofRatio negative (d.mantissa * 2 ^ d.exponent.toNat) (2 ^ (-d.exponent).toNat)

/-- The number nearest to a natural number. -/
def ofNat (n : Nat) : Binary64 := ofRatio false n 1

/-- The rounded product. -/
def mul (x y : Binary64) : Binary64 :=
  let negative := x.isNegative != y.isNegative
  if x.isNaN || y.isNaN then nan
  else if x.isInfinite || y.isInfinite then
    if x.isZero || y.isZero then nan else infinity negative
  else
    let a := x.magnitude
    let b := y.magnitude
    ofDyadic negative ⟨a.mantissa * b.mantissa, a.exponent + b.exponent⟩

/-- The rounded quotient. -/
def div (x y : Binary64) : Binary64 :=
  let negative := x.isNegative != y.isNegative
  if x.isNaN || y.isNaN || (x.isInfinite && y.isInfinite) || (x.isZero && y.isZero) then nan
  else if x.isInfinite || y.isZero then infinity negative
  else if y.isInfinite || x.isZero then zero negative
  else
    let a := x.magnitude
    let b := y.magnitude
    let e := a.exponent - b.exponent
    ofRatio negative (a.mantissa * 2 ^ e.toNat) (b.mantissa * 2 ^ (-e).toNat)

instance : Inhabited Binary64 := ⟨zero false⟩

end Binary64

end EventMachine.Number
