import EventMachine.Number.Binary64

/-!
# Decimal numerals

Reading whole numbers and decimal fractions, and the floating-point number nearest to a numeral.

A number of the text is `[+-]?digits`; a decimal has `digits`, `digits.`, `.digits` or
`digits.digits`, then perhaps an exponent. Names of the special values, in any letter case, are
`inf`, `infinity` and `nan`.
-/

namespace EventMachine.Number

/-- An ASCII digit. -/
def isDigit (c : Char) : Bool := '0' ≤ c && c ≤ '9'

/-- The value of a digit. -/
def digitValue (c : Char) : Nat := c.toNat - 48

/-- The natural number that a list of digits writes. -/
def digitsValue (cs : List Char) : Nat := cs.foldl (fun n c => n * 10 + digitValue c) 0

/-- A sign in front of a numeral, if there is one, and the rest. -/
def splitSign : List Char → Bool × List Char
  | '-' :: cs => (true, cs)
  | '+' :: cs => (false, cs)
  | cs => (false, cs)

/-- The whole number that `[+-]?digits` writes. -/
def readInt? (cs : List Char) : Option Int :=
  let (negative, digits) := splitSign cs
  if digits.isEmpty || !digits.all isDigit then none
  else
    let n : Int := digitsValue digits
    some (if negative then -n else n)

/-- The whole number within 64 bits that `[+-]?digits` writes. -/
def readInt64? (cs : List Char) : Option Int64 :=
  match readInt? cs with
  | none => none
  | some n => if -2 ^ 63 ≤ n ∧ n < 2 ^ 63 then some (Int64.ofInt n) else none

/-- A signed decimal number: `digits * 10 ^ exponent`. -/
structure Decimal where
  negative : Bool
  digits : Nat
  exponent : Int
deriving DecidableEq

namespace Decimal

/-- The number of decimal digits. -/
def width (n : Nat) : Nat := (Nat.toDigits 10 n).length

/-- The floating-point number nearest to the decimal, where `roundRatio` rounds ratios and decimals
of `10 ^ 400` or more and of less than `10 ^ -400` are beyond its range. -/
def round (d : Decimal) (roundRatio : Bool → Nat → Nat → α) : α :=
  let order := d.exponent + width d.digits
  if d.digits = 0 || order < -400 then roundRatio d.negative 0 1
  else if 400 < order then roundRatio d.negative (10 ^ 400) 1
  else roundRatio d.negative (d.digits * 10 ^ d.exponent.toNat) (10 ^ (-d.exponent).toNat)

/-- The number of 64 bits nearest to the decimal. -/
def toBinary64 (d : Decimal) : Binary64 := d.round Binary64.ofRatio

/-- Reads an exponent `[eE][+-]?digits` that ends the text; an empty text is the exponent zero. -/
def readExponent? : List Char → Option Int
  | [] => some 0
  | c :: cs => if c == 'e' || c == 'E' then readInt? cs else none

/-- Reads an unsigned decimal numeral that takes up the whole text. -/
def read? (negative : Bool) (cs : List Char) : Option Decimal :=
  let whole := cs.takeWhile isDigit
  let rest := cs.dropWhile isDigit
  let (places, rest) := match rest with
    | '.' :: rest => (rest.takeWhile isDigit, rest.dropWhile isDigit)
    | rest => ([], rest)
  if whole.isEmpty && places.isEmpty then none
  else (readExponent? rest).map fun e =>
    ⟨negative, digitsValue (whole ++ places), e - places.length⟩

end Decimal

/-- Reads a floating-point numeral, where `roundRatio` rounds ratios, and `infinity` and `nan`
give the values that are no ratios. -/
def readFloat? (roundRatio : Bool → Nat → Nat → α) (infinity : Bool → α) (nan : Bool → α)
    (cs : List Char) : Option α :=
  let (negative, body) := splitSign cs
  let name := String.ofList (body.map Char.toLower)
  if name = "inf" || name = "infinity" then some (infinity negative)
  else if name = "nan" then some (nan negative)
  else (Decimal.read? negative body).map (·.round roundRatio)

/-- Reads a numeral as the nearest number of 64 bits. -/
def readBinary64? (cs : List Char) : Option Binary64 :=
  readFloat? Binary64.ofRatio Binary64.infinity
    (fun negative => if negative then Binary64.nan.neg else Binary64.nan) cs

/-- The nearest number of 32 bits, as a number of 64 bits. -/
def roundBinary32 (negative : Bool) (num den : Nat) : Binary64 :=
  let d := roundBinary 24 (-149) num den
  if 2 ^ 128 ≤ d.mantissa * 2 ^ d.exponent.toNat then Binary64.infinity negative
  else Binary64.ofDyadic negative d

/-- Reads a numeral as the nearest number of 32 bits, widened to 64 bits. -/
def readBinary32? (cs : List Char) : Option Binary64 :=
  readFloat? roundBinary32 Binary64.infinity
    (fun negative => if negative then Binary64.nan.neg else Binary64.nan) cs

end EventMachine.Number
