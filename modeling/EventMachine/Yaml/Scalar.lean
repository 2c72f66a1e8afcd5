import EventMachine.Number.Shortest
import EventMachine.Number.Decimal

/-!
# What a plain scalar stands for

A scalar without quotes may be null, a truth value, a whole number or a floating-point number; any
other is a text. Whole numbers are decimal, or hexadecimal, octal or binary after `0x`, `0o` and
`0b`; a decimal one does not start with a zero.
-/

namespace EventMachine.Yaml

open Number

/-- What a scalar stands for. -/
inductive Meaning
  | null
  | bool (b : Bool)
  | int (n : Int)
  | float (x : Binary64)
  | text (s : String)
  /-- A whole number that needs more than 64 bits and not more than 128. -/
  | tooWide
deriving DecidableEq

/-- The value of a digit of a base of at most sixteen. -/
def baseDigit? (base : Nat) (c : Char) : Option Nat :=
  let value :=
    if isDigit c then digitValue c
    else if 'a' ≤ c ∧ c ≤ 'f' then c.toNat - 87
    else if 'A' ≤ c ∧ c ≤ 'F' then c.toNat - 55
    else base
  if value < base then some value else none

/-- The natural number that digits of a base write; there must be one at least. -/
def readNat? (base : Nat) (cs : List Char) : Option Nat :=
  if cs.isEmpty then none
  else cs.foldlM (fun n c => (baseDigit? base c).map (n * base + ·)) 0

/-- The base that `0x`, `0o` and `0b` announce, and the digits after them. -/
def announcedBase? : List Char → Option (Nat × List Char)
  | '0' :: 'x' :: cs => some (16, cs)
  | '0' :: 'o' :: cs => some (8, cs)
  | '0' :: 'b' :: cs => some (2, cs)
  | _ => none

/-- Digits that start with a needless zero. -/
def isZeroPadded : List Char → Bool
  | '0' :: c :: cs => (c :: cs).all isDigit
  | _ => false

/-- The natural number that unsigned digits write. -/
def readDigits? (cs : List Char) : Option Nat :=
  match announcedBase? cs with
  | some (base, digits) => readNat? base digits
  | none => if isZeroPadded cs then none else readNat? 10 cs

/-- The whole number that a scalar writes. -/
def readWhole? : List Char → Option Int
  | '-' :: cs => (readDigits? cs).map fun n => -(n : Int)
  | '+' :: cs => (readDigits? cs).map Int.ofNat
  | cs => (readDigits? cs).map Int.ofNat

/-- The floating-point number that a scalar writes. The decimal numerals whose value is infinite are
no numbers. -/
def readFloat? (cs : List Char) : Option Binary64 :=
  let (plus, unsigned) := match cs with
    | '+' :: rest => (true, rest)
    | rest => (false, rest)
  let text := String.ofList unsigned
  if plus && (splitSign unsigned).2.length ≠ unsigned.length then none
  else if text ∈ [".inf", ".Inf", ".INF"] then some (Binary64.infinity false)
  else if text ∈ ["-.inf", "-.Inf", "-.INF"] then some (Binary64.infinity true)
  else if !plus && text ∈ [".nan", ".NaN", ".NAN"] then some Binary64.nan
  else if isZeroPadded (splitSign unsigned).2 then none
  else (readBinary64? unsigned).filter (·.isFinite)

/-- What a plain scalar stands for. -/
def meaning (s : String) : Meaning :=
  if s ∈ ["", "~", "null", "Null", "NULL"] then .null
  else if s ∈ ["true", "True", "TRUE"] then .bool true
  else if s ∈ ["false", "False", "FALSE"] then .bool false
  else
    let ofFloat := match readFloat? s.toList with
      | some x => .float x
      | none => .text s
    match readWhole? s.toList with
    | none => ofFloat
    | some n =>
      if -2 ^ 63 ≤ n ∧ n < 2 ^ 64 then .int n
      else if -2 ^ 127 ≤ n ∧ n < 2 ^ 128 then .tooWide
      else ofFloat

/-- Floating-point numbers use an exponent below `1e-5` and from `1e16` on. -/
def floatLayout : FloatLayout := ⟨-5, 16, "", .toEven⟩

/-- The text of a floating-point number. -/
def floatText (x : Binary64) : String :=
  if x.isNaN then ".nan"
  else if x.isInfinite then if x.isNegative then "-.inf" else ".inf"
  else floatLayout.finite x

end EventMachine.Yaml
