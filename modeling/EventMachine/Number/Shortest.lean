import EventMachine.Number.Binary64

/-!
# The shortest decimal text of a floating-point number

`Binary64.shortest` finds the fewest decimal digits that read back as the number, and of several
candidates with that many digits the one nearest to it. `FloatLayout` says how a format lays the
digits out.
-/

namespace EventMachine.Number

/-- Which of two equally near candidates is taken. -/
inductive Tie
  | up
  | toEven
deriving DecidableEq

/-- The decimal `0.d₁d₂… * 10 ^ point`, where `digits` are `d₁d₂…` as one number without zeros at
its end. -/
structure ShortDecimal where
  digits : Nat
  point : Int
deriving DecidableEq

/-- The digits without zeros at the end, with the number of digits they started from. -/
def stripZeros (fuel n : Nat) : Nat :=
  match fuel with
  | 0 => n
  | fuel + 1 => if n ≠ 0 && n % 10 = 0 then stripZeros fuel (n / 10) else n

/-- The interval of the ratios that round to a number, in units of a common denominator: the number
itself, its two ends, and whether the ends belong to it. -/
structure RoundingInterval where
  value : Nat
  low : Nat
  high : Nat
  denominator : Nat
  closed : Bool

namespace RoundingInterval

/-- The ratios that round to a positive finite number. Just above a power of two the lower
neighbour is only half as far away as the upper one. -/
def ofBinary64 (x : Binary64) : RoundingInterval :=
  let d := x.magnitude
  let e := d.exponent - 2
  let scale := 2 ^ e.toNat
  let below := if x.fraction = 0 && 1 < x.exponentField then 1 else 2
  { value := 4 * d.mantissa * scale
    low := (4 * d.mantissa - below) * scale
    high := (4 * d.mantissa + 2) * scale
    denominator := 2 ^ (-e).toNat
    closed := d.mantissa % 2 = 0 }

/-- `n * unitNum / unitDen` rounds to the number. -/
def holds (r : RoundingInterval) (n unitNum unitDen : Nat) : Bool :=
  let x := n * unitNum * r.denominator
  let low := r.low * unitDen
  let high := r.high * unitDen
  if r.closed then low ≤ x && x ≤ high else low < x && x < high

/-- The candidate on the grid of multiples of `10 ^ e`: of the number's two neighbours there the
one that rounds to it, the nearer one if both do. -/
def onGrid (r : RoundingInterval) (tie : Tie) (e : Int) : Option Nat :=
  let unitNum := 10 ^ e.toNat
  let unitDen := 10 ^ (-e).toNat
  let num := r.value * unitDen
  let den := r.denominator * unitNum
  let below := num / den
  let twice := 2 * (num % den)
  match r.holds below unitNum unitDen, r.holds (below + 1) unitNum unitDen with
  | false, false => none
  | true, false => some below
  | false, true => some (below + 1)
  | true, true =>
    if twice < den then some below
    else if den < twice then some (below + 1)
    else match tie with
      | .up => some (below + 1)
      | .toEven => some (if below % 2 = 0 then below else below + 1)

/-- Tries grids of more and more digits, `fuel` of them, below the decimal point `point`. -/
def search (r : RoundingInterval) (tie : Tie) (point : Int) (count : Nat) : Nat → ShortDecimal
  | 0 => ⟨0, 0⟩
  | fuel + 1 =>
    match r.onGrid tie (point - count) with
    | none => r.search tie point (count + 1) fuel
    | some n =>
      -- the upper neighbour may have one digit more than its grid
      let wider := 10 ^ count ≤ n
      ⟨stripZeros (count + 1) n, if wider then point + 1 else point⟩

end RoundingInterval

/-- The least `k` with `num / den < 10 ^ k`, for positive `num` and `den`. -/
def decimalPoint (num den : Nat) : Int :=
  let guess : Int := ((Nat.toDigits 10 num).length : Int) - (Nat.toDigits 10 den).length
  -- the guess is right or one too small
  if num * 10 ^ (-guess).toNat < den * 10 ^ guess.toNat then guess else guess + 1

/-- The shortest decimal that reads back as the positive finite number. Seventeen digits always
do. -/
def Binary64.shortest (x : Binary64) (tie : Tie) : ShortDecimal :=
  let r := RoundingInterval.ofBinary64 x
  r.search tie (decimalPoint r.value r.denominator) 1 17

/-- How a format writes floating-point numbers. -/
structure FloatLayout where
  /-- Numbers below `10 ^ leastPoint` use an exponent. -/
  leastPoint : Int
  /-- Numbers of `10 ^ greatestPoint` or more use an exponent. -/
  greatestPoint : Int
  /-- The sign in front of an exponent that is not negative. -/
  exponentSign : String
  tie : Tie

namespace FloatLayout

/-- The digits with the decimal point after `point` of them; there is a digit on both sides. -/
def positional (digits : List Char) (point : Int) : List Char :=
  if point ≤ 0 then ['0', '.'] ++ List.replicate (-point).toNat '0' ++ digits
  else
    let whole := digits.take point.toNat ++ List.replicate (point.toNat - digits.length) '0'
    let places := digits.drop point.toNat
    whole ++ '.' :: if places.isEmpty then ['0'] else places

/-- The digits with one of them before the decimal point, and the exponent. -/
def scientific (layout : FloatLayout) (digits : List Char) (point : Int) : List Char :=
  let places := digits.drop 1
  let e := point - 1
  digits.take 1 ++ (if places.isEmpty then [] else '.' :: places) ++ ['e'] ++
    (if e < 0 then ['-'] else layout.exponentSign.toList) ++ Nat.toDigits 10 e.natAbs

/-- The text of a number that is neither infinite nor NaN. -/
def finite (layout : FloatLayout) (x : Binary64) : String :=
  let sign := if x.isNegative then ['-'] else []
  if x.isZero then String.ofList (sign ++ ['0', '.', '0'])
  else
    let d := x.shortest layout.tie
    let digits := Nat.toDigits 10 d.digits
    let body :=
      if layout.leastPoint < d.point && d.point ≤ layout.greatestPoint then
        positional digits d.point
      else layout.scientific digits d.point
    String.ofList (sign ++ body)

end FloatLayout

end EventMachine.Number
