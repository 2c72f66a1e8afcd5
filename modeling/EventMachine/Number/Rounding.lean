/-!
# Rounding a ratio to a binary mantissa

`roundHalfEven` rounds a quotient to the nearest natural number, a half to the even neighbour.
`roundBinary` finds the mantissa and exponent nearest to a ratio, with a given number of bits and a
least exponent, as binary floating-point formats do.
-/

namespace EventMachine.Number

-- Powers are the core library's, also where another library has the powers of a monoid.
attribute [instance (2000)] instPowNat
attribute [default_instance 20000] instPowNat

/-- The natural number nearest to `num / den`; of two, the even one. -/
def roundHalfEven (num den : Nat) : Nat :=
  let q := num / den
  let twice := 2 * (num % den)
  if den < twice || (twice == den && q % 2 == 1) then q + 1 else q

/-- The greatest `k` with `2 ^ k ≤ num / den`, for positive `num` and `den`. -/
def floorLog2 (num den : Nat) : Int :=
  let k : Int := (Nat.log2 num : Int) - Nat.log2 den
  -- `k` is right or one too large
  if den * 2 ^ k.toNat ≤ num * 2 ^ (-k).toNat then k else k - 1

/-- A natural number times a power of two. -/
structure Dyadic where
  mantissa : Nat
  exponent : Int
deriving DecidableEq

/-- The mantissa and exponent nearest to `num / den`, where the mantissa has at most `bits` bits
and the exponent is at least `least`. Rounding up may give the mantissa `2 ^ bits`. -/
def roundBinary (bits : Nat) (least : Int) (num den : Nat) : Dyadic :=
  if num = 0 then ⟨0, least⟩
  else
    let e := max (floorLog2 num den - (bits - 1)) least
    ⟨roundHalfEven (num * 2 ^ (-e).toNat) (den * 2 ^ e.toNat), e⟩

end EventMachine.Number
