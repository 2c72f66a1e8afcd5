/-!
# Sets of characters by their boundaries

A property of characters that holds on runs of code points is kept as the ascending list of the
code points where it changes: it starts to hold at the first, stops at the second, and so on.
A character has the property when an odd number of boundaries lies at or below it.
-/

namespace EventMachine.Text

/-- The number of entries of the ascending `xs` from index `lo` up to `hi` that are at most `n`,
plus `lo`, by bisection. -/
def countUpTo (xs : Array Nat) (n lo hi : Nat) : Nat :=
  if h : lo < hi then
    let mid := (lo + hi) / 2
    if xs.getD mid 0 ≤ n then countUpTo xs n (mid + 1) hi else countUpTo xs n lo mid
  else lo
termination_by hi - lo

/-- A set of characters, given by the ascending code points at which membership changes. -/
structure CodePoints where
  boundaries : Array Nat

/-- Whether the character lies in the set. -/
def CodePoints.contains (s : CodePoints) (c : Char) : Bool :=
  countUpTo s.boundaries c.toNat 0 s.boundaries.size % 2 == 1

end EventMachine.Text
