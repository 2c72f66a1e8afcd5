/-!
# White space

The characters with the Unicode property `White_Space`, and what is cut at them: `trim` takes
them off both ends, `splitWord` cuts at the first of them.
-/

namespace EventMachine.Text

/-- The Unicode property `White_Space`. -/
def isWhiteSpace (c : Char) : Bool :=
  let n := c.toNat
  (9 ≤ n && n ≤ 13) || n == 0x20 || n == 0x85 || n == 0xA0 || n == 0x1680 ||
    (0x2000 ≤ n && n ≤ 0x200A) || n == 0x2028 || n == 0x2029 || n == 0x202F || n == 0x205F ||
    n == 0x3000

/-- The text without white space at its ends. -/
def trimChars (cs : List Char) : List Char :=
  ((cs.dropWhile isWhiteSpace).reverse.dropWhile isWhiteSpace).reverse

/-- The text without white space at its ends. -/
def trim (s : String) : String := String.ofList (trimChars s.toList)

/-- The part before the first white space, and the part after that one character, if there is
white space at all. -/
def splitWord (s : String) : String × Option String :=
  let word := s.toList.takeWhile (!isWhiteSpace ·)
  match s.toList.dropWhile (!isWhiteSpace ·) with
  | [] => (s, none)
  | _ :: rest => (String.ofList word, some (String.ofList rest))

end EventMachine.Text
