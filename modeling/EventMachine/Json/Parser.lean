import EventMachine.Json.Basic
import EventMachine.NameMap
import EventMachine.Number.Decimal

/-!
# Reading JSON

`Json.parse?` reads a text that holds one JSON value and nothing else but white space. The members
of an object come out in the order of their names, the last of each name. Arrays and objects may be
nested `maxDepth` deep.

A number without fraction and exponent is a whole number if it lies between `-2 ^ 63` and
`2 ^ 64 - 1`; minus zero and all other numbers are floating-point numbers. These are read in two
roundings: the digits are taken as long as they fit into 64 bits, and their value is multiplied or
divided by a power of ten.
-/

namespace EventMachine.Json

open Number

/-- How deep arrays and objects may be nested. -/
def maxDepth : Nat := 127

/-- The white space between the parts of a JSON text. -/
def isBlank (c : Char) : Bool := c == ' ' || c == '\t' || c == '\n' || c == '\r'

/-- The text without white space at its start. -/
def skipBlanks (cs : List Char) : List Char := cs.dropWhile isBlank

/-- The text after `word`, if it starts so. -/
def dropWord? : List Char → List Char → Option (List Char)
  | [], cs => some cs
  | _ :: _, [] => none
  | w :: word, c :: cs => if w == c then dropWord? word cs else none

/-! ## Strings -/

/-- The value of a hexadecimal digit. -/
def hexValue? (c : Char) : Option Nat :=
  if isDigit c then some (digitValue c)
  else if 'a' ≤ c ∧ c ≤ 'f' then some (c.toNat - 87)
  else if 'A' ≤ c ∧ c ≤ 'F' then some (c.toNat - 55)
  else none

/-- The value of four hexadecimal digits at the start of a text, and the rest. -/
def readHex4? : List Char → Option (Nat × List Char)
  | a :: b :: c :: d :: rest => do
    let a ← hexValue? a
    let b ← hexValue? b
    let c ← hexValue? c
    let d ← hexValue? d
    return (((a * 16 + b) * 16 + c) * 16 + d, rest)
  | _ => none

/-- The character that a backslash and this letter stand for. -/
def escaped? : Char → Option Char
  | '"' => some '"'
  | '\\' => some '\\'
  | '/' => some '/'
  | 'b' => some '\x08'
  | 'f' => some '\x0c'
  | 'n' => some '\n'
  | 'r' => some '\r'
  | 't' => some '\t'
  | _ => none

/-- The character that four hexadecimal digits stand for, after a backslash and `u`: two such
escapes make one character if their numbers are a surrogate pair, and a surrogate without a partner
is refused. -/
def readUnicode? (cs : List Char) : Option (Char × List Char) := do
  let (n, rest) ← readHex4? cs
  if 0xDC00 ≤ n ∧ n ≤ 0xDFFF then none
  else if 0xD800 ≤ n ∧ n ≤ 0xDBFF then
    match rest with
    | '\\' :: 'u' :: rest =>
      let (m, rest) ← readHex4? rest
      if 0xDC00 ≤ m ∧ m ≤ 0xDFFF then
        some (Char.ofNat (0x10000 + (n - 0xD800) * 0x400 + (m - 0xDC00)), rest)
      else none
    | _ => none
  else some (Char.ofNat n, rest)

/-- Reads the rest of a string up to the closing quote; `fuel` bounds the number of its
characters. -/
def readString? : (fuel : Nat) → List Char → Option (List Char × List Char)
  | 0, _ => none
  | _ + 1, [] => none
  | fuel + 1, c :: cs =>
    if c == '"' then some ([], cs)
    else if c == '\\' then
      match cs with
      | 'u' :: cs => do
        let (c, cs) ← readUnicode? cs
        let (text, rest) ← readString? fuel cs
        return (c :: text, rest)
      | c :: cs => do
        let c ← escaped? c
        let (text, rest) ← readString? fuel cs
        return (c :: text, rest)
      | [] => none
    else if c.toNat < 0x20 then none
    else do
      let (text, rest) ← readString? fuel cs
      return (c :: text, rest)

/-! ## Numbers -/

/-- Takes digits into a significand as long as it stays below `2 ^ 64`, and counts them. -/
def takeDigits (significand taken : Nat) : List Char → Nat × Nat
  | [] => (significand, taken)
  | d :: ds =>
    let next := significand * 10 + digitValue d
    if next < 2 ^ 64 then takeDigits next (taken + 1) ds else (significand, taken)

/-- `x / 10 ^ n`, in steps of at most 308 places with a rounding each; zero stays zero. -/
def scaleDown (x : Binary64) (n : Nat) : Binary64 :=
  if h : 308 < n then
    if x.isZero then x else scaleDown (x.div (Decimal.toBinary64 ⟨false, 1, 308⟩)) (n - 308)
  else x.div (Decimal.toBinary64 ⟨false, 1, n⟩)
termination_by n
decreasing_by omega

/-- The floating-point number for `significand * 10 ^ exponent`; there is none beyond the largest
finite number. -/
def scale? (negative : Bool) (significand : Nat) (exponent : Int) : Option Binary64 :=
  let x := Binary64.ofNat significand
  let scaled :=
    if exponent < 0 then some (scaleDown x exponent.natAbs)
    else if 308 < exponent then if x.isZero then some x else none
    else
      let y := x.mul (Decimal.toBinary64 ⟨false, 1, exponent⟩)
      if y.isInfinite then none else some y
  scaled.map fun y => if negative then y.neg else y

/-- Reads an exponent, if there is one. -/
def readExponent? : List Char → Option (Option Int × List Char)
  | c :: cs =>
    if c == 'e' || c == 'E' then
      let (negative, cs) := splitSign cs
      let digits := cs.takeWhile isDigit
      if digits.isEmpty then none
      else
        let n : Int := digitsValue digits
        some (some (if negative then -n else n), cs.dropWhile isDigit)
    else some (none, c :: cs)
  | [] => some (none, [])

/-- Reads the digits after a decimal point, if there is one. -/
def readPlaces? : List Char → Option (Option (List Char) × List Char)
  | '.' :: cs =>
    let digits := cs.takeWhile isDigit
    if digits.isEmpty then none else some (some digits, cs.dropWhile isDigit)
  | cs => some (none, cs)

/-- The value of a number by its parts. -/
def number? (negative : Bool) (whole : List Char) (places : Option (List Char))
    (exponent : Option Int) : Option Json :=
  let (significand, taken) := takeDigits 0 0 whole
  let beyond := whole.length - taken
  if places.isNone && exponent.isNone && beyond == 0 then
    if !negative then some (.int significand)
    else if significand = 0 || 2 ^ 63 < significand then
      some (.float (Binary64.ofNat significand).neg)
    else some (.int (-significand))
  else
    let (significand, placesTaken) := takeDigits significand 0 (places.getD [])
    (scale? negative significand (exponent.getD 0 + beyond - placesTaken)).map .float

/-- Reads a number. -/
def readNumber? (cs : List Char) : Option (Json × List Char) := do
  let (negative, cs) := match cs with
    | '-' :: cs => (true, cs)
    | cs => (false, cs)
  let whole := cs.takeWhile isDigit
  let startsWithZero := whole.head? == some '0'
  if whole.isEmpty || (startsWithZero && 1 < whole.length) then none
  else
    let (places, rest) ← readPlaces? (cs.dropWhile isDigit)
    let (exponent, rest) ← readExponent? rest
    let value ← number? negative whole places exponent
    return (value, rest)

/-! ## Values -/

/-- A reader of a value at the start of a text. -/
abbrev Reader := List Char → Option (Json × List Char)

/-- Reads the elements of an array after its first one, up to the closing bracket; `fuel` bounds
their number. -/
def readItems? (item : Reader) : (fuel : Nat) → List Char → Option (List Json × List Char)
  | 0, _ => none
  | fuel + 1, cs =>
    match skipBlanks cs with
    | ']' :: rest => some ([], rest)
    | ',' :: rest => do
      let (value, rest) ← item rest
      let (values, rest) ← readItems? item fuel rest
      return (value :: values, rest)
    | _ => none

/-- Reads a member of an object: a name, a colon and a value. -/
def readMember? (item : Reader) (cs : List Char) : Option ((String × Json) × List Char) :=
  match skipBlanks cs with
  | '"' :: cs => do
    let (name, rest) ← readString? (cs.length + 1) cs
    match skipBlanks rest with
    | ':' :: rest =>
      let (value, rest) ← item rest
      return ((String.ofList name, value), rest)
    | _ => none
  | _ => none

/-- Reads the members of an object after its first one, up to the closing brace; `fuel` bounds
their number. -/
def readMembers? (item : Reader) :
    (fuel : Nat) → List Char → Option (List (String × Json) × List Char)
  | 0, _ => none
  | fuel + 1, cs =>
    match skipBlanks cs with
    | '}' :: rest => some ([], rest)
    | ',' :: rest => do
      let (member, rest) ← readMember? item rest
      let (members, rest) ← readMembers? item fuel rest
      return (member :: members, rest)
    | _ => none

/-- The object with the given members: in the order of the names, the last of each name. -/
def ofMembers (members : List (String × Json)) : Json := .object (NameMap.ofList members).entries

/-- Reads an array or object after its opening bracket. -/
def readContainer? (item : Reader) (isArray : Bool) (cs : List Char) : Option (Json × List Char) :=
  let fuel := cs.length + 1
  if isArray then
    match skipBlanks cs with
    | ']' :: rest => some (.array [], rest)
    | cs => do
      let (value, rest) ← item cs
      let (values, rest) ← readItems? item fuel rest
      return (.array (value :: values), rest)
  else
    match skipBlanks cs with
    | '}' :: rest => some (.object [], rest)
    | cs => do
      let (member, rest) ← readMember? item cs
      let (members, rest) ← readMembers? item fuel rest
      return (ofMembers (member :: members), rest)

/-- Reads a value whose arrays and objects are nested at most `room` deep. -/
def readValue? : (room : Nat) → Reader
  | room, cs =>
    match skipBlanks cs with
    | [] => none
    | c :: rest =>
      if c == '[' || c == '{' then
        match room with
        | 0 => none
        | room + 1 => readContainer? (readValue? room) (c == '[') rest
      else if c == '"' then do
        let (text, rest) ← readString? (rest.length + 1) rest
        return (.string (String.ofList text), rest)
      else if c == 'n' then (dropWord? "ull".toList rest).map (.null, ·)
      else if c == 't' then (dropWord? "rue".toList rest).map (.bool true, ·)
      else if c == 'f' then (dropWord? "alse".toList rest).map (.bool false, ·)
      else readNumber? (c :: rest)

/-- The value that a JSON text holds. -/
def parse? (text : String) : Option Json := do
  let (value, rest) ← readValue? maxDepth text.toList
  if (skipBlanks rest).isEmpty then some value else none

end EventMachine.Json
