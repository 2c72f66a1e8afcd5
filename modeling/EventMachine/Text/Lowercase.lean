import EventMachine.Text.CaseTables

/-!
# Lowercase text

The full lowercase mapping of Unicode, without regard to a locale. It maps character by character
but for two letters: capital I with a dot above becomes two characters, and capital sigma becomes
final sigma at the end of a word.
-/

namespace EventMachine.Text

/-- The property `Cased`. -/
def isCased (c : Char) : Bool := casedBoundaries.contains c

/-- The property `Case_Ignorable`. -/
def isCaseIgnorable (c : Char) : Bool := caseIgnorableBoundaries.contains c

/-- The first character that is not ignored for letter case is a cased one. -/
def meetsCased (cs : List Char) : Bool :=
  match cs.dropWhile isCaseIgnorable with
  | [] => false
  | c :: _ => isCased c

/-- The lowercase letters of one character outside any word. -/
def lowerChar (c : Char) : List Char :=
  if c == 'İ' then ['i', '\u0307']
  else
    match lowercaseRuns.find? (·.contains c.toNat) with
    | none => [c]
    | some run => [Char.ofNat (Int.toNat (c.toNat + run.distance))]

/-- The lowercase of `rest`, where `before` holds the characters in front of it, nearest first.
A capital sigma is final when a cased letter precedes it and none follows. -/
def lowerFrom (before : List Char) : List Char → List Char
  | [] => []
  | c :: rest =>
    (if c == 'Σ' then (if meetsCased before && !meetsCased rest then ['ς'] else ['σ'])
      else lowerChar c) ++ lowerFrom (c :: before) rest

/-- The text in lowercase. -/
def lowercase (s : String) : String := String.ofList (lowerFrom [] s.toList)

end EventMachine.Text
