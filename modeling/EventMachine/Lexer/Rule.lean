import EventMachine.Number.Decimal
import EventMachine.Text.WhiteSpace
import EventMachine.Text.Word
import EventMachine.Token

/-!
# Token rules

A rule says how many characters at the start of a text it matches. The rules of the language are
tried in order, and the first that matches wins (`firstMatch?`): white space and comments are
passed over, reserved words and truth values come before names, numbers with a decimal point before
whole ones.
-/

namespace EventMachine

/-- A token rule; one without a kind is passed over. -/
structure Rule where
  kind : Option TokenKind
  /-- The number of characters at the start of a text that match, or zero. -/
  matchLength : List Char → Nat

namespace Rule

/-- The number of characters at the start of a text that all have a property. -/
def span (p : Char → Bool) (cs : List Char) : Nat := (cs.takeWhile p).length

/-- Matches `->`. -/
def arrowLength : List Char → Nat
  | '-' :: '>' :: _ => 2
  | _ => 0

/-- Matches `#` and everything up to the end of the line. -/
def commentLength : List Char → Nat
  | '#' :: cs => 1 + span (· ≠ '\n') cs
  | _ => 0

/-- A punctuation character. -/
def isPunct (c : Char) : Bool := c ∈ ['{', '}', '(', ')', ',', ';', '=']

/-- Matches one punctuation character. -/
def punctLength : List Char → Nat
  | c :: _ => if isPunct c then 1 else 0
  | [] => 0

/-- Matches the rest of a string up to its closing quote. A backslash takes the next character with
it, which is not a newline. -/
def stringBodyLength? : List Char → Option Nat
  | [] => none
  | '\\' :: '\n' :: _ => none
  | '\\' :: _ :: cs => (stringBodyLength? cs).map (· + 2)
  | ['\\'] => none
  | c :: cs => if c = '"' then some 1 else (stringBodyLength? cs).map (· + 1)

/-- Matches a text in double quotes. -/
def stringLength : List Char → Nat
  | '"' :: cs =>
    match stringBodyLength? cs with
    | some n => n + 1
    | none => 0
  | _ => 0

/-- Matches a sign. -/
def signLength : List Char → Nat
  | c :: _ => if c = '+' || c = '-' then 1 else 0
  | [] => 0

/-- Matches `[+-]?[0-9]+`. -/
def intLength (cs : List Char) : Nat :=
  let sign := signLength cs
  let digits := span Number.isDigit (cs.drop sign)
  if digits = 0 then 0 else sign + digits

/-- Matches `[+-]?[0-9]+\.[0-9]*`. -/
def floatLength (cs : List Char) : Nat :=
  let whole := intLength cs
  match cs.drop whole with
  | '.' :: places => if whole = 0 then 0 else whole + 1 + span Number.isDigit places
  | _ => 0

/-- Matches one of some words where no word character follows it. -/
def wordLength (words : List String) (cs : List Char) : Nat :=
  match words.find? (fun w => w.toList.isPrefixOf cs) with
  | some word =>
    match cs.drop word.length with
    | c :: _ => if Text.isWord c then 0 else word.length
    | [] => word.length
  | none => 0

/-- A character that begins a name. -/
def isNameStart (c : Char) : Bool := c.isAlpha || c = '_'

/-- A character that goes on with a name. -/
def isNamePart (c : Char) : Bool := c.isAlphanum || c = '_'

/-- Matches a name. -/
def nameLength : List Char → Nat
  | c :: cs => if isNameStart c then 1 + span isNamePart cs else 0
  | [] => 0

end Rule

/-- The spelling of the truth values. -/
def truthWords : List String := ["true", "false"]

/-- The reserved words. -/
def keywords : List String := ["state", "on", "move"]

/-- The rules of the language. -/
def rules : List Rule :=
  [⟨none, Rule.span Text.isWhiteSpace⟩,
   ⟨none, Rule.commentLength⟩,
   ⟨some .arrow, Rule.arrowLength⟩,
   ⟨some .punct, Rule.punctLength⟩,
   ⟨some .string, Rule.stringLength⟩,
   ⟨some .float, Rule.floatLength⟩,
   ⟨some .int, Rule.intLength⟩,
   ⟨some .bool, Rule.wordLength truthWords⟩,
   ⟨some .keyword, Rule.wordLength keywords⟩,
   ⟨some .identifier, Rule.nameLength⟩]

/-- The kind and the length of the first rule that matches at the start of a text. -/
def firstMatch? (rules : List Rule) (cs : List Char) : Option (Option TokenKind × Nat) :=
  rules.findSome? fun rule =>
    let n := rule.matchLength cs
    if 0 < n then some (rule.kind, n) else none

theorem firstMatch?_pos {rules : List Rule} {cs : List Char} {kind : Option TokenKind} {n : Nat}
    (h : firstMatch? rules cs = some (kind, n)) : 0 < n := by
  obtain ⟨rule, -, hr⟩ := List.exists_of_findSome?_eq_some h
  dsimp only at hr
  split at hr
  · cases hr; assumption
  · cases hr

end EventMachine
