/-!
# Escapes in string literals

`unescape` replaces the escapes in the body of a string literal. A backslash before any other
character stands for itself, and so does one at the end.
-/

namespace EventMachine.Syntax

/-- The character that a backslash and this character stand for. -/
def escape? : Char → Option Char
  | '"' => some '"'
  | '\'' => some '\''
  | 'a' => some '\x07'
  | 'b' => some '\x08'
  | 'e' => some '\x1b'
  | 'f' => some '\x0c'
  | 'n' => some '\n'
  | 'r' => some '\r'
  | 't' => some '\t'
  | 'v' => some '\x0b'
  | '\\' => some '\\'
  | _ => none

/-- The text that the body of a string literal stands for. -/
def unescapeChars : List Char → List Char
  | [] => []
  | ['\\'] => ['\\']
  | '\\' :: c :: cs =>
    match escape? c with
    | some e => e :: unescapeChars cs
    | none => '\\' :: c :: unescapeChars cs
  | c :: cs => c :: unescapeChars cs

/-- The text that the body of a string literal stands for. -/
def unescape (body : String) : String := String.ofList (unescapeChars body.toList)

end EventMachine.Syntax
