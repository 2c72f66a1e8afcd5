import EventMachine.Json.Basic
import EventMachine.NameMap
import EventMachine.Number.Shortest
import EventMachine.Text.Lowercase
import EventMachine.Text.Quoted

/-!
# Values and their types

Event data, constants and arguments are texts, whole numbers of 64 bits, floating-point numbers,
truth values, or opaque values of the host. An opaque value has an identity of its own, and that
alone decides whether two of them are equal; what it holds matters only to the host.
-/

namespace EventMachine

open Number

/-- The type of a value, of a field of event data, or of an input of an action. -/
inductive ValueType
  | string
  | int
  | float
  | bool
  /-- A value of the host that is passed on as it is. -/
  | constant
deriving DecidableEq

namespace ValueType

def name : ValueType → String
  | string => "string"
  | int => "int"
  | float => "float"
  | bool => "bool"
  | constant => "constant"

/-- The type of this very name. -/
def ofName? (name : String) : Option ValueType :=
  [string, int, float, bool, constant].find? (·.name = name)

/-- The type that a description names, in any letter case, or the description in lowercase. -/
def ofDescription (text : String) : Except String ValueType :=
  let text := Text.lowercase text
  if text = "str" then .ok string
  else if text = "integer" then .ok int
  else if text = "boolean" then .ok bool
  else
    match ofName? text with
    | some type => .ok type
    | none => .error ("unknown value type '" ++ text ++ "'")

end ValueType

/-- The host's kinds of unsigned 64-bit numbers. -/
inductive Word
  | u64
  | usize
deriving DecidableEq

/-- What an opaque value holds. -/
inductive Content
  | json (value : Json)
  | number (word : Word) (n : UInt64)
  /-- A host object, known by a label. -/
  | handle (label : String)
deriving DecidableEq

/-- An opaque value of the host. -/
structure HostObject where
  identity : Nat
  content : Content
deriving DecidableEq

/-- A value. The structural equality of values tells apart what `Value.same` does not. -/
inductive Value
  | str (text : String)
  | int (n : Int64)
  | float (x : Binary64)
  | bool (b : Bool)
  | host (object : HostObject)
deriving DecidableEq

/-- The value that an input of the type has when a call leaves it out. -/
def ValueType.zero? : ValueType → Option Value
  | string => some (.str "")
  | int => some (.int 0)
  | float => some (.float (Binary64.zero false))
  | bool => some (.bool false)
  | constant => none

namespace Value

def type : Value → ValueType
  | str _ => .string
  | int _ => .int
  | float _ => .float
  | bool _ => .bool
  | host _ => .constant

/-- Equality of values: numbers of different types differ, floating-point numbers compare as
numbers, opaque values by identity. -/
def same : Value → Value → Bool
  | str a, str b => a = b
  | int a, int b => a = b
  | float a, float b => a.same b
  | bool a, bool b => a = b
  | host a, host b => a.identity = b.identity
  | _, _ => false

def str? : Value → Option String
  | str text => some text
  | _ => none

def int? : Value → Option Int64
  | int n => some n
  | _ => none

def float? : Value → Option Binary64
  | float x => some x
  | _ => none

def bool? : Value → Option Bool
  | bool b => some b
  | _ => none

/-- The label of a host object. -/
def handle? : Value → Option String
  | host ⟨_, .handle label⟩ => some label
  | _ => none

/-! ## The text of a value -/

/-- Values use an exponent below `1e-4` and from `1e16` on. -/
def floatLayout : FloatLayout := ⟨-4, 16, "", .up⟩

/-- The text of a floating-point number. -/
def floatText (x : Binary64) : String :=
  if x.isNaN then "NaN"
  else if x.isInfinite then if x.isNegative then "-inf" else "inf"
  else floatLayout.finite x

/-- The text of a value in messages and call records. -/
def text : Value → String
  | str s => Text.quote s
  | int n => toString n.toInt
  | float x => floatText x
  | bool b => if b then "true" else "false"
  | host _ => "<constant>"

/-! ## Values of the host -/

/-- The value of an unsigned number: an opaque one, with the given identity, if it lies beyond the
whole numbers. -/
def ofWord (identity : Nat) (word : Word) (n : UInt64) : Value :=
  if n.toNat < 2 ^ 63 then .int (Int64.ofInt n.toNat) else .host ⟨identity, .number word n⟩

/-- The value of a JSON value. What has no type of its own becomes opaque, with the given
identity. -/
def ofJson (identity : Nat) : Json → Value
  | .bool b => .bool b
  | .string s => .str s
  | .float x => .float x
  | .int n =>
    if -2 ^ 63 ≤ n ∧ n < 2 ^ 63 then .int (Int64.ofInt n) else .host ⟨identity, .json (.int n)⟩
  | json => .host ⟨identity, .json json⟩

/-- The values of named JSON values; their identities count from `identity`. -/
def ofMembers (identity : Nat) : List (String × Json) → List (String × Value)
  | [] => []
  | (name, json) :: members => (name, ofJson identity json) :: ofMembers (identity + 1) members

end Value

/-- The data that comes with an event. -/
abbrev Payload := NameMap Value

/-- The payload that a JSON object describes; the identities of its values count from `identity`. -/
def Payload.ofJson? (identity : Nat) : Json → Option Payload
  | .object members => some (NameMap.ofList (Value.ofMembers identity members))
  | _ => none

end EventMachine
