import EventMachine.Json.Basic
import EventMachine.NameMap
import EventMachine.Text.Quoted
import EventMachine.Yaml.Node
import EventMachine.Yaml.Scalar

/-!
# The data of a YAML node

Where a text is wanted, every scalar counts as it is written (`Node.text?`). Otherwise a node is
read as a `Datum`, whose mappings may have keys of any kind but each only once, or as a JSON value,
whose objects have texts as keys, the last of each.
-/

namespace EventMachine.Yaml

open Number

/-- A node with its scalars understood. -/
inductive Datum
  | null
  | bool (b : Bool)
  | int (n : Int)
  | float (x : Binary64)
  | string (s : String)
  | sequence (items : List Datum)
  | mapping (entries : List (Datum × Datum))

namespace Datum

mutual

/-- Equality of data: every NaN is the same key, and so are the two zeros, and the entries of a
mapping have no order. -/
def same : Datum → Datum → Bool
  | null, null => true
  | bool a, bool b => a = b
  | int a, int b => a = b
  | float a, float b => a.same b || (a.isNaN && b.isNaN)
  | string a, string b => a = b
  | sequence as, sequence bs => sameItems as bs
  | mapping as, mapping bs => as.length = bs.length && included as bs
  | _, _ => false

/-- Equality of lists of data. -/
def sameItems : List Datum → List Datum → Bool
  | [], [] => true
  | a :: as, b :: bs => same a b && sameItems as bs
  | _, _ => false

/-- Each of the first entries is among the others. -/
def included : List (Datum × Datum) → List (Datum × Datum) → Bool
  | [], _ => true
  | (k, a) :: as, bs => bs.any (fun (l, b) => same k l && same a b) && included as bs

end

/-- The text of a number. -/
def numberText (text : String) : String := "Number(" ++ text ++ ")"

mutual

/-- How a message shows a datum. -/
def text : Datum → String
  | null => "Null"
  | bool b => "Bool(" ++ toString b ++ ")"
  | int n => numberText (toString n)
  | float x => numberText (floatText x)
  | string s => "String(" ++ Text.quote s ++ ")"
  | sequence items => "Sequence [" ++ ", ".intercalate (itemTexts items) ++ "]"
  | mapping entries => "Mapping \x7b" ++ ", ".intercalate (entryTexts entries) ++ "\x7d"

/-- How a message shows the items of a sequence. -/
def itemTexts : List Datum → List String
  | [] => []
  | item :: items => text item :: itemTexts items

/-- How a message shows the entries of a mapping. -/
def entryTexts : List (Datum × Datum) → List String
  | [] => []
  | (key, value) :: entries =>
    let keyText := match key with
      | bool b => toString b
      | int n => toString n
      | float x => floatText x
      | string s => Text.quote s
      | key => text key
    (keyText ++ ": " ++ text value) :: entryTexts entries

end

/-- The text that a datum is. -/
def string? : Datum → Option String
  | string s => some s
  | _ => none

/-- A scalar, understood if it is plain. A number too wide for 64 bits is no datum. -/
def ofScalar? (s : String) (plain : Bool) : Option Datum :=
  if !plain then some (string s)
  else
    match meaning s with
    | .null => some null
    | .bool b => some (bool b)
    | .int n => some (int n)
    | .float x => some (float x)
    | .text s => some (string s)
    | .tooWide => none

mutual

/-- The datum of a node. -/
def ofNode? : Node → Option Datum
  | .scalar s plain => ofScalar? s plain
  | .sequence items => (ofItems? items).map sequence
  | .mapping entries => (ofEntries? [] entries).map mapping

/-- The data of the items of a sequence. -/
def ofItems? : List Node → Option (List Datum)
  | [] => some []
  | item :: items => do
    let item ← ofNode? item
    return item :: (← ofItems? items)

/-- The data of entries of a mapping, after those with the keys `known`. -/
def ofEntries? (known : List Datum) : List (Node × Node) → Option (List (Datum × Datum))
  | [] => some []
  | (key, value) :: entries => do
    let key ← ofNode? key
    let value ← ofNode? value
    if known.any (same key) then none
    else return (key, value) :: (← ofEntries? (key :: known) entries)

end

end Datum

namespace Node

/-- The text of a scalar, as it is written. -/
def text? : Node → Option String
  | scalar s _ => some s
  | _ => none

/-- The entries of a mapping. A mapping that is not written has none. -/
def entries? : Node → Option (List (Node × Node))
  | mapping entries => some entries
  | scalar "" true => some []
  | _ => none

/-- The entries of a mapping whose keys are texts. -/
def fields? (node : Node) : Option (List (String × Node)) := do
  let entries ← node.entries?
  entries.mapM fun (key, value) => do return (← key.text?, value)

/-- The JSON value of a scalar. -/
def scalarJson? (s : String) (plain : Bool) : Option Json :=
  if !plain then some (.string s)
  else
    match meaning s with
    | .null => some .null
    | .bool b => some (.bool b)
    | .int n => some (.int n)
    | .float x => some (if x.isFinite then .float x else .null)
    | .text s => some (.string s)
    | .tooWide => none

mutual

/-- The JSON value of a node. A number that is not finite is null. -/
def json? : Node → Option Json
  | scalar s plain => scalarJson? s plain
  | sequence items => (jsonItems? items).map .array
  | mapping entries => (jsonMembers? entries).map fun ms => .object (NameMap.ofList ms).entries

/-- The JSON values of items. -/
def jsonItems? : List Node → Option (List Json)
  | [] => some []
  | item :: items => do
    let item ← json? item
    return item :: (← jsonItems? items)

/-- The JSON members of entries. -/
def jsonMembers? : List (Node × Node) → Option (List (String × Json))
  | [] => some []
  | (key, value) :: entries => do
    let key ← key.text?
    let value ← json? value
    return (key, value) :: (← jsonMembers? entries)

end

end Node

/-! ## Nesting -/

/-- How deep the collections of a document may be nested where its data are looked at. -/
def maxDepth : Nat := 128

namespace Node

mutual

/-- How deep collections are nested. -/
def depth : Node → Nat
  | scalar _ _ => 0
  | sequence items => itemDepth items + 1
  | mapping entries => entryDepth entries + 1

/-- How deep the collections among items are nested. -/
def itemDepth : List Node → Nat
  | [] => 0
  | item :: items => max (depth item) (itemDepth items)

/-- How deep the collections among keys and values are nested. -/
def entryDepth : List (Node × Node) → Nat
  | [] => 0
  | (key, value) :: entries => max (max (depth key) (depth value)) (entryDepth entries)

end

end Node

namespace Document

/-- The root of a document; that of an empty one is not written. -/
def root (d : Document) : Node := d.getD .absent

end Document

/-- The values of one field of a record, of which there may be only one. -/
def field? (name : String) (fields : List (String × Node)) : Option (Option Node) :=
  match fields.filter (·.1 = name) with
  | [] => some none
  | [(_, value)] => some (some value)
  | _ => none

end EventMachine.Yaml
