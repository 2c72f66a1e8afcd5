import EventMachine.Yaml.Token

/-!
# YAML documents

`Document.parse?` reads a text with at most one document. A value that is not written is an empty
plain scalar.
-/

namespace EventMachine.Yaml

/-- A node of a document. -/
inductive Node
  | scalar (text : String) (plain : Bool)
  | sequence (items : List Node)
  | mapping (entries : List (Node × Node))

namespace Node

/-- The node that is not written. -/
def absent : Node := .scalar "" true

/-- A reader of a node at the start of a token list. -/
abbrev Reader (α : Type) := List Token → Option (α × List Token)

/-- The list starts with one of the tokens, or is empty. -/
def startsWithAny (ts : List Token) (stops : List Token) : Bool :=
  match ts with
  | t :: _ => t ∈ stops
  | [] => true

/-- Reads a node, unless one of the tokens comes next. -/
def orAbsent (node : Reader Node) (stops : List Token) : Reader Node := fun ts =>
  if startsWithAny ts stops then some (absent, ts) else node ts

/-- What may follow a key or value that is not written, in a block mapping. -/
def blockStops : List Token := [.key, .value, .blockEnd]

/-- Reads the value behind a key, if there is a colon. -/
def valueOf (node : Reader Node) (stops : List Token) : Reader Node
  | .value :: ts => orAbsent node stops ts
  | ts => some (absent, ts)

/-- Reads the entries of a block mapping; `fuel` bounds their number. -/
def blockEntries (node : Reader Node) : (fuel : Nat) → Reader (List (Node × Node))
  | fuel + 1, .key :: ts => do
    let (key, ts) ← orAbsent node blockStops ts
    let (value, ts) ← valueOf node blockStops ts
    let (entries, ts) ← blockEntries node fuel ts
    return ((key, value) :: entries, ts)
  | _, .blockEnd :: ts => some ([], ts)
  | _, _ => none

/-- Reads the items of a block sequence. One that is not indented further than the mapping around
it has no end of its own. -/
def blockItems (node : Reader Node) (ended : Bool) : (fuel : Nat) → Reader (List Node)
  | fuel + 1, .blockEntry :: ts => do
    let stops := if ended then [.blockEntry, .blockEnd] else .blockEntry :: blockStops
    let (item, ts) ← orAbsent node stops ts
    let (items, ts) ← blockItems node ended fuel ts
    return (item :: items, ts)
  | _, .blockEnd :: ts => some ([], if ended then ts else .blockEnd :: ts)
  | _, ts => if ended then none else some ([], ts)

/-- Reads the rest of a flow collection, whose items `item` reads; between them are commas, and
perhaps one after the last. -/
def flowItems (item : Reader α) (closing : Token) : (fuel : Nat) → Reader (List α)
  | 0, _ => none
  | fuel + 1, ts =>
    if ts.head? = some closing then some ([], ts.tail)
    else do
      let (a, ts) ← item ts
      match ts with
      | .flowEntry :: ts =>
        let (as, ts) ← flowItems item closing fuel ts
        return (a :: as, ts)
      | t :: ts => if t = closing then some ([a], ts) else none
      | [] => none

/-- Reads an item of a flow sequence: a node, or a key with its value. A key that is not written
takes the token in its place away. -/
def flowItem (node : Reader Node) : Reader Node
  | .key :: ts => do
    let (key, ts) ←
      if startsWithAny ts [.value, .flowEntry, .flowSequenceEnd] then some (absent, ts.tail)
      else node ts
    let (value, ts) ← valueOf node [.flowEntry, .flowSequenceEnd] ts
    return (.mapping [(key, value)], ts)
  | ts => node ts

/-- Reads an entry of a flow mapping: a key with its value, or a key alone. -/
def flowEntry (node : Reader Node) : Reader (Node × Node)
  | .key :: ts => do
    let (key, ts) ← orAbsent node [.value, .flowEntry, .flowMappingEnd] ts
    let (value, ts) ← valueOf node [.flowEntry, .flowMappingEnd] ts
    return ((key, value), ts)
  | ts => do
    let (key, ts) ← node ts
    return ((key, absent), ts)

/-- Reads a node whose collections are nested at most `room` deep. Outside flow collections
(`inBlock`) it may be a block collection; behind a colon (`afterKey`) a block sequence need not be
indented. -/
def read? : (room : Nat) → (inBlock afterKey : Bool) → Reader Node
  | 0, _, _, _ => none
  | room + 1, inBlock, afterKey, ts =>
    match ts with
    | .scalar text plain :: ts => some (.scalar text plain, ts)
    | .flowSequenceStart :: ts => do
      let (items, ts) ←
        flowItems (flowItem (read? room false false)) .flowSequenceEnd (ts.length + 1) ts
      return (.sequence items, ts)
    | .flowMappingStart :: ts => do
      let (entries, ts) ←
        flowItems (flowEntry (read? room false false)) .flowMappingEnd (ts.length + 1) ts
      return (.mapping entries, ts)
    | .blockEntry :: rest =>
      if afterKey then do
        let (items, ts) ←
          blockItems (read? room true false) false (rest.length + 1) (.blockEntry :: rest)
        return (.sequence items, ts)
      else none
    | .blockSequenceStart :: ts =>
      if inBlock then do
        let (items, ts) ← blockItems (read? room true false) true (ts.length + 1) ts
        return (.sequence items, ts)
      else none
    | .blockMappingStart :: ts =>
      if inBlock then do
        let (entries, ts) ← blockEntries (read? room true true) (ts.length + 1) ts
        return (.mapping entries, ts)
      else none
    | _ => none

end Node

/-- A document, which may be empty. -/
abbrev Document := Option Node

namespace Document

/-- Reads a document from its tokens. -/
def ofTokens? (ts : List Token) : Option Document :=
  let node (ts : List Token) := Node.read? (ts.length + 1) true false ts
  match ts with
  | [] => some none
  | .documentStart :: ts => do
    let (root, rest) ←
      if Node.startsWithAny ts [.documentStart, .documentEnd] then some (Node.absent, ts)
      else node ts
    if rest.all (· = .documentEnd) then some (some root) else none
  | ts => do
    let (root, rest) ← node ts
    if rest.all (· = .documentEnd) then some (some root) else none

/-- Reads a text with at most one document. -/
def parse? (text : String) : Option Document := (tokens? text).bind ofTokens?

end Document

end EventMachine.Yaml
