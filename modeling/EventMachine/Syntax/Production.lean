import EventMachine.Text.Quoted
import EventMachine.Token

/-!
# Productions

A production reads a part of the grammar from the front of a token list, or tells what it expected
and what was left there. Productions that always use up a token (`Shrinks`) may be repeated:
`commaSeparated`, `parenthesised`, `braceItems` and `untilEnd` read their lists.
-/

namespace EventMachine.Syntax

/-- A token that would have been accepted. -/
inductive Expectation
  | kind (k : TokenKind)
  /-- The punctuation or reserved word with this text. -/
  | text (t : String)
deriving DecidableEq

/-- How a message names what would have been accepted. -/
def Expectation.label : Expectation → String
  | kind k => k.name
  | text t => Text.quote t

/-- What would have been accepted, and the tokens that were left instead. -/
structure Mismatch where
  expected : List Expectation
  remaining : List Token
deriving DecidableEq

/-- A reader of a part of the grammar at the front of a token list. -/
abbrev Production := StateT (List Token) (Except Mismatch)

namespace Production

/-- The production that accepts nothing. -/
def mismatch (expected : List Expectation) : Production α := fun ts => .error ⟨expected, ts⟩

/-- The list starts with the punctuation or reserved word. -/
def startsWith (text : String) : List Token → Bool
  | t :: _ => t.isPunct text || t.isKeyword text
  | [] => false

/-- Reads a token of the kind. -/
def ofKind (kind : TokenKind) : Production Token
  | t :: ts => if t.kind = kind then .ok (t, ts) else .error ⟨[.kind kind], t :: ts⟩
  | [] => .error ⟨[.kind kind], []⟩

/-- Reads the punctuation or reserved word. -/
def ofText (text : String) : Production Location
  | t :: ts =>
    if startsWith text (t :: ts) then .ok (t.location, ts) else .error ⟨[.text text], t :: ts⟩
  | [] => .error ⟨[.text text], []⟩

/-- The list starts with the punctuation or reserved word. -/
def isAt (text : String) : Production Bool := fun ts => .ok (startsWith text ts, ts)

/-- The list starts with the reserved word. -/
def isAtKeyword (word : String) : Production Bool := fun ts =>
  .ok (ts.head?.any (·.isKeyword word), ts)

/-- The kind of the next token is the given one. -/
def isAtKind (kind : TokenKind) : Production Bool := fun ts =>
  .ok (ts.head?.any (·.kind = kind), ts)

/-! ## Productions that use up tokens -/

/-- The production leaves no more tokens than it found. -/
def Keeps (p : Production α) : Prop :=
  ∀ ts a rest, p ts = .ok (a, rest) → rest.length ≤ ts.length

/-- The production uses up a token whenever it succeeds. -/
def Shrinks (p : Production α) : Prop :=
  ∀ ts a rest, p ts = .ok (a, rest) → rest.length < ts.length

theorem Shrinks.keeps {p : Production α} (h : Shrinks p) : Keeps p :=
  fun ts a rest hp => Nat.le_of_lt (h ts a rest hp)

theorem bind_eq_ok {p : Production α} {f : α → Production β} {ts rest : List Token} {b : β}
    (h : (p >>= f) ts = .ok (b, rest)) :
    ∃ a mid, p ts = .ok (a, mid) ∧ f a mid = .ok (b, rest) := by
  cases hp : p ts with
  | error e => simp [bind, StateT.bind, hp, Except.bind] at h
  | ok r => exact ⟨r.1, r.2, rfl, by simpa [bind, StateT.bind, hp, Except.bind] using h⟩

theorem keeps_pure (a : α) : Keeps (pure a) := by
  rintro ts b rest h
  cases h
  exact Nat.le_refl _

theorem Keeps.bind {p : Production α} {f : α → Production β} (hp : Keeps p)
    (hf : ∀ a, Keeps (f a)) : Keeps (p >>= f) := by
  intro ts b rest h
  obtain ⟨a, mid, h₁, h₂⟩ := bind_eq_ok h
  exact Nat.le_trans (hf a _ _ _ h₂) (hp _ _ _ h₁)

theorem Shrinks.bind {p : Production α} {f : α → Production β} (hp : Shrinks p)
    (hf : ∀ a, Keeps (f a)) : Shrinks (p >>= f) := by
  intro ts b rest h
  obtain ⟨a, mid, h₁, h₂⟩ := bind_eq_ok h
  exact Nat.lt_of_le_of_lt (hf a _ _ _ h₂) (hp _ _ _ h₁)

theorem Keeps.bind_shrinks {p : Production α} {f : α → Production β} (hp : Keeps p)
    (hf : ∀ a, Shrinks (f a)) : Shrinks (p >>= f) := by
  intro ts b rest h
  obtain ⟨a, mid, h₁, h₂⟩ := bind_eq_ok h
  exact Nat.lt_of_lt_of_le (hf a _ _ _ h₂) (hp _ _ _ h₁)

theorem shrinks_mismatch (expected : List Expectation) :
    Shrinks (mismatch expected : Production α) := by
  intro ts a rest h
  cases h

theorem shrinks_ofKind (kind : TokenKind) : Shrinks (ofKind kind) := by
  rintro (_ | ⟨t, ts⟩) a rest h
  · cases h
  · simp only [ofKind] at h
    split at h
    · cases h; simp
    · cases h

theorem shrinks_ofText (text : String) : Shrinks (ofText text) := by
  rintro (_ | ⟨t, ts⟩) a rest h
  · cases h
  · simp only [ofText] at h
    split at h
    · cases h; simp
    · cases h

theorem keeps_isAt (text : String) : Keeps (isAt text) := by
  rintro ts a rest h
  cases h
  exact Nat.le_refl _

theorem keeps_isAtKeyword (word : String) : Keeps (isAtKeyword word) := by
  rintro ts a rest h
  cases h
  exact Nat.le_refl _

theorem keeps_isAtKind (kind : TokenKind) : Keeps (isAtKind kind) := by
  rintro ts a rest h
  cases h
  exact Nat.le_refl _

theorem keeps_ite {c : Prop} [Decidable c] {p q : Production α} (hp : Keeps p) (hq : Keeps q) :
    Keeps (if c then p else q) := by
  split <;> assumption

theorem shrinks_ite {c : Prop} [Decidable c] {p q : Production α} (hp : Shrinks p)
    (hq : Shrinks q) : Shrinks (if c then p else q) := by
  split <;> assumption

theorem startsWith_length {text : String} {ts : List Token} (h : startsWith text ts = true) :
    ts.tail.length < ts.length := by
  cases ts with
  | nil => cases h
  | cons t ts => simp

/-! ## Lists -/

/-- Reads one or more items with commas between them. -/
def commaSeparated (item : Production α) (shrinks : Shrinks item) : Production (List α) := fun ts =>
  match _ : item ts with
  | .error e => .error e
  | .ok (a, rest) =>
    if startsWith "," rest then
      match commaSeparated item shrinks rest.tail with
      | .error e => .error e
      | .ok (as, rest) => .ok (a :: as, rest)
    else .ok ([a], rest)
termination_by ts => ts.length
decreasing_by
  have := shrinks _ _ _ ‹_›
  have := startsWith_length ‹_›
  omega

/-- Reads items with commas between them, and perhaps one after the last, up to the closing
parenthesis. -/
def parenthesisItems (item : Production α) (shrinks : Shrinks item) : Production (List α) := fun ts =>
  if startsWith ")" ts then .ok ([], ts.tail)
  else
    match _ : item ts with
    | .error e => .error e
    | .ok (a, rest) =>
      if startsWith "," rest then
        match parenthesisItems item shrinks rest.tail with
        | .error e => .error e
        | .ok (as, rest) => .ok (a :: as, rest)
      else (ofText ")" rest).map fun (_, rest) => ([a], rest)
termination_by ts => ts.length
decreasing_by
  have := shrinks _ _ _ ‹_›
  have := startsWith_length ‹startsWith "," _ = true›
  omega

/-- Reads `( item, item, … )` if an opening parenthesis comes next, and nothing otherwise. The
parentheses may be empty. -/
def parenthesised (item : Production α) (shrinks : Shrinks item) : Production (List α) := do
  if ← isAt "(" then
    let _ ← ofText "("
    parenthesisItems item shrinks
  else
    return []

/-- Reads items up to the closing brace. -/
def braceItems (item : Production α) (shrinks : Shrinks item) : Production (List α) := fun ts =>
  if startsWith "\x7d" ts then .ok ([], ts.tail)
  else
    match _ : item ts with
    | .error e => .error e
    | .ok (a, rest) =>
      match braceItems item shrinks rest with
      | .error e => .error e
      | .ok (as, rest) => .ok (a :: as, rest)
termination_by ts => ts.length
decreasing_by exact shrinks _ _ _ ‹_›

/-- Reads items up to the end of the tokens. -/
def untilEnd (item : Production α) (shrinks : Shrinks item) (ts : List Token) :
    Except Mismatch (List α) :=
  if ts.isEmpty then .ok []
  else
    match _ : item ts with
    | .error e => .error e
    | .ok (a, rest) => (untilEnd item shrinks rest).map (a :: ·)
termination_by ts.length
decreasing_by exact shrinks _ _ _ ‹_›

theorem shrinks_commaSeparated {item : Production α} (h : Shrinks item) :
    Shrinks (commaSeparated item h) := by
  intro ts
  fun_induction commaSeparated item h ts with
  | case1 | case2 => nofun
  | case3 ts a mid hm hc as last hl ih =>
    rintro bs rest ⟨⟩
    have := h _ _ _ hm
    have := ih _ _ hl
    have := startsWith_length hc
    omega
  | case4 ts a mid hm hc =>
    rintro bs rest ⟨⟩
    exact h _ _ _ hm

theorem shrinks_parenthesisItems {item : Production α} (h : Shrinks item) :
    Shrinks (parenthesisItems item h) := by
  intro ts
  fun_induction parenthesisItems item h ts with
  | case1 ts hs =>
    rintro bs rest ⟨⟩
    exact startsWith_length hs
  | case2 | case3 => nofun
  | case4 ts hs a mid hm hc as last hl ih =>
    rintro bs rest ⟨⟩
    have := h _ _ _ hm
    have := ih _ _ hl
    have := startsWith_length hc
    omega
  | case5 ts hs a mid hm hc =>
    intro bs rest hr
    cases ht : ofText ")" mid with
    | error e => rw [ht] at hr; cases hr
    | ok r =>
      rw [ht] at hr
      cases hr
      exact Nat.lt_trans (shrinks_ofText _ _ _ _ ht) (h _ _ _ hm)

theorem keeps_parenthesised {item : Production α} (h : Shrinks item) :
    Keeps (parenthesised item h) :=
  (keeps_isAt _).bind fun _ => keeps_ite
    ((shrinks_ofText _).bind fun _ => (shrinks_parenthesisItems h).keeps).keeps (keeps_pure _)

theorem shrinks_braceItems {item : Production α} (h : Shrinks item) :
    Shrinks (braceItems item h) := by
  intro ts
  fun_induction braceItems item h ts with
  | case1 ts hs =>
    rintro bs rest ⟨⟩
    exact startsWith_length hs
  | case2 | case3 => nofun
  | case4 ts hs a mid hm as last hl ih =>
    rintro bs rest ⟨⟩
    have := h _ _ _ hm
    have := ih _ _ hl
    omega

end Production

end EventMachine.Syntax
