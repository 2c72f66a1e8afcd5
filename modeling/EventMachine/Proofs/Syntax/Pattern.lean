import EventMachine.Number.Decimal
import EventMachine.Token

/-!
# Grammars and their derivations

A pattern is a rule of a grammar: terminals put together by sequence, choice, option and repetition.
`Pattern.Tree` is the type of the derivations from a pattern and `Pattern.tokens` gives the tokens
that a derivation derives.

1. `Pattern.first` has the terminals that begin a pattern, `Pattern.further` those that would go on
   with it.
2. A pattern is unambiguous when tokens that do not go on with it leave one derivation only
   (`Pattern.Unambiguous`). Each way to put patterns together keeps that, as long as the terminals
   that tell the parts from each other are apart (`Unambiguous.both` and those after it).
3. In a list with perhaps one more comma at its end, a comma does not tell whether an item follows;
   the token after it does (`Unambiguous.closedList`).
-/

namespace EventMachine.Syntax

open Number

/-! ## Terminals -/

/-- What a grammar asks of a token. -/
inductive Terminal
  /-- Punctuation or a reserved word, by its text. -/
  | mark (text : String)
  /-- A reserved word, by its text. -/
  | word (text : String)
  /-- Any token of the kind. -/
  | kind (k : TokenKind)
  /-- A whole number within 64 bits. -/
  | int
  /-- A floating-point number. -/
  | float
deriving DecidableEq

namespace Terminal

/-- A token of this kind and text is what the terminal asks for. -/
def Accepts : Terminal → TokenKind → String → Prop
  | mark text, k, t => (k = .punct ∨ k = .arrow ∨ k = .keyword) ∧ t = text
  | word text, k, t => k = .keyword ∧ t = text
  | kind k', k, _ => k = k'
  | int, k, t => k = .int ∧ ∃ n, readInt? t.toList = some n ∧ -2 ^ 63 ≤ n ∧ n < 2 ^ 63
  | float, k, t => k = .float ∧ (readBinary64? t.toList).isSome

/-- The kinds of the tokens that a terminal accepts. -/
def kinds : Terminal → List TokenKind
  | mark _ => [.punct, .arrow, .keyword]
  | word _ => [.keyword]
  | kind k => [k]
  | int => [.int]
  | float => [.float]

/-- The one text that a terminal accepts. -/
def text? : Terminal → Option String
  | mark text | word text => some text
  | _ => none

/-- No token is accepted by both, because of its kind or its text. -/
def Apart (s s' : Terminal) : Prop :=
  (∀ k ∈ s.kinds, k ∉ s'.kinds) ∨ s.text?.isSome ∧ s'.text?.isSome ∧ s.text? ≠ s'.text?

instance (s s' : Terminal) : Decidable (s.Apart s') :=
  inferInstanceAs (Decidable (_ ∨ _))

variable {s s' : Terminal} {k : TokenKind} {t : String}

theorem Accepts.mem_kinds (h : s.Accepts k t) : k ∈ s.kinds := by
  cases s with
  | mark text => simpa [kinds] using h.1
  | word text => simpa [kinds] using h.1
  | kind k' => exact List.mem_singleton.2 h
  | int => simpa [kinds] using h.1
  | float => simpa [kinds] using h.1

theorem Accepts.text?_eq (h : s.Accepts k t) (hs : s.text?.isSome) : s.text? = some t := by
  cases s with
  | mark text => exact congrArg some h.2.symm
  | word text => exact congrArg some h.2.symm
  | kind k' => cases hs
  | int => cases hs
  | float => cases hs

theorem Apart.not_accepts (h : s.Apart s') (hs : s.Accepts k t) : ¬ s'.Accepts k t := by
  intro hs'
  rcases h with hk | ⟨hsome, hsome', hne⟩
  · exact hk k hs.mem_kinds hs'.mem_kinds
  · exact hne ((hs.text?_eq hsome).trans (hs'.text?_eq hsome').symm)

end Terminal

/-- The token is what the terminal asks for. -/
def Terminal.Matches (s : Terminal) (t : Token) : Prop := s.Accepts t.kind t.text

/-- No token is what a terminal of either list asks for. -/
def Apart (ss ss' : List Terminal) : Prop := ∀ s ∈ ss, ∀ s' ∈ ss', s.Apart s'

instance (ss ss' : List Terminal) : Decidable (Apart ss ss') :=
  inferInstanceAs (Decidable (∀ s ∈ ss, ∀ s' ∈ ss', s.Apart s'))

theorem apart_nil (ss : List Terminal) : Apart ss [] := by
  intro s _ s' h
  cases h

/-- The tokens begin with one that a terminal of the list asks for. -/
def Begins (ss : List Terminal) (ts : List Token) : Prop := ∃ t ∈ ts.head?, ∃ s ∈ ss, s.Matches t

theorem begins_cons {ss : List Terminal} {t : Token} {ts : List Token} :
    Begins ss (t :: ts) ↔ ∃ s ∈ ss, s.Matches t := by
  simp [Begins]

theorem not_begins_nil (ss : List Terminal) : ¬ Begins ss [] := by
  rintro ⟨t, h, -⟩
  cases h

theorem begins_append {ss ss' : List Terminal} {ts : List Token} :
    Begins (ss ++ ss') ts ↔ Begins ss ts ∨ Begins ss' ts := by
  simp only [Begins, List.mem_append, or_and_right, exists_or, and_or_left]

theorem Begins.append {ss : List Terminal} {ts ts' : List Token} (h : Begins ss ts) :
    Begins ss (ts ++ ts') := by
  cases ts with
  | nil => exact (not_begins_nil ss h).elim
  | cons t ts => exact h

theorem Begins.not_begins {ss ss' : List Terminal} {ts : List Token} (h : Begins ss ts)
    (ha : Apart ss ss') : ¬ Begins ss' ts := by
  obtain ⟨t, ht, s, hs, hm⟩ := h
  rintro ⟨t', ht', s', hs', hm'⟩
  rw [Option.mem_def] at ht ht'
  rw [ht] at ht'
  cases ht'
  exact (ha s hs s' hs').not_accepts hm hm'

/-! ## Patterns -/

/-- A rule of a grammar. -/
inductive Pattern
  | terminal (s : Terminal)
  /-- The one and then the other. -/
  | both (p q : Pattern)
  /-- The one or the other. -/
  | either (p q : Pattern)
  | maybe (p : Pattern)
  /-- Any number of times. -/
  | many (p : Pattern)

namespace Pattern

/-- The derivations from a pattern. -/
@[reducible] def Tree : Pattern → Type
  | terminal s => { t : Token // s.Matches t }
  | both p q => p.Tree × q.Tree
  | either p q => p.Tree ⊕ q.Tree
  | maybe p => Option p.Tree
  | many p => List p.Tree

/-- One or more times, with the terminal in between. -/
@[reducible] def separated (s : Terminal) (p : Pattern) : Pattern :=
  both p (many (both (terminal s) p))

/-- Any number of times up to the terminal `c`, with `s` in between and perhaps after the last. -/
@[reducible] def closedList (s c : Terminal) (p : Pattern) : Pattern :=
  both (maybe (both p (both (many (both (terminal s) p)) (maybe (terminal s))))) (terminal c)

/-- The tokens that are derived. -/
def tokens : (p : Pattern) → p.Tree → List Token
  | terminal _, t => [t.1]
  | both p q, d => p.tokens d.1 ++ q.tokens d.2
  | either p _, .inl d => p.tokens d
  | either _ q, .inr d => q.tokens d
  | maybe _, none => []
  | maybe p, some d => p.tokens d
  | many p, ds => ds.flatMap p.tokens

theorem tokens_cons (p : Pattern) (d : p.Tree) (ds : List p.Tree) :
    (many p).tokens (d :: ds) = p.tokens d ++ (many p).tokens ds :=
  List.flatMap_cons

/-- The pattern may derive no tokens. -/
def nullable : Pattern → Bool
  | terminal _ => false
  | both p q => p.nullable && q.nullable
  | either p q => p.nullable || q.nullable
  | maybe _ | many _ => true

/-- The terminals that the derived tokens may begin with. -/
def first : Pattern → List Terminal
  | terminal s => [s]
  | both p q => p.first ++ if p.nullable then q.first else []
  | either p q => p.first ++ q.first
  | maybe p | many p => p.first

/-- The terminals that would go on with the pattern after the derived tokens. -/
def further : Pattern → List Terminal
  | terminal _ => []
  | both p q => q.further ++ if q.nullable then p.further else []
  | either p q => p.further ++ q.further
  | maybe p | many p => p.first ++ p.further

/-! ## Where derived tokens begin -/

section Beginning

variable {p : Pattern} {ss : List Terminal}

theorem begins_leaf {s : Terminal} (t : (terminal s).Tree) (rest : List Token) :
    Begins [s] (t.1 :: rest) :=
  begins_cons.2 ⟨s, List.mem_singleton.2 rfl, t.2⟩

/-- Without tokens the pattern is nullable; otherwise they begin with a terminal of `first`. -/
theorem nullable_or_begins (p : Pattern) (d : p.Tree) :
    p.nullable = true ∧ p.tokens d = [] ∨ Begins p.first (p.tokens d) := by
  induction p with
  | terminal s => exact .inr (begins_leaf d [])
  | both p q ihp ihq =>
    unfold nullable first tokens
    rcases ihp d.1 with ⟨hn, ht⟩ | hp
    · rw [hn, ht, if_pos rfl, begins_append]
      rcases ihq d.2 with hq | hq
      · exact .inl hq
      · exact .inr (.inr hq)
    · exact .inr (begins_append.2 (.inl hp.append))
  | either p q ihp ihq =>
    unfold nullable first
    rw [Bool.or_eq_true]
    cases d with
    | inl d =>
      rcases ihp d with ⟨hn, ht⟩ | hp
      · exact .inl ⟨.inl hn, ht⟩
      · exact .inr (begins_append.2 (.inl hp))
    | inr d =>
      rcases ihq d with ⟨hn, ht⟩ | hq
      · exact .inl ⟨.inr hn, ht⟩
      · exact .inr (begins_append.2 (.inr hq))
  | maybe p ih =>
    cases d with
    | none => exact .inl ⟨rfl, rfl⟩
    | some d =>
      rcases ih d with ⟨-, ht⟩ | hp
      · exact .inl ⟨rfl, ht⟩
      · exact .inr hp
  | many p ih =>
    induction d with
    | nil => exact .inl ⟨rfl, rfl⟩
    | cons d ds ihds =>
      rw [tokens_cons]
      rcases ih d with ⟨-, ht⟩ | hp
      · rw [ht]
        exact ihds
      · exact .inr hp.append

theorem begins_tokens (hn : p.nullable = false) (d : p.Tree) (rest : List Token) :
    Begins p.first (p.tokens d ++ rest) := by
  rcases p.nullable_or_begins d with ⟨h, -⟩ | h
  · rw [hn] at h
    cases h
  · exact h.append

/-- Terminals that do not begin the pattern do not begin derived tokens; when there are none of
these, what follows counts. -/
theorem not_begins_tokens (ha : Apart p.first ss) (d : p.Tree) {rest : List Token}
    (hr : p.nullable = true → ¬ Begins ss rest) : ¬ Begins ss (p.tokens d ++ rest) := by
  rcases p.nullable_or_begins d with ⟨hn, ht⟩ | h
  · rw [ht]
    exact hr hn
  · exact h.append.not_begins ha

theorem not_begins_tokens_of_nullable (hn : p.nullable = false) (ha : Apart p.first ss)
    (d : p.Tree) (rest : List Token) : ¬ Begins ss (p.tokens d ++ rest) :=
  (begins_tokens hn d rest).not_begins ha

end Beginning

/-! ## Unambiguous patterns -/

/-- Where the pattern does not go on, derived tokens at the front have one derivation. -/
def Unambiguous (p : Pattern) : Prop :=
  ∀ d d' rest rest', ¬ Begins p.further rest → ¬ Begins p.further rest' →
    p.tokens d ++ rest = p.tokens d' ++ rest' → d = d' ∧ rest = rest'

theorem unambiguous_terminal (s : Terminal) : (terminal s).Unambiguous := by
  intro d d' rest rest' _ _ h
  obtain ⟨ht, hr⟩ := List.cons.inj h
  exact ⟨Subtype.ext ht, hr⟩

section Combining

variable {p q : Pattern}

theorem not_begins_further_both {rest : List Token} (ha : Apart q.first p.further) (d : q.Tree)
    (h : ¬ Begins (both p q).further rest) :
    ¬ Begins p.further (q.tokens d ++ rest) ∧ ¬ Begins q.further rest := by
  unfold further at h
  rw [begins_append, not_or] at h
  refine ⟨not_begins_tokens ha d fun hn => ?_, h.1⟩
  rw [if_pos hn] at h
  exact h.2

theorem Unambiguous.both (hp : p.Unambiguous) (hq : q.Unambiguous)
    (ha : Apart q.first p.further) : (both p q).Unambiguous := by
  intro d d' rest rest' hr hr' h
  obtain ⟨hpr, hqr⟩ := not_begins_further_both ha d.2 hr
  obtain ⟨hpr', hqr'⟩ := not_begins_further_both ha d'.2 hr'
  unfold tokens at h
  rw [List.append_assoc, List.append_assoc] at h
  obtain ⟨h₁, h⟩ := hp _ _ _ _ hpr hpr' h
  obtain ⟨h₂, h⟩ := hq _ _ _ _ hqr hqr' h
  exact ⟨Prod.ext h₁ h₂, h⟩

theorem Unambiguous.either (hp : p.Unambiguous) (hq : q.Unambiguous) (hnp : p.nullable = false)
    (hnq : q.nullable = false) (ha : Apart p.first q.first) : (either p q).Unambiguous := by
  intro d d' rest rest' hr hr' h
  unfold further at hr hr'
  rw [begins_append, not_or] at hr hr'
  rcases d with d | d <;> rcases d' with d' | d'
  · obtain ⟨rfl, hrest⟩ := hp _ _ _ _ hr.1 hr'.1 h
    exact ⟨rfl, hrest⟩
  · have hb : Begins p.first (q.tokens d' ++ rest') := h ▸ begins_tokens hnp d rest
    exact (hb.not_begins ha (begins_tokens hnq d' rest')).elim
  · have hb : Begins p.first (q.tokens d ++ rest) := h ▸ begins_tokens hnp d' rest'
    exact (hb.not_begins ha (begins_tokens hnq d rest)).elim
  · obtain ⟨rfl, hrest⟩ := hq _ _ _ _ hr.2 hr'.2 h
    exact ⟨rfl, hrest⟩

theorem Unambiguous.maybe (hp : p.Unambiguous) (hn : p.nullable = false) :
    (maybe p).Unambiguous := by
  intro d d' rest rest' hr hr' h
  unfold further at hr hr'
  rw [begins_append, not_or] at hr hr'
  cases d with
  | none =>
    cases d' with
    | none => exact ⟨rfl, h⟩
    | some d' =>
      have hb : Begins p.first (p.maybe.tokens none ++ rest) := by
        rw [h]
        exact begins_tokens hn d' rest'
      exact (hr.1 hb).elim
  | some d =>
    cases d' with
    | none =>
      have hb : Begins p.first (p.maybe.tokens none ++ rest') := by
        rw [← h]
        exact begins_tokens hn d rest
      exact (hr'.1 hb).elim
    | some d' =>
      obtain ⟨rfl, hrest⟩ := hp _ _ _ _ hr.2 hr'.2 h
      exact ⟨rfl, hrest⟩

theorem not_begins_further_many {rest : List Token} (ha : Apart p.first p.further)
    (ds : List p.Tree) (h : ¬ Begins (many p).further rest) :
    ¬ Begins p.further ((many p).tokens ds ++ rest) := by
  unfold further at h
  rw [begins_append, not_or] at h
  exact not_begins_tokens (p := many p) ha ds fun _ => h.2

theorem Unambiguous.many (hp : p.Unambiguous) (hn : p.nullable = false)
    (ha : Apart p.first p.further) : (many p).Unambiguous := by
  intro ds ds' rest rest' hr hr' h
  induction ds generalizing ds' with
  | nil =>
    cases ds' with
    | nil => exact ⟨rfl, h⟩
    | cons d' ds' =>
      have hb : Begins p.first (p.many.tokens [] ++ rest) := by
        rw [h, tokens_cons, List.append_assoc]
        exact begins_tokens hn d' _
      exact (hr (begins_append.2 (.inl hb))).elim
  | cons d ds ih =>
    cases ds' with
    | nil =>
      have hb : Begins p.first (p.many.tokens [] ++ rest') := by
        rw [← h, tokens_cons, List.append_assoc]
        exact begins_tokens hn d _
      exact (hr' (begins_append.2 (.inl hb))).elim
    | cons d' ds' =>
      rw [tokens_cons, tokens_cons, List.append_assoc, List.append_assoc] at h
      obtain ⟨rfl, htail⟩ := hp _ _ _ _ (not_begins_further_many ha ds hr)
        (not_begins_further_many ha ds' hr') h
      obtain ⟨rfl, hrest⟩ := ih ds' htail
      exact ⟨rfl, hrest⟩

theorem Unambiguous.separated {s : Terminal} (hp : p.Unambiguous) (hn : p.nullable = false)
    (ha : Apart [s] p.further) : (separated s p).Unambiguous := by
  have hfirst : (Pattern.both (terminal s) p).first = [s] := rfl
  have hfurther : (Pattern.both (terminal s) p).further = p.further := by
    show p.further ++ (if p.nullable then (terminal s).further else []) = p.further
    rw [hn]
    exact List.append_nil _
  have hitem : (Pattern.both (terminal s) p).Unambiguous :=
    (unambiguous_terminal s).both hp (apart_nil _)
  refine hp.both (hitem.many rfl ?_) ?_
  · rw [hfirst, hfurther]
    exact ha
  · show Apart (Pattern.both (terminal s) p).first p.further
    rw [hfirst]
    exact ha

/-! ## Lists with perhaps one more separator -/

variable {s c : Terminal}

/-- The tokens of such a list after its first item. -/
def closing (p : Pattern) (s c : Terminal) (d : (many (Pattern.both (terminal s) p)).Tree)
    (last : (maybe (terminal s)).Tree) (t : (terminal c).Tree) (rest : List Token) : List Token :=
  (many (Pattern.both (terminal s) p)).tokens d ++ ((maybe (terminal s)).tokens last ++ t.1 :: rest)

theorem begins_closing (d : (many (Pattern.both (terminal s) p)).Tree)
    (last : (maybe (terminal s)).Tree) (t : (terminal c).Tree) (rest : List Token) :
    Begins ([s] ++ [c]) (closing p s c d last t rest) := by
  unfold closing
  cases d with
  | cons x xs => exact begins_append.2 (.inl (begins_leaf x.1 _))
  | nil =>
    cases last with
    | some comma => exact begins_append.2 (.inl (begins_leaf comma _))
    | none => exact begins_append.2 (.inr (begins_leaf t rest))

theorem closing_cons (x : (Pattern.both (terminal s) p).Tree)
    (xs : (many (Pattern.both (terminal s) p)).Tree) (last : (maybe (terminal s)).Tree)
    (t : (terminal c).Tree) (rest : List Token) :
    closing p s c (x :: xs) last t rest =
      x.1.1 :: (p.tokens x.2 ++ closing p s c xs last t rest) := by
  unfold closing
  rw [tokens_cons, List.append_assoc]
  rfl

theorem not_matches_of_apart (h : Apart [s] [c]) {t : Token} (hs : s.Matches t) : ¬ c.Matches t :=
  (h s (by simp) c (by simp)).not_accepts hs

/-- The token after a separator tells an item from the end. -/
theorem closing_nil_ne_cons (hn : p.nullable = false) (hsc : Apart [s] [c])
    (hpc : Apart p.first [c]) (last last' : (maybe (terminal s)).Tree) (t t' : (terminal c).Tree)
    (x : (Pattern.both (terminal s) p).Tree) (xs : (many (Pattern.both (terminal s) p)).Tree)
    (rest rest' : List Token) :
    closing p s c [] last t rest ≠ closing p s c (x :: xs) last' t' rest' := by
  intro h
  rw [closing_cons] at h
  cases last with
  | none =>
    obtain ⟨ht, -⟩ := List.cons.inj h
    exact not_matches_of_apart hsc x.1.2 (ht ▸ t.2)
  | some comma =>
    obtain ⟨-, ht⟩ := List.cons.inj h
    have hc : Begins [c] (p.tokens x.2 ++ closing p s c xs last' t' rest') := by
      rw [← ht]
      exact begins_leaf t rest
    exact (begins_tokens hn x.2 _).not_begins hpc hc

theorem closing_nil_unique (hsc : Apart [s] [c]) {last last' : (maybe (terminal s)).Tree}
    {t t' : (terminal c).Tree} {rest rest' : List Token}
    (h : closing p s c [] last t rest = closing p s c [] last' t' rest') :
    last = last' ∧ t = t' ∧ rest = rest' := by
  cases last with
  | none =>
    cases last' with
    | none =>
      obtain ⟨ht, hr⟩ := List.cons.inj h
      exact ⟨rfl, Subtype.ext ht, hr⟩
    | some comma' =>
      obtain ⟨ht, -⟩ := List.cons.inj h
      exact (not_matches_of_apart hsc comma'.2 (ht ▸ t.2)).elim
  | some comma =>
    cases last' with
    | none =>
      obtain ⟨ht, -⟩ := List.cons.inj h
      exact (not_matches_of_apart hsc comma.2 (ht ▸ t'.2)).elim
    | some comma' =>
      obtain ⟨hcomma, h⟩ := List.cons.inj h
      obtain ⟨ht, hr⟩ := List.cons.inj h
      exact ⟨congrArg some (Subtype.ext hcomma), Subtype.ext ht, hr⟩

/-- After the first item such a list can be read in one way. The induction is on the items of the
one derivation. -/
theorem closing_unique (hp : p.Unambiguous) (hn : p.nullable = false)
    (hsc : Apart [s] [c]) (hpf : Apart [s, c] p.further) (hpc : Apart p.first [c])
    {ds ds' : (many (Pattern.both (terminal s) p)).Tree} {last last' : (maybe (terminal s)).Tree}
    {t t' : (terminal c).Tree} {rest rest' : List Token}
    (h : closing p s c ds last t rest = closing p s c ds' last' t' rest') :
    ds = ds' ∧ last = last' ∧ t = t' ∧ rest = rest' := by
  induction ds generalizing ds' with
  | nil =>
    cases ds' with
    | nil => exact ⟨rfl, closing_nil_unique hsc h⟩
    | cons x' xs' => exact (closing_nil_ne_cons hn hsc hpc _ _ _ _ _ _ _ _ h).elim
  | cons x xs ih =>
    cases ds' with
    | nil => exact (closing_nil_ne_cons hn hsc hpc _ _ _ _ _ _ _ _ h.symm).elim
    | cons x' xs' =>
      rw [closing_cons, closing_cons] at h
      obtain ⟨hcomma, h⟩ := List.cons.inj h
      obtain ⟨hitem, h⟩ := hp _ _ _ _ ((begins_closing xs last t rest).not_begins hpf)
        ((begins_closing xs' last' t' rest').not_begins hpf) h
      obtain ⟨rfl, hrest⟩ := ih h
      exact ⟨congrArg (· :: xs) (Prod.ext (Subtype.ext hcomma) hitem), hrest⟩

theorem closedList_tokens_some (d : p.Tree) (xs : (many (Pattern.both (terminal s) p)).Tree)
    (last : (maybe (terminal s)).Tree) (t : (terminal c).Tree) (rest : List Token) :
    (closedList s c p).tokens (some (d, xs, last), t) ++ rest =
      p.tokens d ++ closing p s c xs last t rest := by
  unfold closing
  simp only [tokens, List.append_assoc, List.cons_append, List.nil_append]

theorem Unambiguous.closedList (hp : p.Unambiguous) (hn : p.nullable = false)
    (hsc : Apart [s] [c]) (hpf : Apart [s, c] p.further) (hpc : Apart p.first [c]) :
    (closedList s c p).Unambiguous := by
  -- A list that is empty begins with the terminal `c`, and an item does not.
  have hitem : ∀ (d : p.Tree) (tail rest : List Token) (t : (terminal c).Tree),
      p.tokens d ++ tail ≠ t.1 :: rest := by
    intro d tail rest t h
    have hc : Begins [c] (p.tokens d ++ tail) := h ▸ begins_leaf t rest
    exact (begins_tokens hn d tail).not_begins hpc hc
  rintro ⟨_ | ⟨d, xs, last⟩, t⟩ ⟨_ | ⟨d', xs', last'⟩, t'⟩ rest rest' - - h
  · obtain ⟨ht, hr⟩ := List.cons.inj h
    exact ⟨Prod.ext rfl (Subtype.ext ht), hr⟩
  · rw [closedList_tokens_some] at h
    exact (hitem _ _ _ _ h.symm).elim
  · rw [closedList_tokens_some] at h
    exact (hitem _ _ _ _ h).elim
  · rw [closedList_tokens_some, closedList_tokens_some] at h
    obtain ⟨rfl, htail⟩ := hp _ _ _ _ ((begins_closing xs last t rest).not_begins hpf)
      ((begins_closing xs' last' t' rest').not_begins hpf) h
    obtain ⟨rfl, rfl, rfl, hr⟩ := closing_unique hp hn hsc hpf hpc htail
    exact ⟨rfl, hr⟩

end Combining

end Pattern

end EventMachine.Syntax
