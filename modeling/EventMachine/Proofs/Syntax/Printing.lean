import EventMachine.Proofs.Lexer.Words
import EventMachine.Proofs.Syntax.Literal

/-!
# Printing syntax trees

`File.Prints` says as which words a file is written: the tokens of the grammar in their order, with
the value of every argument. A file with proper names can be written (`File.Proper.exists_prints`),
and the text of its words is read back as the same file, up to the locations
(`File.Prints.parseText_textOf`).

1. `Spells`: tokens of given words derive from a pattern, and a value is read off.
2. One lemma for each way to put patterns together, and one for each rule of the grammar.
-/

namespace EventMachine.Syntax

open Number

/-! ## Trees without locations -/

/-- The location that stands for none. -/
def nowhere : Location := ⟨0, 0, 0⟩

def Arg.unlocated (a : Arg) : Arg := { a with location := nowhere }

def Call.unlocated (c : Call) : Call := ⟨c.name, c.args.map Arg.unlocated, nowhere⟩

def Statement.unlocated : Statement → Statement
  | call c => .call c.unlocated
  | move destination _ => .move destination nowhere

def Param.unlocated (p : Param) : Param := { p with location := nowhere }

def Condition.unlocated (c : Condition) : Condition :=
  ⟨c.name, c.params.map Param.unlocated, nowhere⟩

def Trigger.unlocated (t : Trigger) : Trigger :=
  ⟨t.conditions.map Condition.unlocated, t.actions.map Statement.unlocated, nowhere⟩

def State.unlocated (s : State) : State :=
  ⟨s.name, nowhere, s.init.map Statement.unlocated, s.triggers.map Trigger.unlocated⟩

def Assignment.unlocated (a : Assignment) : Assignment := { a with location := nowhere }

def Entry.unlocated : Entry → Entry
  | assign a => .assign a.unlocated
  | state s => .state s.unlocated

/-- The file with all locations forgotten. -/
def File.unlocated (f : File) : File := ⟨f.entries.map Entry.unlocated⟩

/-! ## Words of trees -/

/-- Punctuation. -/
def punct (text : String) : Token.Word := ⟨.punct, text⟩

/-- A reserved word. -/
def keyword (text : String) : Token.Word := ⟨.keyword, text⟩

/-- A name. -/
def identifier (name : String) : Token.Word := ⟨.identifier, name⟩

section Lists

variable {α : Type}

/-- The words of items, one after the other. -/
inductive Listed (P : α → List Token.Word → Prop) : List α → List Token.Word → Prop
  | nil : Listed P [] []
  | cons {a : α} {as : List α} {ws ws' : List Token.Word} (first : P a ws)
      (rest : Listed P as ws') : Listed P (a :: as) (ws ++ ws')

/-- The words of one item or more, with commas between them. -/
inductive Separated (P : α → List Token.Word → Prop) : List α → List Token.Word → Prop
  | single {a : α} {ws : List Token.Word} (h : P a ws) : Separated P [a] ws
  | cons {a : α} {as : List α} {ws ws' : List Token.Word} (first : P a ws)
      (rest : Separated P as ws') : Separated P (a :: as) (ws ++ punct "," :: ws')

/-- The words of items in parentheses, which may be left out when there are no items. -/
inductive Parenthesised (P : α → List Token.Word → Prop) : List α → List Token.Word → Prop
  | none : Parenthesised P [] []
  | empty : Parenthesised P [] [punct "(", punct ")"]
  | items {as : List α} {ws : List Token.Word} (h : Separated P as ws) :
      Parenthesised P as (punct "(" :: (ws ++ [punct ")"]))

end Lists

inductive Arg.Prints : Arg → List Token.Word → Prop
  | mk {name : String} {value : Expr} {location : Location} {w : Token.Word} (hn : IsName name)
      (hv : value.Prints w) : Prints ⟨name, value, location⟩ [identifier name, punct "=", w]

inductive Param.Prints : Param → List Token.Word → Prop
  | bare {name : String} {location : Location} (hn : IsName name) :
      Prints ⟨name, none, location⟩ [identifier name]
  | valued {name : String} {value : Expr} {location : Location} {w : Token.Word} (hn : IsName name)
      (hv : value.Prints w) : Prints ⟨name, some value, location⟩ [identifier name, punct "=", w]

inductive Call.Prints : Call → List Token.Word → Prop
  | mk {name : String} {args : List Arg} {location : Location} {ws : List Token.Word}
      (hn : IsName name) (ha : Parenthesised Arg.Prints args ws) :
      Prints ⟨name, args, location⟩ (identifier name :: ws)

inductive Condition.Prints : Condition → List Token.Word → Prop
  | mk {name : String} {params : List Param} {location : Location} {ws : List Token.Word}
      (hn : IsName name) (hp : Parenthesised Param.Prints params ws) :
      Prints ⟨name, params, location⟩ (identifier name :: ws)

inductive Statement.Prints : Statement → List Token.Word → Prop
  | call {c : Call} {ws : List Token.Word} (h : c.Prints ws) : Prints (.call c) ws
  | move {destination : String} {location : Location} (hn : IsName destination) :
      Prints (.move destination location) [keyword "move", identifier destination]

inductive Trigger.Prints : Trigger → List Token.Word → Prop
  | mk {conditions : List Condition} {actions : List Statement} {location : Location}
      {ws ws' : List Token.Word} (hc : Separated Condition.Prints conditions ws)
      (ha : Separated Statement.Prints actions ws') :
      Prints ⟨conditions, actions, location⟩
        (keyword "on" :: (ws ++ ⟨.arrow, "->"⟩ :: (ws' ++ [punct ";"])))

/-- The words of the statements on entry, if there are any. -/
inductive InitPrints : List Statement → List Token.Word → Prop
  | none : InitPrints [] []
  | some {actions : List Statement} {ws : List Token.Word}
      (h : Separated Statement.Prints actions ws) : InitPrints actions (ws ++ [punct ";"])

inductive State.Prints : State → List Token.Word → Prop
  | mk {name : String} {location : Location} {init : List Statement} {triggers : List Trigger}
      {ws ws' : List Token.Word} (hn : IsName name) (hi : InitPrints init ws)
      (ht : Listed Trigger.Prints triggers ws') :
      Prints ⟨name, location, init, triggers⟩
        (keyword "state" :: identifier name :: punct "\x7b" ::
          (ws ++ (ws' ++ [punct "\x7d"] ++ [punct ";"])))

inductive Entry.Prints : Entry → List Token.Word → Prop
  | assign {name : String} {value : Expr} {location : Location} {w : Token.Word} (hn : IsName name)
      (hv : value.Prints w) :
      Prints (.assign ⟨name, value, location⟩) [identifier name, punct "=", w, punct ";"]
  | state {s : State} {ws : List Token.Word} (h : s.Prints ws) : Prints (.state s) ws

/-- The words are how the file is written, where all names are proper ones. -/
def File.Prints (f : File) (words : List Token.Word) : Prop := Listed Entry.Prints f.entries words

/-! ## Trees that can be written -/

/-- The name is a proper one; some decimal reads as the floating-point number. -/
def Expr.Proper : Expr → Prop
  | .ref name => IsName name
  | .float x => ∃ text : String, IsDecimal text.toList ∧ readBinary64? text.toList = some x
  | .str _ | .int _ | .bool _ => True

structure Arg.Proper (a : Arg) : Prop where
  name : IsName a.name
  value : a.value.Proper

structure Call.Proper (c : Call) : Prop where
  name : IsName c.name
  args : ∀ a ∈ c.args, a.Proper

def Statement.Proper : Statement → Prop
  | .call c => c.Proper
  | .move destination _ => IsName destination

structure Param.Proper (p : Param) : Prop where
  name : IsName p.name
  value : ∀ e ∈ p.value, e.Proper

structure Condition.Proper (c : Condition) : Prop where
  name : IsName c.name
  params : ∀ p ∈ c.params, p.Proper

/-- A trigger has a condition and an action. -/
structure Trigger.Proper (t : Trigger) : Prop where
  conditions : ∀ c ∈ t.conditions, c.Proper
  conditions_ne_nil : t.conditions ≠ []
  actions : ∀ s ∈ t.actions, s.Proper
  actions_ne_nil : t.actions ≠ []

structure State.Proper (s : State) : Prop where
  name : IsName s.name
  init : ∀ action ∈ s.init, action.Proper
  triggers : ∀ t ∈ s.triggers, t.Proper

def Entry.Proper : Entry → Prop
  | .assign a => IsName a.name ∧ a.value.Proper
  | .state s => s.Proper

/-- All names in the file are proper ones, its triggers have conditions and actions, and its
floating-point numbers have decimals. -/
def File.Proper (f : File) : Prop := ∀ e ∈ f.entries, e.Proper

section Lists

variable {α : Type} {P : α → List Token.Word → Prop} {as : List α}

theorem exists_listed (h : ∀ a ∈ as, ∃ ws, P a ws) : ∃ ws, Listed P as ws := by
  induction as with
  | nil => exact ⟨[], .nil⟩
  | cons a as ih =>
    rw [List.forall_mem_cons] at h
    obtain ⟨ws, hws⟩ := h.1
    obtain ⟨ws', hws'⟩ := ih h.2
    exact ⟨ws ++ ws', .cons hws hws'⟩

theorem exists_separated (hne : as ≠ []) (h : ∀ a ∈ as, ∃ ws, P a ws) :
    ∃ ws, Separated P as ws := by
  induction as with
  | nil => exact (hne rfl).elim
  | cons a as ih =>
    rw [List.forall_mem_cons] at h
    obtain ⟨ws, hws⟩ := h.1
    cases as with
    | nil => exact ⟨ws, .single hws⟩
    | cons a' as =>
      obtain ⟨ws', hws'⟩ := ih (List.cons_ne_nil a' as) h.2
      exact ⟨ws ++ punct "," :: ws', .cons hws hws'⟩

theorem exists_parenthesised (h : ∀ a ∈ as, ∃ ws, P a ws) : ∃ ws, Parenthesised P as ws := by
  cases as with
  | nil => exact ⟨[], .none⟩
  | cons a as =>
    obtain ⟨ws, hws⟩ := exists_separated (List.cons_ne_nil a as) h
    exact ⟨punct "(" :: (ws ++ [punct ")"]), .items hws⟩

end Lists

theorem Expr.Proper.exists_prints {e : Expr} (h : e.Proper) : ∃ w, e.Prints w := by
  cases e with
  | str text => exact ⟨_, .str text⟩
  | int n => exact ⟨_, .int n⟩
  | float x =>
    obtain ⟨text, hd, hx⟩ := h
    exact ⟨_, .float hd hx⟩
  | bool b => exact ⟨_, .bool b⟩
  | ref name => exact ⟨_, .ref h⟩

theorem Arg.Proper.exists_prints {a : Arg} (h : a.Proper) : ∃ ws, a.Prints ws := by
  obtain ⟨w, hw⟩ := h.value.exists_prints
  exact ⟨_, .mk h.name hw⟩

theorem Call.Proper.exists_prints {c : Call} (h : c.Proper) : ∃ ws, c.Prints ws := by
  obtain ⟨ws, hws⟩ := exists_parenthesised fun a ha => (h.args a ha).exists_prints
  exact ⟨_, .mk h.name hws⟩

theorem Statement.Proper.exists_prints {s : Statement} (h : s.Proper) : ∃ ws, s.Prints ws := by
  cases s with
  | call c =>
    obtain ⟨ws, hws⟩ := Call.Proper.exists_prints h
    exact ⟨ws, .call hws⟩
  | move destination location => exact ⟨_, .move h⟩

theorem Param.Proper.exists_prints {p : Param} (h : p.Proper) : ∃ ws, p.Prints ws := by
  obtain ⟨name, value, location⟩ := p
  cases value with
  | none => exact ⟨_, .bare h.name⟩
  | some value =>
    obtain ⟨w, hw⟩ := (h.value value rfl).exists_prints
    exact ⟨_, .valued h.name hw⟩

theorem Condition.Proper.exists_prints {c : Condition} (h : c.Proper) : ∃ ws, c.Prints ws := by
  obtain ⟨ws, hws⟩ := exists_parenthesised fun p hp => (h.params p hp).exists_prints
  exact ⟨_, .mk h.name hws⟩

theorem Trigger.Proper.exists_prints {t : Trigger} (h : t.Proper) : ∃ ws, t.Prints ws := by
  obtain ⟨ws, hws⟩ := exists_separated h.conditions_ne_nil
    fun c hc => (h.conditions c hc).exists_prints
  obtain ⟨ws', hws'⟩ := exists_separated h.actions_ne_nil
    fun s hs => (h.actions s hs).exists_prints
  exact ⟨_, .mk hws hws'⟩

theorem exists_initPrints {actions : List Statement} (h : ∀ s ∈ actions, s.Proper) :
    ∃ ws, InitPrints actions ws := by
  cases actions with
  | nil => exact ⟨[], .none⟩
  | cons s actions =>
    obtain ⟨ws, hws⟩ := exists_separated (List.cons_ne_nil s actions)
      fun s hs => (h s hs).exists_prints
    exact ⟨_, .some hws⟩

theorem State.Proper.exists_prints {s : State} (h : s.Proper) : ∃ ws, s.Prints ws := by
  obtain ⟨ws, hws⟩ := exists_initPrints h.init
  obtain ⟨ws', hws'⟩ := exists_listed fun t ht => (h.triggers t ht).exists_prints
  exact ⟨_, .mk h.name hws hws'⟩

theorem Entry.Proper.exists_prints {e : Entry} (h : e.Proper) : ∃ ws, e.Prints ws := by
  cases e with
  | assign a =>
    obtain ⟨w, hw⟩ := Expr.Proper.exists_prints h.2
    exact ⟨_, .assign h.1 hw⟩
  | state s =>
    obtain ⟨ws, hws⟩ := State.Proper.exists_prints h
    exact ⟨ws, .state hws⟩

theorem File.Proper.exists_prints {f : File} (h : f.Proper) : ∃ words, f.Prints words :=
  exists_listed fun e he => (h e he).exists_prints

/-! ## Words that derive from a pattern -/

/-- The words can stand in a line, and tokens of theirs derive from the pattern in such a way that
the value is read off. -/
structure Spells {α : Type} (p : Pattern) (read : p.Tree → α) (words : List Token.Word) (a : α) :
    Prop where
  plain : ∀ w ∈ words, w.Plain
  derives : ∀ ts : List Token, ts.map Token.word = words → ∃ d, p.tokens d = ts ∧ read d = a

section Combining

variable {α β : Type} {p q : Pattern} {read : p.Tree → α} {readNext : q.Tree → β}
  {ws ws' : List Token.Word} {w : Token.Word} {a : α} {b : β}

theorem spells_terminal {s : Terminal} (hw : w.Plain) (hs : s.Accepts w.kind w.text) :
    Spells (.terminal s) (fun t => t.1.word) [w] w := by
  refine ⟨by simpa using hw, fun ts hts => ?_⟩
  obtain ⟨t, rfl, rfl⟩ := List.map_eq_singleton_iff.1 hts
  exact ⟨⟨t, hs⟩, rfl, rfl⟩

theorem Spells.both (hp : Spells p read ws a) (hq : Spells q readNext ws' b) :
    Spells (.both p q) (fun d => (read d.1, readNext d.2)) (ws ++ ws') (a, b) := by
  refine ⟨fun w hw => (List.mem_append.1 hw).elim (hp.plain w) (hq.plain w), fun ts hts => ?_⟩
  obtain ⟨ts₁, ts₂, rfl, h₁, h₂⟩ := List.map_eq_append_iff.1 hts
  obtain ⟨d, rfl, rfl⟩ := hp.derives ts₁ h₁
  obtain ⟨d', rfl, rfl⟩ := hq.derives ts₂ h₂
  exact ⟨(d, d'), rfl, rfl⟩

/-- What is read off may be put in another form. -/
theorem Spells.map {read' : p.Tree → β} (hp : Spells p read ws a) (f : α → β)
    (h : ∀ d, read' d = f (read d)) : Spells p read' ws (f a) := by
  refine ⟨hp.plain, fun ts hts => ?_⟩
  obtain ⟨d, hd, rfl⟩ := hp.derives ts hts
  exact ⟨d, hd, h d⟩

theorem Spells.inl {read : (Pattern.either p q).Tree → α}
    (hp : Spells p (fun d => read (.inl d)) ws a) : Spells (.either p q) read ws a := by
  refine ⟨hp.plain, fun ts hts => ?_⟩
  obtain ⟨d, hd, rfl⟩ := hp.derives ts hts
  exact ⟨.inl d, hd, rfl⟩

theorem Spells.inr {read : (Pattern.either p q).Tree → α}
    (hq : Spells q (fun d => read (.inr d)) ws a) : Spells (.either p q) read ws a := by
  refine ⟨hq.plain, fun ts hts => ?_⟩
  obtain ⟨d, hd, rfl⟩ := hq.derives ts hts
  exact ⟨.inr d, hd, rfl⟩

theorem spells_none {read : (Pattern.maybe p).Tree → α} : Spells (.maybe p) read [] (read none) :=
  ⟨by simp, fun _ hts => ⟨none, (List.map_eq_nil_iff.1 hts).symm, rfl⟩⟩

theorem Spells.some {read : (Pattern.maybe p).Tree → α}
    (hp : Spells p (fun d => read (some d)) ws a) : Spells (.maybe p) read ws a := by
  refine ⟨hp.plain, fun ts hts => ?_⟩
  obtain ⟨d, hd, rfl⟩ := hp.derives ts hts
  exact ⟨some d, hd, rfl⟩

/-- Items one after the other. -/
theorem spells_many {P : β → List Token.Word → Prop} {f : β → α}
    (hp : ∀ b ws, P b ws → Spells p read ws (f b)) {bs : List β} (h : Listed P bs ws) :
    Spells (.many p) (List.map read) ws (bs.map f) := by
  induction h with
  | nil => exact ⟨by simp, fun _ hts => ⟨[], (List.map_eq_nil_iff.1 hts).symm, rfl⟩⟩
  | @cons b bs ws ws' first _ ih =>
    have hfirst := hp b ws first
    refine ⟨fun w hw => (List.mem_append.1 hw).elim (hfirst.plain w) (ih.plain w), fun ts hts => ?_⟩
    obtain ⟨ts₁, ts₂, rfl, h₁, h₂⟩ := List.map_eq_append_iff.1 hts
    obtain ⟨d, rfl, hd⟩ := hfirst.derives ts₁ h₁
    obtain ⟨ds, rfl, hds⟩ := ih.derives ts₂ h₂
    exact ⟨d :: ds, Pattern.tokens_cons p d ds, by rw [List.map_cons, List.map_cons, hd, hds]⟩

/-- Items with commas between them are a first one, and others with a comma before each. -/
theorem Separated.exists_listed {P : β → List Token.Word → Prop} {bs : List β}
    (h : Separated P bs ws) : ∃ b rest first others, bs = b :: rest ∧ ws = first ++ others ∧
      P b first ∧ Listed (fun b ws => ∃ ws', P b ws' ∧ ws = punct "," :: ws') rest others := by
  induction h with
  | @single b ws h => exact ⟨b, [], ws, [], rfl, (List.append_nil ws).symm, h, .nil⟩
  | @cons b bs ws _ first _ ih =>
    obtain ⟨b', rest, first', others, rfl, rfl, hfirst, hothers⟩ := ih
    exact ⟨b, b' :: rest, ws, punct "," :: first' ++ others, rfl, rfl, first,
      .cons ⟨first', hfirst, rfl⟩ hothers⟩

end Combining

/-! ## Marks -/

theorem plain_punct {text : String} (h : text ∈ ["\x7b", "\x7d", "(", ")", ",", ";", "="]) :
    (punct text).Plain := by
  simp only [List.mem_cons, List.not_mem_nil, or_false] at h
  rcases h with rfl | rfl | rfl | rfl | rfl | rfl | rfl <;> exact ⟨stands_punct rfl, by decide⟩

theorem plain_keyword {text : String} (h : text ∈ keywords) : (keyword text).Plain := by
  have hnewline : ∀ word ∈ keywords, '\n' ∉ word.toList := by decide
  exact ⟨stands_keyword h, hnewline text h⟩

theorem plain_arrow : (Token.Word.mk .arrow "->").Plain := ⟨stands_arrow, by decide⟩

theorem spells_punct (text : String) (h : text ∈ ["\x7b", "\x7d", "(", ")", ",", ";", "="]) :
    Spells (Grammar.mark text) (fun t => t.1.word) [punct text] (punct text) :=
  spells_terminal (plain_punct h) ⟨.inl rfl, rfl⟩

theorem spells_keyword (text : String) (h : text ∈ keywords) :
    Spells (Grammar.mark text) (fun t => t.1.word) [keyword text] (keyword text) :=
  spells_terminal (plain_keyword h) ⟨.inr (.inr rfl), rfl⟩

theorem spells_word (text : String) (h : text ∈ keywords) :
    Spells (.terminal (.word text)) (fun t => t.1.word) [keyword text] (keyword text) :=
  spells_terminal (plain_keyword h) ⟨rfl, rfl⟩

theorem spells_arrow :
    Spells (Grammar.mark "->") (fun t => t.1.word) [⟨.arrow, "->"⟩] ⟨.arrow, "->"⟩ :=
  spells_terminal plain_arrow ⟨.inr (.inl rfl), rfl⟩

theorem spells_identifier {name : String} (hn : IsName name) :
    Spells Grammar.identifier (fun t => t.1.word) [identifier name] (identifier name) :=
  spells_terminal ⟨stands_name hn, newline_not_mem_of_isName hn⟩ rfl

/-! ## Lists -/

section Lists

variable {α β : Type} {p : Pattern} {read : p.Tree → α} {P : β → List Token.Word → Prop} {f : β → α}
  {ws : List Token.Word} {bs : List β}

theorem spells_others (hp : ∀ b ws, P b ws → Spells p read ws (f b))
    (h : Listed (fun b ws => ∃ ws', P b ws' ∧ ws = punct "," :: ws') bs ws) :
    Spells (.many (.both (Grammar.mark ",") p)) (List.map fun d => read d.2) ws (bs.map f) := by
  refine spells_many (fun b ws hb => ?_) h
  obtain ⟨ws', hb, rfl⟩ := hb
  exact ((spells_punct _ (by decide)).both (hp b ws' hb)).map Prod.snd fun _ => rfl

theorem spells_separated (hp : ∀ b ws, P b ws → Spells p read ws (f b)) (h : Separated P bs ws) :
    Spells (.separated (.mark ",") p) (Grammar.separatedOf read) ws (bs.map f) := by
  obtain ⟨b, rest, first, others, rfl, rfl, hfirst, hothers⟩ := h.exists_listed
  exact ((hp b first hfirst).both (spells_others hp hothers)).map (fun r => r.1 :: r.2)
    fun _ => rfl

/-- The items of a list, and perhaps a comma after the last of them. -/
@[reducible] def items (p : Pattern) : Pattern :=
  .both p (.both (.many (.both (Grammar.mark ",") p)) (.maybe (Grammar.mark ",")))

/-- The items that there are, none without a list of them. -/
def itemsOf (read : p.Tree → α) : (Pattern.maybe (items p)).Tree → List α
  | none => []
  | some d => read d.1 :: d.2.1.map fun d => read d.2

theorem spells_closing {as : List α} (h : Spells (.maybe (items p)) (itemsOf read) ws as) :
    Spells (.closedList (.mark ",") (.mark ")") p) (Grammar.closedListOf read) (ws ++ [punct ")"])
      as := by
  refine (h.both (spells_punct _ (by decide))).map Prod.fst fun d => ?_
  rcases d with ⟨_ | d, t⟩ <;> rfl

theorem spells_closedList (hp : ∀ b ws, P b ws → Spells p read ws (f b)) (h : Separated P bs ws) :
    Spells (.closedList (.mark ",") (.mark ")") p) (Grammar.closedListOf read) (ws ++ [punct ")"])
      (bs.map f) := by
  obtain ⟨b, rest, first, others, rfl, rfl, hfirst, hothers⟩ := h.exists_listed
  have hlast : Spells (.maybe (Grammar.mark ",")) (fun _ => ()) [] () := spells_none
  have hitems : Spells (items p) (fun d => itemsOf read (some d)) (first ++ (others ++ []))
      (f b :: rest.map f) :=
    ((hp b first hfirst).both ((spells_others hp hothers).both hlast)).map (fun r => r.1 :: r.2.1)
      fun _ => rfl
  rw [List.append_nil] at hitems
  exact spells_closing hitems.some

theorem spells_parenthesised (hp : ∀ b ws, P b ws → Spells p read ws (f b))
    (h : Parenthesised P bs ws) :
    Spells (Grammar.parenthesised p) (Grammar.parenthesisedOf read) ws (bs.map f) := by
  have hlist {ws : List Token.Word} {as : List α}
      (hl : Spells (.closedList (.mark ",") (.mark ")") p) (Grammar.closedListOf read) ws as) :
      Spells (Grammar.parenthesised p) (Grammar.parenthesisedOf read) (punct "(" :: ws) as :=
    (((spells_punct _ (by decide)).both hl).map Prod.snd fun _ => rfl).some
  cases h with
  | none => exact spells_none
  | empty => exact hlist (spells_closing spells_none)
  | items h => exact hlist (spells_closedList hp h)

theorem map_separatedOf {γ : Type} (k : α → γ) {s : Terminal} (d : (Pattern.separated s p).Tree) :
    (Grammar.separatedOf read d).map k = Grammar.separatedOf (fun d => k (read d)) d := by
  simp [Grammar.separatedOf]

theorem map_parenthesisedOf {γ : Type} (k : α → γ) (d : (Grammar.parenthesised p).Tree) :
    (Grammar.parenthesisedOf read d).map k = Grammar.parenthesisedOf (fun d => k (read d)) d := by
  rcases d with _ | ⟨_, _ | d, t⟩
  · rfl
  · rfl
  · simp [Grammar.parenthesisedOf, Grammar.closedListOf]

end Lists

/-! ## The rules -/

theorem spells_value {e : Expr} {w : Token.Word} (h : e.Prints w) :
    Spells Grammar.value Grammar.exprOf [w] e := by
  refine ⟨by simpa using h.plain, fun ts hts => ?_⟩
  obtain ⟨t, rfl, ht⟩ := List.map_eq_singleton_iff.1 hts
  exact h.exists_tree ht

theorem spells_assigned {e : Expr} {w : Token.Word} (h : e.Prints w) :
    Spells Grammar.assigned Grammar.assignedOf [punct "=", w] (some e) :=
  (((spells_punct _ (by decide)).both (spells_value h)).map (fun r => some r.2) fun _ => rfl).some

theorem spells_arg {a : Arg} {ws : List Token.Word} (h : a.Prints ws) :
    Spells Grammar.arg (fun d => (Grammar.argOf d).unlocated) ws a.unlocated := by
  cases h with
  | mk hn hv =>
    have hboth := (spells_identifier hn).both (spells_assigned hv)
    exact hboth.map (fun r => Arg.mk r.1.text (r.2.getD (.ref r.1.text)) nowhere) fun _ => rfl

theorem spells_param {p : Param} {ws : List Token.Word} (h : p.Prints ws) :
    Spells Grammar.param (fun d => (Grammar.paramOf d).unlocated) ws p.unlocated := by
  cases h with
  | bare hn =>
    have hnone : Spells Grammar.assigned Grammar.assignedOf [] none := spells_none
    have hboth := (spells_identifier hn).both hnone
    exact hboth.map (fun r => Param.mk r.1.text r.2 nowhere) fun _ => rfl
  | valued hn hv =>
    have hboth := (spells_identifier hn).both (spells_assigned hv)
    exact hboth.map (fun r => Param.mk r.1.text r.2 nowhere) fun _ => rfl

theorem spells_call {c : Call} {ws : List Token.Word} (h : c.Prints ws) :
    Spells Grammar.call (fun d => (Grammar.callOf d).unlocated) ws c.unlocated := by
  cases h with
  | mk hn ha =>
    have hargs := spells_parenthesised (fun _ _ h => spells_arg h) ha
    refine ((spells_identifier hn).both hargs).map (fun r => Call.mk r.1.text r.2 nowhere)
      fun d => ?_
    rw [← map_parenthesisedOf]
    rfl

theorem spells_condition {c : Condition} {ws : List Token.Word} (h : c.Prints ws) :
    Spells Grammar.condition (fun d => (Grammar.conditionOf d).unlocated) ws c.unlocated := by
  cases h with
  | mk hn hp =>
    have hparams := spells_parenthesised (fun _ _ h => spells_param h) hp
    refine ((spells_identifier hn).both hparams).map (fun r => Condition.mk r.1.text r.2 nowhere)
      fun d => ?_
    rw [← map_parenthesisedOf]
    rfl

theorem spells_action {s : Statement} {ws : List Token.Word} (h : s.Prints ws) :
    Spells Grammar.action (fun d => (Grammar.actionOf d).unlocated) ws s.unlocated := by
  cases h with
  | call h => exact ((spells_call h).map Statement.call fun _ => rfl).inr
  | move hn =>
    have hboth := (spells_word "move" (by decide)).both (spells_identifier hn)
    exact (hboth.map (fun r => Statement.move r.2.text nowhere) fun _ => rfl).inl

theorem spells_init {actions : List Statement} {ws : List Token.Word}
    (h : Separated Statement.Prints actions ws) :
    Spells Grammar.init (fun d => (Grammar.actionsOf d).map Statement.unlocated)
      (ws ++ [punct ";"]) (actions.map Statement.unlocated) := by
  have hactions := spells_separated (fun _ _ h => spells_action h) h
  refine (hactions.both (spells_punct _ (by decide))).map Prod.fst fun d => ?_
  exact map_separatedOf _ _

theorem spells_trigger {t : Trigger} {ws : List Token.Word} (h : t.Prints ws) :
    Spells Grammar.trigger (fun d => (Grammar.triggerOf d).unlocated) ws t.unlocated := by
  cases h with
  | mk hc ha =>
    have hconditions := spells_separated (fun _ _ h => spells_condition h) hc
    have hboth := (spells_keyword "on" (by decide)).both
      (hconditions.both (spells_arrow.both (spells_init ha)))
    refine hboth.map (fun r => Trigger.mk r.2.1 r.2.2.2 nowhere) fun d => ?_
    rw [← map_separatedOf]
    rfl

theorem spells_initMaybe {actions : List Statement} {ws : List Token.Word}
    (h : InitPrints actions ws) :
    Spells (.maybe Grammar.init) (fun d => (Grammar.initOf d).map Statement.unlocated) ws
      (actions.map Statement.unlocated) := by
  cases h with
  | none => exact spells_none
  | some h => exact (spells_init h).some

theorem spells_state {s : State} {ws : List Token.Word} (h : s.Prints ws) :
    Spells Grammar.state (fun d => (Grammar.stateOf d).unlocated) ws s.unlocated := by
  cases h with
  | mk hn hi ht =>
    have htriggers := spells_many (fun _ _ h => spells_trigger h) ht
    have hboth := (spells_word "state" (by decide)).both ((spells_identifier hn).both
      ((spells_punct "\x7b" (by decide)).both ((spells_initMaybe hi).both
        ((htriggers.both (spells_punct "\x7d" (by decide))).both
          (spells_punct ";" (by decide))))))
    refine hboth.map (fun r => State.mk r.2.1.text nowhere r.2.2.2.1 r.2.2.2.2.1.1) fun d => ?_
    exact congrArg (State.mk _ nowhere _) List.map_map

theorem spells_entry {e : Entry} {ws : List Token.Word} (h : e.Prints ws) :
    Spells Grammar.entry (fun d => (Grammar.entryOf d).unlocated) ws e.unlocated := by
  cases h with
  | state h => exact ((spells_state h).map Entry.state fun _ => rfl).inl
  | assign hn hv =>
    have hboth := (spells_identifier hn).both ((spells_punct "=" (by decide)).both
      ((spells_value hv).both (spells_punct ";" (by decide))))
    exact (hboth.map (fun r => Entry.assign (Assignment.mk r.1.text r.2.2.1 nowhere))
      fun _ => rfl).inr

theorem spells_file {f : File} {ws : List Token.Word} (h : f.Prints ws) :
    Spells Grammar.file (fun d => (Grammar.fileOf d).unlocated) ws f.unlocated := by
  refine (spells_many (fun _ _ h => spells_entry h) h).map File.mk fun d => ?_
  exact congrArg File.mk List.map_map

/-! ## Files -/

theorem Entry.Prints.exists_append {e : Entry} {ws : List Token.Word} (h : e.Prints ws) :
    ∃ before, ws = before ++ [punct ";"] := by
  cases h with
  | assign => exact ⟨[_, _, _], rfl⟩
  | state h =>
    cases h with
    | @mk name _ _ _ ws ws' =>
      exact ⟨keyword "state" :: identifier name :: punct "\x7b" :: (ws ++ (ws' ++ [punct "\x7d"])),
        by simp⟩

/-- The words of entries end with a semicolon, if there are any. -/
theorem Listed.eq_nil_or_exists_append {es : List Entry} {words : List Token.Word}
    (h : Listed Entry.Prints es words) :
    words = [] ∨ ∃ before, words = before ++ [punct ";"] := by
  induction h with
  | nil => exact .inl rfl
  | @cons e es ws ws' first _ ih =>
    right
    rcases ih with rfl | ⟨before, rfl⟩
    · rw [List.append_nil]
      exact first.exists_append
    · exact ⟨ws ++ before, (List.append_assoc ..).symm⟩

theorem joined?_append_semicolon (cs : List Char) : Source.joined? (cs ++ [';']) = none := by
  unfold Source.joined?
  rw [List.reverse_append]
  rfl

/-- A printed file is one line. -/
theorem File.Prints.isLine {f : File} {words : List Token.Word} (h : f.Prints words) :
    Source.IsLine (textOf words) := by
  refine ⟨newline_not_mem_textOf fun w hw => ((spells_file h).plain w hw).newline, ?_⟩
  rcases Listed.eq_nil_or_exists_append h with rfl | ⟨before, rfl⟩
  · rfl
  · obtain ⟨cs, hcs⟩ := exists_toList_textOf_append before (punct ";")
    rw [hcs]
    exact joined?_append_semicolon cs

theorem File.Prints.parseText_textOf {f : File} {words : List Token.Word} (h : f.Prints words)
    (filename : String) :
    ∃ f', parseText filename (textOf words) = .ok f' ∧ f'.unlocated = f.unlocated := by
  have hspells := spells_file h
  obtain ⟨htokens, hlast⟩ :=
    Lexer.run_ofText (fun w hw => (hspells.plain w hw).stands) h.isLine
  obtain ⟨d, hd, hf⟩ := hspells.derives _ htokens
  have hfile : file (Lexer.ofText (textOf words)).run.1 = .ok (Grammar.fileOf d) :=
    file_eq_ok_iff.2 ⟨d, hd, rfl⟩
  refine ⟨Grammar.fileOf d, ?_, hf⟩
  unfold parseText parse parseTokens
  simp only [hfile, hlast]
  rfl

theorem textOf_assignment (name value : String) :
    textOf [identifier name, punct "=", ⟨.string, value⟩, punct ";"] =
      name ++ " = " ++ value ++ " ;" := by
  unfold textOf
  simp only [List.map_cons, List.map_nil, String.intercalate_cons_cons,
    String.intercalate_singleton, identifier, punct, String.append_assoc]
  rfl

/-- A file of one assignment is read from its text, whatever the string is. -/
theorem parseText_assignment {name : String} (hn : IsName name) (filename value : String) :
    ∃ l, parseText filename (name ++ " = " ++ literal value ++ " ;") =
      .ok ⟨[.assign ⟨name, .str value, l⟩]⟩ := by
  have hprints : File.Prints ⟨[.assign ⟨name, .str value, nowhere⟩]⟩
      ([identifier name, punct "=", ⟨.string, literal value⟩, punct ";"] ++ []) :=
    .cons (.assign hn (.str value)) .nil
  obtain ⟨f, hf, heq⟩ := hprints.parseText_textOf filename
  rw [List.append_nil, textOf_assignment] at hf
  obtain ⟨e, hentries, he⟩ := List.map_eq_singleton_iff.1 (File.mk.inj heq)
  obtain ⟨entries⟩ := f
  obtain rfl : entries = [e] := hentries
  cases e with
  | assign a =>
    obtain ⟨name', value', l⟩ := a
    obtain ⟨(rfl : name' = name), (rfl : value' = .str value), -⟩ :=
      Assignment.mk.inj (Entry.assign.inj he)
    exact ⟨l, hf⟩
  | state s => cases he

/-- A file whose names are proper ones and whose triggers have conditions and actions can be
written, and is read back from its words with spaces between them, up to the locations. Every
string can be written. -/
theorem reads_back_printed_file :
    (∀ f : File, f.Proper → ∃ words, f.Prints words) ∧
    (∀ (f : File) (words : List Token.Word) (filename : String), f.Prints words →
      ∃ f', parseText filename (textOf words) = .ok f' ∧ f'.unlocated = f.unlocated) ∧
    ∀ name filename value : String, IsName name →
      ∃ l, parseText filename (name ++ " = " ++ literal value ++ " ;") =
        .ok ⟨[.assign ⟨name, .str value, l⟩]⟩ :=
  ⟨fun _ h => h.exists_prints, fun _ _ filename h => h.parseText_textOf filename,
    fun _ filename value hn => parseText_assignment hn filename value⟩

namespace Doorbell

/-- All that is escaped in a string, with a backslash at its end. -/
def ringAndDrive : String := "\"Ring\"\nand C:\\"

/-- A bell that says what it likes. -/
def loud : File :=
  ⟨[.assign ⟨"words", .str ringAndDrive, nowhere⟩,
    .state ⟨"Idle", nowhere, [],
      [⟨[⟨"Ring", [⟨"times", some (.int 3), nowhere⟩], nowhere⟩],
        [.call ⟨"say", [⟨"text", .ref "words", nowhere⟩], nowhere⟩, .move "Idle" nowhere],
        nowhere⟩]⟩]⟩

def loudText : String :=
  "words = \"\\\"Ring\\\"\\nand C:\\\\\" ; " ++
  "state Idle \x7b on Ring ( times = 3 ) -> say ( text = words ) , move Idle ; \x7d ;"

theorem loud_prints : ∃ words, loud.Prints words ∧ textOf words = loudText := by
  have hring : Trigger.Prints
      ⟨[⟨"Ring", [⟨"times", some (.int 3), nowhere⟩], nowhere⟩],
        [.call ⟨"say", [⟨"text", .ref "words", nowhere⟩], nowhere⟩, .move "Idle" nowhere],
        nowhere⟩ _ :=
    .mk (.single (.mk (by decide) (.items (.single (.valued (by decide) (.int 3))))))
      (.cons (.call (.mk (by decide) (.items (.single (.mk (by decide) (.ref (by decide)))))))
        (.single (.move (by decide))))
  have hprints : loud.Prints _ :=
    .cons (.assign (by decide) (.str _))
      (.cons (.state (.mk (by decide) .none (.cons hring .nil))) .nil)
  exact ⟨_, hprints, rfl⟩

theorem loud_proper : loud.Proper := by
  have hring : Condition.Proper ⟨"Ring", [⟨"times", some (.int 3), nowhere⟩], nowhere⟩ :=
    ⟨by decide, List.forall_mem_singleton.2 ⟨by decide, fun _ h => Option.some.inj h ▸ trivial⟩⟩
  have hsay : Call.Proper ⟨"say", [⟨"text", .ref "words", nowhere⟩], nowhere⟩ :=
    ⟨by decide, List.forall_mem_singleton.2 ⟨by decide, show IsName "words" by decide⟩⟩
  refine List.forall_mem_cons.2 ⟨⟨by decide, trivial⟩, List.forall_mem_singleton.2 ?_⟩
  refine ⟨by decide, nofun, List.forall_mem_singleton.2 ⟨?_, List.cons_ne_nil _ _, ?_,
    List.cons_ne_nil _ _⟩⟩
  · exact List.forall_mem_singleton.2 hring
  · exact List.forall_mem_cons.2 ⟨hsay, List.forall_mem_singleton.2 (show IsName "Idle" by decide)⟩

/-- The bell can be written, as the text, and is read back from it. -/
theorem reads_back_loud :
    (∃ words, loud.Prints words) ∧
    (∃ f, parseText "bell.mova" loudText = .ok f ∧ f.unlocated = loud) ∧
    ∃ l, parseText "bell.mova" ("words" ++ " = " ++ literal ringAndDrive ++ " ;") =
      .ok ⟨[.assign ⟨"words", .str ringAndDrive, l⟩]⟩ := by
  obtain ⟨words, hprints, htext⟩ := loud_prints
  refine ⟨reads_back_printed_file.1 loud loud_proper, ?_,
    reads_back_printed_file.2.2 "words" "bell.mova" ringAndDrive (by decide)⟩
  rw [← htext]
  exact reads_back_printed_file.2.1 loud words "bell.mova" hprints

end Doorbell

end EventMachine.Syntax
