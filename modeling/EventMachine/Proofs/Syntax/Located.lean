import EventMachine.Proofs.Lexer.Coverage
import EventMachine.Proofs.Lexer.Order
import EventMachine.Proofs.Syntax.Names
import Mathlib.Data.List.Nodup

/-!
# Where the names of a syntax tree are

Every name of a tree is an identifier of the source, at the location that the tree has for it
(`file_located_of_parse`). There is no other token at that place, and the name is written there
(`hasNameAt_of_mem_run`).

The tree of tokens is located among them, rule by rule (`Grammar.located_fileOf`), as it is proper
if they are.
-/

namespace EventMachine

open Source

/-- The source has a name at the location, which is spelt so: it is the one token there, and it is
written in a logical line. -/
structure Source.Reader.HasNameAt (r : Reader) (name : String) (location : Location) : Prop where
  token : ⟨.identifier, name, location⟩ ∈ (Lexer.ofReader r).run.1
  only : ∀ t ∈ (Lexer.ofReader r).run.1, t.location = location → t = ⟨.identifier, name, location⟩
  written : ∀ text, r.Delivers text →
    ∃ l ∈ logicalLines text.toList, Token.LiesIn ⟨.identifier, name, location⟩ l

/-! ## Tokens of a source -/

theorem exists_liesIn_of_mem_tokensOf {text : String} {t : Token} (ht : t ∈ tokensOf text) :
    ∃ l ∈ logicalLines text.toList, t.LiesIn l := by
  obtain ⟨l, hl, ht⟩ := List.mem_flatMap.1 ht
  obtain ⟨pieces, hcovers, htokens⟩ := exists_covers 0 l.text
  rw [LogicalLine.tokens, htokens l.number] at ht
  exact ⟨l, hl, hcovers.liesIn ht⟩

/-- No two tokens of a source are in one place. -/
theorem Lexer.eq_of_location_eq {r : Reader} {s t : Token} (hs : s ∈ (ofReader r).run.1)
    (ht : t ∈ (ofReader r).run.1) (h : s.location = t.location) : s = t := by
  have hpairwise := (List.pairwise_append.1 (pairwise_startsBefore_run r)).1
  have hnodup : ((ofReader r).run.1.map Token.location).Nodup :=
    List.pairwise_map.2 (hpairwise.imp Token.StartsBefore.location_ne)
  exact List.inj_on_of_nodup_map hnodup hs ht h

theorem hasNameAt_of_mem_run {r : Reader} {name : String} {location : Location}
    (h : ⟨.identifier, name, location⟩ ∈ (Lexer.ofReader r).run.1) : r.HasNameAt name location where
  token := h
  only _ ht hlocation := Lexer.eq_of_location_eq ht h hlocation
  written _ hr := exists_liesIn_of_mem_tokensOf ((Lexer.run_ofReader hr).1 ▸ h)

namespace Syntax

/-! ## Located trees -/

variable {ts : List Token}

/-- One of the tokens is the name, and it is at the location. -/
def IsNameAt (ts : List Token) (name : String) (location : Location) : Prop :=
  ⟨.identifier, name, location⟩ ∈ ts

def Arg.Located (ts : List Token) (a : Arg) : Prop := IsNameAt ts a.name a.location

structure Call.Located (ts : List Token) (c : Call) : Prop where
  name : IsNameAt ts c.name c.location
  args : ∀ a ∈ c.args, a.Located ts

def Statement.Located (ts : List Token) : Statement → Prop
  | .call c => c.Located ts
  | .move destination location => IsNameAt ts destination location

def Param.Located (ts : List Token) (p : Param) : Prop := IsNameAt ts p.name p.location

structure Condition.Located (ts : List Token) (c : Condition) : Prop where
  name : IsNameAt ts c.name c.location
  params : ∀ p ∈ c.params, p.Located ts

structure Trigger.Located (ts : List Token) (t : Trigger) : Prop where
  conditions : ∀ c ∈ t.conditions, c.Located ts
  actions : ∀ s ∈ t.actions, s.Located ts

structure State.Located (ts : List Token) (s : State) : Prop where
  name : IsNameAt ts s.name s.location
  init : ∀ action ∈ s.init, action.Located ts
  triggers : ∀ t ∈ s.triggers, t.Located ts

def Entry.Located (ts : List Token) : Entry → Prop
  | .assign a => IsNameAt ts a.name a.location
  | .state s => s.Located ts

/-- Every name of the file is among the tokens, at its location. -/
def File.Located (ts : List Token) (f : File) : Prop := ∀ e ∈ f.entries, e.Located ts

namespace Grammar

open Pattern

theorem isNameAt_of_identifier {d : identifier.Tree} (h : identifier.ForAll (· ∈ ts) d) :
    IsNameAt ts d.1.text d.1.location := by
  obtain ⟨⟨kind, text, location⟩, hkind⟩ := d
  obtain rfl : kind = .identifier := hkind
  exact forAll_terminal.1 h

theorem located_paramOf (d : param.Tree) (h : param.ForAll (· ∈ ts) d) :
    (paramOf d).Located ts :=
  isNameAt_of_identifier (forAll_both.1 h).1

theorem located_argOf (d : arg.Tree) (h : arg.ForAll (· ∈ ts) d) : (argOf d).Located ts :=
  isNameAt_of_identifier (forAll_both.1 h).1

theorem located_conditionOf (d : condition.Tree) (h : condition.ForAll (· ∈ ts) d) :
    (conditionOf d).Located ts := by
  obtain ⟨hname, hparams⟩ := forAll_both.1 h
  exact ⟨isNameAt_of_identifier hname, forall_parenthesisedOf located_paramOf hparams⟩

theorem located_callOf (d : call.Tree) (h : call.ForAll (· ∈ ts) d) : (callOf d).Located ts := by
  obtain ⟨hname, hargs⟩ := forAll_both.1 h
  exact ⟨isNameAt_of_identifier hname, forall_parenthesisedOf located_argOf hargs⟩

theorem located_actionOf (d : action.Tree) (h : action.ForAll (· ∈ ts) d) :
    (actionOf d).Located ts := by
  cases d with
  | inl d => exact isNameAt_of_identifier (forAll_both.1 (forAll_inl.1 h)).2
  | inr d => exact located_callOf d (forAll_inr.1 h)

theorem located_actionsOf (d : init.Tree) (h : init.ForAll (· ∈ ts) d) :
    ∀ s ∈ actionsOf d, s.Located ts :=
  forall_separatedOf located_actionOf (forAll_both.1 h).1

theorem located_triggerOf (d : trigger.Tree) (h : trigger.ForAll (· ∈ ts) d) :
    (triggerOf d).Located ts := by
  obtain ⟨-, hrest⟩ := forAll_both.1 h
  obtain ⟨hconditions, hrest⟩ := forAll_both.1 hrest
  exact ⟨forall_separatedOf located_conditionOf hconditions,
    located_actionsOf _ (forAll_both.1 hrest).2⟩

theorem located_initOf {d : (Pattern.maybe init).Tree}
    (h : (Pattern.maybe init).ForAll (· ∈ ts) d) : ∀ s ∈ initOf d, s.Located ts := by
  cases d with
  | none => exact nofun
  | some d => exact located_actionsOf d (forAll_some.1 h)

theorem located_definitionOf (d : definition.Tree) (h : definition.ForAll (· ∈ ts) d) :
    (definitionOf d).Located ts := by
  obtain ⟨hname, hrest⟩ := forAll_both.1 h
  obtain ⟨-, hrest⟩ := forAll_both.1 hrest
  obtain ⟨hinit, hrest⟩ := forAll_both.1 hrest
  have htriggers := forAll_many.1 (forAll_both.1 (forAll_both.1 hrest).1).1
  exact ⟨isNameAt_of_identifier hname, located_initOf hinit,
    List.forall_mem_map.2 fun d hd => located_triggerOf d (htriggers d hd)⟩

theorem located_entryOf (d : entry.Tree) (h : entry.ForAll (· ∈ ts) d) :
    (entryOf d).Located ts := by
  rcases d with d | d
  · exact located_definitionOf d.2 (forAll_both.1 (forAll_inl.1 h)).2
  · exact isNameAt_of_identifier (forAll_both.1 (forAll_inr.1 h)).1

theorem located_fileOf (d : file.Tree) (h : file.ForAll (· ∈ ts) d) : (fileOf d).Located ts := by
  have hentries := forAll_many.1 h
  exact List.forall_mem_map.2 fun d hd => located_entryOf d (hentries d hd)

end Grammar

/-- A parsed tree has the names of its source in their places. -/
theorem file_located_of_parse {filename : String} {lexer : Lexer} {tree : File}
    (h : (parse filename lexer).1 = .ok tree) : tree.Located lexer.run.1 := by
  obtain ⟨d, hd, rfl⟩ := file_eq_ok_iff.1 (file_eq_ok_of_parse h)
  exact Grammar.located_fileOf d fun t ht => hd ▸ ht

end Syntax

end EventMachine
