import EventMachine.Proofs.Syntax.Pattern
import EventMachine.Syntax.Basic
import EventMachine.Syntax.Escape

/-!
# The grammar of source files

The rules of the language as patterns, with the syntax tree that is read off a derivation from each.
A rule stands before the rules that use it; `file` is the last.

Every rule is unambiguous (`unambiguous_file`).
-/

namespace EventMachine.Syntax.Grammar

open Number Pattern

/-! ## Rules -/

/-- Punctuation or a reserved word. -/
abbrev mark (text : String) : Pattern := .terminal (.mark text)

abbrev identifier : Pattern := .terminal (.kind .identifier)

/-- `string | int | float | bool | identifier` -/
abbrev value : Pattern :=
  .either (.terminal (.kind .string)) (.either (.terminal .int) (.either (.terminal .float)
    (.either (.terminal (.kind .bool)) identifier)))

/-- `('=' value)?` -/
abbrev assigned : Pattern := .maybe (.both (mark "=") value)

/-- `identifier ('=' value)?` -/
abbrev param : Pattern := .both identifier assigned

/-- `identifier ('=' value)?` -/
abbrev arg : Pattern := .both identifier assigned

/-- `('(' (item (',' item)* ','?)? ')')?` -/
abbrev parenthesised (item : Pattern) : Pattern :=
  .maybe (.both (mark "(") (closedList (.mark ",") (.mark ")") item))

/-- `identifier ('(' (param (',' param)* ','?)? ')')?` -/
abbrev condition : Pattern := .both identifier (parenthesised param)

/-- `identifier ('(' (arg (',' arg)* ','?)? ')')?` -/
abbrev call : Pattern := .both identifier (parenthesised arg)

/-- `'move' identifier | call` -/
abbrev action : Pattern := .either (.both (.terminal (.word "move")) identifier) call

/-- `action (',' action)* ';'` -/
abbrev init : Pattern := .both (separated (.mark ",") action) (mark ";")

/-- `'on' condition (',' condition)* '->' action (',' action)* ';'` -/
abbrev trigger : Pattern :=
  .both (mark "on") (.both (separated (.mark ",") condition) (.both (mark "->") init))

/-- What follows the reserved word: `identifier '{' init? trigger* '}' ';'` -/
abbrev definition : Pattern :=
  .both identifier (.both (mark "\x7b") (.both (.maybe init)
    (.both (.both (.many trigger) (mark "\x7d")) (mark ";"))))

/-- `'state' identifier '{' init? trigger* '}' ';'` -/
abbrev state : Pattern := .both (.terminal (.word "state")) definition

/-- `identifier '=' value ';'` -/
abbrev assignment : Pattern := .both identifier (.both (mark "=") (.both value (mark ";")))

/-- `state | assignment` -/
abbrev entry : Pattern := .either state assignment

/-- `entry*` -/
abbrev file : Pattern := .many entry

/-! ## The syntax tree of a derivation -/

def exprOf : value.Tree → Expr
  | .inl t => .str (unescape (String.ofList (t.1.text.toList.drop 1).dropLast))
  | .inr (.inl t) => .int (Int64.ofInt ((readInt? t.1.text.toList).getD 0))
  | .inr (.inr (.inl t)) => .float ((readBinary64? t.1.text.toList).getD Binary64.nan)
  | .inr (.inr (.inr (.inl t))) => .bool (t.1.text = "true")
  | .inr (.inr (.inr (.inr t))) => .ref t.1.text

def assignedOf (d : assigned.Tree) : Option Expr := d.map fun assigned => exprOf assigned.2

def paramOf : param.Tree → Param
  | (name, value) => ⟨name.1.text, assignedOf value, name.1.location⟩

/-- An argument without a value is a reference to its own name. -/
def argOf : arg.Tree → Arg
  | (name, value) => ⟨name.1.text, (assignedOf value).getD (.ref name.1.text), name.1.location⟩

/-- The items of a list in their order. -/
def separatedOf {s : Terminal} {p : Pattern} (item : p.Tree → α) : (separated s p).Tree → List α
  | (d, ds) => item d :: ds.map fun d => item d.2

/-- The items before the closing terminal, in their order. -/
def closedListOf {s c : Terminal} {p : Pattern} (item : p.Tree → α) :
    (closedList s c p).Tree → List α
  | (none, _) => []
  | (some (d, ds, _), _) => item d :: ds.map fun d => item d.2

/-- The items in parentheses, none without parentheses. -/
def parenthesisedOf {p : Pattern} (item : p.Tree → α) : (parenthesised p).Tree → List α
  | none => []
  | some (_, d) => closedListOf item d

def conditionOf : condition.Tree → Condition
  | (name, params) => ⟨name.1.text, parenthesisedOf paramOf params, name.1.location⟩

def callOf : call.Tree → Call
  | (name, args) => ⟨name.1.text, parenthesisedOf argOf args, name.1.location⟩

def actionOf : action.Tree → Statement
  | .inl (_, destination) => .move destination.1.text destination.1.location
  | .inr d => .call (callOf d)

def actionsOf : init.Tree → List Statement
  | (d, _) => separatedOf actionOf d

def triggerOf : trigger.Tree → Trigger
  | (on, conditions, _, actions) =>
    ⟨separatedOf conditionOf conditions, actionsOf actions, on.1.location⟩

def initOf (d : (Pattern.maybe init).Tree) : List Statement := (d.map actionsOf).getD []

def definitionOf : definition.Tree → State
  | (name, _, init, (triggers, _), _) =>
    ⟨name.1.text, name.1.location, initOf init, triggers.map triggerOf⟩

def stateOf : state.Tree → State
  | (_, d) => definitionOf d

def assignmentOf : assignment.Tree → Assignment
  | (name, _, value, _) => ⟨name.1.text, exprOf value, name.1.location⟩

def entryOf : entry.Tree → Entry
  | .inl d => .state (stateOf d)
  | .inr d => .assign (assignmentOf d)

def fileOf (d : file.Tree) : File := ⟨d.map entryOf⟩

/-! ## Unambiguity -/

theorem unambiguous_value : value.Unambiguous :=
  (unambiguous_terminal _).either
    ((unambiguous_terminal _).either
      ((unambiguous_terminal _).either
        ((unambiguous_terminal _).either (unambiguous_terminal _) rfl rfl (by decide))
        rfl rfl (by decide))
      rfl rfl (by decide))
    rfl rfl (by decide)

theorem unambiguous_assigned : assigned.Unambiguous :=
  ((unambiguous_terminal _).both unambiguous_value (by decide)).maybe rfl

theorem unambiguous_param : param.Unambiguous :=
  (unambiguous_terminal _).both unambiguous_assigned (by decide)

theorem unambiguous_parenthesised {p : Pattern} (hp : p.Unambiguous) (hn : p.nullable = false)
    (hf : Apart [.mark ",", .mark ")"] p.further) (hc : Apart p.first [.mark ")"]) :
    (parenthesised p).Unambiguous := by
  have hlist : (closedList (.mark ",") (.mark ")") p).Unambiguous :=
    hp.closedList hn (by decide) hf hc
  exact ((unambiguous_terminal _).both hlist (apart_nil _)).maybe rfl

theorem unambiguous_condition : condition.Unambiguous :=
  (unambiguous_terminal _).both
    (unambiguous_parenthesised unambiguous_param rfl (by decide) (by decide)) (by decide)

/-- Arguments are written like parameters. -/
theorem unambiguous_call : call.Unambiguous := unambiguous_condition

theorem unambiguous_action : action.Unambiguous :=
  ((unambiguous_terminal _).both (unambiguous_terminal _) (by decide)).either unambiguous_call
    rfl rfl (by decide)

theorem unambiguous_init : init.Unambiguous :=
  (unambiguous_action.separated rfl (by decide)).both (unambiguous_terminal _) (by decide)

theorem unambiguous_trigger : trigger.Unambiguous :=
  (unambiguous_terminal _).both ((unambiguous_condition.separated rfl (by decide)).both
    ((unambiguous_terminal _).both unambiguous_init (by decide)) (by decide)) (by decide)

theorem unambiguous_definition : definition.Unambiguous := by
  have htriggers : (Pattern.both (.many trigger) (mark "\x7d")).Unambiguous :=
    (unambiguous_trigger.many rfl (by decide)).both (unambiguous_terminal _) (by decide)
  have hbody : (Pattern.both (.maybe init)
      (.both (.both (.many trigger) (mark "\x7d")) (mark ";"))).Unambiguous :=
    (unambiguous_init.maybe rfl).both (htriggers.both (unambiguous_terminal _) (by decide))
      (by decide)
  exact (unambiguous_terminal _).both ((unambiguous_terminal _).both hbody (by decide)) (by decide)

theorem unambiguous_state : state.Unambiguous :=
  (unambiguous_terminal _).both unambiguous_definition (by decide)

theorem unambiguous_assignment : assignment.Unambiguous :=
  (unambiguous_terminal _).both ((unambiguous_terminal _).both
    (unambiguous_value.both (unambiguous_terminal _) (by decide)) (by decide)) (by decide)

theorem unambiguous_entry : entry.Unambiguous :=
  unambiguous_state.either unambiguous_assignment rfl rfl (by decide)

theorem unambiguous_file : file.Unambiguous :=
  unambiguous_entry.many rfl (by decide)

end EventMachine.Syntax.Grammar
