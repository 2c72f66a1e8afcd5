import EventMachine.Json.Basic
import EventMachine.Syntax.Basic

/-!
# Syntax trees as JSON

Every node is an object of its parts in order; an entry or statement begins with its kind.
-/

namespace EventMachine.Syntax

/-- The place, as an object. -/
def locationJson (l : Location) : Json :=
  .object [("line", .int l.line), ("offset", .int l.offset), ("length", .int l.length)]

/-- An expression is an object of one member, named for what the expression is. -/
def Expr.json : Expr → Json
  | str text => .object [("str", .string text)]
  | int n => .object [("int", .int n.toInt)]
  | float x => .object [("float", .float x)]
  | bool b => .object [("bool", .bool b)]
  | ref name => .object [("ref", .string name)]

def Arg.json (a : Arg) : Json :=
  .object [("name", .string a.name), ("value", a.value.json), ("location", locationJson a.location)]

def Statement.json : Statement → Json
  | call c =>
    .object [("stmt", .string "call"), ("name", .string c.name),
      ("args", .array (c.args.map Arg.json)), ("location", locationJson c.location)]
  | move destination location =>
    .object [("stmt", .string "move"), ("dest", .string destination),
      ("location", locationJson location)]

def Param.json (p : Param) : Json :=
  .object [("name", .string p.name), ("value", (p.value.map Expr.json).getD .null),
    ("location", locationJson p.location)]

def Condition.json (c : Condition) : Json :=
  .object [("name", .string c.name), ("params", .array (c.params.map Param.json)),
    ("location", locationJson c.location)]

def Trigger.json (t : Trigger) : Json :=
  .object [("conditions", .array (t.conditions.map Condition.json)),
    ("actions", .array (t.actions.map Statement.json)), ("location", locationJson t.location)]

def Entry.json : Entry → Json
  | assign a =>
    .object [("entry", .string "assign"), ("name", .string a.name), ("value", a.value.json),
      ("location", locationJson a.location)]
  | state s =>
    .object [("entry", .string "state"), ("name", .string s.name),
      ("location", locationJson s.location), ("init", .array (s.init.map Statement.json)),
      ("triggers", .array (s.triggers.map Trigger.json))]

def File.json (file : File) : Json := .object [("entries", .array (file.entries.map Entry.json))]

end EventMachine.Syntax
