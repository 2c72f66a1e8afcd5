import EventMachine.Machine.Basic
import EventMachine.Registry
import EventMachine.Syntax.Parser

/-!
# Compiling

`Compiler.compile` checks a syntax tree against a registry and turns it into a machine. Entries are
taken in order: an assignment adds a constant, a state is checked with the constants before it. The
first error ends it; the warnings up to there are kept beside it (`Compiler.lower`).
-/

namespace EventMachine

/-- What a source is compiled with. -/
structure Compiler where
  registry : Registry
  narrowing : NarrowingPolicy
  /-- Constants that the source may use from its start. -/
  constants : NameMap Value

/-- Compiling may fail, and collects warnings in either case. -/
abbrev Lowering := ExceptT CompileError (StateM (List Warning))

namespace Compile

open Syntax (Expr Arg Call Statement Param)

/-- The parts of a compilation that stay the same within one state. -/
structure Scope where
  registry : Registry
  narrowing : NarrowingPolicy
  filename : String
  constants : NameMap Value

namespace Scope

def site (scope : Scope) (location : Location) (context : Context) : Site :=
  ⟨scope.filename, location, context⟩

/-- The value of an expression, by the constants so far. -/
def eval (scope : Scope) (site : Site) : Expr → Except CompileError Value
  | .str text => .ok (.str text)
  | .int n => .ok (.int n)
  | .float x => .ok (.float x)
  | .bool b => .ok (.bool b)
  | .ref name =>
    match scope.constants.get? name with
    | some value => .ok value
    | none => .error (.semantic site (.undefinedVariable name))

/-! ## Statements -/

/-- The operand of an argument, and its type. Event data hides a constant of the same name. -/
def operand (scope : Scope) (eventData : NameMap ValueType) (site : Site) (e : Expr) :
    Except CompileError (Operand × ValueType) :=
  let constant := do
    let value ← scope.eval site e
    return (.literal value, value.type)
  match e with
  | .ref name =>
    match eventData.get? name with
    | some type => .ok (.eventData name, type)
    | none => constant
  | _ => constant

/-- Adds an argument to those of a call. -/
def supply (scope : Scope) (eventData : NameMap ValueType) (context : Context) (action : String)
    (inputs : Signature) (supplied : NameMap Operand) (arg : Arg) :
    Except CompileError (NameMap Operand) := do
  let site := scope.site arg.location context
  match inputs.type? arg.name with
  | none => .error (.semantic site (.unspecifiedArgument action arg.name))
  | some type =>
    if supplied.contains arg.name then
      .error (.semantic site (.duplicateArgument action arg.name))
    else
      let (operand, actual) ← scope.operand eventData site arg.value
      if actual ≠ type then
        .error (.semantic site (.typeMismatch .argument (action ++ "." ++ arg.name) type actual))
      else return supplied.insert arg.name operand

/-- The arguments of a call, in the order of the inputs: those supplied, and the zero value of the
type for the others. An opaque input that is not supplied stays absent. -/
def bindings (inputs : Signature) (supplied : NameMap Operand) : List (String × Operand) :=
  inputs.entries.filterMap fun (name, type) =>
    match supplied.get? name with
    | some operand => some (name, operand)
    | none => type.zero?.map fun value => (name, .literal value)

def call (scope : Scope) (eventData : NameMap ValueType) (context : Context) (c : Call) :
    Except CompileError Step :=
  match scope.registry.actions.get? c.name with
  | none => .error (.semantic (scope.site c.location context) (.unspecifiedAction c.name))
  | some inputs => do
    let supplied ← c.args.foldlM (scope.supply eventData context c.name inputs) .empty
    return .call c.name (bindings inputs supplied)

def statement (scope : Scope) (eventData : NameMap ValueType) (context : Context) :
    Statement → Except CompileError Step
  | .move destination _ => .ok (.move destination)
  | .call c => scope.call eventData context c

/-! ## Triggers -/

/-- Takes in a parameter of a condition: it is checked, the value that it asks for joins the
constraints, and its name becomes visible. -/
def param (scope : Scope) (context : Context) (trigger : String) (fields : Signature)
    (found : NameMap ValueType × NameMap Value) (p : Param) :
    Except CompileError (NameMap ValueType × NameMap Value) := do
  let (visible, constraints) := found
  let site := scope.site p.location context
  match fields.type? p.name with
  | none => .error (.semantic site (.unspecifiedEventData trigger p.name))
  | some type =>
    let constraints ← match p.value with
      | none => pure constraints
      | some e =>
        let value ← scope.eval site e
        if value.type ≠ type then
          .error (.semantic site (.typeMismatch .eventData p.name type value.type))
        else pure (constraints.insert p.name value)
    match visible.get? p.name with
    | none => return (visible.insert p.name type, constraints)
    | some previous =>
      if previous ≠ type then
        .error (.semantic site (.typeMismatch .redeclaration p.name previous type))
      else return (visible, constraints)

/-- Drops a name that a condition does not mention, as the policy has it. -/
def drop (scope : Scope) (site : Site) (index : Nat) (visible : NameMap ValueType)
    (name : String) : Lowering (NameMap ValueType) :=
  match scope.narrowing with
  | .deny => throw (.semantic site (.narrowedEventData name index))
  | .warn => do
    modify (· ++ [⟨site, name, index⟩])
    return visible.erase name

/-- A condition, with the names that are visible after it: those it mentions. Names that were
visible before and that it does not mention are dropped in ascending order. -/
def condition (scope : Scope) (context : Context) (index : Nat) (visible : NameMap ValueType)
    (c : Syntax.Condition) : Lowering (Machine.Condition × NameMap ValueType) := do
  match scope.registry.triggers.get? c.name with
  | none => throw (.semantic (scope.site c.location context) (.unspecifiedTrigger c.name))
  | some fields =>
    let (all, constraints) ← liftExcept
      (c.params.foldlM (scope.param context c.name fields) (visible, .empty))
    let dropped := visible.names.filter fun name => !c.params.any (·.name = name)
    let left ← dropped.foldlM (scope.drop (scope.site c.location context) index) all
    return (⟨c.name, constraints⟩, left)
where
  /-- A result without warnings. -/
  liftExcept {α : Type} (result : Except CompileError α) : Lowering α := liftM result

/-- Conditions one after the other, with the names that are visible after the last. -/
def conditions (scope : Scope) (context : Context) (index : Nat) (visible : NameMap ValueType) :
    List Syntax.Condition → Lowering (List Machine.Condition × NameMap ValueType)
  | [] => return ([], visible)
  | c :: cs => do
    let (lowered, visible) ← scope.condition context index visible c
    let (rest, visible) ← scope.conditions context (index + 1) visible cs
    return (lowered :: rest, visible)

def trigger (scope : Scope) (state : String) (index : Nat) (t : Syntax.Trigger) :
    Lowering Machine.Trigger := do
  let context := Context.trigger state index
  let (conditions, eventData) ← scope.conditions context 0 .empty t.conditions
  let actions ← liftM (t.actions.mapM (scope.statement eventData context))
  return ⟨conditions, eventData, actions⟩

/-- Triggers one after the other, the first with the given index. -/
def triggers (scope : Scope) (state : String) (index : Nat) :
    List Syntax.Trigger → Lowering (List Machine.Trigger)
  | [] => return []
  | t :: ts => do
    let lowered ← scope.trigger state index t
    return lowered :: (← scope.triggers state (index + 1) ts)

/-! ## Entries -/

def state (scope : Scope) (known : List Machine.State) (s : Syntax.State) :
    Lowering Machine.State := do
  if known.any (·.name = s.name) then
    throw (.semantic (scope.site s.location (.state s.name)) (.duplicateState s.name))
  else
    let init ← liftM (s.init.mapM (scope.statement .empty (.init s.name)))
    let triggers ← scope.triggers s.name 0 s.triggers
    return ⟨s.name, init, triggers⟩

end Scope

/-- The constants and states of the entries so far. -/
structure Progress where
  constants : NameMap Value
  states : List Machine.State

/-- Takes in an entry. -/
def entry (compiler : Compiler) (filename : String) (progress : Progress) :
    Syntax.Entry → Lowering Progress
  | .assign a => do
    let scope : Scope := ⟨compiler.registry, compiler.narrowing, filename, progress.constants⟩
    let value ← liftM (scope.eval (scope.site a.location (.assignment a.name)) a.value)
    return { progress with constants := progress.constants.insert a.name value }
  | .state s => do
    let scope : Scope := ⟨compiler.registry, compiler.narrowing, filename, progress.constants⟩
    let state ← scope.state progress.states s
    return { progress with states := progress.states ++ [state] }

end Compile

namespace Compiler

/-- The compiler of a registry, without constants and with warnings. -/
def ofRegistry (registry : Registry) : Compiler := ⟨registry, .warn, .empty⟩

/-- Checks a syntax tree and takes in its entries. -/
def lower (compiler : Compiler) (filename : String) (file : Syntax.File) :
    Lowering Compile.Progress :=
  file.entries.foldlM (Compile.entry compiler filename) ⟨compiler.constants, []⟩

/-- Compiles a syntax tree. The first state is the one that instances begin in. -/
def compile (compiler : Compiler) (filename : String) (file : Syntax.File) :
    Except CompileError Machine :=
  match (compiler.lower filename file).run.run [] with
  | (.error e, _) => .error e
  | (.ok progress, warnings) =>
    match progress.states with
    | [] => .error (.emptyMachine filename)
    | first :: _ => .ok ⟨progress.constants, first.name, progress.states, warnings, none⟩

/-- Parses and compiles what a reader delivers. The checksum is the reader's, once the source has
been read to its end. -/
def build (compiler : Compiler) (filename : String) (reader : Source.Reader) :
    Except CompileError Machine :=
  match Syntax.parse filename (.ofReader reader) with
  | (.error e, _) => .error (.syntactic e)
  | (.ok file, last) =>
    (compiler.compile filename file).map fun machine =>
      { machine with checksum := some last.reader.reader.digest }

/-- Parses and compiles a text. -/
def buildText (compiler : Compiler) (filename source : String) : Except CompileError Machine :=
  match Syntax.parseText filename source with
  | .error e => .error (.syntactic e)
  | .ok file =>
    (compiler.compile filename file).map fun machine =>
      { machine with checksum := some (Checksum.ofBytes (Source.encode source)) }

end Compiler

/-- Parses and compiles what a reader delivers, with the given constants and with warnings. -/
def build (filename : String) (reader : Source.Reader) (registry : Registry)
    (constants : List (String × Value)) : Except CompileError Machine :=
  Compiler.build { Compiler.ofRegistry registry with constants := .ofList constants } filename reader

end EventMachine
