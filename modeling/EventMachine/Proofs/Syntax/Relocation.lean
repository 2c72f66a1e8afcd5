import EventMachine.Proofs.Syntax.Derivation

/-!
# Trees of relocated tokens

Where a token stands does not matter to the grammar: the derivation of tokens in other places is the
same one (`Pattern.mapLocation`), and the syntax tree read off it has its locations in those places.
Hence tokens that are moved to other places have the tree moved there (`file_map_mapLocation`), and
two sources whose tokens differ in their places only have the same tree up to these places
(`toOption_parseText_of_map`).
-/

namespace EventMachine

/-- The token in another place. -/
def Token.mapLocation (g : Location → Location) (t : Token) : Token :=
  { t with location := g t.location }

namespace Syntax

variable (g : Location → Location)

def Arg.mapLocation (a : Arg) : Arg := { a with location := g a.location }

def Call.mapLocation (c : Call) : Call := ⟨c.name, c.args.map (·.mapLocation g), g c.location⟩

def Statement.mapLocation : Statement → Statement
  | call c => .call (c.mapLocation g)
  | move destination location => .move destination (g location)

def Param.mapLocation (p : Param) : Param := { p with location := g p.location }

def Condition.mapLocation (c : Condition) : Condition :=
  ⟨c.name, c.params.map (·.mapLocation g), g c.location⟩

def Trigger.mapLocation (t : Trigger) : Trigger :=
  ⟨t.conditions.map (·.mapLocation g), t.actions.map (·.mapLocation g), g t.location⟩

def State.mapLocation (s : State) : State :=
  ⟨s.name, g s.location, s.init.map (·.mapLocation g), s.triggers.map (·.mapLocation g)⟩

def Assignment.mapLocation (a : Assignment) : Assignment := { a with location := g a.location }

def Entry.mapLocation : Entry → Entry
  | assign a => .assign (a.mapLocation g)
  | state s => .state (s.mapLocation g)

/-- The file with its nodes in other places. -/
def File.mapLocation (file : File) : File := ⟨file.entries.map (·.mapLocation g)⟩

/-! ## Derivations -/

/-- The derivation of the tokens in other places. -/
def Pattern.mapLocation : (p : Pattern) → p.Tree → p.Tree
  | terminal _, t => ⟨t.1.mapLocation g, t.2⟩
  | both p q, d => (p.mapLocation d.1, q.mapLocation d.2)
  | either p _, .inl d => .inl (p.mapLocation d)
  | either _ q, .inr d => .inr (q.mapLocation d)
  | maybe p, d => Option.map p.mapLocation d
  | many p, ds => List.map p.mapLocation ds

theorem Pattern.tokens_mapLocation (p : Pattern) (d : p.Tree) :
    p.tokens (p.mapLocation g d) = (p.tokens d).map (Token.mapLocation g) := by
  induction p with
  | terminal s => rfl
  | both p q ihp ihq =>
    show p.tokens (p.mapLocation g d.1) ++ q.tokens (q.mapLocation g d.2) =
      (p.tokens d.1 ++ q.tokens d.2).map _
    rw [ihp, ihq, List.map_append]
  | either p q ihp ihq =>
    cases d with
    | inl d => exact ihp d
    | inr d => exact ihq d
  | maybe p ih =>
    cases d with
    | none => rfl
    | some d => exact ih d
  | many p ih =>
    show (List.map (p.mapLocation g) d).flatMap p.tokens = (List.flatMap p.tokens d).map _
    rw [List.flatMap_map, List.map_flatMap]
    exact congrArg (List.flatMap · d) (funext ih)

/-! ## Trees -/

namespace Grammar

open Pattern

theorem exprOf_mapLocation (d : value.Tree) : exprOf (value.mapLocation g d) = exprOf d := by
  rcases d with t | t | t | t | t <;> rfl

theorem assignedOf_mapLocation (d : assigned.Tree) :
    assignedOf (assigned.mapLocation g d) = assignedOf d := by
  cases d with
  | none => rfl
  | some d => exact congrArg some (exprOf_mapLocation g d.2)

theorem paramOf_mapLocation (d : param.Tree) :
    paramOf (param.mapLocation g d) = (paramOf d).mapLocation g := by
  obtain ⟨name, value⟩ := d
  exact congrArg (fun value => Param.mk name.1.text value (g name.1.location))
    (assignedOf_mapLocation g value)

theorem argOf_mapLocation (d : arg.Tree) :
    argOf (arg.mapLocation g d) = (argOf d).mapLocation g := by
  obtain ⟨name, value⟩ := d
  exact congrArg (fun value => Arg.mk name.1.text (value.getD (.ref name.1.text))
    (g name.1.location)) (assignedOf_mapLocation g value)

section Lists

variable {α : Type} {p : Pattern} {item : p.Tree → α} {k : α → α} {g}

/-- Repeated items are moved one by one. -/
theorem map_mapLocation (h : ∀ d, item (p.mapLocation g d) = k (item d)) (ds : (many p).Tree) :
    List.map item ((many p).mapLocation g ds) = (List.map item ds).map k := by
  show List.map item (List.map (p.mapLocation g) ds) = _
  rw [List.map_map, List.map_map]
  exact List.map_congr_left fun d _ => h d

theorem separatedOf_mapLocation {s : Terminal} (h : ∀ d, item (p.mapLocation g d) = k (item d))
    (d : (separated s p).Tree) :
    separatedOf item ((separated s p).mapLocation g d) = (separatedOf item d).map k := by
  obtain ⟨d, ds⟩ := d
  have hnext : ∀ d : (both (terminal s) p).Tree,
      item ((both (terminal s) p).mapLocation g d).2 = k (item d.2) := fun d => h d.2
  exact List.cons_eq_cons.2 ⟨h d, map_mapLocation hnext ds⟩

theorem parenthesisedOf_mapLocation (h : ∀ d, item (p.mapLocation g d) = k (item d))
    (d : (parenthesised p).Tree) :
    parenthesisedOf item ((parenthesised p).mapLocation g d) = (parenthesisedOf item d).map k := by
  rcases d with _ | ⟨_, _ | ⟨d, ds, _⟩, _⟩
  · rfl
  · rfl
  · exact separatedOf_mapLocation h (d, ds)

end Lists

theorem conditionOf_mapLocation (d : condition.Tree) :
    conditionOf (condition.mapLocation g d) = (conditionOf d).mapLocation g := by
  obtain ⟨name, params⟩ := d
  exact congrArg (fun params => Condition.mk name.1.text params (g name.1.location))
    (parenthesisedOf_mapLocation (paramOf_mapLocation g) params)

theorem callOf_mapLocation (d : call.Tree) :
    callOf (call.mapLocation g d) = (callOf d).mapLocation g := by
  obtain ⟨name, args⟩ := d
  exact congrArg (fun args => Call.mk name.1.text args (g name.1.location))
    (parenthesisedOf_mapLocation (argOf_mapLocation g) args)

theorem actionOf_mapLocation (d : action.Tree) :
    actionOf (action.mapLocation g d) = (actionOf d).mapLocation g := by
  cases d with
  | inl d => rfl
  | inr d => exact congrArg Statement.call (callOf_mapLocation g d)

theorem actionsOf_mapLocation (d : init.Tree) :
    actionsOf (init.mapLocation g d) = (actionsOf d).map (·.mapLocation g) :=
  separatedOf_mapLocation (actionOf_mapLocation g) d.1

theorem triggerOf_mapLocation (d : trigger.Tree) :
    triggerOf (trigger.mapLocation g d) = (triggerOf d).mapLocation g := by
  obtain ⟨on, conditions, arrow, actions⟩ := d
  have hconditions := separatedOf_mapLocation (conditionOf_mapLocation g) conditions
  exact congr (congrArg (fun conditions actions =>
    Trigger.mk conditions actions (g on.1.location)) hconditions)
    (actionsOf_mapLocation g actions)

theorem initOf_mapLocation (d : (Pattern.maybe init).Tree) :
    initOf ((Pattern.maybe init).mapLocation g d) = (initOf d).map (·.mapLocation g) := by
  cases d with
  | none => rfl
  | some d => exact actionsOf_mapLocation g d

theorem definitionOf_mapLocation (d : definition.Tree) :
    definitionOf (definition.mapLocation g d) = (definitionOf d).mapLocation g := by
  obtain ⟨name, _, init, ⟨triggers, _⟩, _⟩ := d
  exact congr (congrArg (State.mk name.1.text (g name.1.location)) (initOf_mapLocation g init))
    (map_mapLocation (triggerOf_mapLocation g) triggers)

theorem assignmentOf_mapLocation (d : assignment.Tree) :
    assignmentOf (assignment.mapLocation g d) = (assignmentOf d).mapLocation g := by
  obtain ⟨name, _, value, _⟩ := d
  exact congrArg (fun value => Assignment.mk name.1.text value (g name.1.location))
    (exprOf_mapLocation g value)

theorem entryOf_mapLocation (d : entry.Tree) :
    entryOf (entry.mapLocation g d) = (entryOf d).mapLocation g := by
  rcases d with d | d
  · exact congrArg Entry.state (definitionOf_mapLocation g d.2)
  · exact congrArg Entry.assign (assignmentOf_mapLocation g d)

theorem fileOf_mapLocation (d : file.Tree) :
    fileOf (file.mapLocation g d) = (fileOf d).mapLocation g :=
  congrArg File.mk (map_mapLocation (entryOf_mapLocation g) d)

end Grammar

/-- Tokens in other places have the tree in these places. -/
theorem file_map_mapLocation {tokens : List Token} {tree : File} (h : file tokens = .ok tree) :
    file (tokens.map (Token.mapLocation g)) = .ok (tree.mapLocation g) := by
  obtain ⟨d, rfl, rfl⟩ := file_eq_ok_iff.1 h
  exact file_eq_ok_iff.2
    ⟨Grammar.file.mapLocation g d, Pattern.tokens_mapLocation g _ d, Grammar.fileOf_mapLocation g d⟩

/-- A source whose tokens are those of another one in other places has the same tree there, or none
either. -/
theorem toOption_parseText_of_map {g g' : Location → Location} {source source' : String}
    (filename : String) (h : tokensOf source' = (tokensOf source).map (Token.mapLocation g))
    (h' : tokensOf source = (tokensOf source').map (Token.mapLocation g')) :
    (parseText filename source').toOption =
      (parseText filename source).toOption.map (File.mapLocation g) := by
  cases hp : parseText filename source with
  | ok tree =>
    have htree := file_map_mapLocation g (parseText_eq_ok_iff.1 hp)
    rw [← h] at htree
    rw [parseText_eq_ok_iff.2 htree]
    rfl
  | error e =>
    cases hp' : parseText filename source' with
    | error e' => rfl
    | ok tree =>
      -- its tree, moved back, would be one of the first source
      have htree := file_map_mapLocation g' (parseText_eq_ok_iff.1 hp')
      rw [← h'] at htree
      have hok : parseText filename source = .ok _ := parseText_eq_ok_iff.2 htree
      rw [hp] at hok
      cases hok

end Syntax

end EventMachine
