import EventMachine.Proofs.Lexer.Tokens
import EventMachine.Proofs.Syntax.Reading
import EventMachine.Syntax.Parser

/-!
# The parser reads the derivations of the grammar

Each production of the parser reads its rule of the grammar, from `reads_value` to `reads_entry`.
Hence a file is read exactly from a derivation, the only one of its tokens
(`parseTokens_iff_derivation`). A source has the tree of its tokens (`parseText_eq_ok_iff`).
-/

namespace EventMachine.Syntax

open Production Pattern

/-! ## Values -/

open Number in
theorem readInt64?_eq_some_iff {cs : List Char} {i : Int64} :
    readInt64? cs = some i ↔
      ∃ n, readInt? cs = some n ∧ -2 ^ 63 ≤ n ∧ n < 2 ^ 63 ∧ Int64.ofInt n = i := by
  unfold readInt64?
  cases readInt? cs with
  | none => simp
  | some n =>
    by_cases h : -2 ^ 63 ≤ n ∧ n < 2 ^ 63
    · simp only [if_pos h, Option.some.injEq, exists_eq_left']
      rw [← and_assoc, and_iff_right h]
    · simp only [if_neg h, reduceCtorEq, Option.some.injEq, false_iff]
      rintro ⟨n', rfl, hlo, hhi, -⟩
      exact h ⟨hlo, hhi⟩

theorem exprOf_str (t : (Pattern.terminal (.kind .string)).Tree) :
    Grammar.exprOf (.inl t) =
      .str (String.ofList (unescapeChars (t.1.text.toList.drop 1).dropLast)) := by
  show Expr.str (String.ofList (unescapeChars (String.ofList _).toList)) = _
  rw [String.toList_ofList]

theorem exprOf_int (t : (Pattern.terminal .int).Tree) {n : Int}
    (hn : Number.readInt? t.1.text.toList = some n) :
    Grammar.exprOf (.inr (.inl t)) = .int (Int64.ofInt n) := by
  show Expr.int (Int64.ofInt ((Number.readInt? t.1.text.toList).getD 0)) = _
  rw [hn]
  rfl

theorem exprOf_float (t : (Pattern.terminal .float).Tree) {x : Number.Binary64}
    (hx : Number.readBinary64? t.1.text.toList = some x) :
    Grammar.exprOf (.inr (.inr (.inl t))) = .float x := by
  show Expr.float ((Number.readBinary64? t.1.text.toList).getD Number.Binary64.nan) = _
  rw [hx]
  rfl

/-- A token stands for a value when it derives from the rule, and then for the value read off. -/
theorem exprOfToken_eq_ok_iff {t : Token} {e : Expr} :
    exprOfToken t = .ok e ↔ ∃ d, Grammar.value.tokens d = [t] ∧ Grammar.exprOf d = e := by
  constructor
  · intro h
    unfold exprOfToken at h
    split at h
    · next hk =>
      cases h
      exact ⟨.inl ⟨t, hk⟩, rfl, exprOf_str ⟨t, hk⟩⟩
    · next hk =>
      split at h
      · next i hi =>
        cases h
        obtain ⟨n, hn, hlo, hhi, rfl⟩ := readInt64?_eq_some_iff.1 hi
        exact ⟨.inr (.inl ⟨t, hk, n, hn, hlo, hhi⟩), rfl, exprOf_int _ hn⟩
      · cases h
    · next hk =>
      split at h
      · next x hx =>
        cases h
        have hsome : (Number.readBinary64? t.text.toList).isSome := by
          rw [hx]
          rfl
        exact ⟨.inr (.inr (.inl ⟨t, hk, hsome⟩)), rfl, exprOf_float _ hx⟩
      · cases h
    · next hk =>
      cases h
      exact ⟨.inr (.inr (.inr (.inl ⟨t, hk⟩))), rfl, rfl⟩
    · next hk =>
      cases h
      exact ⟨.inr (.inr (.inr (.inr ⟨t, hk⟩))), rfl, rfl⟩
    · cases h
  · rintro ⟨d, ht, rfl⟩
    unfold exprOfToken
    rcases d with t' | t' | t' | t' | t' <;> obtain ⟨rfl, -⟩ := List.cons.inj ht
    · have hk : t'.1.kind = .string := t'.2
      simp only [hk]
      exact congrArg Except.ok (exprOf_str t').symm
    · obtain ⟨hk, n, hn, hlo, hhi⟩ := t'.2
      have hi := readInt64?_eq_some_iff.2 ⟨n, hn, hlo, hhi, rfl⟩
      simp only [hk, hi, exprOf_int t' hn]
    · obtain ⟨hk, hsome⟩ := t'.2
      obtain ⟨x, hx⟩ := Option.isSome_iff_exists.1 hsome
      simp only [hk, hx, exprOf_float t' hx]
    · have hk : t'.1.kind = .bool := t'.2
      simp only [hk]
      rfl
    · have hk : t'.1.kind = .identifier := t'.2
      simp only [hk]
      rfl

theorem exists_tokens_value (d : Grammar.value.Tree) : ∃ t, Grammar.value.tokens d = [t] := by
  rcases d with t | t | t | t | t <;> exact ⟨t.1, rfl⟩

theorem reads_value : Reads value Grammar.value Grammar.exprOf := by
  constructor
  · rintro (_ | ⟨t, ts⟩) e rest h
    · cases h
    · unfold value at h
      cases he : exprOfToken t with
      | error expected =>
        simp only [he] at h
        cases h
      | ok e' =>
        simp only [he] at h
        cases h
        obtain ⟨d, ht, rfl⟩ := exprOfToken_eq_ok_iff.1 he
        exact ⟨d, by rw [ht]; rfl, rfl⟩
  · intro d rest _
    obtain ⟨t, ht⟩ := exists_tokens_value d
    have he := exprOfToken_eq_ok_iff.2 ⟨d, ht, rfl⟩
    rw [ht]
    show value (t :: rest) = _
    unfold value
    simp only [he]

/-! ## Statements and conditions -/

theorem reads_assignedValue? : Reads assignedValue? Grammar.assigned Grammar.assignedOf := by
  have hvalue : Reads (ofText "=" >>= fun _ => value >>= fun e => pure (some e))
      (.both (Grammar.mark "=") Grammar.value) fun d => some (Grammar.exprOf d.2) :=
    (reads_ofText "=").bind (fun _ => reads_value.map some) (by decide)
  refine (hvalue.maybe (looks_isAt "=") rfl rfl none).congr fun d => ?_
  cases d <;> rfl

theorem reads_param : Reads param Grammar.param Grammar.paramOf :=
  (reads_ofKind .identifier).bind
    (fun name => reads_assignedValue?.map fun value => Param.mk name.text value name.location)
    (by decide)

theorem reads_arg : Reads arg Grammar.arg Grammar.argOf :=
  (reads_ofKind .identifier).bind
    (fun name => reads_assignedValue?.map fun value =>
      Arg.mk name.text (value.getD (.ref name.text)) name.location)
    (by decide)

theorem reads_condition : Reads condition Grammar.condition Grammar.conditionOf :=
  (reads_ofKind .identifier).bind
    (fun name => (reads_parenthesised reads_param rfl (by decide) (by decide)).map fun params =>
      Condition.mk name.text params name.location)
    (by decide)

theorem reads_call : Reads call Grammar.call Grammar.callOf :=
  (reads_ofKind .identifier).bind
    (fun name => (reads_parenthesised reads_arg rfl (by decide) (by decide)).map fun args =>
      Call.mk name.text args name.location)
    (by decide)

theorem reads_statement : Reads statement Grammar.action Grammar.actionOf := by
  have hmove : Reads (ofText "move" >>= fun _ => ofKind .identifier >>= fun destination =>
      pure (Statement.move destination.text destination.location))
      (.both (Grammar.mark "move") Grammar.identifier)
      fun d => .move d.2.1.text d.2.1.location :=
    (reads_ofText "move").bind (fun _ => (reads_ofKind .identifier).map fun destination =>
      Statement.move destination.text destination.location) (by decide)
  have hcall : Reads (isAtKind .identifier >>= fun b => if b = true then
      call >>= fun c => pure (Statement.call c) else mismatch [.text "move", .kind .identifier])
      Grammar.call fun d => .call (Grammar.callOf d) :=
    (reads_call.map Statement.call).guarded (looks_isAtKind .identifier) rfl rfl _
  refine (Reads.word (fun t : Grammar.identifier.Tree => .move t.1.text t.1.location) hmove hcall
    rfl (by decide)).congr fun d => ?_
  cases d <;> rfl

theorem reads_statements : Reads statements Grammar.init Grammar.actionsOf :=
  (reads_commaSeparated reads_statement (by decide)).bind
    (fun actions => (reads_ofText ";").map fun _ => actions) (by decide)

theorem reads_trigger : Reads trigger Grammar.trigger Grammar.triggerOf := by
  have hactions : ∀ location conditions, Reads
      (ofText "->" >>= fun _ => statements >>= fun actions =>
        pure (Trigger.mk conditions actions location))
      (.both (Grammar.mark "->") Grammar.init)
      fun d => Trigger.mk conditions (Grammar.actionsOf d.2) location := fun location conditions =>
    (reads_ofText "->").bind (fun _ => reads_statements.map fun actions =>
      Trigger.mk conditions actions location) (by decide)
  exact (reads_ofText "on").bind (fun location =>
    (reads_commaSeparated reads_condition (by decide)).bind (hactions location) (by decide))
    (by decide)

/-! ## Entries -/

theorem reads_assignment : Reads assignment Grammar.assignment Grammar.assignmentOf := by
  have hvalue : ∀ name : Token, Reads
      (value >>= fun e => ofText ";" >>= fun _ => pure (Assignment.mk name.text e name.location))
      (.both Grammar.value (Grammar.mark ";"))
      fun d => Assignment.mk name.text (Grammar.exprOf d.1) name.location := fun name =>
    reads_value.bind (fun e => (reads_ofText ";").map fun _ =>
      Assignment.mk name.text e name.location) (by decide)
  exact (reads_ofKind .identifier).bind (fun name =>
    (reads_ofText "=").bind (fun _ => hvalue name) (by decide)) (by decide)

/-- What follows the reserved word in the definition of a state, and its semicolon. -/
theorem reads_definition :
    Reads (ofKind .identifier >>= fun name => ofText "\x7b" >>= fun _ => init >>= fun init =>
        braceItems trigger shrinks_trigger >>= fun triggers => ofText ";" >>= fun _ =>
          pure (Entry.state ⟨name.text, name.location, init, triggers⟩))
      Grammar.definition fun d => .state (Grammar.definitionOf d) := by
  have htriggers : ∀ (name : Token) (init : List Statement), Reads
      (braceItems trigger shrinks_trigger >>= fun triggers => ofText ";" >>= fun _ =>
        pure (Entry.state ⟨name.text, name.location, init, triggers⟩))
      (.both (.both (.many Grammar.trigger) (Grammar.mark "\x7d")) (Grammar.mark ";"))
      fun d => .state ⟨name.text, name.location, init, d.1.1.map Grammar.triggerOf⟩ :=
    fun name init =>
      (reads_braceItems reads_trigger rfl (by decide) (by decide) (by decide)).bind
        (fun triggers => (reads_ofText ";").map fun _ =>
          Entry.state ⟨name.text, name.location, init, triggers⟩) (by decide)
  have hbody : ∀ name : Token, Reads
      (init >>= fun init => braceItems trigger shrinks_trigger >>= fun triggers =>
        ofText ";" >>= fun _ => pure (Entry.state ⟨name.text, name.location, init, triggers⟩))
      (.both (.maybe Grammar.init)
        (.both (.both (.many Grammar.trigger) (Grammar.mark "\x7d")) (Grammar.mark ";")))
      fun d => .state ⟨name.text, name.location, Grammar.initOf d.1,
        d.2.1.1.map Grammar.triggerOf⟩ := fun name =>
    reads_statements.leftOut (looks_isAt "on") (looks_isAt "\x7d") (htriggers name) rfl rfl rfl
      (by decide) (by decide) []
  exact (reads_ofKind .identifier).bind (fun name =>
    (reads_ofText "\x7b").bind (fun _ => hbody name) (by decide)) (by decide)

theorem reads_entry : Reads entry Grammar.entry Grammar.entryOf := by
  have hstate : Reads (state >>= fun state => ofText ";" >>= fun _ => pure (Entry.state state))
      (.both (Grammar.mark "state") Grammar.definition)
      fun d => .state (Grammar.definitionOf d.2) := by
    simp only [state, bind_assoc, pure_bind]
    exact (reads_ofText "state").bind (fun _ => reads_definition) (by decide)
  have hassignment : Reads (isAtKind .identifier >>= fun b => if b = true then
      assignment >>= fun a => pure (Entry.assign a)
      else mismatch [.kind .identifier, .text "state"])
      Grammar.assignment fun d => .assign (Grammar.assignmentOf d) :=
    (reads_assignment.map Entry.assign).guarded (looks_isAtKind .identifier) rfl rfl _
  refine (Reads.word (fun d : Grammar.definition.Tree => .state (Grammar.definitionOf d)) hstate
    hassignment rfl (by decide)).congr fun d => ?_
  cases d <;> rfl

theorem file_eq_ok_iff {tokens : List Token} {f : File} :
    file tokens = .ok f ↔ ∃ d, Grammar.file.tokens d = tokens ∧ Grammar.fileOf d = f := by
  have hentries : ∀ es, untilEnd entry shrinks_entry tokens = .ok es ↔
      ∃ ds, Grammar.file.tokens ds = tokens ∧ ds.map Grammar.entryOf = es := fun _ =>
    untilEnd_eq_ok_iff reads_entry rfl (by decide)
  unfold file
  cases he : untilEnd entry shrinks_entry tokens with
  | error e =>
    refine iff_of_false (fun h => by cases h) ?_
    rintro ⟨d, hd, -⟩
    rw [(hentries _).2 ⟨d, hd, rfl⟩] at he
    cases he
  | ok es =>
    obtain ⟨d, rfl, rfl⟩ := (hentries es).1 he
    constructor
    · rintro ⟨⟩
      exact ⟨d, rfl, rfl⟩
    · rintro ⟨d', hd', rfl⟩
      rw [(hentries _).2 ⟨d', hd', rfl⟩] at he
      show Except.ok (File.mk (d.map Grammar.entryOf)) = .ok (File.mk (d'.map Grammar.entryOf))
      rw [Except.ok.inj he]

/-- The parser accepts tokens up to the end of a source exactly when they derive from the grammar,
and gives the tree that is read off their only derivation. -/
theorem parseTokens_iff_derivation (filename : String) (tokens : List Token) (text : String)
    (location : Location) (failure : Option Source.ReadError) :
    (∀ f, parseTokens filename tokens ⟨.eof, text, location⟩ failure = .ok f ↔
      ∃ d, Grammar.file.tokens d = tokens ∧ Grammar.fileOf d = f) ∧
    ∀ d d', Grammar.file.tokens d = tokens → Grammar.file.tokens d' = tokens → d = d' := by
  constructor
  · intro f
    rw [← file_eq_ok_iff]
    unfold parseTokens
    cases file tokens with
    | error m => exact iff_of_false (fun h => by cases h) (fun h => by cases h)
    | ok tree =>
      show (if TokenKind.eof = TokenKind.error then _ else Except.ok tree) = .ok f ↔ _
      rw [if_neg (by decide), Except.ok.injEq, Except.ok.injEq]
  · intro d d' hd hd'
    have h : Grammar.file.tokens d ++ [] = Grammar.file.tokens d' ++ [] := by rw [hd, hd']
    exact (Grammar.unambiguous_file d d' [] [] (not_begins_nil _) (not_begins_nil _) h).1

/-! ## Sources -/

/-- The tree of a source, or the error, is that of its text. -/
theorem parse_ofReader (filename : String) {r : Source.Reader} {source : String}
    (h : r.Delivers source) :
    (parse filename (.ofReader r)).1 =
      parseTokens filename (tokensOf source) (endAt (endNumber source)) none := by
  obtain ⟨htokens, hends⟩ := Lexer.run_ofReader h
  unfold parse
  simp only [htokens, hends.token, hends.failure]

theorem parseText_eq (filename source : String) :
    parseText filename source =
      parseTokens filename (tokensOf source) (endAt (endNumber source)) none :=
  parse_ofReader filename (Source.Reader.delivers_ofBytes source)

/-- A source has the tree that its tokens have. -/
theorem parseText_eq_ok_iff {filename source : String} {f : File} :
    parseText filename source = .ok f ↔ file (tokensOf source) = .ok f := by
  rw [parseText_eq]
  unfold parseTokens
  cases file (tokensOf source) with
  | error m => exact iff_of_false nofun nofun
  | ok tree =>
    have hkind : (endAt (endNumber source)).kind ≠ .error := nofun
    dsimp only
    rw [if_neg hkind, Except.ok.injEq, Except.ok.injEq]

end EventMachine.Syntax
