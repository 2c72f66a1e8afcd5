import EventMachine.Proofs.Syntax.Derivation
import EventMachine.Proofs.Syntax.Following

/-!
# Where the parser stops

Each production of the parser follows its rule of the grammar, from `follows_value` to
`follows_entry`. So a file is read up to the first token that cannot come next, and up to the end of
its tokens only if they are viable (`file_error_cases`).
-/

namespace EventMachine.Syntax

open Production Pattern

/-! ## Values -/

theorem exists_value_of_mem_valueKinds {x : Expectation} (hx : x ∈ valueKinds) :
    ∃ t, x.Names t ∧ Grammar.value.Viable [t] := by
  have hleaf {s : Terminal} (hs : ∀ t, s.Matches t → x.Names t)
      (hd : ∀ t, s.Matches t → ∃ d, Grammar.value.tokens d = [t]) :
      ∃ t, x.Names t ∧ Grammar.value.Viable [t] := by
    obtain ⟨t, ht⟩ := exists_matches s
    obtain ⟨d, hd⟩ := hd t ht
    exact ⟨t, hs t ht, hd ▸ viable_tokens d⟩
  unfold valueKinds at hx
  simp only [List.mem_cons, List.not_mem_nil, or_false] at hx
  rcases hx with rfl | rfl | rfl | rfl | rfl
  · exact hleaf (s := .kind .string) (fun _ h => h) fun t h => ⟨.inl ⟨t, h⟩, rfl⟩
  · exact hleaf (s := .int) (fun _ h => h.1) fun t h => ⟨.inr (.inl ⟨t, h⟩), rfl⟩
  · exact hleaf (s := .float) (fun _ h => h.1) fun t h => ⟨.inr (.inr (.inl ⟨t, h⟩)), rfl⟩
  · exact hleaf (s := .kind .bool) (fun _ h => h) fun t h =>
      ⟨.inr (.inr (.inr (.inl ⟨t, h⟩))), rfl⟩
  · exact hleaf (s := .kind .identifier) (fun _ h => h) fun t h =>
      ⟨.inr (.inr (.inr (.inr ⟨t, h⟩))), rfl⟩

theorem mem_valueKinds_of_exprOfToken {t : Token} {expected : List Expectation}
    (h : exprOfToken t = .error expected) {x : Expectation} (hx : x ∈ expected) :
    x ∈ valueKinds := by
  unfold exprOfToken at h
  split at h
  · cases h
  · split at h
    · cases h
    · cases h
      rw [List.mem_singleton.1 hx]
      decide
  · split at h
    · cases h
    · cases h
      rw [List.mem_singleton.1 hx]
      decide
  · cases h
  · cases h
  · cases h
    exact hx

theorem follows_value : Follows value Grammar.value := by
  refine reads_value.follows_of_single rfl exists_tokens_value fun ts m h => ?_
  have hm : m.remaining = ts ∧ ∀ x ∈ m.expected, x ∈ valueKinds := by
    cases ts with
    | nil =>
      cases h
      exact ⟨rfl, fun _ hx => hx⟩
    | cons t ts =>
      simp only [value] at h
      split at h
      · cases h
      · next he =>
        cases h
        exact ⟨rfl, fun _ => mem_valueKinds_of_exprOfToken he⟩
  exact ⟨hm.1, fun x hx => exists_value_of_mem_valueKinds (hm.2 x hx)⟩

/-! ## Statements and conditions -/

theorem follows_assignedValue? : Follows assignedValue? Grammar.assigned := by
  have hvalue : Follows (ofText "=" >>= fun _ => value >>= fun e => pure (some e))
      (.both (Grammar.mark "=") Grammar.value) :=
    (follows_ofText "=").bind (reads_ofText "=") (unambiguous_terminal _)
      (fun _ => follows_value.map some) (by decide)
  exact hvalue.maybe (looks_isAt "=") rfl none

theorem follows_param : Follows param Grammar.param :=
  (follows_ofKind .identifier).bind (reads_ofKind .identifier) (unambiguous_terminal _)
    (fun name => follows_assignedValue?.map fun value => Param.mk name.text value name.location)
    (by decide)

theorem follows_arg : Follows arg Grammar.arg :=
  (follows_ofKind .identifier).bind (reads_ofKind .identifier) (unambiguous_terminal _)
    (fun name => follows_assignedValue?.map fun value =>
      Arg.mk name.text (value.getD (.ref name.text)) name.location)
    (by decide)

theorem follows_condition : Follows condition Grammar.condition :=
  (follows_ofKind .identifier).bind (reads_ofKind .identifier) (unambiguous_terminal _)
    (fun name => (follows_parenthesised follows_param reads_param Grammar.unambiguous_param rfl
      (by decide) (by decide)).map fun params => Condition.mk name.text params name.location)
    (by decide)

theorem follows_call : Follows call Grammar.call :=
  (follows_ofKind .identifier).bind (reads_ofKind .identifier) (unambiguous_terminal _)
    (fun name => (follows_parenthesised follows_arg reads_arg Grammar.unambiguous_param rfl
      (by decide) (by decide)).map fun args => Call.mk name.text args name.location)
    (by decide)

theorem follows_statement : Follows statement Grammar.action := by
  refine Follows.word (fun _ => (follows_ofKind .identifier).map fun destination =>
      Statement.move destination.text destination.location)
    (follows_call.map Statement.call) (looks_isAtKind .identifier) rfl (by decide) fun x hx => ?_
  simp only [List.mem_cons, List.not_mem_nil, or_false] at hx
  rcases hx with rfl | rfl
  · obtain ⟨t, ht⟩ := exists_matches (.word "move")
    exact ⟨t, matches_mark_of_matches_word ht,
      viable_either_iff.2 (.inl (viable_both_terminal_iff.2 ⟨ht, viable_nil _⟩))⟩
  · obtain ⟨t, ht⟩ := exists_matches (.kind .identifier)
    exact ⟨t, ht, viable_either_iff.2 (.inr (viable_both_terminal_iff.2 ⟨ht, viable_nil _⟩))⟩

theorem follows_statements : Follows statements Grammar.init :=
  (follows_commaSeparated follows_statement reads_statement Grammar.unambiguous_action
    (by decide)).bind (reads_commaSeparated reads_statement (by decide))
      (Grammar.unambiguous_action.separated rfl (by decide))
      (fun actions => (follows_ofText ";").map fun _ => actions) (by decide)

theorem follows_trigger : Follows trigger Grammar.trigger := by
  have hactions (location : Location) (conditions : List Condition) :
      Follows (ofText "->" >>= fun _ => statements >>= fun actions =>
        pure (Trigger.mk conditions actions location)) (.both (Grammar.mark "->") Grammar.init) :=
    (follows_ofText "->").bind (reads_ofText "->") (unambiguous_terminal _)
      (fun _ => follows_statements.map fun actions => Trigger.mk conditions actions location)
      (by decide)
  exact (follows_ofText "on").bind (reads_ofText "on") (unambiguous_terminal _)
    (fun location => (follows_commaSeparated follows_condition reads_condition
      Grammar.unambiguous_condition (by decide)).bind
        (reads_commaSeparated reads_condition (by decide))
        (Grammar.unambiguous_condition.separated rfl (by decide)) (hactions location) (by decide))
    (by decide)

/-! ## Entries -/

theorem follows_assignment : Follows assignment Grammar.assignment := by
  have hvalue (name : Token) : Follows (value >>= fun e => ofText ";" >>= fun _ =>
      pure (Assignment.mk name.text e name.location)) (.both Grammar.value (Grammar.mark ";")) :=
    follows_value.bind reads_value Grammar.unambiguous_value
      (fun e => (follows_ofText ";").map fun _ => Assignment.mk name.text e name.location)
      (by decide)
  exact (follows_ofKind .identifier).bind (reads_ofKind .identifier) (unambiguous_terminal _)
    (fun name => (follows_ofText "=").bind (reads_ofText "=") (unambiguous_terminal _)
      (fun _ => hvalue name) (by decide))
    (by decide)

theorem follows_definition :
    Follows (ofKind .identifier >>= fun name => ofText "\x7b" >>= fun _ => init >>= fun init =>
        braceItems trigger shrinks_trigger >>= fun triggers => ofText ";" >>= fun _ =>
          pure (Entry.state ⟨name.text, name.location, init, triggers⟩))
      Grammar.definition := by
  have hbraces : Follows (braceItems trigger shrinks_trigger)
      (.both (.many Grammar.trigger) (Grammar.mark "\x7d")) :=
    follows_braceItems follows_trigger reads_trigger Grammar.unambiguous_trigger rfl (by decide)
      (by decide) (by decide)
  have htriggers (name : Token) (init : List Statement) : Follows
      (braceItems trigger shrinks_trigger >>= fun triggers => ofText ";" >>= fun _ =>
        pure (Entry.state ⟨name.text, name.location, init, triggers⟩))
      (.both (.both (.many Grammar.trigger) (Grammar.mark "\x7d")) (Grammar.mark ";")) :=
    hbraces.bind (reads_braceItems reads_trigger rfl (by decide) (by decide) (by decide))
      ((Grammar.unambiguous_trigger.many rfl (by decide)).both (unambiguous_terminal _)
        (by decide))
      (fun triggers => (follows_ofText ";").map fun _ =>
        Entry.state ⟨name.text, name.location, init, triggers⟩) (by decide)
  have hbody (name : Token) : Follows
      (init >>= fun init => braceItems trigger shrinks_trigger >>= fun triggers =>
        ofText ";" >>= fun _ => pure (Entry.state ⟨name.text, name.location, init, triggers⟩))
      (.both (.maybe Grammar.init)
        (.both (.both (.many Grammar.trigger) (Grammar.mark "\x7d")) (Grammar.mark ";"))) :=
    follows_statements.leftOut reads_statements Grammar.unambiguous_init (looks_isAt "on")
      (looks_isAt "\x7d") (htriggers name) rfl rfl (by decide) (by decide) []
  exact (follows_ofKind .identifier).bind (reads_ofKind .identifier) (unambiguous_terminal _)
    (fun name => (follows_ofText "\x7b").bind (reads_ofText "\x7b") (unambiguous_terminal _)
      (fun _ => hbody name) (by decide))
    (by decide)

theorem follows_entry : Follows entry Grammar.entry := by
  have hentry : entry = isAtKeyword "state" >>= fun b => if b = true then
      ofText "state" >>= fun _ => ofKind .identifier >>= fun name => ofText "\x7b" >>= fun _ =>
        init >>= fun init => braceItems trigger shrinks_trigger >>= fun triggers =>
          ofText ";" >>= fun _ => pure (Entry.state ⟨name.text, name.location, init, triggers⟩)
      else isAtKind .identifier >>= fun b => if b = true then
        assignment >>= fun a => pure (Entry.assign a)
        else mismatch [.kind .identifier, .text "state"] := by
    unfold entry
    simp only [state, bind_assoc, pure_bind]
  rw [hentry]
  refine Follows.word (fun _ => follows_definition) (follows_assignment.map Entry.assign)
    (looks_isAtKind .identifier) rfl (by decide) fun x hx => ?_
  simp only [List.mem_cons, List.not_mem_nil, or_false] at hx
  rcases hx with rfl | rfl
  · obtain ⟨t, ht⟩ := exists_matches (.kind .identifier)
    exact ⟨t, ht, viable_either_iff.2 (.inr (viable_both_terminal_iff.2 ⟨ht, viable_nil _⟩))⟩
  · obtain ⟨t, ht⟩ := exists_matches (.word "state")
    exact ⟨t, matches_mark_of_matches_word ht,
      viable_either_iff.2 (.inl (viable_both_terminal_iff.2 ⟨ht, viable_nil _⟩))⟩

/-! ## Files -/

theorem halts_file (tokens : List Token) :
    Halts Grammar.file tokens ((file tokens).map fun f => (f, [])) := by
  have hentries : Halts Grammar.file tokens
      ((untilEnd entry shrinks_entry tokens).map fun es => (es, [])) :=
    halts_untilEnd follows_entry reads_entry Grammar.unambiguous_entry (by decide) tokens
  have hfile := halts_map File.mk hentries
  unfold file
  cases hr : untilEnd entry shrinks_entry tokens <;> rw [hr] at hfile <;> exact hfile

/-- A mismatch leaves the tokens from the first on that cannot come next. -/
theorem stops_of_file_eq_error {tokens : List Token} {m : Mismatch} (h : file tokens = .error m) :
    ∃ used, used ++ m.remaining = tokens ∧ Stops Grammar.file used m.remaining m.expected := by
  have hhalts := halts_file tokens
  rw [h] at hhalts
  exact hhalts

theorem viable_of_file_eq_ok {tokens : List Token} {f : File} (h : file tokens = .ok f) :
    Grammar.file.Viable tokens := by
  obtain ⟨d, rfl, -⟩ := file_eq_ok_iff.1 h
  exact viable_tokens d

/-- The token is the first of the tokens that cannot come next. -/
def Pattern.FirstOffending (g : Pattern) (ts : List Token) (t : Token) : Prop :=
  ∃ before after, ts = before ++ t :: after ∧ g.Viable before ∧ ¬ g.Viable (before ++ [t])

theorem Pattern.FirstOffending.not_viable {g : Pattern} {ts : List Token} {t : Token}
    (h : g.FirstOffending ts t) : ¬ g.Viable ts := by
  obtain ⟨before, after, rfl, -, hnot⟩ := h
  rintro ⟨d, hd⟩
  refine hnot ⟨d, List.IsPrefix.trans ⟨after, ?_⟩ hd⟩
  rw [List.append_assoc, List.singleton_append]

/-- A mismatch leaves no tokens where all are viable, and otherwise those from the first on that
cannot come next. -/
theorem file_error_cases {tokens : List Token} {m : Mismatch} (h : file tokens = .error m) :
    m.remaining = [] ∧ Grammar.file.Viable tokens ∨
      ∃ t rest, m.remaining = t :: rest ∧ Grammar.file.FirstOffending tokens t := by
  obtain ⟨used, rfl, hstops⟩ := stops_of_file_eq_error h
  cases hrest : m.remaining with
  | nil => exact .inl ⟨rfl, by rw [List.append_nil]; exact hstops.viable⟩
  | cons t rest =>
    refine .inr ⟨t, rest, rfl, used, rest, rfl, hstops.viable, hstops.first t ?_⟩
    rw [hrest]
    rfl

end EventMachine.Syntax
