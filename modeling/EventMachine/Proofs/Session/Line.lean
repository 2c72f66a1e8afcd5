import EventMachine.Proofs.Json.Reading
import EventMachine.Proofs.Machine.Expansion
import EventMachine.Session.Basic

/-!
# Where a line of a session is cut

A line that names an event asks for the same with the command `emit` in front, and with the command
an event may have the name of a command (`emit_forms_agree`).

1. A line is cut behind its first word and behind the white space there (`cutWord_word`).
2. With `emit` in front it is cut at the same two places (`ofLine_emit`).
3. White space around the payload does not matter, as an object is read from its braces
   (`Payload.ofText_trim`).
-/

namespace EventMachine

universe u

open Text (isWhiteSpace IsTrimmed trim trimChars)

namespace Session

variable {cs : List Char} {line name text : String}

/-- The first words that are not the name of an event. -/
def commands : List String := ["help", "state", "move", "emit", "quit", "exit"]

/-- What stands before the first white space of a line, white space at its start aside. -/
def firstWord (line : String) : String :=
  String.ofList ((trim line).toList.takeWhile (!isWhiteSpace ·))

/-- A line that names an event without a command in front. -/
structure IsShort (line : String) : Prop where
  ne_empty : trim line ≠ ""
  not_comment : (trim line).toList.head? ≠ some '#'
  not_command : firstWord line ∉ commands

/-- The name of an event that a line can hold, maybe that of a command. -/
structure IsName (name : String) : Prop where
  ne_empty : name ≠ ""
  not_space : ∀ c ∈ name.toList, isWhiteSpace c = false

/-! ## Words -/

theorem cutWord_word {word : List Char} (hword : ∀ c ∈ word, isWhiteSpace c = false) :
    Request.cutWord (String.ofList word) = (String.ofList word, "") := by
  have hdrop : word.dropWhile (!isWhiteSpace ·) = [] :=
    List.dropWhile_eq_nil_iff.2 fun c hc => by rw [hword c hc]; rfl
  rw [Request.cutWord, Text.splitWord, String.toList_ofList, hdrop]

theorem cutWord_append {word rest : List Char} {c : Char}
    (hword : ∀ c ∈ word, isWhiteSpace c = false) (hc : isWhiteSpace c = true) :
    Request.cutWord (String.ofList (word ++ c :: rest)) =
      (String.ofList word, String.ofList (trimChars rest)) := by
  have hpos : ∀ c ∈ word, (!isWhiteSpace c) = true := fun c hc => by rw [hword c hc]; rfl
  have hneg : ¬ (!isWhiteSpace c) = true := by simp [hc]
  rw [Request.cutWord, Text.splitWord, String.toList_ofList, List.takeWhile_append_of_pos hpos,
    List.dropWhile_append_of_pos hpos, List.takeWhile_cons_of_neg (p := (!isWhiteSpace ·)) hneg,
    List.dropWhile_cons_of_neg (p := (!isWhiteSpace ·)) hneg, List.append_nil]
  simp only [trim, String.toList_ofList]

/-- A text is a word, or has white space behind its first word. -/
theorem word_or_append (cs : List Char) :
    ∃ word, (∀ c ∈ word, isWhiteSpace c = false) ∧ cs.takeWhile (!isWhiteSpace ·) = word ∧
      (cs = word ∨ ∃ c rest, isWhiteSpace c = true ∧ cs = word ++ c :: rest) := by
  have hword : ∀ c ∈ cs.takeWhile (!isWhiteSpace ·), isWhiteSpace c = false := fun c hc => by
    simpa using List.all_eq_true.1 List.all_takeWhile c hc
  refine ⟨_, hword, rfl, ?_⟩
  have hsplit := List.takeWhile_append_dropWhile (p := (!isWhiteSpace ·)) (l := cs)
  have hhead := List.head?_dropWhile_not (!isWhiteSpace ·) cs
  cases hrest : cs.dropWhile (!isWhiteSpace ·) with
  | nil =>
    rw [hrest, List.append_nil] at hsplit
    exact .inl hsplit.symm
  | cons c rest =>
    rw [hrest] at hsplit hhead
    exact .inr ⟨c, rest, by simpa using hhead, hsplit.symm⟩

theorem cutWord_fst (text : String) :
    (Request.cutWord text).1 = String.ofList (text.toList.takeWhile (!isWhiteSpace ·)) := by
  obtain ⟨word, hword, htake, hcs⟩ := word_or_append text.toList
  rw [htake, ← String.ofList_toList (s := text)]
  obtain hcs | ⟨c, rest, hc, hcs⟩ := hcs
  · rw [hcs, cutWord_word hword]
  · rw [hcs, cutWord_append hword hc]

/-! ## Lines -/

theorem trimChars_ne_nil (h : trim line ≠ "") : trimChars line.toList ≠ [] :=
  fun hnil => h (congrArg String.ofList hnil)

/-- A text that does not begin with white space is trimmed at the end of what follows it. -/
theorem trimChars_append_line (front : List Char) (hfront : front ≠ [])
    (hhead : ∀ c ∈ front.head?, isWhiteSpace c = false) (h : trim line ≠ "") :
    ∃ before, (∀ c ∈ before, isWhiteSpace c = true) ∧
      trimChars (front ++ line.toList) = front ++ (before ++ trimChars line.toList) := by
  obtain ⟨before, after, hline, hbefore, hafter⟩ := Text.exists_trimChars line.toList
  refine ⟨before, hbefore, ?_⟩
  have htrimmed : IsTrimmed (front ++ (before ++ trimChars line.toList)) := by
    constructor
    · obtain ⟨c, front, rfl⟩ := List.exists_cons_of_ne_nil hfront
      exact hhead
    · rw [← List.append_assoc, List.getLast?_append_of_ne_nil _ (trimChars_ne_nil h)]
      exact (Text.isTrimmed_trimChars _).last
  have hcut : front ++ line.toList =
      [] ++ (front ++ (before ++ trimChars line.toList)) ++ after := by
    conv_lhs => rw [hline]
    simp only [List.nil_append, List.append_assoc]
  rw [hcut]
  exact Text.trimChars_append nofun htrimmed hafter

/-- A line that asks for something is cut into words. -/
theorem ofLine_eq_ofWords (h : trim line ≠ "") (hcomment : (trim line).toList.head? ≠ some '#') :
    Request.ofLine line =
      Request.ofWords (Request.cutWord (trim line)).1 (Request.cutWord (trim line)).2 := by
  unfold Request.ofLine
  simp only
  split
  · next hnil => exact absurd (String.toList_eq_nil_iff.1 hnil) h
  · next hhash => exact absurd (by rw [hhash]; rfl) hcomment
  · rfl

theorem cutWord_trim_fst (line : String) : (Request.cutWord (trim line)).1 = firstWord line :=
  cutWord_fst _

theorem firstWord_ne_empty (h : trim line ≠ "") : firstWord line ≠ "" := by
  intro hempty
  have hnil := congrArg String.toList hempty
  rw [firstWord, String.toList_ofList, trim, String.toList_ofList] at hnil
  obtain ⟨c, core, hcore⟩ := List.exists_cons_of_ne_nil (trimChars_ne_nil h)
  have hc := (Text.isTrimmed_trimChars line.toList).head c (by rw [hcore]; rfl)
  rw [hcore, List.takeWhile_cons_of_pos (p := (!isWhiteSpace ·)) (by simp [hc])] at hnil
  cases hnil

/-- With the command in front, the rest of a line is cut like a line. -/
theorem ofLine_emit (h : trim line ≠ "") :
    Request.ofLine ("emit " ++ line) =
      .ok (.emit (Request.cutWord (trim line)).1 (Request.cutWord (trim line)).2) := by
  obtain ⟨before, hbefore, htrim⟩ := trimChars_append_line "emit ".toList (by decide)
    (by rintro _ ⟨⟩; rfl) h
  have hline : trim ("emit " ++ line) =
      String.ofList ("emit".toList ++ ' ' :: (before ++ trimChars line.toList)) := by
    rw [trim, String.toList_append, htrim]
    rfl
  have hcut : Request.cutWord (trim ("emit " ++ line)) = ("emit", trim line) := by
    rw [hline, cutWord_append (by simp [isWhiteSpace]) rfl, Text.trimChars_append_trimChars hbefore]
    rfl
  have hevent : (Request.cutWord (trim line)).1 ≠ "" := by
    rw [cutWord_trim_fst]
    exact firstWord_ne_empty h
  rw [ofLine_eq_ofWords, hcut]
  · simp [Request.ofWords, hevent]
  · rw [hline]
    simp
  · rw [hline]
    simp

theorem ofLine_short (h : IsShort line) :
    Request.ofLine line =
      .ok (.emit (Request.cutWord (trim line)).1 (Request.cutWord (trim line)).2) := by
  have hword := h.not_command
  simp only [commands, List.mem_cons, List.not_mem_nil, or_false, not_or] at hword
  obtain ⟨hhelp, hstate, hmove, hemit, hquit, hexit⟩ := hword
  rw [ofLine_eq_ofWords h.ne_empty h.not_comment, cutWord_trim_fst]
  simp [Request.ofWords, hhelp, hstate, hmove, hemit, hquit, hexit]

/-! ## Events -/

theorem IsName.trim_eq (hname : IsName name) : trim name = name := by
  have hchars : IsTrimmed name.toList :=
    ⟨fun c hc => hname.not_space c (List.mem_of_mem_head? hc),
      fun c hc => hname.not_space c (List.mem_of_mem_getLast? hc)⟩
  rw [trim, hchars.trimChars_eq, String.ofList_toList]

theorem IsName.cutWord_eq (hname : IsName name) : Request.cutWord name = (name, "") := by
  have h := cutWord_word hname.not_space
  rwa [String.ofList_toList] at h

theorem IsName.cutWord_append_eq (hname : IsName name) (h : trim text ≠ "") :
    Request.cutWord (trim (name ++ " " ++ text)) = (name, trim text) := by
  obtain ⟨c, cs, hcs⟩ := List.exists_cons_of_ne_nil fun hnil : name.toList = [] =>
    hname.ne_empty (String.toList_eq_nil_iff.1 hnil)
  obtain ⟨before, hbefore, htrim⟩ := trimChars_append_line (name.toList ++ [' '])
    (by simp) (fun d hd => hname.not_space d (by rw [hcs] at hd ⊢; simp_all)) h
  have hline : trim (name ++ " " ++ text) =
      String.ofList (name.toList ++ ' ' :: (before ++ trimChars text.toList)) := by
    rw [trim, String.toList_append, String.toList_append]
    refine congrArg String.ofList (htrim.trans ?_)
    rw [List.append_assoc, List.singleton_append]
  rw [hline, cutWord_append hname.not_space rfl, Text.trimChars_append_trimChars hbefore,
    String.ofList_toList]
  rfl

variable {σ : Type u} {m : Machine} {host : Host σ} {s : Session σ}

/-- Lets an event with a payload happen, and tells what became of it. -/
def deliver (m : Machine) (host : Host σ) (event : String) (payload : Payload) (s : Session σ) :
    Except LineError Reply × Session σ :=
  let (result, world) := m.emit host event payload s.world
  (match result with
    | .error e => .error (.runtime e)
    | .ok outcome => .ok (.text (outcome.text event world.inst.current)),
    ⟨world, s.identity + payload.size⟩)

theorem emit_eq_deliver {payload : Payload} (h : Payload.ofText s.identity text = .ok payload)
    (event : String) : s.emit m host event text = s.deliver m host event payload := by
  simp only [emit, h, deliver]
  obtain ⟨result, world⟩ := m.emit host event payload s.world
  cases result <;> rfl

theorem execute_eq_deliver {event : String} {payload : Payload}
    (hline : Request.ofLine line = .ok (.emit event text))
    (hpayload : Payload.ofText s.identity text = .ok payload) :
    s.execute m host line = s.deliver m host event payload := by
  rw [execute, hline]
  exact emit_eq_deliver hpayload event

/-- The payload that the text of an object describes. -/
theorem ofText_trim (identity : Nat) {members : List (String × Json)}
    (h : Json.parse? text = some (.object members)) :
    trim text ≠ "" ∧ Payload.ofText identity (trim text) =
      .ok (NameMap.ofList (Value.ofMembers identity members)) := by
  have hparse := Json.parse?_trim h
  have hne : trim text ≠ "" := by
    intro hempty
    rw [hempty] at hparse
    cases hparse
  refine ⟨hne, ?_⟩
  rw [Payload.ofText, if_neg hne, hparse]
  rfl

/-- A line that names an event asks for the same with the command `emit` in front. The command
delivers the event of any name, those of commands included, with the data of the object behind it,
or with none. -/
theorem emit_forms_agree (m : Machine) (host : Host σ) (s : Session σ) :
    (∀ line, IsShort line → s.execute m host ("emit " ++ line) = s.execute m host line) ∧
      ∀ name, IsName name →
        s.execute m host ("emit " ++ name) = s.deliver m host name .empty ∧
        ∀ text members, Json.parse? text = some (.object members) →
          s.execute m host ("emit " ++ name ++ " " ++ text) =
            s.deliver m host name (NameMap.ofList (Value.ofMembers s.identity members)) := by
  refine ⟨fun line hline => ?_, fun name hname => ⟨?_, fun text members htext => ?_⟩⟩
  · rw [execute, execute, ofLine_emit hline.ne_empty, ofLine_short hline]
  · have hline := ofLine_emit (by rw [hname.trim_eq]; exact hname.ne_empty)
    rw [hname.trim_eq, hname.cutWord_eq] at hline
    exact execute_eq_deliver hline rfl
  · obtain ⟨hne, hpayload⟩ := ofText_trim s.identity htext
    have hcut := hname.cutWord_append_eq hne
    have hrest : trim (name ++ " " ++ text) ≠ "" := by
      intro hempty
      rw [hempty] at hcut
      exact hname.ne_empty (congrArg Prod.fst hcut).symm
    have hline := ofLine_emit hrest
    rw [hcut] at hline
    have hassoc : "emit " ++ name ++ " " ++ text = "emit " ++ (name ++ " " ++ text) := by
      simp only [String.append_assoc]
    rw [hassoc]
    exact execute_eq_deliver hline hpayload

end Session

namespace Doorbell

/-- The idle bell, which has been rung twice. -/
def session : Session (Nat × List (String × Arguments)) := ⟨⟨⟨"Idle", 0⟩, 2, []⟩, 0⟩

/-- The bell rings at the long line as at the short one, and has no event that is named like a
command. -/
theorem rings_either_way :
    Session.IsShort "\tRing  \x7b\"volume\": 7\x7d " ∧
      session.execute machine host.recorded "emit \tRing  \x7b\"volume\": 7\x7d " =
        (.ok (.text "Ring fired Idle#0, still in Idle"),
          ⟨⟨⟨"Idle", 0⟩, 4, [("chime", [("volume", .int 0), ("times", .int 2)]),
            ("chime", [("volume", .int 7), ("times", .int 0)])]⟩, 1⟩) ∧
      Session.IsName "help" ∧
      Json.parse? "\n\x7b\"volume\": 7\x7d" = some (.object [("volume", .int 7)]) ∧
      session.execute machine host.recorded "emit help \n\x7b\"volume\": 7\x7d" =
        (.ok (.text "help matched no trigger in Idle"), ⟨⟨⟨"Idle", 0⟩, 2, []⟩, 1⟩) := by
  have hshort : Session.IsShort "\tRing  \x7b\"volume\": 7\x7d " :=
    ⟨by decide, by decide, by decide⟩
  have hname : Session.IsName "help" := ⟨by decide, by simp [Text.isWhiteSpace]⟩
  have hobject : Json.parse? "\n\x7b\"volume\": 7\x7d" = some (.object [("volume", .int 7)]) := by
    decide +kernel
  have hring : Session.Request.ofLine "\tRing  \x7b\"volume\": 7\x7d " =
      .ok (.emit "Ring" "\x7b\"volume\": 7\x7d") := by decide +kernel
  have hpayload : Payload.ofText session.identity "\x7b\"volume\": 7\x7d" =
      .ok (.ofList [("volume", .int 7)]) := by decide +kernel
  obtain ⟨hforms, hnames⟩ := Session.emit_forms_agree machine host.recorded session
  refine ⟨hshort, (hforms _ hshort).trans ?_, hname, hobject, ?_⟩
  · exact (Session.execute_eq_deliver hring hpayload).trans rfl
  · exact ((hnames "help" hname).2 _ _ hobject).trans rfl

end Doorbell

end EventMachine
