import EventMachine.Proofs.Session.Line
import EventMachine.Proofs.Source.LogicalLine
import EventMachine.Source.File

/-!
# Scripts line by line

A script does what its lines do one after the other, up to the first one that ends the session or
fails (`runScript_runs_lines`). How a line is executed does not depend on white space around it, so
it does not matter how lines end.

1. The lines of the bytes of a text are those of the text (`forall₂_reads_lines`).
2. What comes before the line that stops a script is replied and displayed (`Replies`), and the
   line that stops it gives the outcome (`Runs`).
3. Lines that ask for nothing, or for what the machine is not asked, leave the session as it is.
-/

namespace EventMachine

universe u

open Source (bytesOf encode physicalLines)
open Text (isWhiteSpace trim trimChars)

/-! ## Lines of text -/

/-- A line without the newline, and then the carriage return, at its end. -/
def withoutEnd (line : List Char) : List Char :=
  match line.reverse with
  | '\n' :: '\r' :: body => body.reverse
  | '\n' :: body => body.reverse
  | '\r' :: body => body.reverse
  | _ => line

/-- The lines of a script. -/
def scriptLines (script : String) : List String :=
  (physicalLines script.toList).map fun line => String.ofList (withoutEnd line)

/-- The bytes are those of the line, perhaps with other white space around it. -/
def Reads (bytes : List UInt8) (line : String) : Prop :=
  ∃ text, Source.text bytes = .ok text ∧ trim text = trim line

section Lines

variable {cs : List Char} {bytes : List UInt8}

theorem exists_withoutEnd (line : List Char) :
    ∃ lineEnd, line = withoutEnd line ++ lineEnd ∧ ∀ c ∈ lineEnd, isWhiteSpace c = true := by
  unfold withoutEnd
  split
  · next body h =>
    exact ⟨['\r', '\n'], by simpa using congrArg List.reverse h, by simp [isWhiteSpace]⟩
  · next body _ h => exact ⟨['\n'], by simpa using congrArg List.reverse h, by simp [isWhiteSpace]⟩
  · next body h => exact ⟨['\r'], by simpa using congrArg List.reverse h, by simp [isWhiteSpace]⟩
  · exact ⟨[], (List.append_nil _).symm, by simp⟩

/-- An ASCII character at the end of the bytes of a text is at the end of the text. -/
theorem exists_of_bytesOf_eq_append {d : Char} (hd : d.toNat < 128)
    (h : bytesOf cs = bytes ++ [UInt8.ofNat d.toNat]) :
    ∃ cs', cs = cs' ++ [d] ∧ bytes = bytesOf cs' := by
  have hsingle (c : Char) : bytesOf [c] = String.utf8EncodeChar c := List.append_nil _
  obtain rfl | ⟨cs', c, rfl⟩ := List.eq_nil_or_concat cs
  · cases bytes <;> cases h
  obtain hempty | ⟨first, b, hlast⟩ := List.eq_nil_or_concat (String.utf8EncodeChar c)
  · cases Source.bytesOf_eq_nil ((hsingle c).trans hempty)
  rw [List.concat_eq_append] at hlast
  rw [List.concat_eq_append, Source.bytesOf_append, hsingle] at h
  have hb : b = UInt8.ofNat d.toNat := by
    rw [hlast, ← List.append_assoc] at h
    exact List.singleton_inj.1 (List.append_inj' h rfl).2
  obtain rfl : c = d := Source.eq_of_mem_utf8EncodeChar hd (by
    rw [hlast, hb]
    exact List.mem_append_right _ List.mem_cons_self)
  have hbyte : String.utf8EncodeChar c = [UInt8.ofNat c.toNat] := by
    unfold String.utf8EncodeChar
    rw [if_pos (by show c.val.toNat ≤ 127; exact Nat.le_of_lt_succ hd)]
    rfl
  rw [hbyte] at h
  exact ⟨cs', List.concat_eq_append, (List.append_inj' h rfl).1.symm⟩

theorem exists_chopLine_bytesOf (line : List Char) :
    ∃ body lineEnd, line = body ++ lineEnd ∧ (∀ c ∈ lineEnd, isWhiteSpace c = true) ∧
      Source.chopLine (bytesOf line) = bytesOf body := by
  unfold Source.chopLine
  split
  · next body h =>
    have hbytes : bytesOf line = body.reverse ++ [13] ++ [10] := by
      simpa using congrArg List.reverse h
    obtain ⟨cs', rfl, hcs'⟩ := exists_of_bytesOf_eq_append (d := '\n') (by decide) hbytes
    obtain ⟨cs'', rfl, hcs''⟩ := exists_of_bytesOf_eq_append (d := '\r') (by decide) hcs'.symm
    exact ⟨cs'', ['\r', '\n'], by simp, by simp [isWhiteSpace], hcs''⟩
  · next body _ h =>
    have hbytes : bytesOf line = body.reverse ++ [10] := by simpa using congrArg List.reverse h
    obtain ⟨cs', rfl, hcs'⟩ := exists_of_bytesOf_eq_append (d := '\n') (by decide) hbytes
    exact ⟨cs', ['\n'], rfl, by simp [isWhiteSpace], hcs'⟩
  · exact ⟨line, [], (List.append_nil line).symm, by simp, rfl⟩

theorem trimChars_withoutEnd (line : List Char) :
    trimChars (withoutEnd line) = trimChars line := by
  obtain ⟨lineEnd, hline, hspace⟩ := exists_withoutEnd line
  conv_rhs => rw [hline, Text.trimChars_append_of_space hspace]

theorem reads_of_trimChars_eq {body line : List Char} (h : trimChars body = trimChars line) :
    Reads (bytesOf body) (String.ofList (withoutEnd line)) := by
  refine ⟨String.ofList body, by rw [Source.text, Source.decode?_bytesOf], ?_⟩
  rw [trim, trim, String.toList_ofList, String.toList_ofList, trimChars_withoutEnd, h]

theorem reads_bytesOf (line : List Char) :
    Reads (bytesOf line) (String.ofList (withoutEnd line)) :=
  reads_of_trimChars_eq rfl

theorem reads_chopLine (line : List Char) :
    Reads (Source.chopLine (bytesOf line)) (String.ofList (withoutEnd line)) := by
  obtain ⟨body, lineEnd, hline, hspace, hchop⟩ := exists_chopLine_bytesOf line
  rw [hchop]
  exact reads_of_trimChars_eq (by rw [hline, Text.trimChars_append_of_space hspace])

theorem lines_of_some {line rest : List UInt8} (h : Source.cutLine? bytes = some (line, rest)) :
    Source.lines bytes = Source.chopLine line :: Source.lines rest := by
  rw [Source.lines]
  split
  · next heq =>
    rw [h] at heq
    cases heq
    rfl
  · next heq =>
    rw [h] at heq
    cases heq

theorem lines_of_none (h : Source.cutLine? bytes = none) :
    Source.lines bytes = if bytes.isEmpty then [] else [bytes] := by
  rw [Source.lines]
  split
  · next heq =>
    rw [h] at heq
    cases heq
  · rfl

theorem cutLine?_bytesOf_of_not_mem (h : '\n' ∉ cs) : Source.cutLine? (bytesOf cs) = none := by
  refine Source.cutLine?_eq_none fun hmem => ?_
  obtain ⟨c, hc, hmem⟩ := List.mem_flatMap.1 hmem
  exact h (Source.eq_newline_of_mem_utf8EncodeChar hmem ▸ hc)

theorem forall₂_reads_linesOf (cs : List Char) :
    List.Forall₂ Reads (Source.lines (bytesOf cs))
      ((physicalLines cs).map fun line => String.ofList (withoutEnd line)) := by
  induction hlength : cs.length using Nat.strongRecOn generalizing cs with
  | ind length ih =>
    by_cases hmem : '\n' ∈ cs
    · obtain ⟨us, vs, rfl, hus⟩ := List.eq_append_cons_of_mem hmem
      have hcut : Source.cutLine? (bytesOf (us ++ '\n' :: vs)) =
          some (bytesOf (us ++ ['\n']), bytesOf vs) := by
        rw [Source.bytesOf_append, Source.cutLine?_append_of_none (cutLine?_bytesOf_of_not_mem hus),
          Source.bytesOf_append]
        rfl
      have hphysical : physicalLines (us ++ '\n' :: vs) = (us ++ ['\n']) :: physicalLines vs := by
        rw [Source.physicalLines_append_of_not_mem hus]
        rfl
      rw [lines_of_some hcut, hphysical]
      exact .cons (reads_chopLine _) (ih vs.length (by simp [← hlength]; omega) vs rfl)
    · have hphysical : physicalLines cs = if cs = [] then [] else [cs] := by
        have h := Source.physicalLines_append_of_not_mem hmem []
        rwa [List.append_nil] at h
      rw [lines_of_none (cutLine?_bytesOf_of_not_mem hmem), hphysical]
      by_cases hnil : cs = []
      · rw [hnil]
        exact .nil
      · have hbytes : ¬ (bytesOf cs).isEmpty = true := fun h =>
          hnil (Source.bytesOf_eq_nil (List.isEmpty_iff.1 h))
        rw [if_neg hbytes, if_neg hnil]
        exact .cons (reads_bytesOf cs) .nil

theorem forall₂_reads_lines (script : String) :
    List.Forall₂ Reads (Source.lines (encode script)) (scriptLines script) := by
  rw [Source.encode_eq_bytesOf]
  exact forall₂_reads_linesOf _

end Lines

namespace Session

variable {σ : Type u} (m : Machine) (host : Host σ) (print : String → σ → σ)

/-- Each of the lines is replied a text, which is displayed. -/
inductive Replies : List String → Session σ → Session σ → Prop
  | nil (s : Session σ) : Replies [] s s
  | cons {line : String} {lines : List String} {shown : String} {s s' s'' : Session σ}
      (reply : s.execute m host line = (.ok (.text shown), s'))
      (rest : Replies lines (s'.display print shown) s'') : Replies (line :: lines) s s''

/-- What a script comes to, whose first line has the given number. Nothing is done behind the line
that ends the session or fails. -/
inductive Runs (number : Nat) (lines : List String) (s : Session σ) :
    Except ScriptError Unit → Session σ → Prop
  | through {s' : Session σ} (replies : Replies m host print lines s s') :
      Runs number lines s (.ok ()) s'
  | quits {before after : List String} {line : String} {mid s' : Session σ}
      (split : lines = before ++ line :: after) (replies : Replies m host print before s mid)
      (quit : mid.execute m host line = (.ok .quit, s')) : Runs number lines s (.ok ()) s'
  | fails {before after : List String} {line : String} {mid s' : Session σ} {e : LineError}
      (split : lines = before ++ line :: after) (replies : Replies m host print before s mid)
      (failure : mid.execute m host line = (.error e, s')) :
      Runs number lines s (.error (.line (number + before.length) e)) s'

/-- The line asks for nothing, or for what is known without the machine's doing anything. -/
def IsIdle (line : String) : Prop :=
  trim line = "" ∨ (trim line).toList.head? = some '#' ∨
    firstWord line ∈ ["help", "state", "quit", "exit"]

section Running

variable {m host print} {number : Nat} {line : String} {lines : List String} {s s' mid : Session σ}
  {r : Except ScriptError Unit} {shown : String}

theorem display_empty (s : Session σ) : s.display print "" = s := if_pos rfl

theorem Runs.cons (reply : s.execute m host line = (.ok (.text shown), mid))
    (h : Runs m host print (number + 1) lines (mid.display print shown) r s') :
    Runs m host print number (line :: lines) s r s' := by
  cases h with
  | through replies => exact .through (.cons reply replies)
  | quits split replies quit =>
    exact .quits (congrArg (line :: ·) split) (.cons reply replies) quit
  | @fails before _ _ _ _ e split replies failure =>
    have hnumber : number + 1 + before.length = number + (before.length + 1) := by omega
    rw [hnumber]
    exact .fails (congrArg (line :: ·) split) (.cons reply replies) failure

theorem execute_eq_perform {request : Request} (h : Request.ofLine line = .ok request)
    (s : Session σ) : s.execute m host line = s.perform m host request := by
  rw [execute, h]

theorem execute_eq_error {e : LineError} (h : Request.ofLine line = .error e) (s : Session σ) :
    s.execute m host line = (.error e, s) := by
  rw [execute, h]

theorem execute_of_payload_error {event payload : String} {e : LineError}
    (hline : Request.ofLine line = .ok (.emit event payload))
    (hpayload : Payload.ofText s.identity payload = .error e) :
    s.execute m host line = (.error e, s) := by
  rw [execute_eq_perform hline]
  simp only [perform, emit, hpayload]

/-- What is executed is the line without the white space around it. -/
theorem execute_congr {text : String} (h : trim text = trim line) (s : Session σ) :
    s.execute m host text = s.execute m host line := by
  rw [execute, execute, Request.ofLine, Request.ofLine, h]

theorem runLines_of_error {bytes : List UInt8} {e : LineError} (h : Reads bytes line)
    (failure : s.execute m host line = (.error e, s')) (number : Nat) (rest : List (List UInt8)) :
    s.runLines m host print number (bytes :: rest) = (.error (.line number e), s') := by
  obtain ⟨text, htext, htrim⟩ := h
  simp only [runLines, htext, execute_congr htrim, failure]

theorem runLines_of_quit {bytes : List UInt8} (h : Reads bytes line)
    (quit : s.execute m host line = (.ok .quit, s')) (number : Nat) (rest : List (List UInt8)) :
    s.runLines m host print number (bytes :: rest) = (.ok (), s') := by
  obtain ⟨text, htext, htrim⟩ := h
  simp only [runLines, htext, execute_congr htrim, quit]

theorem runLines_of_text {bytes : List UInt8} (h : Reads bytes line)
    (reply : s.execute m host line = (.ok (.text shown), s')) (number : Nat)
    (rest : List (List UInt8)) :
    s.runLines m host print number (bytes :: rest) =
      (s'.display print shown).runLines m host print (number + 1) rest := by
  obtain ⟨text, htext, htrim⟩ := h
  simp only [runLines, htext, execute_congr htrim, reply]

theorem runs_runLines {bytes : List (List UInt8)} (h : List.Forall₂ Reads bytes lines)
    (number : Nat) (s : Session σ) :
    Runs m host print number lines s (s.runLines m host print number bytes).1
      (s.runLines m host print number bytes).2 := by
  induction h generalizing number s with
  | nil => exact .through (.nil s)
  | @cons _ line _ lines hline _ ih =>
    have hfirst : line :: lines = [] ++ line :: lines := rfl
    rcases hexecute : s.execute m host line with ⟨e | shown | _, s'⟩
    · rw [runLines_of_error hline hexecute]
      exact .fails hfirst (.nil s) hexecute
    · rw [runLines_of_text hline hexecute]
      exact .cons hexecute (ih (number + 1) _)
    · rw [runLines_of_quit hline hexecute]
      exact .quits hfirst (.nil s) hexecute

/-- The lines that are replied are behind the script. -/
theorem Replies.runLines {bytes : List (List UInt8)} {after : List String}
    (h : Replies m host print lines s mid) (number : Nat)
    (hbytes : List.Forall₂ Reads bytes (lines ++ after)) :
    ∃ rest, List.Forall₂ Reads rest after ∧
      s.runLines m host print number bytes =
        mid.runLines m host print (number + lines.length) rest := by
  induction h generalizing number bytes with
  | nil => exact ⟨bytes, hbytes, rfl⟩
  | @cons line lines shown s s' s'' reply _ ih =>
    obtain ⟨first, bytes, hline, hrest, rfl⟩ := List.forall₂_cons_right_iff.1 hbytes
    obtain ⟨rest, hafter, hruns⟩ := ih (number + 1) hrest
    refine ⟨rest, hafter, ?_⟩
    rw [runLines_of_text hline reply, hruns, List.length_cons, Nat.add_right_comm, Nat.add_assoc]

theorem Runs.runLines_eq {bytes : List (List UInt8)} (h : Runs m host print number lines s r s')
    (hbytes : List.Forall₂ Reads bytes lines) :
    s.runLines m host print number bytes = (r, s') := by
  cases h with
  | through replies =>
    rw [← List.append_nil lines] at hbytes
    obtain ⟨_, hafter, hruns⟩ := replies.runLines number hbytes
    cases hafter
    exact hruns
  | quits split replies quit =>
    obtain ⟨_, hafter, hruns⟩ := replies.runLines number (split ▸ hbytes)
    obtain ⟨first, rest, hline, -, rfl⟩ := List.forall₂_cons_right_iff.1 hafter
    rw [hruns, runLines_of_quit hline quit]
  | fails split replies failure =>
    obtain ⟨_, hafter, hruns⟩ := replies.runLines number (split ▸ hbytes)
    obtain ⟨first, rest, hline, -, rfl⟩ := List.forall₂_cons_right_iff.1 hafter
    rw [hruns, runLines_of_error hline failure]

/-! ## Lines without effect -/

theorem ofLine_of_comment (h : (trim line).toList.head? = some '#') :
    Request.ofLine line = .ok .nothing := by
  unfold Request.ofLine
  simp only
  split
  · rfl
  · rfl
  · next hnil hhash =>
    cases hline : (trim line).toList with
    | nil => exact absurd hline hnil
    | cons c cs =>
      rw [hline] at h
      cases h
      exact absurd hline (hhash cs)

theorem ofLine_of_isIdle (h : IsIdle line) :
    ∃ request ∈ [Request.nothing, .help, .state, .quit], Request.ofLine line = .ok request := by
  by_cases hblank : trim line = ""
  · refine ⟨.nothing, by decide, ?_⟩
    rw [Request.ofLine, hblank]
    rfl
  by_cases hcomment : (trim line).toList.head? = some '#'
  · exact ⟨.nothing, by decide, ofLine_of_comment hcomment⟩
  have hword := (h.resolve_left hblank).resolve_left hcomment
  rw [ofLine_eq_ofWords hblank hcomment, cutWord_trim_fst]
  simp only [List.mem_cons, List.not_mem_nil, or_false] at hword
  rcases hword with hword | hword | hword | hword <;> rw [hword]
  · exact ⟨.help, by decide, rfl⟩
  · exact ⟨.state, by decide, rfl⟩
  · exact ⟨.quit, by decide, rfl⟩
  · exact ⟨.quit, by decide, rfl⟩

theorem execute_of_isIdle (h : IsIdle line) (s : Session σ) :
    ∃ reply, s.execute m host line = (.ok reply, s) := by
  obtain ⟨request, hrequest, hline⟩ := ofLine_of_isIdle h
  rw [execute_eq_perform hline]
  simp only [List.mem_cons, List.not_mem_nil, or_false] at hrequest
  rcases hrequest with rfl | rfl | rfl | rfl <;> exact ⟨_, rfl⟩

/-- A line that fails before the machine does anything leaves the session as it is. -/
theorem eq_of_execute_eq_error {e : LineError} (h : s.execute m host line = (.error e, s'))
    (he : ∀ cause, e ≠ .runtime cause) : s' = s := by
  rw [execute] at h
  split at h
  · cases h
    rfl
  · next request _ =>
    cases request with
    | nothing | help | quit | state => cases h
    | move destination =>
      simp only [perform, move] at h
      split at h
      · cases h
        exact absurd rfl (he _)
      · cases h
    | emit event payload =>
      simp only [perform, emit] at h
      split at h
      · cases h
        rfl
      · split at h
        · cases h
          exact absurd rfl (he _)
        · cases h

end Running

/-- A script does what its lines do in order, up to the first one that ends the session or fails;
lines are numbered from one, those that ask for nothing included. Such lines, commands that only
tell something, and lines that cannot be understood leave the machine alone. -/
theorem runScript_runs_lines (m : Machine) (host : Host σ) (print : String → σ → σ)
    (s : Session σ) :
    (∀ script r s', s.runScript m host print (encode script) = (r, s') ↔
      Runs m host print 1 (scriptLines script) s r s') ∧
    (∀ number cause, (ScriptError.line number cause).message =
      "line " ++ toString number ++ ": " ++ cause.message) ∧
    (∀ line, IsIdle line → ∃ reply, s.execute m host line = (.ok reply, s)) ∧
    ∀ line e s', s.execute m host line = (.error e, s') → (∀ cause, e ≠ .runtime cause) →
      s' = s := by
  refine ⟨fun script r s' => ⟨fun h => ?_, fun h => ?_⟩, fun _ _ => rfl,
    fun line hline => execute_of_isIdle hline s, fun line e s' => eq_of_execute_eq_error⟩
  · have hruns : Runs m host print 1 (scriptLines script) s _ _ :=
      runs_runLines (forall₂_reads_lines script) 1 s
    rw [runScript] at h
    rwa [h] at hruns
  · exact h.runLines_eq (forall₂_reads_lines script)

end Session

namespace Doorbell

/-- Printed texts are kept among the calls. -/
def printed (text : String) (h : Nat × List (String × Arguments)) :
    Nat × List (String × Arguments) :=
  (h.1, h.2 ++ [("print", [("text", .str text)])])

def script : String :=
  "# once\r\n\r\nRing \x7b\"volume\": 7\x7d\nmove\r\nRing \x7b\"volume\": 7\x7d\n"

/-- The bell after it has been rung and this is printed. -/
def rung : Session (Nat × List (String × Arguments)) :=
  ⟨⟨⟨"Idle", 0⟩, 4, [("chime", [("volume", .int 0), ("times", .int 2)]),
    ("chime", [("volume", .int 7), ("times", .int 0)]),
    ("print", [("text", .str "Ring fired Idle#0, still in Idle")])]⟩, 1⟩

/-- The bell rings once and not behind the line that fails, which is the fourth one. -/
theorem stops_at_fourth_line :
    session.runScript machine host.recorded printed (encode script) =
        (.error (.line 4 .moveUsage), rung) ∧
      Session.IsIdle "# once\r" ∧
      (∃ reply, session.execute machine host.recorded "# once\r" = (.ok reply, session)) ∧
      ∃ s', session.execute machine host.recorded "Ring [7]" = (.error .payloadNotObject, s') ∧
        s' = session := by
  have hnothing {line : String} (h : Session.Request.ofLine line = .ok .nothing) :
      session.execute machine host.recorded line = (.ok (.text ""), session) := by
    rw [Session.execute_eq_perform h, Session.perform]
  have hring : Session.Request.ofLine "Ring \x7b\"volume\": 7\x7d" =
      .ok (.emit "Ring" "\x7b\"volume\": 7\x7d") := by decide +kernel
  have hpayload : Payload.ofText session.identity "\x7b\"volume\": 7\x7d" =
      .ok (.ofList [("volume", .int 7)]) := by decide +kernel
  have hmove : rung.execute machine host.recorded "move" = (.error .moveUsage, rung) :=
    Session.execute_eq_error (by decide +kernel) rung
  have hlist : session.execute machine host.recorded "Ring [7]" =
      (.error .payloadNotObject, session) := by
    have hline : Session.Request.ofLine "Ring [7]" = .ok (.emit "Ring" "[7]") := by decide +kernel
    exact Session.execute_of_payload_error hline (by decide +kernel)
  have hlines : scriptLines script = ["# once", "", "Ring \x7b\"volume\": 7\x7d"] ++
      "move" :: ["Ring \x7b\"volume\": 7\x7d"] := by decide +kernel
  have hreplies : Session.Replies machine host.recorded printed
      ["# once", "", "Ring \x7b\"volume\": 7\x7d"] session rung := by
    refine .cons (hnothing (by decide +kernel)) ?_
    rw [Session.display_empty]
    refine .cons (hnothing (by decide +kernel)) ?_
    rw [Session.display_empty]
    exact .cons ((Session.execute_eq_deliver hring hpayload).trans rfl) (.nil rung)
  obtain ⟨hruns, -, hidle, herror⟩ :=
    Session.runScript_runs_lines machine host.recorded printed session
  have hidleLine : Session.IsIdle "# once\r" := .inr (.inl rfl)
  exact ⟨(hruns script _ _).2 (.fails hlines hreplies hmove), hidleLine, hidle _ hidleLine, _,
    hlist, herror _ _ _ hlist (by simp)⟩

end Doorbell

end EventMachine
