import EventMachine.Compile.Basic
import EventMachine.Proofs.Checksum
import EventMachine.Proofs.Syntax.Derivation

/-!
# Machines of one source, delivered in any way

What is built from a source depends on its text alone. The tokens are those of the text
(`Lexer.run_ofReader`), so the tree or the error is (`Syntax.parse_ofReader`), and a source that
has a tree has been read to its end, so the checksum is that of all its bytes
(`Reader.Delivers.digest_eq`).
-/

namespace EventMachine

open Source

/-! ## Readers -/

/-- No part that is delivered is empty. -/
theorem Source.Reader.steady_ofChunks {chunks : List (List UInt8)} (h : [] ∉ chunks) :
    (Reader.ofChunks chunks).Steady := by
  intro before after hsplit
  have hmem : [] ∈ (Reader.ofChunks chunks).chunks := by
    rw [hsplit]
    exact List.mem_append_right _ List.mem_cons_self
  exact (h hmem).elim

/-- The lexer that has come to the end of a source has taken in the checksum of all of it. -/
theorem Source.Reader.Delivers.digest_eq {chunks : List (List UInt8)} {source : String}
    (h : (Reader.ofChunks chunks).Delivers source) :
    (Lexer.ofReader (.ofChunks chunks)).run.2.reader.reader.digest =
      Checksum.ofBytes (encode source) := by
  have htotal : (Reader.ofChunks chunks).total = Checksum.ofBytes (encode source) := by
    unfold Reader.total
    rw [h.pending]
    rfl
  rw [(Lexer.run_ofReader h).2.digest_eq, Lexer.run_total, ← htotal]
  exact Lexer.next_total _

/-- The lexer stands on the end of the source: every byte has been delivered and is in the
checksum. -/
structure Lexer.Finishes (lexer : Lexer) (source : String) : Prop where
  kind : lexer.token.kind = .eof
  pending : lexer.reader.pending = []
  digest : lexer.reader.reader.digest = Checksum.ofBytes (encode source)

/-- The lexer from which all tokens of the source have been taken, and no more. -/
theorem Source.Reader.Delivers.finishes {chunks : List (List UInt8)} {source : String}
    (h : (Reader.ofChunks chunks).Delivers source) :
    ((Lexer.ofReader (.ofChunks chunks)).taken (tokensOf source).length).Finishes source := by
  obtain ⟨htokens, hends⟩ := Lexer.run_ofReader h
  rw [← htokens, ← Lexer.run_eq_taken]
  exact ⟨congrArg Token.kind hends.token, hends.pending, h.digest_eq⟩

/-! ## Machines -/

/-- The machine without its checksum. -/
def Machine.unsealed (m : Machine) : Machine := { m with checksum := none }

namespace Compiler

variable (compiler : Compiler) (filename : String)

/-- The compiler with one more constant, or with another value for it. -/
def withConstant (constant : String × Value) : Compiler :=
  { compiler with constants := compiler.constants.insert constant.1 constant.2 }

/-- Parses a text, and compiles its tree. -/
def compileText (source : String) : Except CompileError Machine :=
  match Syntax.parseText filename source with
  | .error e => .error (.syntactic e)
  | .ok file => compiler.compile filename file

theorem foldl_withConstant (constants : List (String × Value)) :
    constants.foldl withConstant compiler =
      { compiler with constants := compiler.constants.insertAll constants } := by
  induction constants generalizing compiler with
  | nil => rfl
  | cons constant constants ih => exact ih (compiler.withConstant constant)

/-- A tree has no checksum. -/
theorem unsealed_of_compile {file : Syntax.File} {m : Machine}
    (h : compiler.compile filename file = .ok m) : m.unsealed = m := by
  unfold compile at h
  split at h
  · cases h
  · split at h
    · cases h
    · cases h
      rfl

theorem map_unsealed_buildText (source : String) :
    (compiler.buildText filename source).map Machine.unsealed =
      compiler.compileText filename source := by
  unfold buildText compileText
  cases Syntax.parseText filename source with
  | error e => rfl
  | ok file =>
    dsimp only
    cases hm : compiler.compile filename file with
    | error e => rfl
    | ok m => exact congrArg Except.ok (compiler.unsealed_of_compile filename hm)

theorem build_eq_buildText {chunks : List (List UInt8)} {source : String}
    (h : (Reader.ofChunks chunks).Delivers source) :
    compiler.build filename (.ofChunks chunks) = compiler.buildText filename source := by
  have hparse : (Syntax.parse filename (.ofReader (.ofChunks chunks))).1 =
      Syntax.parseText filename source := by
    rw [Syntax.parseText_eq, Syntax.parse_ofReader filename h]
  have hlast : (Syntax.parse filename (.ofReader (.ofChunks chunks))).2.reader.reader.digest =
      Checksum.ofBytes (encode source) := h.digest_eq
  unfold build buildText
  rw [← hparse]
  cases hp : Syntax.parse filename (.ofReader (.ofChunks chunks)) with
  | mk result last =>
    replace hlast : last.reader.reader.digest = Checksum.ofBytes (encode source) := by
      rwa [hp] at hlast
    cases result with
    | error e => rfl
    | ok file => simp only [hlast]

theorem exists_file_of_buildText {source : String} {m : Machine}
    (h : compiler.buildText filename source = .ok m) :
    ∃ file, Syntax.parseText filename source = .ok file := by
  unfold buildText at h
  split at h
  · cases h
  · next file hfile => exact ⟨file, hfile⟩

theorem checksum_of_buildText {source : String} {m : Machine}
    (h : compiler.buildText filename source = .ok m) :
    m.checksum = some (Checksum.ofBytes (encode source)) := by
  unfold buildText at h
  split at h
  · cases h
  · next file _ =>
    cases hm : compiler.compile filename file with
    | error e =>
      rw [hm] at h
      cases h
    | ok m' =>
      rw [hm] at h
      cases h
      rfl

end Compiler

/-- All ways to build a machine agree, whatever parts the source comes in: from a reader and from a
text the same error or the same machine comes out, and that is the machine of the syntax tree with
the checksum of the source, written in eight hexadecimal digits. A parser that takes the tokens of
the tree one after the other, and no more, comes to stand on the end of the source when the reader
has delivered every byte, so it may take the checksum then. -/
theorem builds_agree (compiler : Compiler) (filename : String) (registry : Registry)
    (constants : List (String × Value)) {source : String} {chunks : List (List UInt8)}
    (h : (Reader.ofChunks chunks).Delivers source) :
    compiler.build filename (.ofChunks chunks) = compiler.buildText filename source ∧
    (compiler.build filename (.ofChunks chunks)).map Machine.unsealed =
      compiler.compileText filename source ∧
    build filename (.ofChunks chunks) registry constants =
      (constants.foldl Compiler.withConstant (.ofRegistry registry)).build filename
        (.ofChunks chunks) ∧
    ∀ m, compiler.build filename (.ofChunks chunks) = .ok m →
      (∃ sum, m.checksum = some sum ∧ sum = Checksum.ofBytes (encode source) ∧
        Checksum.Writes sum.hex sum.value.toNat) ∧
      ∃ d : Syntax.Grammar.file.Tree,
        Syntax.parseText filename source = .ok (Syntax.Grammar.fileOf d) ∧
        ((Lexer.ofReader (.ofChunks chunks)).taken
          (Syntax.Grammar.file.tokens d).length).Finishes source := by
  rw [compiler.build_eq_buildText filename h]
  refine ⟨rfl, compiler.map_unsealed_buildText filename source, ?_, fun m hm => ⟨?_, ?_⟩⟩
  · rw [Compiler.foldl_withConstant]
    rfl
  · exact ⟨_, compiler.checksum_of_buildText filename hm, rfl, Checksum.hex_writes _⟩
  · obtain ⟨file, hfile⟩ := compiler.exists_file_of_buildText filename hm
    obtain ⟨d, htokens, rfl⟩ := Syntax.file_eq_ok_iff.1 (Syntax.parseText_eq_ok_iff.1 hfile)
    refine ⟨d, hfile, ?_⟩
    rw [htokens]
    exact h.finishes

namespace Turnstile

/-- A source with a comment. -/
def source : String := "state Locked \x7b\x7d; # é"

/-- The source cut within a word and within a character. -/
def parts : List (List UInt8) :=
  [[115, 116, 97],
    [116, 101, 32, 76, 111, 99, 107, 101, 100, 32, 123, 125, 59, 32, 35, 32, 195], [169]]

def file : Syntax.File := ⟨[.state ⟨"Locked", ⟨1, 6, 6⟩, [], []⟩]⟩

def machine : Machine := ⟨.empty, "Locked", [⟨"Locked", [], []⟩], [], some ⟨3690567587⟩⟩

theorem delivers_parts : (Reader.ofChunks parts).Delivers source :=
  ⟨Reader.steady_ofChunks (by decide), by decide +kernel⟩

theorem parseText_source : Syntax.parseText "turnstile" source = .ok file := by
  rw [Syntax.parseText_eq]
  decide +kernel

theorem buildText_source :
    (Compiler.ofRegistry .empty).buildText "turnstile" source = .ok machine := by
  unfold Compiler.buildText
  rw [parseText_source]
  decide +kernel

/-- The parts give the machine of the text, with its checksum. -/
theorem builds_from_parts :
    (Reader.ofChunks parts).Delivers source ∧
    (Compiler.ofRegistry .empty).build "turnstile" (.ofChunks parts) = .ok machine ∧
    build "turnstile" (.ofChunks parts) .empty [] = .ok machine ∧
    ∃ sum, machine.checksum = some sum ∧ sum = Checksum.ofBytes (encode source) := by
  obtain ⟨htext, -, hfree, hsum⟩ :=
    builds_agree (.ofRegistry .empty) "turnstile" .empty [] delivers_parts
  have hbuild := htext.trans buildText_source
  obtain ⟨⟨sum, hsome, hvalue, -⟩, -⟩ := hsum machine hbuild
  exact ⟨delivers_parts, hbuild, hfree.trans hbuild, sum, hsome, hvalue⟩

end Turnstile

end EventMachine
