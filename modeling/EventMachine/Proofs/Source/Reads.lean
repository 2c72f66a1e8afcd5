import EventMachine.Proofs.Checksum
import EventMachine.Proofs.Checksum.Remainder
import EventMachine.Source.Reader
import Mathlib.Data.List.Forall2

/-!
# Reads of any size

A reader is asked for bytes again and again, each time for some number of them, and it may deliver
fewer. What it has delivered by then is a beginning of the data, and its checksum is that of this
beginning (`checks_what_it_delivers`).

1. One read delivers a part of what is pending and takes it into the checksum (`StandsAfter.read`),
   and so do reads one after the other (`StandsAfter.after`). The checksum is resumed from a
   finished value, and still it is the remainder by which CRC32C is defined (`Checksum.isCrc_iff`).
2. No part is longer than was asked for. Apart from this the parts are of the source's choosing:
   however a beginning of the data is divided into parts that are short enough, some reader of the
   data delivers these parts (`exists_chunks_iff`).
-/

namespace EventMachine.Source.Reader

/-- The parts that reads of the given sizes deliver. -/
def parts (r : Reader) : List Nat → List (List UInt8)
  | [] => []
  | n :: sizes => (r.read n).1 :: (r.read n).2.parts sizes

/-- The reader after reads of the given sizes. -/
def after (r : Reader) : List Nat → Reader
  | [] => r
  | n :: sizes => (r.read n).2.after sizes

theorem parts_take (r : Reader) (sizes : List Nat) (k : Nat) :
    (r.parts sizes).take k = r.parts (sizes.take k) := by
  induction sizes generalizing r k with
  | nil => simp [parts]
  | cons n sizes ih =>
    cases k with
    | zero => rfl
    | succ k =>
      rw [parts, List.take_succ_cons, List.take_succ_cons, parts, ih]

/-! ## What has been delivered -/

/-- Of the data the bytes `p` have been delivered and are in the checksum; the others follow. -/
structure StandsAfter (r : Reader) (data p : List UInt8) : Prop where
  split : p ++ r.pending = data
  digest : r.digest = Checksum.ofBytes p

theorem read_length_le (r : Reader) (n : Nat) : (r.read n).1.length ≤ n := by
  unfold read
  split
  · exact Nat.zero_le n
  · exact List.length_take_le n _

theorem standsAfter_ofChunks (chunks : List (List UInt8)) :
    (ofChunks chunks).StandsAfter chunks.flatten [] :=
  ⟨rfl, (Checksum.append_nil _).symm⟩

theorem StandsAfter.read {r : Reader} {data p : List UInt8} (h : r.StandsAfter data p) (n : Nat) :
    (r.read n).2.StandsAfter data (p ++ (r.read n).1) := by
  constructor
  · rw [List.append_assoc, r.read_pending, h.split]
  · rw [read_digest, h.digest]
    exact (Checksum.append_append _ p _).symm

theorem StandsAfter.after {r : Reader} {data p : List UInt8} (h : r.StandsAfter data p)
    (sizes : List Nat) : (r.after sizes).StandsAfter data (p ++ (r.parts sizes).flatten) := by
  induction sizes generalizing r p with
  | nil => rwa [parts, List.flatten_nil, List.append_nil]
  | cons n sizes ih =>
    rw [parts, List.flatten_cons, ← List.append_assoc]
    exact ih (h.read n)

/-! ## What may be delivered -/

/-- The parts are no longer than was asked for, and together they are a beginning of the data. -/
structure Answers (sizes : List Nat) (data : List UInt8) (parts : List (List UInt8)) : Prop where
  short : List.Forall₂ (fun part n => part.length ≤ n) parts sizes
  begins : parts.flatten <+: data

theorem forall₂_parts (r : Reader) (sizes : List Nat) :
    List.Forall₂ (fun part n => part.length ≤ n) (r.parts sizes) sizes := by
  induction sizes generalizing r with
  | nil => exact .nil
  | cons n sizes ih => exact .cons (r.read_length_le n) (ih _)

/-- A chunk for each part, and one for the bytes that are not delivered. -/
theorem parts_of_chunks {parts : List (List UInt8)} {sizes : List Nat}
    (h : List.Forall₂ (fun part n => part.length ≤ n) parts sizes) (rest : List UInt8)
    (digest : Checksum) : (Reader.mk (parts ++ [rest]) digest).parts sizes = parts := by
  induction h generalizing digest with
  | nil => rfl
  | @cons part n parts sizes hn _ ih =>
    -- the chunk is no longer than the read, so it is delivered as a whole
    have htake : part.take n = part := List.take_of_length_le hn
    have hdrop : part.drop n = [] := List.drop_of_length_le hn
    have hread : (Reader.mk (part :: (parts ++ [rest])) digest).read n =
        (part, ⟨parts ++ [rest], digest.append part⟩) := by
      simp [Reader.read, htake, hdrop]
    rw [List.cons_append, Reader.parts, hread, ih]

theorem exists_chunks_iff {data : List UInt8} {sizes : List Nat} {parts : List (List UInt8)} :
    (∃ chunks, chunks.flatten = data ∧ (ofChunks chunks).parts sizes = parts) ↔
      Answers sizes data parts := by
  constructor
  · rintro ⟨chunks, rfl, rfl⟩
    exact ⟨forall₂_parts _ sizes, _, ((standsAfter_ofChunks chunks).after sizes).split⟩
  · rintro ⟨hshort, rest, rfl⟩
    exact ⟨parts ++ [rest], by simp, parts_of_chunks hshort rest .empty⟩

/-- Of the data the bytes `p` have been delivered, and the others follow. The checksum is the
CRC32C of `p`, and its eight hexadecimal digits are those of `p` checked at once. -/
structure Checks (r : Reader) (data p : List UInt8) : Prop where
  split : p ++ r.pending = data
  isCrc : r.digest.IsCrc p
  hex_eq : r.digest.hex = (Checksum.ofBytes p).hex
  writes : Checksum.Writes r.digest.hex r.digest.value.toNat

theorem StandsAfter.checks {r : Reader} {data p : List UInt8} (h : r.StandsAfter data p) :
    r.Checks data p where
  split := h.split
  isCrc := Checksum.isCrc_iff.2 h.digest
  hex_eq := congrArg Checksum.hex h.digest
  writes := Checksum.hex_writes _

/-- However long the reads are and wherever they fall short, after each of them the bytes that have
been delivered are a beginning of the data, and the checksum is that of this beginning. -/
theorem checks_what_it_delivers (data : List UInt8) (sizes : List Nat) :
    (∀ parts, (∃ chunks, chunks.flatten = data ∧ (ofChunks chunks).parts sizes = parts) ↔
      Answers sizes data parts) ∧
    ∀ chunks, chunks.flatten = data → ∀ k,
      ((ofChunks chunks).after (sizes.take k)).Checks data
        (((ofChunks chunks).parts sizes).take k).flatten := by
  refine ⟨fun parts => exists_chunks_iff, ?_⟩
  rintro chunks rfl k
  rw [parts_take]
  exact ((standsAfter_ofChunks chunks).after (sizes.take k)).checks

namespace Digits

/-- The digits from 1 to 9, of which a read delivers three at most, and then the others. -/
def chunks : List (List UInt8) := [[49, 50, 51], [52, 53, 54, 55, 56, 57]]

/-- No byte, more than there are in the first chunk, more than are left, and some at the end. -/
def sizes : List Nat := [0, 4, 100, 5]

theorem checks_one_to_nine :
    chunks.flatten = [49, 50, 51, 52, 53, 54, 55, 56, 57] ∧
    (ofChunks chunks).parts sizes = [[], [49, 50, 51], [52, 53, 54, 55, 56, 57], []] ∧
    ((ofChunks chunks).after [0]).Checks chunks.flatten [] ∧
    ((ofChunks chunks).after [0]).digest.hex = "00000000" ∧
    ((ofChunks chunks).after [0, 4]).Checks chunks.flatten [49, 50, 51] ∧
    ((ofChunks chunks).after [0, 4]).digest.hex = "107b2fb2" ∧
    ((ofChunks chunks).after sizes).Checks chunks.flatten chunks.flatten ∧
    ((ofChunks chunks).after sizes).digest.hex = "e3069283" := by
  have hparts : (ofChunks chunks).parts sizes =
      [[], [49, 50, 51], [52, 53, 54, 55, 56, 57], []] := by
    decide +kernel
  have hchecks := (checks_what_it_delivers chunks.flatten sizes).2 chunks rfl
  rw [hparts] at hchecks
  exact ⟨rfl, hparts, hchecks 1, by decide +kernel, hchecks 2, by decide +kernel, hchecks 4,
    by decide +kernel⟩

end Digits

end EventMachine.Source.Reader
