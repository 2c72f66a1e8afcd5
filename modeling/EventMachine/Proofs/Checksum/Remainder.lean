import EventMachine.Checksum
import Mathlib.Algebra.Field.ZMod
import Mathlib.RingTheory.AdjoinRoot
import Mathlib.Tactic.Ring

/-!
# Checksums as remainders

CRC32C is a remainder of polynomials over the field of two elements. A word stands for a polynomial,
its least significant bit for the highest power (`ofWord`), and a byte string for the polynomial of
its bits one after the other (`message`). The checksum of a byte string is the remainder by the
Castagnoli polynomial of the message with 32 zeros after it, where the first 32 bits are inverted
and the remainder is inverted too (`isCrc_iff`).

1. Multiplication by the indeterminate moves the bits of a word down and gives the bit that falls out
   the 32nd power (`X_mul_ofWord`). The reflected word `polynomial` is what the generator has below
   this power (`generator_eq`), so one bit out of the register multiplies it by the indeterminate,
   modulo the generator (`residue_shiftBit`).
2. So a byte string multiplies the register by a power and adds the message
   (`residue_foldl_takeByte`). A word is of degree below 32 (`degree_ofWord_lt`), and so the register
   that comes out is the remainder itself (`isCrc_ofBytes`).
-/

namespace EventMachine.Checksum

open Polynomial

/-! ## Words as polynomials -/

/-- The polynomial of a word. Its highest power has the least significant bit as coefficient. -/
noncomputable def ofWord {w : Nat} (x : BitVec w) : (ZMod 2)[X] :=
  ∑ k ∈ Finset.range w, C (if x.getMsbD k then 1 else 0) * X ^ k

theorem coeff_ofWord {w : Nat} (x : BitVec w) (k : Nat) :
    (ofWord x).coeff k = if x.getMsbD k then 1 else 0 := by
  simp only [ofWord, finsetSum_coeff, coeff_C_mul, coeff_X_pow, mul_ite, mul_one, mul_zero,
    Finset.sum_ite_eq, Finset.mem_range]
  split
  · rfl
  · next hk => rw [BitVec.getMsbD_of_ge x k (by omega), if_neg (by simp)]

theorem ofWord_injective {w : Nat} {x y : BitVec w} (h : ofWord x = ofWord y) : x = y := by
  apply BitVec.eq_of_getMsbD_eq
  intro k _
  have hk := congrArg (fun p => p.coeff k) h
  simp only [coeff_ofWord] at hk
  cases hx : x.getMsbD k <;> cases hy : y.getMsbD k <;> simp_all

theorem degree_ofWord_lt {w : Nat} (x : BitVec w) : (ofWord x).degree < w := by
  rw [degree_lt_iff_coeff_zero]
  intro k hk
  rw [coeff_ofWord, BitVec.getMsbD_of_ge x k hk, if_neg (by simp)]

theorem ofWord_xor {w : Nat} (x y : BitVec w) : ofWord (x ^^^ y) = ofWord x + ofWord y := by
  ext k
  rw [coeff_add, coeff_ofWord, coeff_ofWord, coeff_ofWord, BitVec.getMsbD_xor]
  cases x.getMsbD k <;> cases y.getMsbD k <;> decide

/-- Multiplication moves the bits down, and the least significant one out of the word. -/
theorem X_mul_ofWord (x : BitVec 32) :
    X * ofWord x = ofWord (x >>> 1) + if x.getLsbD 0 then X ^ 32 else 0 := by
  have hout (k : Nat) : (if x.getLsbD 0 then (X ^ 32 : (ZMod 2)[X]) else 0).coeff k =
      if k = 32 ∧ x.getMsbD 31 then 1 else 0 := by
    rw [show x.getMsbD 31 = x.getLsbD 0 from rfl]
    cases x.getLsbD 0 <;> simp [coeff_X_pow]
  ext k
  rw [coeff_add, hout, coeff_ofWord, BitVec.getMsbD_ushiftRight]
  cases k with
  | zero => simp
  | succ k =>
    rw [coeff_X_mul, coeff_ofWord]
    -- at 31 the bit falls out of the word, and above there is none
    rcases Nat.lt_trichotomy k 31 with h | rfl | h
    · simp [show k + 1 < 32 by omega, show k ≠ 31 by omega]
    · simp
    · simp [BitVec.getMsbD_of_ge x k (by omega), show ¬ k + 1 < 32 by omega,
        show k ≠ 31 by omega]

/-- The powers of the Castagnoli polynomial. -/
def generatorPowers : Finset ℕ :=
  {32, 28, 27, 26, 25, 23, 22, 20, 19, 18, 14, 13, 11, 10, 9, 8, 6, 0}

/-- The Castagnoli polynomial. -/
noncomputable def generator : (ZMod 2)[X] := ∑ k ∈ generatorPowers, X ^ k

/-- The reflected word is the generator without its highest power. -/
theorem generator_eq : generator = X ^ 32 + ofWord polynomial.toBitVec := by
  ext k
  have hg : generator.coeff k = if k ∈ generatorPowers then 1 else 0 := by
    simp only [generator, finsetSum_coeff, coeff_X_pow, Finset.sum_ite_eq]
  have hsmall : ∀ k < 33, (if k ∈ generatorPowers then (1 : ZMod 2) else 0) =
      (if k = 32 then 1 else 0) + if polynomial.toBitVec.getMsbD k then 1 else 0 := by
    decide
  rw [hg, coeff_add, coeff_X_pow, coeff_ofWord]
  by_cases hk : k < 33
  · exact hsmall k hk
  · have hnot : k ∉ generatorPowers := fun hmem =>
      hk ((by decide : ∀ k ∈ generatorPowers, k < 33) k hmem)
    rw [if_neg hnot, if_neg (by omega), BitVec.getMsbD_of_ge _ k (by omega)]
    simp

theorem monic_generator : generator.Monic := by
  rw [generator_eq]
  exact monic_X_pow_add (degree_ofWord_lt _)

theorem degree_generator : generator.degree = 32 := by
  rw [generator_eq, degree_add_eq_left_of_degree_lt, degree_X_pow]
  · rfl
  · rw [degree_X_pow]
    exact degree_ofWord_lt _

/-! ## The register -/

/-- A word modulo the generator. -/
noncomputable def residue {w : Nat} (x : BitVec w) : AdjoinRoot generator :=
  AdjoinRoot.mk generator (ofWord x)

/-- The indeterminate modulo the generator. -/
noncomputable abbrev root : AdjoinRoot generator := AdjoinRoot.root generator

theorem residue_xor {w : Nat} (x y : BitVec w) : residue (x ^^^ y) = residue x + residue y := by
  rw [residue, ofWord_xor, map_add]
  rfl

theorem root_pow_eq : root ^ 32 = residue polynomial.toBitVec := by
  rw [root, residue, ← AdjoinRoot.mk_X, ← map_pow, AdjoinRoot.mk_eq_mk, CharTwo.sub_eq_add,
    generator_eq]

theorem and_one_eq_one_iff (r : UInt32) : r &&& 1 = 1 ↔ r.toBitVec.getLsbD 0 = true := by
  rw [← UInt32.toBitVec_inj, UInt32.toBitVec_and, UInt32.toBitVec_one,
    BitVec.and_one_eq_setWidth_ofBool_getLsbD]
  cases r.toBitVec.getLsbD 0 <;> decide

/-- One bit out of the register multiplies it by the indeterminate. -/
theorem residue_shiftBit (r : UInt32) :
    residue (shiftBit r).toBitVec = root * residue r.toBitVec := by
  have hroot : root * residue r.toBitVec =
      residue (r.toBitVec >>> 1) + if r.toBitVec.getLsbD 0 then root ^ 32 else 0 := by
    rw [root, residue, ← AdjoinRoot.mk_X, ← map_mul, X_mul_ofWord, map_add]
    cases r.toBitVec.getLsbD 0
    · simp [residue]
    · simp [residue]
  have hshift : (r >>> 1).toBitVec = r.toBitVec >>> 1 := by simp
  rw [hroot, root_pow_eq]
  unfold shiftBit
  by_cases hbit : r &&& 1 = 1
  · rw [if_pos hbit, if_pos ((and_one_eq_one_iff r).1 hbit), UInt32.toBitVec_xor, residue_xor,
      hshift]
  · rw [if_neg hbit, if_neg (mt (and_one_eq_one_iff r).2 hbit), hshift, add_zero]

theorem residue_repeat_shiftBit (n : Nat) (r : UInt32) :
    residue (Nat.repeat shiftBit n r).toBitVec = root ^ n * residue r.toBitVec := by
  induction n with
  | zero => rw [pow_zero, one_mul]; rfl
  | succ n ih =>
    show residue (shiftBit (Nat.repeat shiftBit n r)).toBitVec = _
    rw [residue_shiftBit, ih, pow_succ']
    ring

/-- A byte stands in the eight least significant bits of a word, and so in its highest powers. -/
theorem ofWord_byte (byte : UInt8) :
    ofWord byte.toUInt32.toBitVec = X ^ 24 * ofWord byte.toBitVec := by
  ext k
  rw [coeff_ofWord, coeff_X_pow_mul', coeff_ofWord, UInt8.toBitVec_toUInt32,
    BitVec.getMsbD_setWidth]
  by_cases hk : 24 ≤ k
  · rw [if_pos hk, decide_eq_true hk, Bool.true_and, show k + 8 - 32 = k - 24 by omega]
  · rw [if_neg hk, decide_eq_false hk]
    simp

/-- A byte is taken in behind the 32 bits of the register. -/
theorem residue_takeByte (r : UInt32) (byte : UInt8) :
    residue (takeByte r byte).toBitVec =
      root ^ 8 * residue r.toBitVec + root ^ 32 * residue byte.toBitVec := by
  have hbyte : residue byte.toUInt32.toBitVec = root ^ 24 * residue byte.toBitVec := by
    rw [residue, ofWord_byte, map_mul, map_pow, AdjoinRoot.mk_X]
    rfl
  unfold takeByte
  rw [residue_repeat_shiftBit, UInt32.toBitVec_xor, residue_xor, hbyte]
  ring

/-! ## Messages -/

/-- The polynomial of the bits of a byte string. -/
noncomputable def message (bytes : List UInt8) : (ZMod 2)[X] :=
  bytes.foldl (fun p byte => X ^ 8 * p + ofWord byte.toBitVec) 0

theorem message_concat (bytes : List UInt8) (byte : UInt8) :
    message (bytes ++ [byte]) = X ^ 8 * message bytes + ofWord byte.toBitVec :=
  List.foldl_concat ..

theorem residue_foldl_takeByte (r : UInt32) (bytes : List UInt8) :
    residue (bytes.foldl takeByte r).toBitVec =
      root ^ (8 * bytes.length) * residue r.toBitVec +
        root ^ 32 * AdjoinRoot.mk generator (message bytes) := by
  induction bytes using List.reverseRecOn with
  | nil => simp [message]
  | append_singleton bytes byte ih =>
    -- the last byte raises the powers of all before it by eight
    rw [List.foldl_concat, residue_takeByte, ih, message_concat, map_add, map_mul, map_pow,
      AdjoinRoot.mk_X, List.length_append, List.length_singleton, Nat.mul_add, pow_add]
    unfold residue
    ring

/-- What the division of a byte string leaves: 32 zeros follow its bits, and the first 32 bits are
inverted. -/
noncomputable def remainder (bytes : List UInt8) : (ZMod 2)[X] :=
  (X ^ 32 * message bytes + X ^ (8 * bytes.length) * ofWord (BitVec.allOnes 32)) %ₘ generator

/-- The checksum is the CRC32C of the bytes: inverted, it is the remainder. -/
def IsCrc (c : Checksum) (bytes : List UInt8) : Prop :=
  ofWord (~~~c.value).toBitVec = remainder bytes

theorem isCrc_ofBytes (bytes : List UInt8) : (ofBytes bytes).IsCrc bytes := by
  have hregister : ~~~(ofBytes bytes).value = bytes.foldl takeByte (~~~0) := by
    simp [ofBytes, append, empty]
  have hself : ofWord (~~~(ofBytes bytes).value).toBitVec =
      ofWord (~~~(ofBytes bytes).value).toBitVec %ₘ generator := by
    rw [eq_comm, modByMonic_eq_self_iff monic_generator, degree_generator]
    exact degree_ofWord_lt _
  unfold IsCrc remainder
  -- the same remainder on both sides, so it is enough to compare modulo the generator
  rw [hself]
  apply modByMonic_eq_of_dvd_sub monic_generator
  rw [← AdjoinRoot.mk_eq_mk, hregister]
  show residue _ = _
  rw [residue_foldl_takeByte, map_add, map_mul, map_mul, map_pow, map_pow, AdjoinRoot.mk_X]
  exact add_comm _ _

/-- There is one CRC32C of a byte string, and `ofBytes` computes it. -/
theorem isCrc_iff {c : Checksum} {bytes : List UInt8} : c.IsCrc bytes ↔ c = ofBytes bytes := by
  constructor
  · intro h
    have hword : (~~~c.value).toBitVec = (~~~(ofBytes bytes).value).toBitVec :=
      ofWord_injective (h.trans (isCrc_ofBytes bytes).symm)
    have hvalue : c.value = (ofBytes bytes).value :=
      UInt32.not_inj.1 (UInt32.toBitVec_inj.1 hword)
    exact congrArg mk hvalue
  · rintro rfl
    exact isCrc_ofBytes bytes

end EventMachine.Checksum
