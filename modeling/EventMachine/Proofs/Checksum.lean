import EventMachine.Checksum
import Mathlib.Data.Nat.Digits.Defs

/-!
# The text of a checksum

A checksum is written with eight lower-case hexadecimal digits that denote its value
(`Checksum.hex_writes`).
-/

namespace EventMachine

namespace Checksum

/-- The hexadecimal digits in the order of their values. -/
def hexAlphabet : List Char := "0123456789abcdef".toList

/-- The number that hexadecimal digits denote, the highest first. -/
def hexValue (digits : List Char) : Nat := digits.foldl (fun n d => 16 * n + hexAlphabet.idxOf d) 0

/-- The text is the number in eight hexadecimal digits. -/
structure Writes (text : String) (n : Nat) : Prop where
  length : text.length = 8
  digits : ∀ d ∈ text.toList, d ∈ hexAlphabet
  value : hexValue text.toList = n

theorem hexValue_append_singleton (digits : List Char) (d : Char) :
    hexValue (digits ++ [d]) = 16 * hexValue digits + hexAlphabet.idxOf d := by
  unfold hexValue
  rw [List.foldl_append]
  rfl

/-- Zeros in front do not count. -/
theorem hexValue_replicate_append (k : Nat) (digits : List Char) :
    hexValue (List.replicate k '0' ++ digits) = hexValue digits := by
  induction k with
  | zero => rfl
  | succ k ih =>
    rw [List.replicate_succ, List.cons_append, ← ih]
    rfl

theorem digitChar_of_lt : ∀ n < 16,
    Nat.digitChar n ∈ hexAlphabet ∧ hexAlphabet.idxOf (Nat.digitChar n) = n := by
  decide

/-- Division by sixteen gives one digit after the other, from the lowest on. -/
theorem toDigits_writes (n : Nat) :
    (∀ d ∈ Nat.toDigits 16 n, d ∈ hexAlphabet) ∧ hexValue (Nat.toDigits 16 n) = n := by
  induction n using Nat.strong_induction_on with
  | _ n ih =>
    by_cases hn : n < 16
    · obtain ⟨hmem, hidx⟩ := digitChar_of_lt n hn
      rw [Nat.toDigits_of_lt_base hn]
      refine ⟨by simpa using hmem, ?_⟩
      show 16 * 0 + hexAlphabet.idxOf (Nat.digitChar n) = n
      rw [hidx, Nat.mul_zero, Nat.zero_add]
    · have hge : 16 ≤ n := Nat.le_of_not_lt hn
      obtain ⟨hmem, hidx⟩ := digitChar_of_lt (n % 16) (Nat.mod_lt n (by decide))
      obtain ⟨hdigits, hvalue⟩ := ih (n / 16) (Nat.div_lt_self (by omega) (by decide))
      rw [Nat.toDigits_of_base_le (by decide) hge, hexValue_append_singleton, hidx, hvalue]
      constructor
      · intro d hd
        rcases List.mem_append.1 hd with hd | hd
        · exact hdigits d hd
        · exact List.mem_singleton.1 hd ▸ hmem
      · exact Nat.div_add_mod n 16

/-- The text of a checksum is its value in eight hexadecimal digits. -/
theorem hex_writes (c : Checksum) : Writes c.hex c.value.toNat := by
  obtain ⟨hdigits, hvalue⟩ := toDigits_writes c.value.toNat
  have hlength : (Nat.toDigits 16 c.value.toNat).length ≤ 8 :=
    (Nat.length_toDigits_le_iff (by decide) (by decide)).2 c.value.toNat_lt
  unfold hex
  refine ⟨?_, fun d hd => ?_, ?_⟩
  · rw [String.length_ofList, List.length_append, List.length_replicate]
    omega
  · rw [String.toList_ofList] at hd
    rcases List.mem_append.1 hd with hd | hd
    · rw [List.eq_of_mem_replicate hd]
      decide
    · exact hdigits d hd
  · rw [String.toList_ofList, hexValue_replicate_append, hvalue]

/-- The check value of the algorithm: the checksum of the digits from 1 to 9. -/
example : (ofBytes [49, 50, 51, 52, 53, 54, 55, 56, 57]).hex = "e3069283" := by
  decide +kernel

end Checksum

end EventMachine
