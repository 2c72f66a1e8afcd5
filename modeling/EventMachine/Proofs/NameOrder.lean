import EventMachine.NameMap
import EventMachine.Proofs.Source.LogicalLine
import Mathlib.Tactic.SplitIfs

/-!
# The order of names

Names are compared character by character, and their UTF-8 bytes come in the same order
(`encode_lt_encode_iff`). So a map from names lists them as their bytes are ordered.
-/

namespace EventMachine.Source

/-- The bytes of a smaller character come first, whatever follows them. -/
theorem utf8EncodeChar_append_lt {c d : Char} (h : c < d) (xs ys : List UInt8) :
    String.utf8EncodeChar c ++ xs < String.utf8EncodeChar d ++ ys := by
  have hlt : c.val.toNat < d.val.toNat := UInt32.lt_iff_toNat_lt.1 (Char.lt_def.1 h)
  have hmax : d.val.toNat < 0x110000 := by
    have hvalid := d.valid
    simp only [UInt32.isValidChar, Nat.isValidChar] at hvalid
    omega
  unfold String.utf8EncodeChar
  simp only
  generalize c.val.toNat = m at *
  generalize d.val.toNat = n at *
  -- six bits at a time, from the last
  have hshift (a : Nat) : a / 4096 = a / 64 / 64 ∧ a / 262144 = a / 64 / 64 / 64 := by
    simp [Nat.div_div_eq_div_mul]
  have hbyte (a : Nat) : (a % 64 + 128) % 256 = a % 64 + 128 := by omega
  split_ifs
  all_goals
    simp only [List.cons_append, List.nil_append, List.cons_lt_cons_iff, UInt8.lt_iff_toNat_lt,
      ← UInt8.toNat_inj, UInt8.toNat_ofNat', hshift, hbyte]
    omega

theorem bytesOf_lt_of_lt {cs ds : List Char} (h : cs < ds) : bytesOf cs < bytesOf ds := by
  induction h with
  | @nil d ds =>
    have hne : bytesOf (d :: ds) ≠ [] := fun hnil => List.cons_ne_nil _ _ (bytesOf_eq_nil hnil)
    obtain ⟨byte, bytes, hbytes⟩ := List.exists_cons_of_ne_nil hne
    rw [hbytes]
    exact List.nil_lt_cons byte bytes
  | @rel c cs d ds hcd => exact utf8EncodeChar_append_lt hcd _ _
  | @cons c cs ds _ ih => exact List.append_left_lt ih

/-- Names are ordered as their bytes are. -/
theorem encode_lt_encode_iff {a b : String} : encode a < encode b ↔ a < b := by
  have hmono {a b : String} (h : a < b) : encode a < encode b := by
    rw [encode_eq_bytesOf, encode_eq_bytesOf]
    exact bytesOf_lt_of_lt h
  refine ⟨fun h => String.not_le.1 fun hle => ?_, hmono⟩
  by_cases heq : a = b
  · exact List.lt_irrefl _ (heq ▸ h)
  · have hba : b < a := String.not_le.1 fun hab => heq (String.le_antisymm hab hle)
    exact List.lt_irrefl _ (List.lt_trans h (hmono hba))

end EventMachine.Source

namespace EventMachine.NameMap

/-- The names of a map ascend in the order of their bytes. -/
theorem pairwise_encode_names {α : Type} (m : NameMap α) :
    m.names.Pairwise fun a b => Source.encode a < Source.encode b := by
  rw [names, List.pairwise_map]
  exact m.sorted.imp Source.encode_lt_encode_iff.2

end EventMachine.NameMap
