import Mathlib.Data.Nat.Bitwise
import Synod.Record.Checksum

/-!
What the checksum tells apart. A register can be told from the one it becomes, whatever bytes both
take in, and up to four bytes enter it as one word.
-/
namespace Synod

namespace Bytes

/-- A digit in front of others sets bits of its own. -/
theorem ofLittleEndian_cons (c : UInt8) (bs : Bytes) :
    ofLittleEndian (c :: bs) = c.toNat ^^^ ofLittleEndian bs <<< 8 := by
  have hc : c.toNat / 256 = 0 := Nat.div_eq_of_lt c.toNat_lt
  have hlow := Nat.xor_mod_two_pow (a := c.toNat) (b := ofLittleEndian bs <<< 8) (n := 8)
  have hhigh := Nat.xor_div_two_pow (a := c.toNat) (b := ofLittleEndian bs <<< 8) (n := 8)
  simp only [Nat.shiftLeft_eq, Nat.reducePow, Nat.mul_mod_left, Nat.xor_zero, hc, Nat.zero_xor,
    Nat.mul_div_cancel _ (show 0 < 256 by decide)] at hlow hhigh ⊢
  rw [ofLittleEndian]
  omega

end Bytes

namespace Checksum

variable {a b x : UInt32} {bs front window other rest : Bytes} {m n : Nat}

theorem toNat_shift (a : UInt32) : (shift a).toNat =
    if a.toNat % 2 = 1 then a.toNat / 2 ^^^ polynomial.toNat else a.toNat / 2 := by
  have hlow : a &&& 1 = 1 ↔ a.toNat % 2 = 1 := by
    rw [← UInt32.toNat_inj, UInt32.toNat_and, ← Nat.and_one_is_mod]
    rfl
  have hhalf : (a >>> 1).toNat = a.toNat / 2 := by
    rw [UInt32.toNat_shiftRight]
    rfl
  unfold shift
  split
  · rw [if_pos (hlow.mp ‹_›), UInt32.toNat_xor, hhalf]
  · rw [if_neg fun h => ‹¬ _› (hlow.mpr h), hhalf]

/-- The highest bit tells whether the polynomial was folded in. -/
theorem testBit_shift (a : UInt32) : (shift a).toNat.testBit 31 = true ↔ a.toNat % 2 = 1 := by
  have hlt := a.toNat_lt
  have hhigh : (a.toNat / 2).testBit 31 = false := Nat.testBit_lt_two_pow (by omega)
  have hpoly : polynomial.toNat.testBit 31 = true := by decide
  rw [toNat_shift]
  by_cases h : a.toNat % 2 = 1
  · rw [if_pos h, Nat.testBit_xor, hhigh, hpoly]
    exact iff_of_true rfl h
  · rw [if_neg h, hhigh]
    exact iff_of_false (by decide) h

theorem shift_inj (h : shift a = shift b) : a = b := by
  have hlow : a.toNat % 2 = 1 ↔ b.toNat % 2 = 1 := by
    rw [← testBit_shift, ← testBit_shift, h]
  have hnat := congrArg UInt32.toNat h
  rw [toNat_shift, toNat_shift] at hnat
  have hhalf : a.toNat / 2 = b.toNat / 2 := by
    by_cases ha : a.toNat % 2 = 1
    · rw [if_pos ha, if_pos (hlow.mp ha)] at hnat
      exact Nat.xor_left_inj.mp hnat
    · rwa [if_neg ha, if_neg (mt hlow.mpr ha)] at hnat
  apply UInt32.toNat_inj.mp
  omega

theorem shifts_inj (h : shifts n a = shifts n b) : a = b := by
  induction n generalizing a b with
  | zero => exact h
  | succ n ih => exact shift_inj (ih h)

theorem absorb_inj {c : UInt8} (h : absorb a c = absorb b c) : a = b :=
  (UInt32.xor_left_inj _).mp (shifts_inj h)

theorem foldl_absorb_inj (h : bs.foldl absorb a = bs.foldl absorb b) : a = b := by
  induction bs generalizing a b with
  | nil => exact h
  | cons c bs ih => exact absorb_inj (ih h)

/-- An even word is not folded in with the bit that is shifted out. -/
theorem shift_xor_double (hm : 2 * m < UInt32.size) :
    shift (x ^^^ UInt32.ofNat (2 * m)) = shift x ^^^ UInt32.ofNat m := by
  have hm' : m < UInt32.size := by omega
  have hlow : (x.toNat ^^^ 2 * m) % 2 = 1 ↔ x.toNat % 2 = 1 := by
    rw [Nat.xor_mod_two_eq_one]
    omega
  have hhalf : (x.toNat ^^^ 2 * m) / 2 = x.toNat / 2 ^^^ m := by
    rw [Nat.xor_div_two, Nat.mul_div_cancel_left m (by decide)]
  apply UInt32.toNat_inj.mp
  rw [UInt32.toNat_xor, toNat_shift, toNat_shift, UInt32.toNat_xor, UInt32.toNat_ofNat_of_lt' hm,
    UInt32.toNat_ofNat_of_lt' hm', hhalf]
  simp only [hlow]
  split
  · ac_rfl
  · rfl

theorem shifts_xor_shiftLeft (hm : m <<< n < UInt32.size) :
    shifts n (x ^^^ UInt32.ofNat (m <<< n)) = shifts n x ^^^ UInt32.ofNat m := by
  induction n generalizing x with
  | zero => rfl
  | succ n ih =>
    rw [Nat.shiftLeft_succ] at hm ⊢
    rw [shifts, shifts, shift_xor_double hm]
    exact ih (by omega)

theorem shifts_add (n m : Nat) (a : UInt32) : shifts (n + m) a = shifts m (shifts n a) := by
  induction n generalizing a with
  | zero => rw [Nat.zero_add, shifts]
  | succ n ih => rw [Nat.succ_add, shifts, shifts, ih]

/-- Up to four bytes enter the register as one word. -/
theorem foldl_absorb_eq (h : window.length ≤ 4) : window.foldl absorb x
    = shifts (8 * window.length) (x ^^^ UInt32.ofNat (Bytes.ofLittleEndian window)) := by
  induction window generalizing x with
  | nil => simp [Bytes.ofLittleEndian, shifts]
  | cons c bs ih =>
    rw [List.length_cons] at h
    -- The later bytes are shifted down to where they enter.
    have hlt : Bytes.ofLittleEndian bs <<< 8 < UInt32.size := by
      have hbs := Bytes.ofLittleEndian_lt bs
      have hle : Bytes.bound bs.length ≤ 16777216 := Bytes.bound_le_bound (Nat.le_of_succ_le_succ h)
      have hsize : UInt32.size = 4294967296 := rfl
      rw [Nat.shiftLeft_eq]
      omega
    have hlen : 8 * (bs.length + 1) = 8 + 8 * bs.length := by omega
    rw [List.foldl_cons, ih (by omega), List.length_cons, hlen, Bytes.ofLittleEndian_cons,
      UInt32.ofNat_xor, UInt32.ofNat_uInt8ToNat, ← UInt32.xor_assoc, shifts_add,
      shifts_xor_shiftLeft hlt, absorb]

/-- Bytes of one length, at most four, in the same surroundings have different checksums. -/
theorem window_inj (h : window.length ≤ 4) (hl : other.length = window.length)
    (hc : of (front ++ other ++ rest) = of (front ++ window ++ rest)) : other = window := by
  have hfold := (UInt32.xor_left_inj _).mp hc
  simp only [List.foldl_append] at hfold
  have hwindow := foldl_absorb_inj hfold
  rw [foldl_absorb_eq h, foldl_absorb_eq (hl ▸ h), hl] at hwindow
  have hword := (UInt32.xor_right_inj _).mp (shifts_inj hwindow)
  have hbound : Bytes.bound window.length ≤ UInt32.size := Bytes.bound_le_bound h
  have hw := Bytes.ofLittleEndian_lt window
  have ho := Bytes.ofLittleEndian_lt other
  rw [hl] at ho
  have hnat := congrArg UInt32.toNat hword
  rw [UInt32.toNat_ofNat_of_lt' (by omega), UInt32.toNat_ofNat_of_lt' (by omega)] at hnat
  rw [← Bytes.littleEndian_ofLittleEndian other, ← Bytes.littleEndian_ofLittleEndian window, hnat,
    hl]

end Checksum
end Synod
