import Mathlib.Tactic

/-! # Counters of a fixed width

A counter that goes down by a number it allows for goes down by exactly that number.
-/

namespace LedgerErgo.Counter

theorem toNat_sub_ofNat8 {count : UInt8} {n : Nat} (room : n ≤ count.toNat) :
    (count - UInt8.ofNat n).toNat = count.toNat - n := by
  have exact : (UInt8.ofNat n).toNat = n :=
    UInt8.toNat_ofNat_of_lt' (Nat.lt_of_le_of_lt room count.toNat_lt)
  rw [UInt8.toNat_sub_of_le _ _ (UInt8.le_iff_toNat_le.mpr (by omega)), exact]

theorem toNat_sub_ofNat16 {count : UInt16} {n : Nat} (room : n ≤ count.toNat) :
    (count - UInt16.ofNat n).toNat = count.toNat - n := by
  have exact : (UInt16.ofNat n).toNat = n :=
    UInt16.toNat_ofNat_of_lt' (Nat.lt_of_le_of_lt room count.toNat_lt)
  rw [UInt16.toNat_sub_of_le _ _ (UInt16.le_iff_toNat_le.mpr (by omega)), exact]

theorem toNat_sub_ofNat32 {count : UInt32} {n : Nat} (room : n ≤ count.toNat) :
    (count - UInt32.ofNat n).toNat = count.toNat - n := by
  have exact : (UInt32.ofNat n).toNat = n :=
    UInt32.toNat_ofNat_of_lt' (Nat.lt_of_le_of_lt room count.toNat_lt)
  rw [UInt32.toNat_sub_of_le _ _ (UInt32.le_iff_toNat_le.mpr (by omega)), exact]

theorem toNat_pos8 {count : UInt8} : count ≠ 0 ↔ 0 < count.toNat := by
  rw [ne_eq, ← UInt8.toNat_inj, UInt8.toNat_zero, Nat.pos_iff_ne_zero]

theorem toNat_pos16 {count : UInt16} : count ≠ 0 ↔ 0 < count.toNat := by
  rw [ne_eq, ← UInt16.toNat_inj, UInt16.toNat_zero, Nat.pos_iff_ne_zero]

theorem toNat_pos32 {count : UInt32} : count ≠ 0 ↔ 0 < count.toNat := by
  rw [ne_eq, ← UInt32.toNat_inj, UInt32.toNat_zero, Nat.pos_iff_ne_zero]

/-- A counter that is not used up yet goes down by one. -/
theorem toNat_sub_one16 {count : UInt16} (more : count ≠ 0) :
    (count - 1).toNat + 1 = count.toNat := by
  have positive := toNat_pos16.mp more
  have less : (count - 1).toNat = count.toNat - 1 := toNat_sub_ofNat16 (n := 1) positive
  omega

/-- A size counter reaches zero with the chunk that is as long as what is left. -/
theorem sub_ofNat32_eq_zero {size : UInt32} {n : Nat} (fits : n ≤ size.toNat) :
    size - UInt32.ofNat n = 0 ↔ size.toNat = n := by
  rw [← UInt32.toNat_inj, toNat_sub_ofNat32 fits, UInt32.toNat_zero]
  omega

end LedgerErgo.Counter
