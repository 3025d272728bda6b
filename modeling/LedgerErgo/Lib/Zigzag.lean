import Mathlib.Tactic

/-! # Zigzag numbers

Signed numbers are counted from zero outwards: 0, -1, 1, -2 and so on. On machine words the
number is the word shifted left by one place, with every bit flipped if the sign bit is set.
-/

namespace LedgerErgo.Zigzag

/-- The place of a number in the count. -/
def encode (v : Int) : Nat := if 0 ≤ v then (2 * v).toNat else (-2 * v - 1).toNat

/-- The number at a place of the count. -/
def decode (n : Nat) : Int := if n % 2 = 0 then (n / 2 : Nat) else -((n / 2 : Nat) : Int) - 1

theorem decode_encode (v : Int) : decode (encode v) = v := by
  unfold decode encode
  split <;> split <;> omega

/-- The numbers of a width have the places of that width. -/
theorem encode_lt {v : Int} {n : Nat} : encode v < 2 * n ↔ -(n : Int) ≤ v ∧ v < n := by
  unfold encode
  split <;> omega

variable {n : Nat}

/-- The arithmetic shift by all places but one spreads the sign bit. -/
private theorem sign_spread (x : BitVec (n + 1)) :
    x.sshiftRight n = if x.msb then BitVec.allOnes (n + 1) else 0#(n + 1) := by
  have small : ∀ y : BitVec (n + 1), y.msb = false → y >>> n = 0#(n + 1) := by
    intro y positive
    apply BitVec.eq_of_toNat_eq
    have := BitVec.msb_eq_false_iff_two_mul_lt.mp positive
    rw [BitVec.toNat_ushiftRight, Nat.shiftRight_eq_div_pow, BitVec.toNat_ofNat, Nat.zero_mod]
    exact Nat.div_eq_of_lt (by rw [pow_succ] at this; omega)
  cases sign : x.msb with
  | false => rw [BitVec.sshiftRight_eq_of_msb_false sign, small x sign, if_neg Bool.false_ne_true]
  | true =>
      have flipped : (~~~x).msb = false := by rw [BitVec.msb_not, sign]; simp
      rw [BitVec.sshiftRight_eq_of_msb_true sign, small _ flipped, if_pos rfl]
      exact BitVec.not_zero

theorem toNat_shift_xor (x : BitVec (n + 1)) :
    ((x <<< 1) ^^^ x.sshiftRight n).toNat = encode x.toInt := by
  have size := x.isLt
  have twice : (x <<< 1).toNat = (2 * x.toNat) % 2 ^ (n + 1) := by
    rw [BitVec.toNat_shiftLeft, Nat.shiftLeft_eq, pow_one, Nat.mul_comm]
  rw [sign_spread]
  cases sign : x.msb with
  | false =>
      have low := BitVec.msb_eq_false_iff_two_mul_lt.mp sign
      rw [if_neg Bool.false_ne_true, BitVec.xor_zero, twice, Nat.mod_eq_of_lt low,
        BitVec.toInt_eq_toNat_of_msb sign, encode, if_pos (Int.natCast_nonneg _)]
      omega
  | true =>
      have high := BitVec.msb_eq_true_iff_two_mul_ge.mp sign
      have value : x.toInt = (x.toNat : Int) - (2 ^ (n + 1) : Nat) := by
        rw [BitVec.toInt_eq_msb_cond, if_pos sign]
      have wrapped : (2 * x.toNat) % 2 ^ (n + 1) = 2 * x.toNat - 2 ^ (n + 1) := by
        rw [Nat.mod_eq_sub_mod high, Nat.mod_eq_of_lt (by omega)]
      rw [if_pos rfl, BitVec.xor_allOnes, BitVec.toNat_not, twice, wrapped, value, encode,
        if_neg (by omega)]
      omega

/-- The lowest bit, taken as a sign, flips the other bits. -/
theorem toInt_shift_xor (u : BitVec (n + 1)) :
    ((u >>> 1) ^^^ -(u &&& 1#(n + 1))).toInt = decode u.toNat := by
  have size := u.isLt
  have half : (u >>> 1).toNat = u.toNat / 2 := by
    rw [BitVec.toNat_ushiftRight, Nat.shiftRight_eq_div_pow, pow_one]
  have low : 2 * (u >>> 1).toNat < 2 ^ (n + 1) := by omega
  have positive : (u >>> 1).msb = false := BitVec.msb_eq_false_iff_two_mul_lt.mpr low
  have one : (1#(n + 1)).toNat = 1 := by
    rw [BitVec.toNat_ofNat, Nat.mod_eq_of_lt (Nat.one_lt_two_pow (by omega))]
  have bit : (u &&& 1#(n + 1)).toNat = u.toNat % 2 := by
    rw [BitVec.toNat_and, one, Nat.and_one_is_mod]
  by_cases even : u.toNat % 2 = 0
  · have none : u &&& 1#(n + 1) = 0#(n + 1) := by
      apply BitVec.eq_of_toNat_eq
      rw [bit, even, BitVec.toNat_ofNat, Nat.zero_mod]
    rw [none, BitVec.neg_zero, BitVec.xor_zero, BitVec.toInt_eq_toNat_of_msb positive, half,
      decode, if_pos even]
  · have odd : u &&& 1#(n + 1) = 1#(n + 1) := by
      apply BitVec.eq_of_toNat_eq
      rw [bit, one]
      omega
    have negative : (~~~(u >>> 1)).msb = true := by
      rw [BitVec.msb_not, positive]
      simp
    rw [odd, BitVec.neg_one_eq_allOnes, BitVec.xor_allOnes, BitVec.toInt_eq_msb_cond,
      if_pos negative, BitVec.toNat_not, half, decode, if_neg even]
    omega

end LedgerErgo.Zigzag
