import LedgerErgo.Common.RwBuffer
import LedgerErgo.Lib.Vlq

/-! # Variable length numbers in the hashed stream

`gve_put_u64` writes seven bits at a time, least significant first. The narrower
`gve_put_u32` and `gve_put_u16` widen their argument and call it, so one fact
covers them all: what they write is the base-128 encoding of the number.
-/

namespace LedgerErgo.Common

/-- The bytes `gve_put_u64` collects before it writes them; ten are always enough. -/
def gveGroups : Nat → UInt64 → List UInt8
  | 0, _ => []
  | fuel + 1, val =>
    let byte := (val &&& 0x7F).toUInt8
    let rest := val >>> 7
    if rest != 0 then (byte ||| 0x80) :: gveGroups fuel rest else [byte]

namespace Rw

/-- `gve_put_u64` -/
def gvePutU64 (val : UInt64) : RwM Unit := writeBytes (gveGroups 10 val)

/-- `gve_put_u32` -/
def gvePutU32 (val : UInt32) : RwM Unit := gvePutU64 val.toUInt64

/-- `gve_put_u16` -/
def gvePutU16 (val : UInt16) : RwM Unit := gvePutU64 val.toUInt64

end Rw

/-- `gve_put_u64`, as the buffer after it -/
def gvePutU64 (buffer : RwBuffer) (val : UInt64) : Option RwBuffer := buffer.after (Rw.gvePutU64 val)

/-- `gve_put_u32`, as the buffer after it -/
def gvePutU32 (buffer : RwBuffer) (val : UInt32) : Option RwBuffer := buffer.after (Rw.gvePutU32 val)

/-- `gve_put_u16`, as the buffer after it -/
def gvePutU16 (buffer : RwBuffer) (val : UInt16) : Option RwBuffer := buffer.after (Rw.gvePutU16 val)

/-- `gve_put_u8`, as the buffer after it -/
def gvePutU8 (buffer : RwBuffer) (val : UInt8) : Option RwBuffer := buffer.writeU8 val

/-- The encoding of a number of any width, as a list of bytes. -/
abbrev vlq (n : Nat) : List UInt8 := Vlq.encode n

private theorem group_toNat (val : UInt64) : (val &&& 0x7F).toUInt8.toNat = val.toNat % 128 := by
  have mask : val.toNat &&& 127 = val.toNat % 128 := Nat.and_two_pow_sub_one_eq_mod val.toNat 7
  simp only [UInt64.toNat_toUInt8, UInt64.toNat_and, UInt64.reduceToNat, mask]
  omega

private theorem group_or_toNat (val : UInt64) :
    ((val &&& 0x7F).toUInt8 ||| 0x80).toNat = val.toNat % 128 + 128 := by
  have small : val.toNat % 128 < 2 ^ 7 := by omega
  have disjoint := Nat.two_pow_add_eq_or_of_lt small 1
  simp only [UInt8.toNat_or, group_toNat]
  rw [Nat.or_comm]
  simpa [Nat.add_comm] using disjoint.symm

private theorem shift_toNat (val : UInt64) : (val >>> 7).toNat = val.toNat / 128 := by
  simp [UInt64.toNat_shiftRight, Nat.shiftRight_eq_div_pow]

private theorem gveGroups_small {fuel : Nat} {val : UInt64} (small : val.toNat < 128) :
    gveGroups (fuel + 1) val = [UInt8.ofNat val.toNat] := by
  have last : val >>> 7 = 0 := by
    apply UInt64.toNat_inj.mp
    rw [shift_toNat, Nat.div_eq_of_lt small]
    rfl
  have group : (val &&& 0x7F).toUInt8 = UInt8.ofNat val.toNat := by
    apply UInt8.toNat_inj.mp
    rw [group_toNat, UInt8.toNat_ofNat']
    omega
  simp only [gveGroups, last, group, bne_self_eq_false, Bool.false_eq_true, if_false]

private theorem gveGroups_large {fuel : Nat} {val : UInt64} (large : 128 ≤ val.toNat) :
    gveGroups (fuel + 1) val =
      UInt8.ofNat (val.toNat % 128 + 128) :: gveGroups fuel (val >>> 7) := by
  have more : val >>> 7 ≠ 0 := by
    intro none
    have := congrArg UInt64.toNat none
    rw [shift_toNat, UInt64.toNat_zero] at this
    omega
  have group : (val &&& 0x7F).toUInt8 ||| 0x80 = UInt8.ofNat (val.toNat % 128 + 128) := by
    apply UInt8.toNat_inj.mp
    rw [group_or_toNat, UInt8.toNat_ofNat']
    omega
  simp only [gveGroups, bne_iff_ne.mpr more, group, if_true]

theorem gveGroups_eq {fuel : Nat} {val : UInt64} (enough : val.toNat < 128 ^ (fuel + 1)) :
    gveGroups (fuel + 1) val = vlq val.toNat := by
  induction fuel generalizing val with
  | zero =>
      have small : val.toNat < 128 := by simpa using enough
      rw [gveGroups_small small, vlq, Vlq.encode_small small]
  | succ fuel ih =>
      by_cases small : val.toNat < 128
      · rw [gveGroups_small small, vlq, Vlq.encode_small small]
      · have shifted : (val >>> 7).toNat < 128 ^ (fuel + 1) := by
          rw [shift_toNat, Nat.div_lt_iff_lt_mul (by omega)]
          simpa only [pow_succ] using enough
        rw [gveGroups_large (by omega), ih shifted, shift_toNat, vlq, vlq,
          Vlq.encode_large (n := val.toNat) (by omega)]

theorem gveGroups_ten (val : UInt64) : gveGroups 10 val = vlq val.toNat :=
  gveGroups_eq (Nat.lt_trans val.toNat_lt (by decide))

theorem length_vlq_le_ten (val : UInt64) : (vlq val.toNat).length ≤ 10 :=
  Vlq.length_encode_le (Nat.lt_trans val.toNat_lt (by decide))

theorem gvePutU64_eq (buffer : RwBuffer) (val : UInt64) :
    gvePutU64 buffer val = buffer.writeBytes (vlq val.toNat) := by
  rw [gvePutU64, Rw.gvePutU64, gveGroups_ten]
  rfl

theorem gvePutU32_eq (buffer : RwBuffer) (val : UInt32) :
    gvePutU32 buffer val = buffer.writeBytes (vlq val.toNat) := by
  rw [← UInt32.toNat_toUInt64]
  exact gvePutU64_eq buffer val.toUInt64

theorem gvePutU16_eq (buffer : RwBuffer) (val : UInt16) :
    gvePutU16 buffer val = buffer.writeBytes (vlq val.toNat) := by
  rw [← UInt16.toNat_toUInt64]
  exact gvePutU64_eq buffer val.toUInt64

/-- `gve_put_u64` into a local array of ten bytes. -/
@[simp] theorem scratch_gvePutU64 (val : UInt64) :
    RwBuffer.scratch 10 (fun buffer => gvePutU64 buffer val) = some (vlq val.toNat) := by
  simp only [gvePutU64_eq]
  exact RwBuffer.scratch_writeBytes (length_vlq_le_ten val) (by omega)

/-- `gve_put_u32` into a local array of ten bytes. -/
@[simp] theorem scratch_gvePutU32 (val : UInt32) :
    RwBuffer.scratch 10 (fun buffer => gvePutU32 buffer val) = some (vlq val.toNat) := by
  have short : (vlq val.toNat).length ≤ 5 :=
    Vlq.length_encode_le (Nat.lt_trans val.toNat_lt (by decide))
  simp only [gvePutU32_eq]
  exact RwBuffer.scratch_writeBytes (by omega) (by omega)

/-- `gve_put_u16` into a local array of four bytes: three are enough. -/
@[simp] theorem scratch_gvePutU16 (val : UInt16) :
    RwBuffer.scratch 4 (fun buffer => gvePutU16 buffer val) = some (vlq val.toNat) := by
  have short : (vlq val.toNat).length ≤ 3 :=
    Vlq.length_encode_le (Nat.lt_trans val.toNat_lt (by decide))
  simp only [gvePutU16_eq]
  exact RwBuffer.scratch_writeBytes (by omega) (by omega)

/-- `gve_put_u8` into a local array of any size that holds a byte. -/
@[simp] theorem scratch_gvePutU8 {size : Nat} {val : UInt8} (room : 1 ≤ size)
    (small : size < 2 ^ 32) :
    RwBuffer.scratch size (fun buffer => gvePutU8 buffer val) = some [val] :=
  RwBuffer.scratch_writeBytes room small

end LedgerErgo.Common
