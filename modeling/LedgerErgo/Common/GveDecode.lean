import LedgerErgo.Common.Buffer
import LedgerErgo.Lib.Prog
import LedgerErgo.Lib.Vlq
import Mathlib.Data.Nat.Bitwise

/-! # Reading variable length numbers

`gve_get_u64` takes seven bits a byte, least significant first, for at most ten bytes. The
tenth byte has room for one bit only: the shift drops the other six, and the loop ends behind
it whether or not its high bit is set.
-/

namespace LedgerErgo.Common

open LedgerErgo.Prog

/-- `gve_result_e` without `GVE_OK` -/
inductive GveErr where
  | intToBig | dataSize
deriving DecidableEq

/-- A read of a buffer; bytes that were read stay read if it fails. -/
abbrev GveM := EStateM GveErr Buffer

/-- `gve_get_u8` -/
def gveGetU8 : GveM UInt8 := fun buffer =>
  match bufferReadU8 buffer with
  | some (byte, rest) => .ok byte rest
  | none => .error .dataSize buffer

/-- Put the low seven bits of a byte into a number. -/
def orGroup (val : UInt64) (shift : Nat) (byte : UInt8) : UInt64 :=
  val ||| ((byte &&& 0x7F).toUInt64 <<< UInt64.ofNat shift)

/-- The loop of `gve_get_u64`. When no round is left, the status is that of the last byte. -/
def gveGetRounds : Nat → Nat → UInt64 → GveM UInt64
  | 0, _, val => return val
  | rounds + 1, shift, val => do
    let byte ← gveGetU8
    let val := orGroup val shift byte
    if byte &&& 0x80 = 0 then return val
    gveGetRounds rounds (shift + 7) val

/-- `gve_get_u64`: the shift stays below 64 for ten rounds. -/
def gveGetU64 : GveM UInt64 := gveGetRounds 10 0 0

/-- `gve_get_u32` -/
def gveGetU32 : GveM UInt32 := do
  let u64 ← gveGetU64
  ensure (¬ u64 > 0xFFFFFFFF) .intToBig
  return u64.toUInt32

/-- `gve_get_u16` -/
def gveGetU16 : GveM UInt16 := do
  let u64 ← gveGetU64
  ensure (¬ u64 > 0xFFFF) .intToBig
  return u64.toUInt16

/-! ## One round -/

variable {buffer rest : Buffer} {byte : UInt8} {val v : UInt64} {shift n : Nat}

theorem and_high_eq_zero : byte &&& 0x80 = 0 ↔ byte.toNat < 128 := by
  have size := byte.toNat_lt
  have bit : (byte &&& 0x80).toNat = byte.toNat / 128 * 128 := by
    rw [UInt8.toNat_and]
    change byte.toNat &&& 2 ^ 7 = _
    rw [Nat.and_two_pow, Nat.testBit_eq_decide_div_mod_eq]
    have one : byte.toNat / 128 = 0 ∨ byte.toNat / 128 = 1 := by omega
    cases one with
    | inl none => simp [none]
    | inr some => simp [some]
  rw [← UInt8.toNat_inj, bit, UInt8.toNat_zero]
  omega

theorem gveGetRounds_nil : gveGetRounds (n + 1) shift val [] = .error .dataSize [] := rfl

theorem gveGetRounds_cons :
    gveGetRounds (n + 1) shift val (byte :: buffer) =
      if byte.toNat < 128 then .ok (orGroup val shift byte) buffer
      else gveGetRounds n (shift + 7) (orGroup val shift byte) buffer := by
  have read : gveGetU8 (byte :: buffer) = .ok byte buffer := rfl
  rw [gveGetRounds, bind_of_ok read]
  by_cases low : byte.toNat < 128
  · rw [if_pos low, if_pos (and_high_eq_zero.mpr low)]
    rfl
  · rw [if_neg low, if_neg (mt and_high_eq_zero.mp low)]

/-- The group goes above the bits that are there, as long as it fits into 64 bits. -/
theorem orGroup_toNat (small : val.toNat < 2 ^ shift) (place : shift < 64)
    (fits : byte.toNat % 128 * 2 ^ shift < 2 ^ 64) :
    (orGroup val shift byte).toNat = val.toNat + 2 ^ shift * (byte.toNat % 128) := by
  have mask : byte.toNat &&& 127 = byte.toNat % 128 := Nat.and_two_pow_sub_one_eq_mod byte.toNat 7
  have group : ((byte &&& 0x7F).toUInt64 <<< UInt64.ofNat shift).toNat =
      2 ^ shift * (byte.toNat % 128) := by
    rw [UInt64.toNat_shiftLeft, UInt8.toNat_toUInt64, UInt8.toNat_and, UInt64.toNat_ofNat',
      Nat.shiftLeft_eq]
    have same : shift % 2 ^ 64 % 64 = shift := by omega
    rw [same, Nat.mul_comm]
    change (2 ^ shift * (byte.toNat &&& 127)) % 2 ^ 64 = _
    rw [mask, Nat.mod_eq_of_lt (by rwa [Nat.mul_comm])]
  rw [orGroup, UInt64.toNat_or, group, Nat.or_comm, ← Nat.two_pow_add_eq_or_of_lt small,
    Nat.add_comm]

/-! ## All rounds -/

/-- If the first `n` bytes have their high bit, the next one is at most one. -/
def TopByteFits (n : Nat) (buffer : Buffer) : Prop :=
  (∀ byte ∈ buffer.take n, 128 ≤ byte.toNat) → ∀ byte ∈ (buffer.drop n).head?, byte.toNat ≤ 1

theorem topByteFits_zero : TopByteFits 0 (byte :: buffer) ↔ byte.toNat ≤ 1 := by
  simp [TopByteFits]

theorem topByteFits_succ :
    TopByteFits (n + 1) (byte :: buffer) ↔ (128 ≤ byte.toNat → TopByteFits n buffer) := by
  simp only [TopByteFits, List.take_succ_cons, List.drop_succ_cons, List.forall_mem_cons, and_imp]

/-- A byte without its high bit is the last one. -/
private theorem last_round (low : byte.toNat < 128) (small : val.toNat < 2 ^ shift)
    (place : shift < 64) (fits : byte.toNat * 2 ^ shift < 2 ^ 64) :
    gveGetRounds (n + 1) shift val (byte :: buffer) = .ok v rest ↔
      ∃ m, Vlq.Reads (n + 1) (byte :: buffer) m rest ∧ v.toNat = val.toNat + 2 ^ shift * m := by
  have group : (orGroup val shift byte).toNat = _ :=
    orGroup_toNat small place (by rwa [Nat.mod_eq_of_lt low])
  rw [Nat.mod_eq_of_lt low] at group
  simp only [gveGetRounds_cons, if_pos low, Vlq.Reads.low low, EStateM.Result.ok.injEq]
  constructor
  · intro read
    obtain ⟨rfl, rfl⟩ := read
    exact ⟨byte.toNat, ⟨rfl, rfl⟩, group⟩
  · intro number
    obtain ⟨m, ⟨rfl, rfl⟩, same⟩ := number
    exact ⟨UInt64.toNat_inj.mp (group.trans same.symm), rfl⟩

/-- The rounds that are left read the rest of the number, if its top bits have room. -/
theorem gveGetRounds_ok (place : shift + 7 * (n + 1) = 70) (small : val.toNat < 2 ^ shift)
    (fits : TopByteFits n buffer) :
    gveGetRounds (n + 1) shift val buffer = .ok v rest ↔
      ∃ m, Vlq.Reads (n + 1) buffer m rest ∧ v.toNat = val.toNat + 2 ^ shift * m := by
  induction n generalizing buffer shift val with
  | zero =>
      obtain rfl : shift = 63 := by omega
      cases buffer with
      | nil => simp [gveGetRounds_nil, Vlq.Reads.not_nil]
      | cons byte buffer =>
          have bit := topByteFits_zero.mp fits
          exact last_round (by omega) small (by omega) (by omega)
  | succ n ih =>
      cases buffer with
      | nil => simp [gveGetRounds_nil, Vlq.Reads.not_nil]
      | cons byte buffer =>
          -- seven more bits stay below the bit 63
          have next : 2 ^ (shift + 7) = 2 ^ shift * 128 := Nat.pow_add 2 shift 7
          have room : 2 ^ (shift + 7) ≤ 2 ^ 63 := Nat.pow_le_pow_right (by omega) (by omega)
          have bound : byte.toNat % 128 * 2 ^ shift ≤ 127 * 2 ^ shift :=
            Nat.mul_le_mul_right _ (by omega)
          by_cases low : byte.toNat < 128
          · rw [Nat.mod_eq_of_lt low] at bound
            exact last_round low small (by omega) (by omega)
          · have group : (orGroup val shift byte).toNat = _ :=
              orGroup_toNat small (by omega) (by omega)
            have rest := topByteFits_succ.mp fits (by omega)
            rw [gveGetRounds_cons, if_neg low, ih (by omega) (by rw [group, Nat.mul_comm]; omega) rest,
              group]
            simp only [Vlq.Reads.high (Nat.not_lt.mp low), next]
            constructor
            · intro number
              obtain ⟨m, reads, same⟩ := number
              exact ⟨_, ⟨m, reads, rfl⟩, by rw [same]; ring⟩
            · intro number
              obtain ⟨_, ⟨m, reads, rfl⟩, same⟩ := number
              exact ⟨m, reads, by rw [same]; ring⟩

theorem gveGetU64_ok (fits : TopByteFits 9 buffer) :
    gveGetU64 buffer = .ok v rest ↔ Vlq.Reads 10 buffer v.toNat rest := by
  have rounds : gveGetRounds 10 0 0 buffer = .ok v rest ↔ _ :=
    gveGetRounds_ok (by omega) (show (0 : UInt64).toNat < 2 ^ 0 by decide) fits
  simp only [UInt64.toNat_zero, pow_zero, Nat.one_mul, Nat.zero_add] at rounds
  rw [gveGetU64, rounds]
  constructor
  · intro number
    obtain ⟨m, reads, rfl⟩ := number
    exact reads
  · intro reads
    exact ⟨v.toNat, reads, rfl⟩

/-- Otherwise the loop ends well: the last byte could be read. -/
theorem gveGetRounds_ends (more : ¬ TopByteFits n buffer) :
    ∃ v rest, gveGetRounds (n + 1) shift val buffer = .ok v rest := by
  induction n generalizing buffer shift val with
  | zero =>
      cases buffer with
      | nil => exact absurd (fun _ byte none => by cases none) more
      | cons byte buffer =>
          rw [gveGetRounds_cons]
          split
          · exact ⟨_, _, rfl⟩
          · exact ⟨_, _, rfl⟩
  | succ n ih =>
      cases buffer with
      | nil => exact absurd (fun _ byte none => by cases none) more
      | cons byte buffer =>
          obtain ⟨high, later⟩ := Classical.not_imp.mp (mt topByteFits_succ.mpr more)
          rw [gveGetRounds_cons, if_neg (Nat.not_lt.mpr high)]
          exact ih later

/-- A number of that many groups does not fit into the bits that are left. -/
theorem reads_of_not_fits {m : Nat} (more : ¬ TopByteFits n buffer)
    (reads : Vlq.Reads (n + 1) buffer m rest) : 2 * 128 ^ n ≤ m := by
  induction n generalizing buffer m with
  | zero =>
      cases buffer with
      | nil => exact absurd reads Vlq.Reads.not_nil
      | cons byte buffer =>
          have large := mt topByteFits_zero.mpr more
          by_cases low : byte.toNat < 128
          · have := ((Vlq.Reads.low low).mp reads).1
            omega
          · obtain ⟨m, never, -⟩ := (Vlq.Reads.high (Nat.not_lt.mp low)).mp reads
            exact absurd never Vlq.Reads.not_zero
  | succ n ih =>
      cases buffer with
      | nil => exact absurd reads Vlq.Reads.not_nil
      | cons byte buffer =>
          obtain ⟨high, later⟩ := Classical.not_imp.mp (mt topByteFits_succ.mpr more)
          obtain ⟨k, tail, rfl⟩ := (Vlq.Reads.high high).mp reads
          have := ih later tail
          rw [pow_succ]
          omega

/-! ## The format -/

/-- The reads accept the numbers of the format that fit their width, and nothing else. -/
structure ReadsFormat (buffer : Buffer) : Prop where
  u64 : ∀ (v : UInt64) rest, gveGetU64 buffer = .ok v rest ↔ Vlq.Reads 10 buffer v.toNat rest
  u32 : ∀ (v : UInt32) rest, gveGetU32 buffer = .ok v rest ↔ Vlq.Reads 10 buffer v.toNat rest
  u16 : ∀ (v : UInt16) rest, gveGetU16 buffer = .ok v rest ↔ Vlq.Reads 10 buffer v.toNat rest

/-- A bound of the C source leaves the numbers below the next one. -/
private theorem mod_of_not_gt {a bound : UInt64} (inside : ¬ a > bound)
    (next : bound.toNat + 1 < 2 ^ 64) : a % (bound + 1) = a := by
  have small := Nat.not_lt.mp (mt UInt64.lt_iff_toNat_lt.mpr inside)
  apply UInt64.toNat_inj.mp
  rw [UInt64.toNat_mod, UInt64.toNat_add]
  change a.toNat % ((bound.toNat + 1) % 2 ^ 64) = a.toNat
  rw [Nat.mod_eq_of_lt next, Nat.mod_eq_of_lt (Nat.lt_succ_of_le small)]

theorem gveGetU32_ok {v : UInt32} :
    gveGetU32 buffer = .ok v rest ↔ gveGetU64 buffer = .ok v.toUInt64 rest := by
  simp only [gveGetU32, bind_ok, ensure_ok, pure_ok, exists_unit]
  constructor
  · intro read
    obtain ⟨u64, _, wide, _, ⟨inside, rfl⟩, rfl, rfl⟩ := read
    have same : u64.toUInt32.toUInt64 = u64 := mod_of_not_gt inside (by decide)
    rw [wide, same]
  · intro wide
    have small := v.toNat_lt
    refine ⟨v.toUInt64, rest, wide, rest, ⟨?_, rfl⟩, UInt32.toUInt32_toUInt64 v, rfl⟩
    rw [gt_iff_lt, UInt64.lt_iff_toNat_lt, UInt32.toNat_toUInt64]
    change ¬ 4294967295 < v.toNat
    omega

theorem gveGetU16_ok {v : UInt16} :
    gveGetU16 buffer = .ok v rest ↔ gveGetU64 buffer = .ok v.toUInt64 rest := by
  simp only [gveGetU16, bind_ok, ensure_ok, pure_ok, exists_unit]
  constructor
  · intro read
    obtain ⟨u64, _, wide, _, ⟨inside, rfl⟩, rfl, rfl⟩ := read
    have same : u64.toUInt16.toUInt64 = u64 := mod_of_not_gt inside (by decide)
    rw [wide, same]
  · intro wide
    have small := v.toNat_lt
    refine ⟨v.toUInt64, rest, wide, rest, ⟨?_, rfl⟩, UInt16.toUInt16_toUInt64 v, rfl⟩
    rw [gt_iff_lt, UInt64.lt_iff_toNat_lt, UInt16.toNat_toUInt64]
    change ¬ 65535 < v.toNat
    omega

/-- The format, and what the narrower reads make of a number that was accepted. -/
theorem readsFormat_of_fits (fits : TopByteFits 9 buffer) : ReadsFormat buffer where
  u64 _ _ := gveGetU64_ok fits
  u32 v _ := by rw [gveGetU32_ok, gveGetU64_ok fits, UInt32.toNat_toUInt64]
  u16 v _ := by rw [gveGetU16_ok, gveGetU64_ok fits, UInt16.toNat_toUInt64]

theorem not_readsFormat (more : ¬ TopByteFits 9 buffer) : ¬ ReadsFormat buffer := by
  intro format
  have loop : ∃ v rest, gveGetRounds 10 0 0 buffer = .ok v rest := gveGetRounds_ends more
  obtain ⟨v, rest, ends⟩ := loop
  have large := reads_of_not_fits more ((format.u64 v rest).mp ends)
  have small := v.toNat_lt
  omega

/-- The reads accept exactly the format if and only if a tenth byte, where the nine bytes before
it have their high bit, is at most one. -/
theorem gve_get_reads_format_iff (buffer : Buffer) : ReadsFormat buffer ↔ TopByteFits 9 buffer := by
  constructor
  · intro format
    by_contra more
    exact not_readsFormat more format
  · exact readsFormat_of_fits

/-- Ten bytes whose number is 2 ^ 64 are read as zero. -/
theorem gve_get_u64_drops_bit :
    ¬ ReadsFormat (List.replicate 9 0x80 ++ [2]) ∧
      gveGetU64 (List.replicate 9 0x80 ++ [2]) = .ok 0 [] ∧
      gveGetU64 (List.replicate 10 0x80) = .ok 0 [] := by
  refine ⟨not_readsFormat ?_, rfl, rfl⟩
  intro fits
  have bit := fits (by simp) 2 (by simp)
  exact absurd bit (by decide)

end LedgerErgo.Common
