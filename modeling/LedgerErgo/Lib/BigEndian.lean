import Mathlib.Data.List.Basic
import Mathlib.Tactic

/-! # Byte strings of known length and big-endian numbers

A byte string that is known to have `n` bytes carries that fact with it. Numbers
of a fixed width travel as such strings, most significant byte first.
-/

namespace LedgerErgo

/-- Byte strings of length `n`. -/
abbrev Bytes (n : Nat) := { bytes : List UInt8 // bytes.length = n }

namespace Bytes

/-- The all-zero byte string. -/
def zero (n : Nat) : Bytes n := ⟨List.replicate n 0, List.length_replicate⟩

instance (n : Nat) : Inhabited (Bytes n) := ⟨zero n⟩

@[simp] theorem length_val {n : Nat} (b : Bytes n) : b.val.length = n := b.property

end Bytes

namespace BigEndian

/-- The number a big-endian byte string stands for. -/
def value (bytes : List UInt8) : Nat :=
  bytes.foldl (fun n b => n * 256 + b.toNat) 0

/-- The low `width` bytes of a number, most significant first. -/
def write : Nat → Nat → List UInt8
  | 0, _ => []
  | width + 1, n => write width (n / 256) ++ [UInt8.ofNat n]

@[simp] theorem value_nil : value [] = 0 := rfl

theorem value_append_singleton (bytes : List UInt8) (b : UInt8) :
    value (bytes ++ [b]) = value bytes * 256 + b.toNat := by
  simp [value]

@[simp] theorem length_write (width n : Nat) : (write width n).length = width := by
  induction width generalizing n with
  | zero => rfl
  | succ width ih => simp [write, ih]

theorem value_lt (bytes : List UInt8) : value bytes < 256 ^ bytes.length := by
  induction bytes using List.reverseRecOn with
  | nil => simp
  | append_singleton bytes b ih =>
      have := b.toNat_lt
      rw [value_append_singleton, List.length_append, List.length_singleton, pow_succ]
      omega

/-- Reading back what was written gives the number, as far as the width keeps it. -/
theorem value_write (width n : Nat) : value (write width n) = n % 256 ^ width := by
  induction width generalizing n with
  | zero => simp [write, Nat.mod_one]
  | succ width ih =>
      rw [write, value_append_singleton, ih, pow_succ, Nat.mul_comm (256 ^ width), Nat.mod_mul]
      simp
      omega

theorem value_write_of_lt {width n : Nat} (h : n < 256 ^ width) : value (write width n) = n := by
  rw [value_write, Nat.mod_eq_of_lt h]

/-- Writing what was read gives the bytes back. -/
theorem write_value (bytes : List UInt8) : write bytes.length (value bytes) = bytes := by
  induction bytes using List.reverseRecOn with
  | nil => rfl
  | append_singleton bytes b ih =>
      have small := b.toNat_lt
      have high : (value bytes * 256 + b.toNat) / 256 = value bytes := by omega
      have low : UInt8.ofNat (value bytes * 256 + b.toNat) = b := by
        apply UInt8.toNat_inj.mp
        simp only [UInt8.toNat_ofNat']
        omega
      rw [List.length_append, List.length_singleton, write, value_append_singleton, high, low, ih]

end BigEndian

end LedgerErgo
