import Mathlib.Data.List.Basic
import Mathlib.Tactic

/-! # Base-128 numbers of variable length

The least significant group of seven bits comes first and every byte but the last
has its high bit set. No encoding is a prefix of another one, so a stream that
starts with an encoded number determines the number and the rest of the stream.
-/

namespace LedgerErgo.Vlq

/-- The variable length encoding of a number. -/
def encode (n : Nat) : List UInt8 :=
  if n < 128 then [UInt8.ofNat n] else UInt8.ofNat (n % 128 + 128) :: encode (n / 128)
termination_by n
decreasing_by omega

theorem encode_small {n : Nat} (h : n < 128) : encode n = [UInt8.ofNat n] := by
  rw [encode, if_pos h]

theorem encode_large {n : Nat} (h : 128 ≤ n) :
    encode n = UInt8.ofNat (n % 128 + 128) :: encode (n / 128) := by
  rw [encode, if_neg (by omega)]

theorem encode_ne_nil (n : Nat) : encode n ≠ [] := by
  rw [encode]
  split <;> simp

/-- Unique reading of a stream that starts with an encoded number. -/
theorem append_inj {a b : Nat} {x y : List UInt8} (h : encode a ++ x = encode b ++ y) :
    a = b ∧ x = y := by
  induction a using Nat.strongRecOn generalizing b with
  | ind a ih =>
      have byte : ∀ {m n : Nat}, m < 256 → n < 256 → UInt8.ofNat m = UInt8.ofNat n → m = n := by
        intro m n hm hn same
        have := congrArg UInt8.toNat same
        simp only [UInt8.toNat_ofNat'] at this
        omega
      by_cases ha : a < 128 <;> by_cases hb : b < 128
      · rw [encode_small ha, encode_small hb] at h
        simp only [List.cons_append, List.nil_append, List.cons.injEq] at h
        exact ⟨byte (by omega) (by omega) h.1, h.2⟩
      · rw [encode_small ha, encode_large (by omega)] at h
        simp only [List.cons_append, List.nil_append, List.cons.injEq] at h
        have := byte (by omega) (by omega) h.1
        omega
      · rw [encode_large (by omega), encode_small hb] at h
        simp only [List.cons_append, List.nil_append, List.cons.injEq] at h
        have := byte (by omega) (by omega) h.1
        omega
      · rw [encode_large (n := a) (by omega), encode_large (n := b) (by omega)] at h
        simp only [List.cons_append, List.cons.injEq] at h
        have low := byte (by omega) (by omega) h.1
        obtain ⟨high, rest⟩ := ih (a / 128) (by omega) h.2
        exact ⟨by omega, rest⟩

theorem encode_injective : Function.Injective encode := by
  intro a b h
  exact (append_inj (x := []) (y := []) (by simpa using h)).1

/-- `k` groups are enough for a number of `7 * k` bits. -/
theorem length_encode_le {k n : Nat} (h : n < 128 ^ (k + 1)) : (encode n).length ≤ k + 1 := by
  induction k generalizing n with
  | zero => rw [encode_small (by simpa using h)]; simp
  | succ k ih =>
      by_cases small : n < 128
      · rw [encode_small small]; simp
      · have : n / 128 < 128 ^ (k + 1) := by
          rw [Nat.div_lt_iff_lt_mul (by omega)]
          simpa only [pow_succ] using h
        rw [encode_large (by omega), List.length_cons]
        exact Nat.succ_le_succ (ih this)

/-! ## Bytes that stand for a number -/

/-- The number in the groups of seven bits, least significant first. -/
def value : List UInt8 → Nat
  | [] => 0
  | b :: bytes => b.toNat % 128 + 128 * value bytes

/-- The last byte has no high bit, all bytes before it have theirs. -/
def Terminated : List UInt8 → Prop
  | [] => False
  | b :: bytes => if b.toNat < 128 then bytes = [] else Terminated bytes

instance Terminated.decidable : (bytes : List UInt8) → Decidable (Terminated bytes)
  | [] => .isFalse id
  | b :: bytes =>
      if small : b.toNat < 128 then decidable_of_iff (bytes = []) (by rw [Terminated, if_pos small])
      else
        have : Decidable (Terminated bytes) := Terminated.decidable bytes
        decidable_of_iff (Terminated bytes) (by rw [Terminated, if_neg small])

/-- There is no last group that adds nothing. -/
def Canonical (bytes : List UInt8) : Prop :=
  Terminated bytes ∧ (bytes.getLast? = some 0 → bytes.length = 1)

theorem toNat_low {n : Nat} (small : n < 128) : (UInt8.ofNat n).toNat = n := by
  rw [UInt8.toNat_ofNat']
  omega

theorem toNat_high (n : Nat) : (UInt8.ofNat (n % 128 + 128)).toNat = n % 128 + 128 := by
  rw [UInt8.toNat_ofNat']
  omega

theorem terminated_low {b : UInt8} {bytes : List UInt8} (small : b.toNat < 128) :
    Terminated (b :: bytes) ↔ bytes = [] := by
  rw [Terminated, if_pos small]

theorem terminated_high {b : UInt8} {bytes : List UInt8} (large : 128 ≤ b.toNat) :
    Terminated (b :: bytes) ↔ Terminated bytes := by
  rw [Terminated, if_neg (by omega)]

theorem value_encode (n : Nat) : value (encode n) = n := by
  induction n using Nat.strongRecOn with
  | ind n ih =>
      by_cases small : n < 128
      · rw [encode_small small, value, toNat_low small, value]
        omega
      · rw [encode_large (by omega), value, toNat_high, ih (n / 128) (by omega)]
        omega

theorem terminated_encode (n : Nat) : Terminated (encode n) := by
  induction n using Nat.strongRecOn with
  | ind n ih =>
      by_cases small : n < 128
      · rw [encode_small small, terminated_low (by rwa [toNat_low small])]
      · rw [encode_large (by omega), terminated_high (by rw [toNat_high]; omega)]
        exact ih (n / 128) (by omega)

theorem canonical_encode (n : Nat) : Canonical (encode n) := by
  refine ⟨terminated_encode n, ?_⟩
  induction n using Nat.strongRecOn with
  | ind n ih =>
      by_cases small : n < 128
      · rw [encode_small small]
        simp
      · -- the rest is not the group of a zero, since the number is not smaller than 128
        rw [encode_large (by omega), List.getLast?_cons_of_ne_nil (encode_ne_nil _)]
        intro zero
        have one := ih (n / 128) (by omega) zero
        by_cases rest : n / 128 < 128
        · rw [encode_small rest, List.getLast?_singleton, Option.some.injEq] at zero
          have none := congrArg UInt8.toNat zero
          rw [toNat_low rest, UInt8.toNat_zero] at none
          omega
        · rw [encode_large (by omega), List.length_cons] at one
          have := List.length_pos_iff.mpr (encode_ne_nil (n / 128 / 128))
          omega

/-- A terminated number shows where it ends. -/
theorem Terminated.append_inj {a b x y : List UInt8} (ha : Terminated a) (hb : Terminated b)
    (same : a ++ x = b ++ y) : a = b ∧ x = y := by
  induction a generalizing b with
  | nil => exact ha.elim
  | cons byte a ih =>
      cases b with
      | nil => exact hb.elim
      | cons byte' b =>
          obtain ⟨rfl, tails⟩ := List.cons.inj same
          by_cases small : byte.toNat < 128
          · obtain rfl := (terminated_low small).mp ha
            obtain rfl := (terminated_low small).mp hb
            exact ⟨rfl, tails⟩
          · have large : 128 ≤ byte.toNat := by omega
            obtain ⟨rfl, rest⟩ :=
              ih ((terminated_high large).mp ha) ((terminated_high large).mp hb) tails
            exact ⟨rfl, rest⟩

/-- A stream starts with a number in at most `groups` bytes. -/
def Reads (groups : Nat) (stream : List UInt8) (n : Nat) (rest : List UInt8) : Prop :=
  ∃ bytes, stream = bytes ++ rest ∧ bytes.length ≤ groups ∧ Terminated bytes ∧ value bytes = n

namespace Reads

variable {groups n : Nat} {byte : UInt8} {stream rest : List UInt8}

theorem not_nil : ¬ Reads groups [] n rest := by
  intro reads
  obtain ⟨bytes, whole, -, terminated, -⟩ := reads
  obtain ⟨rfl, -⟩ := List.append_eq_nil_iff.mp whole.symm
  exact terminated

theorem not_zero : ¬ Reads 0 stream n rest := by
  intro reads
  obtain ⟨bytes, -, short, terminated, -⟩ := reads
  obtain rfl := List.length_eq_zero_iff.mp (Nat.le_zero.mp short)
  exact terminated

theorem low (small : byte.toNat < 128) :
    Reads (groups + 1) (byte :: stream) n rest ↔ n = byte.toNat ∧ rest = stream := by
  constructor
  · intro reads
    obtain ⟨bytes, whole, -, terminated, rfl⟩ := reads
    cases bytes with
    | nil => exact terminated.elim
    | cons first bytes =>
        obtain ⟨rfl, tail⟩ := List.cons.inj whole
        obtain rfl := (terminated_low small).mp terminated
        rw [value, value, Nat.mod_eq_of_lt small]
        exact ⟨rfl, tail.symm⟩
  · intro read
    obtain ⟨rfl, rfl⟩ := read
    refine ⟨[byte], rfl, Nat.le_add_left 1 groups, (terminated_low small).mpr rfl, ?_⟩
    rw [value, value, Nat.mod_eq_of_lt small, Nat.mul_zero, Nat.add_zero]

theorem high (large : 128 ≤ byte.toNat) :
    Reads (groups + 1) (byte :: stream) n rest ↔
      ∃ m, Reads groups stream m rest ∧ n = byte.toNat % 128 + 128 * m := by
  constructor
  · intro reads
    obtain ⟨bytes, whole, short, terminated, rfl⟩ := reads
    cases bytes with
    | nil => exact terminated.elim
    | cons first bytes =>
        obtain ⟨rfl, tail⟩ := List.cons.inj whole
        exact ⟨value bytes, ⟨bytes, tail, Nat.le_of_succ_le_succ short,
          (terminated_high large).mp terminated, rfl⟩, rfl⟩
  · intro later
    obtain ⟨m, ⟨bytes, rfl, short, terminated, rfl⟩, rfl⟩ := later
    exact ⟨byte :: bytes, rfl, Nat.succ_le_succ short, (terminated_high large).mpr terminated, rfl⟩

/-- What an encoding starts with is the encoded number. -/
theorem encode {k : Nat} (short : (Vlq.encode k).length ≤ groups) :
    Reads groups (Vlq.encode k ++ rest) k rest :=
  ⟨Vlq.encode k, rfl, short, terminated_encode k, value_encode k⟩

end Reads

/-- No encoding is a prefix of another one. -/
theorem eq_of_prefix {a b : Nat} (front : encode a <+: encode b) : a = b := by
  obtain ⟨rest, same⟩ := front
  exact (append_inj (same.trans (List.append_nil _).symm)).1

/-- Encodings one after the other can be read back. -/
theorem flatMap_encode_injective : Function.Injective (List.flatMap encode) := by
  intro as bs same
  induction as generalizing bs with
  | nil =>
      cases bs with
      | nil => rfl
      | cons b bs => simp [encode_ne_nil b] at same
  | cons a as ih =>
      cases bs with
      | nil => simp [encode_ne_nil a] at same
      | cons b bs =>
          simp only [List.flatMap_cons] at same
          obtain ⟨rfl, rest⟩ := append_inj same
          rw [ih rest]

end LedgerErgo.Vlq
