import Mathlib.Tactic

/-! # Checked arithmetic

Sums and differences of amounts that fail instead of wrapping. The signed ones mix a
signed and an unsigned operand; as in C the signed one is then read as unsigned, and only
the result is read as signed again.
-/

namespace LedgerErgo.Common

/-- `checked_add_u64` -/
def checkedAddU64 (l r : UInt64) : Option UInt64 :=
  if 0xFFFFFFFFFFFFFFFF - l < r then none else some (l + r)

/-- `checked_sub_u64` -/
def checkedSubU64 (l r : UInt64) : Option UInt64 :=
  if r > l then none else some (l - r)

/-- `INT64_MAX` -/
def int64Max : UInt64 := 0x7FFFFFFFFFFFFFFF

/-- `checked_add_i64` -/
def checkedAddI64 (l : Int64) (r : UInt64) : Option Int64 :=
  if l < 0 then
    -- so big that it overflows even with a negative `l`
    if r ≥ (-l).toUInt64 ∧ r + l.toUInt64 > int64Max then none
    else some (l.toUInt64 + r).toInt64
  else if r > int64Max ∨ int64Max - r < l.toUInt64 then none
  else some (l.toUInt64 + r).toInt64

/-- `checked_sub_i64` -/
def checkedSubI64 (l : Int64) (r : UInt64) : Option Int64 :=
  if l < 0 then
    if r > int64Max ∨ r - l.toUInt64 > int64Max + 1 then none
    else some (l.toUInt64 - r).toInt64
  else if l.toUInt64 < r ∧ r - l.toUInt64 > int64Max + 1 then none
  else some (l.toUInt64 - r).toInt64

/-! ## They are exact

Each of them succeeds exactly when the result in the integers fits, and then it is that result. -/

theorem checkedAddU64_eq_some {l r s : UInt64} :
    checkedAddU64 l r = some s ↔ s.toNat = l.toNat + r.toNat := by
  have left := l.toNat_lt
  have sum := s.toNat_lt
  have room : (0xFFFFFFFFFFFFFFFF - l).toNat = 0xFFFFFFFFFFFFFFFF - l.toNat := by
    rw [UInt64.toNat_sub_of_le]
    · rfl
    · rw [UInt64.le_iff_toNat_le]
      exact Nat.le_of_lt_succ left
  unfold checkedAddU64
  simp only [UInt64.lt_iff_toNat_lt, room]
  split
  · simp only [reduceCtorEq, false_iff]
    omega
  · rw [Option.some.injEq, ← UInt64.toNat_inj, UInt64.toNat_add, Nat.mod_eq_of_lt (by omega)]
    exact eq_comm

theorem checkedSubU64_eq_some {l r s : UInt64} :
    checkedSubU64 l r = some s ↔ s.toNat + r.toNat = l.toNat := by
  unfold checkedSubU64
  simp only [gt_iff_lt, UInt64.lt_iff_toNat_lt]
  split
  · simp only [reduceCtorEq, false_iff]
    omega
  · have less : r ≤ l := by
      rw [UInt64.le_iff_toNat_le]
      omega
    rw [Option.some.injEq, ← UInt64.toNat_inj, UInt64.toNat_sub_of_le _ _ less]
    omega

/-- A signed number by its bits. -/
private theorem toInt_cases (x : Int64) :
    x.toUInt64.toNat < 2 ^ 63 ∧ x.toInt = x.toUInt64.toNat ∨
      2 ^ 63 ≤ x.toUInt64.toNat ∧ x.toUInt64.toNat < 2 ^ 64 ∧
        x.toInt + 2 ^ 64 = x.toUInt64.toNat := by
  have bits : x.toInt = _ := BitVec.toInt_eq_toNat_cond x.toBitVec
  have bound := x.toUInt64.toNat_lt
  rw [Int64.toNat_toBitVec] at bits
  split at bits <;> omega

private theorem toInt64_eq {u : UInt64} {s : Int64} :
    u.toInt64 = s ↔ u.toNat = s.toUInt64.toNat := by
  rw [UInt64.toNat_inj]
  constructor
  · intro same
    rw [← same]
    rfl
  · intro same
    rw [same]
    rfl

private theorem lt_zero {l : Int64} : l < 0 ↔ 2 ^ 63 ≤ l.toUInt64.toNat := by
  have zero : (0 : Int64).toInt = 0 := rfl
  rw [Int64.lt_iff_toInt_lt, zero]
  rcases toInt_cases l with ⟨bits, value⟩ | ⟨bits, bound, value⟩ <;> omega

private theorem toNat_int64Max : int64Max.toNat = 2 ^ 63 - 1 := rfl

theorem checkedAddI64_eq_some {l s : Int64} {r : UInt64} :
    checkedAddI64 l r = some s ↔ s.toInt = l.toInt + r.toNat := by
  have right := r.toNat_lt
  have left := toInt_cases l
  have sum := toInt_cases s
  have opposite : (-l).toUInt64.toNat = (2 ^ 64 - l.toUInt64.toNat) % 2 ^ 64 := by
    rw [Int64.toUInt64_neg, UInt64.toNat_neg]
    rfl
  unfold checkedAddI64
  simp only [lt_zero, ge_iff_le, gt_iff_lt, UInt64.le_iff_toNat_le, UInt64.lt_iff_toNat_lt,
    UInt64.toNat_add, UInt64.toNat_sub, toNat_int64Max, opposite]
  split
  · split
    · simp only [reduceCtorEq, false_iff]
      omega
    · rw [Option.some.injEq, toInt64_eq, UInt64.toNat_add]
      omega
  · split
    · simp only [reduceCtorEq, false_iff]
      omega
    · rw [Option.some.injEq, toInt64_eq, UInt64.toNat_add]
      omega

theorem checkedSubI64_eq_some {l s : Int64} {r : UInt64} :
    checkedSubI64 l r = some s ↔ s.toInt = l.toInt - r.toNat := by
  have right := r.toNat_lt
  have left := toInt_cases l
  have rest := toInt_cases s
  have bound : (int64Max + 1).toNat = 2 ^ 63 := rfl
  unfold checkedSubI64
  simp only [lt_zero, gt_iff_lt, UInt64.lt_iff_toNat_lt, UInt64.toNat_sub, toNat_int64Max, bound]
  split
  · split
    · simp only [reduceCtorEq, false_iff]
      omega
    · rw [Option.some.injEq, toInt64_eq, UInt64.toNat_sub]
      omega
  · split
    · simp only [reduceCtorEq, false_iff]
      omega
    · rw [Option.some.injEq, toInt64_eq, UInt64.toNat_sub]
      omega

/-! ## Calls

In the code the left operand is passed by value and the result goes to a place of the caller,
which may be the place of the left operand. -/

section Calls

variable {Place α : Type} [DecidableEq Place]

/-- A call with the value at one place as its left operand, and another place for its result. -/
def callAt (checked : α → UInt64 → Option α) (mem : Place → α) (left : Place) (r : UInt64)
    (out : Place) : Bool × (Place → α) :=
  match checked (mem left) r with
  | some value => (true, Function.update mem out value)
  | none => (false, mem)

/-- A call answers whether the result is in range. It stores the result if it is, and nothing
    otherwise. -/
structure ExactCall (value : α → Int) (InRange : Int → Prop) (result : Int) (mem : Place → α)
    (out : Place) (after : Bool × (Place → α)) : Prop where
  answer : after.1 = true ↔ InRange result
  stored : InRange result → value (after.2 out) = result
  others : ∀ place, place ≠ out → after.2 place = mem place
  unchanged : ¬ InRange result → after.2 = mem

/-- The numbers of 64 bits. -/
def InU64 (n : Int) : Prop := 0 ≤ n ∧ n < 2 ^ 64

/-- The numbers of 64 bits with a sign. -/
def InI64 (n : Int) : Prop := -2 ^ 63 ≤ n ∧ n < 2 ^ 63

variable {mem : Place → α} {left out : Place} {r : UInt64}

/-- A call is exact if it succeeds exactly with the result, and the results in range are the
    values of the type. -/
theorem exactCall {value : α → Int} {InRange : Int → Prop} {result : Int}
    {checked : α → UInt64 → Option α}
    (succeeds : ∀ s, checked (mem left) r = some s ↔ value s = result)
    (range : InRange result ↔ ∃ s, value s = result) :
    ExactCall value InRange result mem out (callAt checked mem left r out) := by
  unfold callAt
  cases answer : checked (mem left) r with
  | none =>
      have missing : ¬ InRange result := by
        intro inside
        obtain ⟨s, fits⟩ := range.mp inside
        have found := (succeeds s).mpr fits
        rw [answer] at found
        cases found
      exact ⟨by simp [missing], fun inside => absurd inside missing, fun _ _ => rfl, fun _ => rfl⟩
  | some s =>
      have fits := (succeeds s).mp answer
      have inside := range.mpr ⟨s, fits⟩
      have stored : value (Function.update mem out s out) = result := by
        rw [Function.update_self]
        exact fits
      exact ⟨by simp [inside], fun _ => stored, fun place other => Function.update_of_ne other ..,
        fun missing => absurd inside missing⟩

theorem inU64_iff {n : Int} : InU64 n ↔ ∃ s : UInt64, (s.toNat : Int) = n := by
  constructor
  · intro inside
    obtain ⟨low, high⟩ := inside
    have small : n.toNat < 2 ^ 64 := by omega
    refine ⟨UInt64.ofNat n.toNat, ?_⟩
    rw [UInt64.toNat_ofNat_of_lt' small]
    exact Int.toNat_of_nonneg low
  · intro value
    obtain ⟨s, rfl⟩ := value
    have bound := s.toNat_lt
    exact ⟨by omega, by omega⟩

theorem inI64_iff {n : Int} : InI64 n ↔ ∃ s : Int64, s.toInt = n := by
  constructor
  · intro inside
    obtain ⟨low, high⟩ := inside
    exact ⟨Int64.ofInt n, Int64.toInt_ofInt_of_le low high⟩
  · intro value
    obtain ⟨s, rfl⟩ := value
    exact ⟨Int64.le_toInt s, Int64.toInt_lt s⟩

end Calls

/-- The four functions are exact, whatever the places of the operand and the result are. -/
theorem checked_calls_exact {Place : Type} [DecidableEq Place] (unsigned : Place → UInt64)
    (signed : Place → Int64) (left out : Place) (r : UInt64) :
    ExactCall (fun n : UInt64 => (n.toNat : Int)) InU64 ((unsigned left).toNat + r.toNat) unsigned out
        (callAt checkedAddU64 unsigned left r out) ∧
      ExactCall (fun n : UInt64 => (n.toNat : Int)) InU64 ((unsigned left).toNat - r.toNat) unsigned
        out (callAt checkedSubU64 unsigned left r out) ∧
      ExactCall Int64.toInt InI64 ((signed left).toInt + r.toNat) signed out
        (callAt checkedAddI64 signed left r out) ∧
      ExactCall Int64.toInt InI64 ((signed left).toInt - r.toNat) signed out
        (callAt checkedSubI64 signed left r out) := by
  refine ⟨?_, ?_, ?_, ?_⟩
  · apply exactCall (fun s => checkedAddU64_eq_some.trans ?_) inU64_iff
    omega
  · apply exactCall (fun s => checkedSubU64_eq_some.trans ?_) inU64_iff
    omega
  · exact exactCall (fun s => checkedAddI64_eq_some) inI64_iff
  · exact exactCall (fun s => checkedSubI64_eq_some) inI64_iff

/-- The result goes to the place of the left operand. -/
example : (callAt checkedSubI64 (fun _ : Unit => -5) () 7 ()).2 () = -12 := by decide

end LedgerErgo.Common
