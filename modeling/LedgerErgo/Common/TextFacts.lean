import LedgerErgo.Common.Text

/-! # Which texts fit

A path fits if there is room for the first character of its last piece. An identifier and an
amount always fit into the texts of the review, and so does an address.
-/

namespace LedgerErgo.Common

/-! ## Paths -/

/-- What stands in front of the last piece of a path. -/
def bip32Front (path : Bip32Path) : Text := (bip32Pieces path.path).dropLast.flatten

/-- There is room for a character of the last piece. -/
def PathFits (path : Bip32Path) (outLen : Nat) : Prop :=
  path.path ≠ [] ∧ (bip32Front path).length + 1 < outLen

instance (path : Bip32Path) (outLen : Nat) : Decidable (PathFits path outLen) :=
  inferInstanceAs (Decidable (_ ∧ _))

theorem bip32Pieces_ne_nil (xs : List UInt32) : ∀ piece ∈ bip32Pieces xs, piece ≠ [] := by
  induction xs with
  | nil => exact fun _ here => absurd here List.not_mem_nil
  | cons x xs ih =>
      intro piece here
      have digits : decimal (x &&& 0x7FFFFFFF).toNat ≠ [] := Nat.toDigits_ne_nil
      simp only [bip32Pieces, List.cons_append, List.mem_cons, List.mem_append] at here
      rcases here with rfl | mark | rest
      · exact digits
      · split at mark
        · simp [List.mem_singleton.mp mark]
        · exact absurd mark List.not_mem_nil
      · split at rest
        · exact absurd rest List.not_mem_nil
        · rcases List.mem_cons.mp rest with rfl | later
          · simp
          · exact ih piece later

/-- Pieces are appended while there is room for a character of each. -/
theorem foldlM_appendPiece_isSome {outLen : Nat} {pieces : List Text} {text : Text}
    (nonempty : ∀ piece ∈ pieces, piece ≠ []) :
    (pieces.foldlM (appendPiece outLen) text).isSome ↔
      pieces = [] ∨ text.length + pieces.dropLast.flatten.length + 1 < outLen := by
  induction pieces generalizing text with
  | nil => simp
  | cons piece pieces ih =>
      have some : 0 < piece.length := List.length_pos_iff.mpr (nonempty piece (by simp))
      have length : (clip (outLen - text.length) piece).length =
          min (outLen - text.length - 1) piece.length := List.length_take
      rw [List.foldlM_cons, appendPiece]
      by_cases room : text.length + 1 < outLen
      · rw [if_neg (by omega)]
        simp only [Option.bind_eq_bind, Option.bind_some]
        rw [ih fun later here => nonempty later (List.mem_cons_of_mem _ here)]
        cases pieces with
        | nil => simp [room]
        | cons next pieces =>
            simp only [List.dropLast_cons_of_ne_nil (List.cons_ne_nil next pieces),
              List.flatten_cons, List.length_append, length, reduceCtorEq, false_or]
            omega
      · rw [if_pos (by omega)]
        simp only [Option.bind_eq_bind, Option.bind_none, Option.isSome_none, Bool.false_eq_true,
          reduceCtorEq, false_or, false_iff]
        omega

theorem bip32PathFormat_isSome {path : Bip32Path} {outLen : Nat} :
    (bip32PathFormat path outLen).isSome ↔ PathFits path outLen := by
  unfold bip32PathFormat PathFits bip32Front
  by_cases empty : path.path = []
  · simp [empty]
  · rw [if_neg empty, foldlM_appendPiece_isSome (bip32Pieces_ne_nil _)]
    have pieces : bip32Pieces path.path ≠ [] := by
      cases steps : path.path with
      | nil => exact absurd steps empty
      | cons x xs => simp [bip32Pieces]
    simp [empty, pieces]

/-! ## Identifiers and amounts -/

theorem formatHexId_isSome {formats : Formats} {id : List UInt8} {outLen : Nat}
    (fits : 2 * id.length + 1 ≤ outLen) : (formatHexId formats id outLen).isSome := by
  rw [formatHexId, formats.length_formatHex, if_neg (by omega)]
  rfl

theorem formatErgAmount_isSome {formats : Formats} {amount : UInt64} {outLen : Nat}
    (fits : 26 ≤ outLen) : (formatErgAmount formats amount outLen).isSome := by
  have length := formats.length_formatFpu64 amount
  rw [formatErgAmount, if_neg (by omega), if_neg (by omega)]
  rfl

/-! ## Addresses -/

theorem value_cons (byte : UInt8) (bytes : List UInt8) :
    BigEndian.value (byte :: bytes) = byte.toNat * 256 ^ bytes.length + BigEndian.value bytes := by
  induction bytes using List.reverseRecOn with
  | nil => simp [BigEndian.value]
  | append_singleton bytes last ih =>
      rw [← List.cons_append, BigEndian.value_append_singleton, ih,
        BigEndian.value_append_singleton, List.length_append, List.length_singleton, pow_succ]
      ring

/-- Five digits are enough for three bytes. -/
theorem length_digits_le (bytes : List UInt8) :
    (Nat.digits 58 (BigEndian.value bytes)).length ≤ 5 * ((bytes.length + 2) / 3) := by
  apply (Nat.digits_length_le_iff (by decide) _).mpr
  have small : BigEndian.value bytes < 256 ^ bytes.length := BigEndian.value_lt bytes
  have groups : 256 ^ bytes.length ≤ 256 ^ (3 * ((bytes.length + 2) / 3)) :=
    Nat.pow_le_pow_right (by decide) (by omega)
  have wider : 256 ^ (3 * ((bytes.length + 2) / 3)) ≤ 58 ^ (5 * ((bytes.length + 2) / 3)) := by
    rw [pow_mul, pow_mul]
    exact Nat.pow_le_pow_left (by decide) _
  omega

theorem length_base58Text_le (bytes : List UInt8) :
    3 * (base58Text bytes).length ≤ 5 * bytes.length + 10 := by
  induction bytes with
  | nil => simp [base58Text]
  | cons byte bytes ih =>
      by_cases zero : byte = 0
      · have text : (base58Text (byte :: bytes)).length = (base58Text bytes).length + 1 := by
          simp [base58Text, zero, value_cons, Nat.add_right_comm]
        rw [text, List.length_cons]
        omega
      · have text : (base58Text (byte :: bytes)).length =
            (Nat.digits 58 (BigEndian.value (byte :: bytes))).length := by
          simp [base58Text, zero]
        have digits := length_digits_le (byte :: bytes)
        rw [text]
        omega

theorem base58Text_ne_nil {bytes : List UInt8} (some : bytes ≠ []) : base58Text bytes ≠ [] := by
  cases bytes with
  | nil => exact absurd rfl some
  | cons byte bytes =>
      by_cases zero : byte = 0
      · simp [base58Text, zero]
      · have positive : 0 < byte.toNat := by
          apply Nat.pos_of_ne_zero
          intro none
          exact zero (UInt8.toNat_inj.mp none)
        have value : BigEndian.value (byte :: bytes) ≠ 0 := by
          rw [value_cons]
          have := Nat.mul_pos positive (Nat.pow_pos (a := 256) (n := bytes.length) (by decide))
          omega
        simp [base58Text, Nat.digits_ne_nil_iff_ne_zero.mpr value]

theorem formatB58Id_isSome {id : List UInt8} {outLen : Nat} (some : id ≠ [])
    (short : id.length ≤ maxEncInputSize) (fits : 5 * id.length + 10 ≤ 3 * outLen) :
    (formatB58Id id outLen).isSome := by
  have length := length_base58Text_le id
  have nonempty : 0 < (base58Text id).length := List.length_pos_iff.mpr (base58Text_ne_nil some)
  rw [formatB58Id, if_neg (by omega)]
  rfl

end LedgerErgo.Common
