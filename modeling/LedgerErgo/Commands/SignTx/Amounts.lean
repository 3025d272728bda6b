import LedgerErgo.Common.SafeInt
import LedgerErgo.Ergo.TxSerFull

/-! # The amounts of a transaction

While a transaction is uploaded its inputs and outputs are summed up: the value that
leaves the wallet, the fee, and for each token how much more goes in than comes out. The
token table is shared with the serializers. A failure ends the session, so what it leaves
half done is not kept.
-/

namespace LedgerErgo.SignTx

open LedgerErgo.Common LedgerErgo.Ergo

/-- An array of `TOKEN_MAX_COUNT` numbers. -/
abbrev PerToken (α : Type) := Vector α tokenMaxCount

/-- `sign_transaction_amounts_ctx_t`; the member `tokens_table` is shared. -/
structure Amounts where
  fee : UInt64
  value : UInt64
  tokens : PerToken Int64
deriving DecidableEq

namespace Amounts

/-- `stx_amounts_init`; the table is emptied along with it. -/
def init : Amounts := ⟨0, 0, Vector.replicate tokenMaxCount 0⟩

/-- `stx_amounts_add_input` -/
def addInput (amounts : Amounts) (value : UInt64) : Option Amounts :=
  (checkedAddU64 amounts.value value).map fun value => { amounts with value }

/-- The slot of a token in the table; a new token gets the next one, set to zero. -/
def inputSlot (amounts : Amounts) (table : TokenTable) (id : ErgoId) :
    Option (Nat × Amounts × TokenTable) :=
  match table.findTokenIndex id with
  | some index => some (index, amounts, table)
  | none =>
      (table.addToken id).map fun (index, table) =>
        (index, { amounts with tokens := amounts.tokens.setIfInBounds index 0 }, table)

/-- `stx_amounts_add_input_token` -/
def addInputToken (amounts : Amounts) (table : TokenTable) (id : ErgoId) (value : UInt64) :
    Except InputErr (Amounts × TokenTable) :=
  match amounts.inputSlot table id with
  | none => .error .tooManyTokens
  | some (index, amounts, table) =>
      match checkedAddI64 (amounts.tokens[index]?.getD 0) value with
      | none => .error .u64Overflow
      | some sum => .ok ({ amounts with tokens := amounts.tokens.setIfInBounds index sum }, table)

/-- `stx_amounts_add_output` -/
def addOutput (amounts : Amounts) (type : BoxType) (value : UInt64) : Except BoxErr Amounts :=
  match type with
  | .change =>
      match checkedSubU64 amounts.value value with
      | none => .error .u64Overflow
      | some left => .ok { amounts with value := left }
  | .fee =>
      match checkedSubU64 amounts.value value, checkedAddU64 amounts.fee value with
      | some left, some fee => .ok { amounts with value := left, fee }
      | _, _ => .error .u64Overflow
  | .tree => .ok amounts

/-- `stx_amounts_add_output_token` -/
def addOutputToken (amounts : Amounts) (table : TokenTable) (id : ErgoId) (value : UInt64) :
    Except BoxErr Amounts :=
  match table.findTokenIndex id with
  | none => .error .badTokenId
  | some index =>
      match checkedSubI64 (amounts.tokens[index]?.getD 0) value with
      | none => .error .u64Overflow
      | some left => .ok { amounts with tokens := amounts.tokens.setIfInBounds index left }

/-- `stx_amounts_non_zero_tokens_count` -/
def nonZeroTokensCount (amounts : Amounts) : Nat := amounts.tokens.toList.countP (· ≠ 0)

theorem inputSlot_extends {amounts amounts' : Amounts} {table table' : TokenTable} {id : ErgoId}
    {index : Nat} (slot : amounts.inputSlot table id = some (index, amounts', table')) :
    table'.Extends table := by
  unfold inputSlot at slot
  split at slot
  · obtain ⟨-, -, rfl⟩ := slot
    exact .refl _
  · simp only [Option.map_eq_some_iff, Prod.exists, Prod.mk.injEq] at slot
    obtain ⟨_, _, added, -, -, rfl⟩ := slot
    exact TokenTable.addToken_extends added

/-- The table only grows. -/
theorem addInputToken_extends {amounts amounts' : Amounts} {table table' : TokenTable}
    {id : ErgoId} {value : UInt64}
    (added : amounts.addInputToken table id value = .ok (amounts', table')) :
    table'.Extends table := by
  unfold addInputToken at added
  split at added
  · simp at added
  · rename_i slot
    split at added
    · simp at added
    · simp only [Except.ok.injEq, Prod.mk.injEq] at added
      obtain ⟨-, rfl⟩ := added
      exact inputSlot_extends slot

end Amounts

end LedgerErgo.SignTx
