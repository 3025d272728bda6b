import LedgerErgo.Ergo.TxSerBox

/-! # Context of an attestation

An attestation streams one box. The tokens of the box are collected, since the frames of the
response carry them; the place of their amounts is shared with the data of the prompt that
starts the attestation.
-/

namespace LedgerErgo.AttestInput

open LedgerErgo.Ergo LedgerErgo.Prog

/-- `attest_input_state_e` -/
inductive AttestInputState where
  | initialized | finished | approved | error
deriving Repr, DecidableEq

/-- The union of `attest_input_ctx_t`, with the member written last. The text of the token on
    the screen is left out. -/
inductive Shared where
  | tokenAmounts (amounts : Vector UInt64 tokenMaxCount)
  | ui (appTokenValue : UInt32)

/-- How the bytes of one member of the union read as the other one. -/
class SharedLayout where
  amountsOfUi : UInt32 → Vector UInt64 tokenMaxCount
  uiOfAmounts : Vector UInt64 tokenMaxCount → UInt32

namespace Shared

variable [SharedLayout]

/-- The member `token_amounts`. -/
def amounts : Shared → Vector UInt64 tokenMaxCount
  | .tokenAmounts amounts => amounts
  | .ui appTokenValue => SharedLayout.amountsOfUi appTokenValue

/-- The field `ui.app_token_value`. -/
def appTokenValue : Shared → UInt32
  | .tokenAmounts amounts => SharedLayout.uiOfAmounts amounts
  | .ui appTokenValue => appTokenValue

end Shared

/-- `attest_input_ctx_t` -/
structure AttestInputCtx where
  /-- The transaction id, and the box id once the box is finished. -/
  boxId : ErgoId
  tokensTable : TokenTable
  shared : Shared
  box : BoxCtx Shared
  hash : List UInt8
  boxIndex : UInt16
  session : UInt8
  state : AttestInputState

/-- A zeroed context. -/
def AttestInputCtx.zero : AttestInputCtx where
  boxId := Bytes.zero 32
  tokensTable := .empty
  shared := .ui 0
  box := .zero Shared
  hash := []
  boxIndex := 0
  session := 0
  state := .initialized

section Callback

variable [SharedLayout]

/-- The next slot of the table and its amount are filled. -/
def addToken (id : ErgoId) (value : UInt64) (mem : Mem Shared)
    (room : mem.table.count < tokenMaxCount) : Mem Shared :=
  { mem with
    table := mem.table.push id room
    cb := .tokenAmounts (mem.cb.amounts.setIfInBounds mem.table.count value) }

/-- `box_token_cb` -/
def boxToken (token : BoxType × ErgoId × UInt64) : EStateM BoxErr (Mem Shared) Progress := do
  let mem ← get
  if room : mem.table.count < tokenMaxCount then
    ensure (mem.table.findTokenIndex token.2.1 = none) .badTokenId
    set (addToken token.2.1 token.2.2 mem room)
    return .ok
  else throw .tooManyTokens

/-- The callback takes a new id while there is room, and keeps the amount in its place. -/
theorem boxToken_ok {type : BoxType} {id : ErgoId} {value : UInt64} {m n : Mem Shared}
    {r : Progress} :
    boxToken (type, id, value) m = .ok r n ↔
      ∃ room : m.table.count < tokenMaxCount, id ∉ m.table.tokens ∧ .ok = r ∧
        addToken id value m room = n := by
  rw [← TokenTable.findTokenIndex_none]
  unfold boxToken
  by_cases room : m.table.count < tokenMaxCount
  · simp [room, and_comm]
  · simp [room]

/-- `box_token_cb`, as a callback -/
def boxTokenCb : BoxTokenCb Shared where
  run := boxToken
  appends := by
    rintro ⟨type, id, value⟩ m r n ok
    obtain ⟨room, -, -, rfl⟩ := boxToken_ok.mp ok
    exact TokenTable.push_extends m.table id room

end Callback

end LedgerErgo.AttestInput
