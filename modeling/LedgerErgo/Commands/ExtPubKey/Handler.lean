import LedgerErgo.Helpers.Crypto

/-! # The handler of the extended public key

The key of an account is handed out to an application that is known, or after the user has
approved it.
-/

namespace LedgerErgo.ExtPubKey

open LedgerErgo.Common LedgerErgo.Ergo LedgerErgo.Prog

/-- `send_response_extended_pubkey`; its buffer has room for all of it. -/
def sendResponseExtendedPubkey (rawPublicKey : PublicKey) (chainCode : Bytes 32) : AppM Reply := do
  modify (App.setCurrentCommand .none)
  let parity : UInt8 := if rawPublicKey.val.getD 64 0 &&& 1 ≠ 0 then 0x03 else 0x02
  return .data (parity :: (rawPublicKey.val.drop 1).take 32 ++ chainCode.val)

/-- `ui_action_get_extended_pubkey`, and what follows the answer with a touch screen. -/
def actionGetExtendedPubkey (approved : Bool) : AppM Reply := do
  modify fun app => { app with isUiBusy := false }
  let app ← get
  let ctx := app.extPubKeyCtx
  if approved then
    modify (App.approveToken ctx.appTokenValue)
    let reply ← sendResponseExtendedPubkey ctx.rawPublicKey ctx.chainCode
    modify (App.setCurrentCommand .none)
    modify App.showMenu
    return reply
  else
    modify (App.setCurrentCommand .none)
    modify App.showMenu
    return resDeny

section Handlers

variable (device : Device)

/-- `ui_display_account` -/
def displayAccount (appAccessToken : UInt32) (path : Bip32Path) : AppM Reply := do
  ensure (bip32PathValidate path (bip32Hardened 44) (bip32Hardened bip32ErgoCoin) .accountGe3)
    .bip32BadPath
  match device.build with
  | .bagl => do
      if bip32PathFormat path maxBip32StringLen = none then sendError .bip32FormattingFailed
      modify fun app => { app with
        commandsCtx := .extPubKey { app.extPubKeyCtx with appTokenValue := appAccessToken } }
      modify (App.showPrompt .extPubKey)
      return .pending
  | .nbgl => do
      ensure (bip32PathFormat path maxBip32StringLen ≠ none) .bip32BadPath
      modify fun app => { app with
        commandsCtx := .extPubKey { app.extPubKeyCtx with appTokenValue := appAccessToken } }
      let app ← get
      actionGetExtendedPubkey app.answer

/-- The checks of `handler_get_extended_public_key`. -/
def readRequest (cdata : Buffer) (hasAccessToken : Bool) : AppM (Bip32Path × UInt32) := do
  let (path, cdata) ← checkReadParam (readBip32Path cdata) .notEnoughData
  let (accessToken, cdata) ← checkReadParam (readToken hasAccessToken cdata) .notEnoughData
  checkParamsFinished cdata
  ensure (bip32PathValidate path (bip32Hardened 44) (bip32Hardened bip32ErgoCoin) .accountGe3)
    .bip32BadPath
  let (rawPublicKey, chainCode) ← generatePublicKey device.sdk path
  modify fun app => { app with commandsCtx := .extPubKey ⟨0, chainCode, rawPublicKey⟩ }
  return (path, accessToken)

/-- `handler_get_extended_public_key` -/
def handlerGetExtendedPublicKey (cdata : Buffer) (hasAccessToken : Bool) : AppM Reply := do
  let app ← get
  ensure (app.isUiBusy = false) .busy
  modify (App.setCurrentCommand .getExtendedPublicKey)
  let (path, accessToken) ← orSendError id (readRequest device cdata hasAccessToken)
  let app ← get
  if isKnownApplication accessToken app.connectedAppId then
    sendResponseExtendedPubkey app.extPubKeyCtx.rawPublicKey app.extPubKeyCtx.chainCode
  else displayAccount device accessToken path

end Handlers

end LedgerErgo.ExtPubKey
