import LedgerErgo.Helpers.Crypto

/-! # The handler of the address

An address is shown, or sent to an application that is known, or after the user has approved
it.
-/

namespace LedgerErgo.DeriveAddress

open LedgerErgo.Common LedgerErgo.Ergo LedgerErgo.Prog

/-- `P2PK_ADDRESS_STRING_MAX_LEN` -/
def p2pkAddressStringMaxLen : Nat := 55

/-- `send_response_address`; its buffer has room for all of it. -/
def sendResponseAddress (address : List UInt8) : AppM Reply := do
  modify (App.setCurrentCommand .none)
  return .data address

/-- `ui_action_derive_address`, and what follows the answer with a touch screen. -/
def actionDeriveAddress (approved : Bool) : AppM Reply := do
  modify fun app => { app with isUiBusy := false }
  let app ← get
  let ctx := app.deriveAddressCtx
  if approved then
    modify (App.approveToken ctx.appTokenValue)
    let reply ← if ctx.send then sendResponseAddress ctx.rawAddress
      else do
        modify (App.setCurrentCommand .none)
        pure resOk
    modify App.showMenu
    return reply
  else
    modify (App.setCurrentCommand .none)
    modify App.showMenu
    return resDeny

/-- The text of the address is a base 58 number that leaves room for its end. -/
def addressFits (address : List UInt8) : Bool :=
  match formatB58Id address p2pkAddressStringMaxLen with
  | some text => text.length < p2pkAddressStringMaxLen
  | none => false

section Handlers

variable (device : Device)

/-- `ui_display_address` -/
def displayAddress (send : Bool) (appAccessToken : UInt32) (path : Bip32Path) : AppM Reply := do
  if ¬ bip32PathValidate path (bip32Hardened 44) (bip32Hardened bip32ErgoCoin) .addressGe5 then
    sendError .bip32BadPath
  modify fun app => { app with
    commandsCtx := .deriveAddress { app.deriveAddressCtx with appTokenValue := appAccessToken, send } }
  let app ← get
  let fits := send || addressFits app.deriveAddressCtx.rawAddress
  let formatted := (bip32PathFormat path maxBip32StringLen).isSome
  match device.build with
  | .bagl => do
      if ¬ formatted then sendError .bip32FormattingFailed
      if ¬ fits then sendError .addressFormattingFailed
      modify (App.showPrompt .address)
      return .pending
  | .nbgl => do
      if ¬ fits then sendError .addressFormattingFailed
      ensure formatted .bip32BadPath
      actionDeriveAddress app.answer

/-- The checks of `handler_derive_address`. -/
def readRequest (cdata : Buffer) (hasAccessToken : Bool) :
    AppM (UInt8 × Bip32Path × UInt32 × PublicKey) := do
  let (networkType, cdata) ← checkReadParam (bufferReadU8 cdata) .notEnoughData
  let (path, cdata) ← checkReadParam (readBip32Path cdata) .notEnoughData
  let (accessToken, cdata) ← checkReadParam (readToken hasAccessToken cdata) .notEnoughData
  checkParamsFinished cdata
  ensure (bip32PathValidate path (bip32Hardened 44) (bip32Hardened bip32ErgoCoin) .addressGe5)
    .bip32BadPath
  let (publicKey, _) ← generatePublicKey device.sdk path
  return (networkType, path, accessToken, publicKey)

/-- `handler_derive_address`: an address that cannot be generated leaves the command open. -/
def handlerDeriveAddress (cdata : Buffer) (display hasAccessToken : Bool) : AppM Reply := do
  let app ← get
  ensure (app.isUiBusy = false) .busy
  modify (App.setCurrentCommand .deriveAddress)
  let (networkType, path, accessToken, publicKey) ←
    orSendError id (readRequest device cdata hasAccessToken)
  let address ← withSdk (fun _ => .addressGenerationFailed)
    (Address.fromPubkey device.sdk networkType publicKey (Bytes.zero _))
  modify fun app => { app with
    commandsCtx := .deriveAddress ⟨0, address, false⟩ }
  let app ← get
  if ¬ display ∧ isKnownApplication accessToken app.connectedAppId then
    sendResponseAddress app.deriveAddressCtx.rawAddress
  else displayAddress device (!display) accessToken path

end Handlers

end LedgerErgo.DeriveAddress
