import LedgerErgo.Commands.AttestInput.Response
import LedgerErgo.Helpers.CmdMacros

/-! # The handler of the attestation

The first subcommand opens a session for one box and asks the user, unless the application is
known. The other ones stream the box and, once it is complete, fetch the frames. An error of
any of them erases the session.
-/

namespace LedgerErgo.AttestInput

open LedgerErgo.Common LedgerErgo.Ergo LedgerErgo.Prog

/-- Change the context of the attestation. -/
def App.modifyAttest (f : AttestInputCtx → AttestInputCtx) (app : App) : App :=
  app.setAttestInput (f app.attestInputCtx)

/-- What the serializer of the box works on. -/
def App.ser (app : App) : SerState (BoxCtx Shared) Shared :=
  ⟨app.attestInputCtx.box, app.attestInputCtx.hash,
    ⟨app.supply.faults, app.attestInputCtx.tokensTable, app.attestInputCtx.shared⟩⟩

/-- Put back what the serializer of the box works on. -/
def App.setSer (ser : SerState (BoxCtx Shared) Shared) (app : App) : App :=
  { App.modifyAttest (fun ctx => { ctx with
      box := ser.ctx
      hash := ser.hash
      tokensTable := ser.mem.table
      shared := ser.mem.cb }) app with
    supply := { app.supply with faults := ser.mem.faults } }

/-- The mark of `handler_err` -/
def markError : App → App := App.modifyAttest fun ctx => { ctx with state := .error }

/-- A call of the serializer of the box. -/
def boxCall {α : Type} (call : EStateM BoxErr (SerState (BoxCtx Shared) Shared) α) : AppM α :=
  zoom App.ser App.setSer swFromTxBoxErr call

/-- `CHECK_SESSION` -/
def checkSession (session : UInt8) : AppM Unit := do
  let app ← get
  ensure (session = app.attestInputCtx.session) .badSessionId

/-- `CHECK_PROPER_STATE` -/
def checkState (state : AttestInputState) : AppM Unit := do
  let app ← get
  ensure (app.attestInputCtx.state = state) .badState

/-- The parameters of `handle_init`. -/
structure InitParams where
  txId : ErgoId
  boxIndex : UInt16
  value : UInt64
  ergoTreeSize : UInt32
  creationHeight : UInt32
  tokensCount : UInt8
  registersSize : UInt32

/-- The reads of `handle_init` up to the token of the application. -/
def readInitParams (cdata : Buffer) : Option (InitParams × Buffer) := do
  let (txId, cdata) ← bufferReadBytes 32 cdata
  let (boxIndex, cdata) ← bufferReadU16 cdata
  let (value, cdata) ← bufferReadU64 cdata
  let (ergoTreeSize, cdata) ← bufferReadU32 cdata
  let (creationHeight, cdata) ← bufferReadU32 cdata
  let (tokensCount, cdata) ← bufferReadU8 cdata
  let (registersSize, cdata) ← bufferReadU32 cdata
  return (⟨txId, boxIndex, value, ergoTreeSize, creationHeight, tokensCount, registersSize⟩, cdata)

section Handlers

variable (device : Device) [SharedLayout]

/-- `ui_action_attest_input`, and what follows the answer with a touch screen. -/
def actionAttestInput (approved : Bool) : AppM Reply := do
  modify fun app => { app with isUiBusy := false }
  let app ← get
  if approved then
    modify (App.approveToken app.attestInputCtx.shared.appTokenValue)
    modify (App.modifyAttest fun ctx => { ctx with state := .approved })
    modify App.showMenu
    return .data [app.attestInputCtx.session]
  else
    modify (App.setCurrentCommand .none)
    modify App.showMenu
    return resDeny

/-- `ui_display_access_token` -/
def displayAccessToken (appAccessToken : UInt32) : AppM Reply := do
  modify (App.modifyAttest fun ctx => { ctx with shared := .ui appAccessToken })
  match device.build with
  | .bagl => do
      modify (App.showPrompt .attestInput)
      return .pending
  | .nbgl => do
      let app ← get
      actionAttestInput app.answer

/-- `box_token_cb` is the only callback of the box. -/
def boxCallbacks : BoxCallbacks Shared where
  onType := none
  onToken := some boxTokenCb
  onFinished := none

/-- The box is started with an empty token table and a fresh hash. -/
def startBox (params : InitParams) : AppM Unit := do
  modify (App.modifyAttest fun ctx => { ctx with
    boxId := params.txId
    boxIndex := params.boxIndex
    tokensTable := .empty
    shared := .ui 0 })
  boxCall (onMem (sdkCall .hasher))
  modify (App.modifyAttest fun ctx => { ctx with hash := [] })
  boxCall (TxSerBox.init params.value params.ergoTreeSize params.creationHeight params.tokensCount
    params.registersSize)
  modify (App.modifyAttest fun ctx => { ctx with
    box := TxSerBox.setCallbacks ctx.box boxCallbacks })

/-- The session gets an id that differs from the one in the context. -/
def App.openSession (app : App) : App :=
  let (session, bytes) := sessionIdNewRandom app.attestInputCtx.session app.supply.bytes
  { App.modifyAttest (fun ctx => { ctx with state := .initialized, session }) app with
    supply := { app.supply with bytes } }

/-- `handle_init` -/
def handleInit (cdata : Buffer) (hasToken : Bool) (appSessionId : UInt32) : AppM Reply := do
  let (params, cdata) ← checkReadParam (readInitParams cdata) .notEnoughData
  let (appSessionIdIn, cdata) ← checkReadParam (readToken hasToken cdata) .notEnoughData
  checkParamsFinished cdata
  startBox params
  modify App.openSession
  if isKnownApplication appSessionId appSessionIdIn then
    modify (App.modifyAttest fun ctx => { ctx with state := .approved })
    let app ← get
    return .data [app.attestInputCtx.session]
  else displayAccessToken device appSessionIdIn

/-- `check_box_finished` -/
def checkBoxFinished : AppM Reply := do
  let app ← get
  let ctx := app.attestInputCtx
  if TxSerBox.isFinished ctx.box then
    let boxId ← boxCall (TxSerBox.idHash device.sdk.blake2b256 ctx.boxId ctx.boxIndex)
    modify (App.modifyAttest fun ctx => { ctx with boxId, state := .finished })
    return .data [getFramesCount (UInt8.ofNat ctx.tokensTable.count)]
  else return resOk

/-- `CHECK_CALL_BOX_FINISHED`, with the response behind it. -/
def checkCallBoxFinished
    (call : EStateM BoxErr (SerState (BoxCtx Shared) Shared) Progress) : AppM Reply := do
  checkState .approved
  let res ← boxCall call
  match res with
  | .ok => checkBoxFinished device
  | .moreData => return resOk

/-- `handle_tree_chunk` -/
def handleTreeChunk (cdata : Buffer) : AppM Reply :=
  checkCallBoxFinished device (TxSerBox.addTree cdata)

/-- `handle_tokens` -/
def handleTokens (cdata : Buffer) : AppM Reply :=
  checkCallBoxFinished device (TxSerBox.addTokens cdata none)

/-- `handle_registers_chunk` -/
def handleRegistersChunk (cdata : Buffer) : AppM Reply :=
  checkCallBoxFinished device (TxSerBox.addRegisters cdata)

/-- `handle_get_frame` -/
def handleGetFrame (sessionKey : Bytes sessionKeyLen) (cdata : Buffer) : AppM Reply := do
  checkState .finished
  let (index, cdata) ← checkReadParam (bufferReadU8 cdata) .notEnoughData
  checkParamsFinished cdata
  let app ← get
  let (signed, response) ← ofExcept
    (sendResponseAttestedInputFrame device.sdk app.attestInputCtx sessionKey index)
  modify (App.logSigned signed)
  return .data response

/-- The subcommands that work on an open session. -/
inductive Subcommand where
  | treeChunk | tokens | registers | getResponseFrame
deriving DecidableEq

/-- `attest_input_subcommand_e`, of an open session -/
def Subcommand.ofByte (subcommand : UInt8) : Option Subcommand :=
  match subcommand.toNat with
  | 0x02 => some .treeChunk
  | 0x03 => some .tokens
  | 0x04 => some .registers
  | 0x05 => some .getResponseFrame
  | _ => none

/-- The handler of a subcommand. -/
def Subcommand.handle (sessionKey : Bytes sessionKeyLen) (cdata : Buffer) :
    Subcommand → AppM Reply
  | .treeChunk => handleTreeChunk device cdata
  | .tokens => handleTokens device cdata
  | .registers => handleRegistersChunk device cdata
  | .getResponseFrame => handleGetFrame device sessionKey cdata

/-- `ATTEST_INPUT_SUBCOMMAND_INIT` -/
def handleInitCommand (cdata : Buffer) (hasToken : Bool) : AppM Reply := do
  modify (App.setCurrentCommand .attestInputBox)
  let app ← get
  orSendError markError (handleInit device cdata hasToken app.connectedAppId)

/-- A subcommand of an open session, with its checks. -/
def handleSubcommand (subcommand : Subcommand) (session : UInt8) (cdata : Buffer) : AppM Reply := do
  checkCommand .attestInputBox
  checkSession session
  let app ← get
  subcommand.handle device app.sessionKey cdata

/-- `handler_attest_input` -/
def handlerAttestInput (cdata : Buffer) (subcommand sessionOrToken : UInt8) : AppM Reply := do
  let app ← get
  ensure (app.isUiBusy = false) .busy
  if subcommand = 0x01 then
    orSendError markError (ensure (sessionOrToken = 0x01 ∨ sessionOrToken = 0x02) .wrongP1P2)
    handleInitCommand device cdata (sessionOrToken = 0x02)
  else
    orSendError markError
      (match Subcommand.ofByte subcommand with
      | some subcommand => handleSubcommand device subcommand sessionOrToken cdata
      | none => throw .wrongSubcommand)

end Handlers

end LedgerErgo.AttestInput
