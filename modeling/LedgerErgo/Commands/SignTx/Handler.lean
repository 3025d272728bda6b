import LedgerErgo.Commands.SignTx.OpCalls
import LedgerErgo.Commands.SignTx.Review
import LedgerErgo.Helpers.Crypto
import LedgerErgo.Helpers.InputFrame

/-! # The handler of the signing command

A session is opened by the subcommand that names the key, and gets a random id. Every other
subcommand carries the id. The handlers read the parameters and call the operation; an error
of any of them erases the session.
-/

namespace LedgerErgo.SignTx

open LedgerErgo.Common LedgerErgo.Ergo LedgerErgo.Prog

/-- The operation of the session, with the supply of the SDK. -/
def App.op (app : App) : Op := ⟨app.signTxCtx.p2pk, app.supply⟩

/-- Put back the operation of the session. -/
def App.setOp (op : Op) (app : App) : App :=
  { App.modifyOp (fun _ => op.ctx) app with supply := op.supply }

/-- The mark of `handler_err` -/
def markError : App → App := App.modifySign fun ctx => { ctx with state := .error }

/-- `stx_operation_p2pk_init` leaves the context to the handler if it fails. -/
def opInit (call : OpM Unit) : AppM Unit := zoom App.op App.setOp id call

/-- A call of the operation, whose own `handler_err` erases the context. -/
def opCall (call : OpM Unit) : AppM Unit := orSendError id (zoom App.op App.setOp id call)

/-- `CHECK_SESSION` -/
def checkSession (session : UInt8) : AppM Unit := do
  let app ← get
  ensure (session = app.signTxCtx.session) .badSessionId

/-- `CHECK_PROPER_STATE` -/
def checkApproved : AppM Unit := do
  let app ← get
  ensure (app.signTxCtx.state = .approved) .badState

section Handlers

variable (device : Device) [UnionLayout OpMem]

/-- `bip32_public_key` -/
def bip32PublicKey (path : Bip32Path) : AppM PublicKey := do
  ensure (bip32PathValidate path (bip32Hardened 44) (bip32Hardened bip32ErgoCoin) .addressGe5)
    .bip32BadPath
  opInit (zoom Op.mem Op.setMem id (sdkCalls .internalCryptoError 3))
  return device.sdk.scalarMult (device.sdk.deriveBip32 path).1

/-- `show_output_screen_if_needed` -/
def showOutputScreenIfNeeded : AppM Reply := do
  let app ← get
  if shouldShowOutputConfirmScreen app.signTxCtx.p2pk then showOutputConfirmScreen device
  else return resOk

/-- The session gets an id that differs from the one in the context. -/
def App.openSession (app : App) : App :=
  let (session, bytes) := sessionIdNewRandom app.signTxCtx.session app.supply.bytes
  { App.modifySign (fun ctx => { ctx with state := .initialized, session }) app with
    supply := { app.supply with bytes } }

/-- `handle_init_p2pk` -/
def handleInitP2pk (cdata : Buffer) (hasToken : Bool) (appSessionId : UInt32) : AppM Reply := do
  let (networkId, cdata) ← checkReadParam (bufferReadU8 cdata) .notEnoughData
  let (path, cdata) ← checkReadParam (readBip32Path cdata) .bufferError
  let (appSessionIdIn, cdata) ← checkReadParam (readToken hasToken cdata) .notEnoughData
  checkParamsFinished cdata
  opInit (init device.sdk path networkId)
  modify App.openSession
  showTokenAndPath device appSessionIdIn (isKnownApplication appSessionId appSessionIdIn)

/-- `handle_tx_start` -/
def handleTxStart (cdata : Buffer) : AppM Reply := do
  checkApproved
  let (inputsCount, cdata) ← checkReadParam (bufferReadU16 cdata) .notEnoughData
  let (dataInputsCount, cdata) ← checkReadParam (bufferReadU16 cdata) .notEnoughData
  let (tokensCount, cdata) ← checkReadParam (bufferReadU8 cdata) .notEnoughData
  let (outputsCount, cdata) ← checkReadParam (bufferReadU16 cdata) .notEnoughData
  checkParamsFinished cdata
  opCall (startTx inputsCount dataInputsCount outputsCount tokensCount)
  return resOk

/-- `handle_tokens` -/
def handleTokens (cdata : Buffer) : AppM Reply := do
  checkApproved
  opCall (addTokens cdata)
  return resOk

/-- What a frame says before its tokens. -/
structure FrameHead where
  boxId : ErgoId
  framesCount : UInt8
  frameIndex : UInt8
  value : UInt64
  tokensCount : UInt8

/-- The reads of `handle_input_frame` up to the tokens. -/
def readFrameHead (cdata : Buffer) : Option (FrameHead × Buffer) := do
  let (boxId, cdata) ← bufferReadBytes 32 cdata
  let (framesCount, cdata) ← bufferReadU8 cdata
  let (frameIndex, cdata) ← bufferReadU8 cdata
  let (value, cdata) ← bufferReadU64 cdata
  let (tokensCount, cdata) ← bufferReadU8 cdata
  return (⟨boxId, framesCount, frameIndex, value, tokensCount⟩, cdata)

/-- A frame starts a new input if its index is zero; then the length of the extension follows. -/
def startInput (head : FrameHead) (cdata : Buffer) : AppM Unit :=
  if head.frameIndex = 0 then do
    let (extensionLength, _) ← checkReadParam (bufferReadU32 cdata) .notEnoughData
    opCall (addInput head.boxId head.value head.framesCount extensionLength)
  else pure ()

/-- `handle_input_frame` -/
def handleInputFrame (sessionKey : Bytes sessionKeyLen) (cdata : Buffer) : AppM Reply := do
  checkApproved
  let frameDataLen := inputFrameDataLength cdata
  ensure (frameDataLen ≠ 0) .notEnoughData
  let signature := frameSignature device.sdk sessionKey (cdata.take frameDataLen.toNat)
  ensure (signature = ((inputFrameSignaturePtr cdata).getD []).take inputFrameSignatureLen)
    .badFrameSignature
  let (head, cdata) ← checkReadParam (readFrameHead cdata) .notEnoughData
  let tokensLen := frameTokensLen head.tokensCount
  let tokens := cdata.take tokensLen.toNat
  ensure (bufferCanRead cdata (tokensLen.toNat + inputFrameSignatureLen)) .notEnoughData
  startInput head (cdata.drop (tokensLen.toNat + inputFrameSignatureLen))
  opCall (addInputTokens head.boxId head.frameIndex tokens)
  return resOk

/-- `handle_input_context_extension` -/
def handleInputContextExtension (cdata : Buffer) : AppM Reply := do
  checkApproved
  opCall (addInputContextExtension cdata)
  return resOk

/-- `handle_data_inputs` -/
def handleDataInputs (cdata : Buffer) : AppM Reply := do
  checkApproved
  opCall (addDataInputs cdata)
  return resOk

/-- `handle_output_init` -/
def handleOutputInit (cdata : Buffer) : AppM Reply := do
  checkApproved
  let (value, cdata) ← checkReadParam (bufferReadU64 cdata) .notEnoughData
  let (ergoTreeSize, cdata) ← checkReadParam (bufferReadU32 cdata) .notEnoughData
  let (creationHeight, cdata) ← checkReadParam (bufferReadU32 cdata) .notEnoughData
  let (tokensCount, cdata) ← checkReadParam (bufferReadU8 cdata) .notEnoughData
  let (registersSize, cdata) ← checkReadParam (bufferReadU32 cdata) .notEnoughData
  checkParamsFinished cdata
  opCall (addOutput device.sdk value ergoTreeSize creationHeight tokensCount registersSize)
  return resOk

/-- `handle_output_tree_chunk` -/
def handleOutputTreeChunk (cdata : Buffer) : AppM Reply := do
  checkApproved
  opCall (addOutputTreeChunk device.sdk cdata)
  showOutputScreenIfNeeded device

/-- `handle_output_tree_fee` -/
def handleOutputTreeFee (cdata : Buffer) : AppM Reply := do
  checkApproved
  checkParamsFinished cdata
  opCall (addOutputTreeFee device.sdk)
  showOutputScreenIfNeeded device

/-- `handle_output_tree_change`: the path is read into the information about the output. -/
def handleOutputTreeChangePath (cdata : Buffer) : AppM Reply := do
  checkApproved
  let (path, _) ← checkReadParam (readBip32Path cdata) .bufferError
  modify (App.modifyOp (writePath path))
  let pubKey ← bip32PublicKey device path
  opCall (handleOutputTreeChange device.sdk path pubKey)
  showOutputScreenIfNeeded device

/-- `handle_output_tokens` -/
def handleOutputTokens (cdata : Buffer) : AppM Reply := do
  checkApproved
  opCall (addOutputTokens cdata)
  showOutputScreenIfNeeded device

/-- `handle_output_registers` -/
def handleOutputRegisters (cdata : Buffer) : AppM Reply := do
  checkApproved
  opCall (addOutputRegisters cdata)
  showOutputScreenIfNeeded device

/-- `handle_sign_confirm` -/
def handleSignConfirm : AppM Reply := do
  checkApproved
  showConfirmScreen device

/-- The subcommands that work on an open session. -/
inductive Subcommand where
  | startTx | tokenIds | inputFrame | inputContextExtension | dataInput | output | outputTreeChunk
  | outputMinersFeeTree | outputChangeTree | outputTokens | outputRegisters | confirm
deriving DecidableEq

/-- `sign_transaction_subcommand_e`, of an open session -/
def Subcommand.ofByte (subcommand : UInt8) : Option Subcommand :=
  match subcommand.toNat with
  | 0x10 => some .startTx
  | 0x11 => some .tokenIds
  | 0x12 => some .inputFrame
  | 0x13 => some .inputContextExtension
  | 0x14 => some .dataInput
  | 0x15 => some .output
  | 0x16 => some .outputTreeChunk
  | 0x17 => some .outputMinersFeeTree
  | 0x18 => some .outputChangeTree
  | 0x19 => some .outputTokens
  | 0x1A => some .outputRegisters
  | 0x20 => some .confirm
  | _ => none

/-- The handler of a subcommand. -/
def Subcommand.handle (sessionKey : Bytes sessionKeyLen) (cdata : Buffer) :
    Subcommand → AppM Reply
  | .startTx => handleTxStart cdata
  | .tokenIds => handleTokens cdata
  | .inputFrame => handleInputFrame device sessionKey cdata
  | .inputContextExtension => handleInputContextExtension cdata
  | .dataInput => handleDataInputs cdata
  | .output => handleOutputInit device cdata
  | .outputTreeChunk => handleOutputTreeChunk device cdata
  | .outputMinersFeeTree => handleOutputTreeFee device cdata
  | .outputChangeTree => handleOutputTreeChangePath device cdata
  | .outputTokens => handleOutputTokens device cdata
  | .outputRegisters => handleOutputRegisters device cdata
  | .confirm => handleSignConfirm device

/-- `SIGN_TRANSACTION_SUBCOMMAND_SIGN_PK` -/
def handleSignPk (cdata : Buffer) (hasToken : Bool) : AppM Reply := do
  modify (App.setCurrentCommand .signTransaction)
  let app ← get
  orSendError markError (handleInitP2pk device cdata hasToken app.connectedAppId)

/-- A subcommand of an open session, with its checks. -/
def handleSubcommand (subcommand : Subcommand) (session : UInt8) (cdata : Buffer) : AppM Reply := do
  checkCommand .signTransaction
  checkSession session
  let app ← get
  subcommand.handle device app.sessionKey cdata

/-- `handler_sign_transaction` -/
def handlerSignTransaction (cdata : Buffer) (subcommand sessionOrToken : UInt8) : AppM Reply := do
  let app ← get
  ensure (app.isUiBusy = false) .busy
  if subcommand = 0x01 then
    ensure (sessionOrToken = 0x01 ∨ sessionOrToken = 0x02) .wrongP1P2
    handleSignPk device cdata (sessionOrToken = 0x02)
  else
    orSendError markError
      (match Subcommand.ofByte subcommand with
      | some subcommand => handleSubcommand device subcommand sessionOrToken cdata
      | none => throw .wrongSubcommand)

end Handlers

end LedgerErgo.SignTx
