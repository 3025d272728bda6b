import LedgerErgo.Ergo.TxSerBox
import LedgerErgo.Ergo.TxSerInput

/-! # Serializer of a transaction

The full serializer drives the three others through five phases: distinct token ids,
inputs, data inputs, outputs, done. The contexts of the current input and of the
current box share their storage. Each call either makes progress or puts the context
into its error state for good.
-/

namespace LedgerErgo.Ergo

open LedgerErgo.Common LedgerErgo.Prog

/-- The error codes of `ergo_tx_serializer_full_result_e`. -/
inductive FullErr where
  | badTokenId | badTokenValue | badContextExtensionSize | badDataInput | badInputId
  | badTokenIndex | badFrameIndex | badInputCount | badOutputCount | tooManyTokens
  | tooManyInputs | tooManyDataInputs | tooManyInputFrames | tooManyOutputs | tooMuchData
  | hasher | buffer | badState | u64Overflow | smallChunk
deriving Repr, DecidableEq

/-- `ergo_tx_serializer_full_state_e` -/
inductive FullState where
  | tokensStarted | inputsStarted | dataInputsStarted | outputsStarted | finished | error
deriving Repr, DecidableEq

/-- The union of `ergo_tx_serializer_full_context_t`, with the member written last. -/
inductive Part (σ : Type) where
  | input (ctx : InputCtx σ)
  | box (ctx : BoxCtx σ)

/-- How the bytes of one member of the union read as the other one. -/
class UnionLayout (σ : Type) where
  boxOfInput : InputCtx σ → BoxCtx σ
  inputOfBox : BoxCtx σ → InputCtx σ

/-- `ergo_tx_serializer_full_context_t`; the hash is shared. -/
structure FullCtx (σ : Type) where
  state : FullState
  inputsCount : UInt16
  dataInputsCount : UInt16
  outputsCount : UInt16
  tableCtx : TableCtx
  part : Part σ

/-- A zeroed context. -/
def FullCtx.zero (σ : Type) : FullCtx σ :=
  ⟨.tokensStarted, 0, 0, 0, .zero, .input (.zero σ)⟩

instance (σ : Type) : Failable (FullCtx σ) := ⟨fun ctx => { ctx with state := .error }⟩

section Parts

variable {σ : Type}

/-- Assign the member `table_ctx`. -/
def FullCtx.setTableCtx (table : TableCtx) (ctx : FullCtx σ) : FullCtx σ :=
  { ctx with tableCtx := table }

/-- Assign the member `input_ctx` of the union. -/
def FullCtx.setInputCtx (input : InputCtx σ) (ctx : FullCtx σ) : FullCtx σ :=
  { ctx with part := .input input }

/-- Assign the member `box_ctx` of the union. -/
def FullCtx.setBoxCtx (box : BoxCtx σ) (ctx : FullCtx σ) : FullCtx σ :=
  { ctx with part := .box box }

variable [UnionLayout σ]

/-- Read the member `input_ctx` of the union. -/
def FullCtx.inputCtx (ctx : FullCtx σ) : InputCtx σ :=
  match ctx.part with
  | .input input => input
  | .box box => UnionLayout.inputOfBox box

/-- Read the member `box_ctx` of the union. -/
def FullCtx.boxCtx (ctx : FullCtx σ) : BoxCtx σ :=
  match ctx.part with
  | .input input => UnionLayout.boxOfInput input
  | .box box => box

end Parts

/-- `map_table_result` -/
def mapTableResult : TableErr → FullErr
  | .badTokenId => .badTokenId
  | .tooManyTokens => .tooManyTokens
  | .hasher => .hasher
  | .buffer => .buffer

/-- `map_input_result` -/
def mapInputResult : InputErr → FullErr
  | .badContextExtensionSize => .badContextExtensionSize
  | .badInputId => .badInputId
  | .badFrameIndex => .badFrameIndex
  | .badTokenId => .badTokenId
  | .badTokenValue => .badTokenValue
  | .tooManyInputFrames => .tooManyInputFrames
  | .tooMuchProofData => .tooMuchData
  | .u64Overflow => .u64Overflow
  | .hasher => .hasher
  | .buffer => .buffer
  | .badState => .badState
  | .tooManyTokens => .tooManyTokens

/-- `map_box_result` -/
def mapBoxResult : BoxErr → FullErr
  | .badTokenIndex => .badTokenIndex
  | .badTokenId => .badTokenId
  | .badTokenValue => .badTokenValue
  | .tooManyTokens => .tooManyTokens
  | .tooMuchData => .tooMuchData
  | .hasher => .hasher
  | .buffer => .buffer
  | .u64Overflow => .u64Overflow
  | .badState => .badState
  | .smallChunk => .smallChunk

namespace TxSerFull

variable {σ α : Type}

/-- A full-serializer call. -/
abbrev FullM (σ α : Type) := EStateM FullErr (SerState (FullCtx σ) σ) α

/-- A call into the table serializer. -/
def callTable (call : EStateM TableErr (SerState TableCtx σ) α) : FullM σ α :=
  callPart FullCtx.tableCtx FullCtx.setTableCtx mapTableResult call

/-- A call into the input serializer. -/
def callInput [UnionLayout σ] (call : EStateM InputErr (SerState (InputCtx σ) σ) α) :
    FullM σ α :=
  callPart FullCtx.inputCtx FullCtx.setInputCtx mapInputResult call

/-- A call into the box serializer. -/
def callBox [UnionLayout σ] (call : EStateM BoxErr (SerState (BoxCtx σ) σ) α) : FullM σ α :=
  callPart FullCtx.boxCtx FullCtx.setBoxCtx mapBoxResult call

/-- `CHECK_PROPER_STATE` -/
def checkProperState (state : FullState) : FullM σ Unit := do
  let ctx ← getCtx
  require (ctx.state = state) .badState

/-- `hash_u16` -/
def hashU16 (u16 : UInt16) : FullM σ Unit := do
  let bytes ← orFail (RwBuffer.scratch 4 (gvePutU16 · u16)) .hasher
  hashUpdate .hasher bytes

/-- `data_inputs_finished` -/
def dataInputsFinished : FullM σ Unit := do
  callTable TxSerTable.hash
  let ctx ← getCtx
  hashU16 ctx.outputsCount
  modifyCtx fun ctx => { ctx with state := .outputsStarted }

/-- `input_finished` -/
def inputFinished : FullM σ Unit := do
  modifyCtx fun ctx => { ctx with inputsCount := ctx.inputsCount - 1 }
  let ctx ← getCtx
  if ctx.inputsCount = 0 then
    hashU16 ctx.dataInputsCount
    modifyCtx fun ctx => { ctx with state := .dataInputsStarted }
    if ctx.dataInputsCount = 0 then
      dataInputsFinished

/-- `output_finished` -/
def outputFinished : FullM σ Unit :=
  modifyCtx fun ctx => { ctx with
    outputsCount := ctx.outputsCount - 1
    state := if ctx.outputsCount - 1 = 0 then .finished else ctx.state }

section Calls

variable [UnionLayout σ]

/-- Enter the input phase: the input context starts out as a finished one. -/
def startInputs : FullM σ Unit :=
  modifyCtx fun ctx =>
    { ctx with state := .inputsStarted, part := .input { ctx.inputCtx with state := .finished } }

/-- `ergo_tx_serializer_full_init` -/
def init (inputsCount dataInputsCount outputsCount : UInt16) (tokensCount : UInt8) :
    FullM σ Unit := do
  modifyCtx fun _ => FullCtx.zero σ
  require (inputsCount ≠ 0) .badInputCount
  require (outputsCount ≠ 0) .badOutputCount
  hashU16 inputsCount
  modifyCtx fun ctx => { ctx with
    inputsCount := inputsCount
    dataInputsCount := dataInputsCount
    outputsCount := outputsCount }
  callTable (TxSerTable.init tokensCount)
  if tokensCount ≠ 0 then
    modifyCtx fun ctx => { ctx with state := .tokensStarted }
  else
    startInputs

/-- `ergo_tx_serializer_full_add_tokens` -/
def addTokens (tokens : Buffer) : FullM σ Progress := do
  checkProperState .tokensStarted
  let res ← callTable (TxSerTable.add tokens)
  match res with
  | .ok => startInputs
  | .moreData => pure ()
  return res

/-- `ergo_tx_serializer_full_add_input` -/
def addInput (boxId : ErgoId) (framesCount : UInt8) (contextExtensionDataSize : UInt32) :
    FullM σ Unit := do
  checkProperState .inputsStarted
  let ctx ← getCtx
  require (TxSerInput.isFinished ctx.inputCtx) .badState
  require (ctx.inputsCount ≠ 0) .tooManyInputs
  callInput (TxSerInput.init boxId framesCount contextExtensionDataSize)

/-- `ergo_tx_serializer_full_add_input_tokens` -/
def addInputTokens (boxId : ErgoId) (frameIndex : UInt8) (tokens : Buffer) :
    FullM σ Progress := do
  checkProperState .inputsStarted
  let res ← callInput (TxSerInput.addTokens boxId frameIndex tokens)
  let ctx ← getCtx
  if res = .ok ∧ TxSerInput.isFinished ctx.inputCtx then inputFinished
  return res

/-- `ergo_tx_serializer_full_add_input_context_extension` -/
def addInputContextExtension (chunk : Buffer) : FullM σ Progress := do
  checkProperState .inputsStarted
  let res ← callInput (TxSerInput.addContextExtension chunk)
  if res = .ok then inputFinished
  return res

/-- One round of the loop of `ergo_tx_serializer_full_add_data_inputs`. -/
def readDataInput (inputs : Buffer) : FullM σ Buffer := do
  let ctx ← getCtx
  require (ctx.dataInputsCount ≠ 0) .tooManyDataInputs
  let (boxId, rest) ← orFail (bufferReadBytes 32 inputs) .badDataInput
  hashUpdate .hasher boxId.val
  modifyCtx fun ctx => { ctx with dataInputsCount := ctx.dataInputsCount - 1 }
  return rest

/-- `ergo_tx_serializer_full_add_data_inputs` -/
def addDataInputs (inputs : Buffer) : FullM σ Progress := do
  checkProperState .dataInputsStarted
  whileData readDataInput inputs.length inputs
  let ctx ← getCtx
  if ctx.dataInputsCount = 0 then
    dataInputsFinished
    return .ok
  else
    return .moreData

/-- `ergo_tx_serializer_full_add_box` -/
def addBox (value : UInt64) (ergoTreeSize creationHeight : UInt32) (tokensCount : UInt8)
    (registersSize : UInt32) : FullM σ Unit := do
  checkProperState .outputsStarted
  let ctx ← getCtx
  require (ctx.outputsCount ≠ 0) .tooManyOutputs
  callBox (TxSerBox.init value ergoTreeSize creationHeight tokensCount registersSize)

/-- `ergo_tx_serializer_full_add_box_ergo_tree` -/
def addBoxErgoTree (treeChunk : Buffer) : FullM σ Progress := do
  checkProperState .outputsStarted
  let res ← callBox (TxSerBox.addTree treeChunk)
  let ctx ← getCtx
  if res = .ok ∧ TxSerBox.isFinished ctx.boxCtx then outputFinished
  return res

/-- `ergo_tx_serializer_full_add_box_change_tree` -/
def addBoxChangeTree (rawPubKey : PublicKey) : FullM σ Unit := do
  checkProperState .outputsStarted
  callBox (TxSerBox.addChangeTree rawPubKey)
  let ctx ← getCtx
  if TxSerBox.isFinished ctx.boxCtx then outputFinished

/-- `ergo_tx_serializer_full_add_box_miners_fee_tree` -/
def addBoxMinersFeeTree (isMainnet : Bool) : FullM σ Unit := do
  checkProperState .outputsStarted
  callBox (TxSerBox.addMinersFeeTree isMainnet)
  let ctx ← getCtx
  if TxSerBox.isFinished ctx.boxCtx then outputFinished

/-- `ergo_tx_serializer_full_add_box_tokens` -/
def addBoxTokens (tokens : Buffer) : FullM σ Progress := do
  checkProperState .outputsStarted
  let ctx ← getCtx
  let res ← callBox (TxSerBox.addTokens tokens (some ctx.tableCtx))
  let ctx ← getCtx
  if res = .ok ∧ TxSerBox.isFinished ctx.boxCtx then outputFinished
  return res

/-- `ergo_tx_serializer_full_add_box_registers` -/
def addBoxRegisters (registersChunk : Buffer) : FullM σ Progress := do
  checkProperState .outputsStarted
  let res ← callBox (TxSerBox.addRegisters registersChunk)
  if res = .ok then outputFinished
  return res

/-- `ergo_tx_serializer_full_set_input_callback` -/
def setInputCallback (callback : Option (InputTokenCb σ)) : FullM σ Unit := do
  checkProperState .inputsStarted
  modifyCtx fun ctx => ctx.setInputCtx (TxSerInput.setCallback ctx.inputCtx callback)

/-- `ergo_tx_serializer_full_set_box_callbacks` -/
def setBoxCallbacks (callbacks : BoxCallbacks σ) : FullM σ Unit := do
  checkProperState .outputsStarted
  modifyCtx fun ctx => ctx.setBoxCtx (TxSerBox.setCallbacks ctx.boxCtx callbacks)

/-- `ergo_tx_serializer_full_is_finished` -/
def isFinished (ctx : FullCtx σ) : Bool := ctx.state = .finished

end Calls

end TxSerFull

/-- A call of the full serializer after `init`. -/
inductive FullCall (σ : Type) where
  | addTokens (tokens : Buffer)
  | addInput (boxId : ErgoId) (framesCount : UInt8) (contextExtensionDataSize : UInt32)
  | addInputTokens (boxId : ErgoId) (frameIndex : UInt8) (tokens : Buffer)
  | addInputContextExtension (chunk : Buffer)
  | addDataInputs (inputs : Buffer)
  | addBox (value : UInt64) (ergoTreeSize creationHeight : UInt32) (tokensCount : UInt8)
      (registersSize : UInt32)
  | addBoxErgoTree (treeChunk : Buffer)
  | addBoxChangeTree (rawPubKey : PublicKey)
  | addBoxMinersFeeTree (isMainnet : Bool)
  | addBoxTokens (tokens : Buffer)
  | addBoxRegisters (registersChunk : Buffer)
  | setInputCallback (callback : Option (InputTokenCb σ))
  | setBoxCallbacks (callbacks : BoxCallbacks σ)

namespace FullCall

open TxSerFull

variable {σ : Type} [UnionLayout σ]

/-- The answer of a call without data is always the plain success. -/
def plain (call : FullM σ Unit) : FullM σ Progress := do
  call
  return .ok

/-- Run one call. -/
def run : FullCall σ → FullM σ Progress
  | .addTokens tokens => TxSerFull.addTokens tokens
  | .addInput boxId framesCount extensionSize =>
      plain (TxSerFull.addInput boxId framesCount extensionSize)
  | .addInputTokens boxId frameIndex tokens => TxSerFull.addInputTokens boxId frameIndex tokens
  | .addInputContextExtension chunk => TxSerFull.addInputContextExtension chunk
  | .addDataInputs inputs => TxSerFull.addDataInputs inputs
  | .addBox value treeSize height tokensCount registersSize =>
      plain (TxSerFull.addBox value treeSize height tokensCount registersSize)
  | .addBoxErgoTree treeChunk => TxSerFull.addBoxErgoTree treeChunk
  | .addBoxChangeTree rawPubKey => plain (TxSerFull.addBoxChangeTree rawPubKey)
  | .addBoxMinersFeeTree isMainnet => plain (TxSerFull.addBoxMinersFeeTree isMainnet)
  | .addBoxTokens tokens => TxSerFull.addBoxTokens tokens
  | .addBoxRegisters registersChunk => TxSerFull.addBoxRegisters registersChunk
  | .setInputCallback callback => plain (TxSerFull.setInputCallback callback)
  | .setBoxCallbacks callbacks => plain (TxSerFull.setBoxCallbacks callbacks)

end FullCall

end LedgerErgo.Ergo
