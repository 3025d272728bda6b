import LedgerErgo.Commands.SignTx.Output
import LedgerErgo.Ergo.Schnorr

/-! # The signing operation

One operation signs a transaction with the key of a path. It owns the full serializer and
passes on what the host sends; the callbacks it sets keep the amounts and the information
about the current output up to date. Its errors are status words. An error marks the
operation, and the handler of the command then erases it.
-/

namespace LedgerErgo.SignTx

open LedgerErgo.Common LedgerErgo.Ergo LedgerErgo.Prog

/-- `network_id_is_mainnet` -/
def networkIdIsMainnet (networkId : UInt8) : Bool := networkId = 0x00

/-- `network_id_is_testnet` -/
def networkIdIsTestnet (networkId : UInt8) : Bool := networkId = 0x10

/-- `network_id_is_supported` -/
def networkIdIsSupported (networkId : UInt8) : Bool :=
  networkIdIsMainnet networkId || networkIdIsTestnet networkId

/-- `sign_transaction_operation_p2pk_state_e` -/
inductive OpState where
  | initialized | txStarted | inputsStarted | outputsStarted | txFinished | finalized | error
deriving Repr, DecidableEq

/-- What the callbacks of the operation work on. -/
structure OpMem where
  amounts : Amounts
  output : OutputInfo
  /-- How often the output-finished callback ran; the code does not count it. -/
  outputsFinished : Nat

/-- `sign_transaction_operation_p2pk_ctx_t`. The token table belongs to the amounts, the
    texts of the screens are left out. -/
structure OpCtx where
  state : OpState
  blindSigningRequired : Bool
  schnorrKey : Bytes 32
  bip32 : Bip32Path
  txHash : List UInt8
  networkId : UInt8
  tokensTable : TokenTable
  mem : OpMem
  tx : FullCtx OpMem
  lastApprovedChange : Bip32Path
  /-- `ui_approve.ui_approve.app_token_value` -/
  appTokenValue : UInt32
  /-- The callbacks of `ui_confirm` are set. -/
  confirmSet : Bool

/-- A zeroed context. -/
def OpCtx.zero : OpCtx where
  state := .initialized
  blindSigningRequired := false
  schnorrKey := Bytes.zero 32
  bip32 := .empty
  txHash := []
  networkId := 0
  tokensTable := .empty
  mem := ⟨.init, .init 0, 0⟩
  tx := .zero OpMem
  lastApprovedChange := .empty
  appTokenValue := 0
  confirmSet := false

/-- The operation and the supply of the SDK. -/
structure Op where
  ctx : OpCtx
  supply : Supply

namespace Op

/-- What the callbacks can reach. -/
def mem (op : Op) : Mem OpMem := ⟨op.supply.faults, op.ctx.tokensTable, op.ctx.mem⟩

/-- Put back what the callbacks can reach. -/
def setMem (mem : Mem OpMem) (op : Op) : Op where
  ctx := { op.ctx with tokensTable := mem.table, mem := mem.cb }
  supply := { op.supply with faults := mem.faults }

/-- What the full serializer works on. -/
def ser (op : Op) : SerState (FullCtx OpMem) OpMem := ⟨op.ctx.tx, op.ctx.txHash, op.mem⟩

/-- Put back what the full serializer works on. -/
def setSer (ser : SerState (FullCtx OpMem) OpMem) (op : Op) : Op :=
  let op := op.setMem ser.mem
  { op with ctx := { op.ctx with tx := ser.ctx, txHash := ser.hash } }

/-- What the preparation of a signature works on. -/
def signing (op : Op) : Mem Schnorr.SignInit :=
  ⟨op.supply.faults, op.ctx.tokensTable, ⟨op.supply.keys, op.ctx.schnorrKey, op.ctx.txHash⟩⟩

/-- Put back what the preparation of a signature works on. -/
def setSigning (mem : Mem Schnorr.SignInit) (op : Op) : Op where
  ctx := { op.ctx with schnorrKey := mem.cb.key, txHash := mem.cb.hash }
  supply := { op.supply with faults := mem.faults, keys := mem.cb.draws }

end Op

/-- A call of the operation. -/
abbrev OpM (α : Type) := EStateM Sw Op α

section Programs

variable {α : Type}

/-- The context. -/
def getOp : OpM OpCtx := do
  return (← get).ctx

/-- Assign fields of the context. -/
def modifyOp (f : OpCtx → OpCtx) : OpM Unit := modify fun op => { op with ctx := f op.ctx }

/-- `handler_err`: the context goes into its error state. The handler of the command resets
    the application right after it. -/
def handlerErr (err : Sw) : OpM α := do
  modifyOp fun ctx => { ctx with state := .error }
  throw err

/-- An error of the call is passed to `handler_err`. -/
def orHandlerErr (call : OpM α) : OpM α := fun op =>
  match call op with
  | .ok a op => .ok a op
  | .error err op => handlerErr err op

/-- `CHECK_PROPER_STATE` and `CHECK_PROPER_STATES` -/
def checkProperState (states : List OpState) : OpM Unit := do
  let ctx ← getOp
  orHandlerErr (ensure (ctx.state ∈ states) .badState)

/-- `CHECK_TX_CALL_RESULT_OK` -/
def checkTxCall (call : TxSerFull.FullM OpMem α) : OpM α :=
  orHandlerErr (zoom Op.ser Op.setSer swFromTxFullErr call)

/-- `CHECK_CALL_RESULT_SW_OK`, of a call about the output information -/
def checkOutputCall (call : OutputInfo → EStateM Sw (Mem OpMem) OutputInfo) : OpM Unit :=
  orHandlerErr (zoom Op.mem Op.setMem id do
    let mem ← get
    let output ← call mem.cb.output
    modify fun mem => { mem with cb := { mem.cb with output } })

/-- `CHECK_TX_FINISHED` -/
def checkTxFinished : OpM Unit :=
  modifyOp fun ctx =>
    if TxSerFull.isFinished ctx.tx then { ctx with state := .txFinished } else ctx

variable {s t : Op}

@[simp] theorem getOp_ok {ctx : OpCtx} : getOp s = .ok ctx t ↔ s.ctx = ctx ∧ s = t := by
  simp only [getOp, bind_ok, get_ok, pure_ok]
  constructor
  · rintro ⟨_, _, ⟨rfl, rfl⟩, rfl, rfl⟩
    exact ⟨rfl, rfl⟩
  · rintro ⟨rfl, rfl⟩
    exact ⟨s, s, ⟨rfl, rfl⟩, rfl, rfl⟩

@[simp] theorem modifyOp_ok {f : OpCtx → OpCtx} {u : Unit} :
    modifyOp f s = .ok u t ↔ { s with ctx := f s.ctx } = t := by
  simp only [modifyOp, modify_ok]

@[simp] theorem handlerErr_ok {err : Sw} {a : α} : handlerErr err s = .ok a t ↔ False := by
  simp [handlerErr]

@[simp] theorem orHandlerErr_ok {call : OpM α} {a : α} :
    orHandlerErr call s = .ok a t ↔ call s = .ok a t := by
  unfold orHandlerErr
  cases h : call s with
  | ok => rfl
  | error => simp

@[simp] theorem checkProperState_ok {states : List OpState} {u : Unit} :
    checkProperState states s = .ok u t ↔ s.ctx.state ∈ states ∧ s = t := by
  simp only [checkProperState, bind_ok, getOp_ok, orHandlerErr_ok, ensure_ok]
  constructor
  · rintro ⟨_, _, ⟨rfl, rfl⟩, state, rfl⟩
    exact ⟨state, rfl⟩
  · rintro ⟨state, rfl⟩
    exact ⟨s.ctx, s, ⟨rfl, rfl⟩, state, rfl⟩

@[simp] theorem checkTxCall_ok {call : TxSerFull.FullM OpMem α} {a : α} :
    checkTxCall call s = .ok a t ↔ ∃ v, call s.ser = .ok a v ∧ s.setSer v = t := by
  simp only [checkTxCall, orHandlerErr_ok, zoom_ok]

/-- A call about the output information leaves everything else alone, if `call` does. -/
theorem checkOutputCall_ok {call : OutputInfo → EStateM Sw (Mem OpMem) OutputInfo} {u : Unit}
    {Result : OutputInfo → Prop}
    (spec : ∀ {info' : OutputInfo} {n : Mem OpMem}, call s.ctx.mem.output s.mem = .ok info' n →
      Result info' ∧ n.table = s.ctx.tokensTable ∧ n.cb = s.ctx.mem)
    (ok : checkOutputCall call s = .ok u t) :
    ∃ output, Result output ∧ { s.ctx with mem := { s.ctx.mem with output } } = t.ctx := by
  simp only [checkOutputCall, orHandlerErr_ok, zoom_ok, bind_ok, get_ok, modify_ok] at ok
  obtain ⟨_, ⟨_, _, ⟨rfl, rfl⟩, output, m, ran, rfl⟩, rfl⟩ := ok
  obtain ⟨result, table, cb⟩ := spec ran
  exact ⟨output, result, by simp only [Op.setMem, table, cb]⟩

@[simp] theorem checkTxFinished_ok {u : Unit} :
    checkTxFinished s = .ok u t ↔
      { s with ctx := if TxSerFull.isFinished s.ctx.tx then { s.ctx with state := .txFinished }
        else s.ctx } = t := by
  simp only [checkTxFinished, modifyOp_ok]

end Programs

/-! ## Callbacks -/

/-- `p2pk_input_token_cb` -/
def p2pkInputTokenCb : InputTokenCb OpMem where
  run := fun (_, id, value) => do
    let mem ← get
    let (amounts, table) ← ofExcept (mem.cb.amounts.addInputToken mem.table id value)
    set { mem with table, cb := { mem.cb with amounts } }
  appends := by
    rintro ⟨boxId, id, value⟩ m r n ok
    simp only [bind_ok, get_ok, ofExcept_ok, set_ok, Prod.exists] at ok
    obtain ⟨_, _, ⟨rfl, rfl⟩, amounts, table, _, ⟨added, rfl⟩, rfl⟩ := ok
    exact Amounts.addInputToken_extends added

/-- A callback of a box, which cannot reach the token table. -/
def boxCallback {α : Type} (run : α → EStateM BoxErr (Mem OpMem) Unit)
    (keeps : ∀ a m u n, run a m = .ok u n → n.table = m.table) :
    Callback BoxErr α Progress OpMem where
  run := fun a => do
    run a
    return .ok
  appends := by
    intro a m r n ok
    simp only [bind_ok, pure_ok] at ok
    obtain ⟨u, _, ran, -, rfl⟩ := ok
    rw [TokenTable.Extends, keeps a m u _ ran]

/-- `p2pk_output_type_cb` -/
def p2pkOutputTypeCb : BoxTypeCb OpMem :=
  boxCallback (fun (type, value) => do
    let mem ← get
    let amounts ← ofExcept (mem.cb.amounts.addOutput type value)
    set { mem with cb := { mem.cb with amounts } }) (by
    rintro ⟨type, value⟩ m u n ok
    simp only [bind_ok, get_ok, ofExcept_ok, set_ok] at ok
    obtain ⟨_, _, ⟨rfl, rfl⟩, _, _, ⟨_, rfl⟩, rfl⟩ := ok
    rfl)

/-- `p2pk_output_token_cb` -/
def p2pkOutputTokenCb : BoxTokenCb OpMem :=
  boxCallback (fun (_, id, value) => do
    let mem ← get
    let output ← ofExcept (mem.cb.output.addToken mem.table id value)
    let amounts ← ofExcept (mem.cb.amounts.addOutputToken mem.table id value)
    set { mem with cb := { mem.cb with output, amounts } }) (by
    rintro ⟨type, id, value⟩ m u n ok
    simp only [bind_ok, get_ok, ofExcept_ok, set_ok] at ok
    obtain ⟨_, _, ⟨rfl, rfl⟩, _, _, ⟨_, rfl⟩, _, _, ⟨_, rfl⟩, rfl⟩ := ok
    rfl)

/-- `p2pk_output_finished_cb` -/
def p2pkOutputFinishedCb (sdk : Sdk) : BoxFinishedCb OpMem :=
  boxCallback (fun _ => do
    let mem ← get
    let output ← setBoxFinished sdk.blake2b256 mem.cb.output
    modify fun mem =>
      { mem with cb := { mem.cb with output, outputsFinished := mem.cb.outputsFinished + 1 } }) (by
    intro type m u n ok
    simp only [bind_ok, get_ok, modify_ok] at ok
    obtain ⟨_, _, ⟨rfl, rfl⟩, _, _, ran, rfl⟩ := ok
    exact (setBoxFinished_ok ran).2.1)

/-- The callbacks of every output. -/
def outputCallbacks (sdk : Sdk) : BoxCallbacks OpMem where
  onType := some p2pkOutputTypeCb
  onToken := some p2pkOutputTokenCb
  onFinished := some (p2pkOutputFinishedCb sdk)

/-! ## Calls -/

section Calls

variable (sdk : Sdk) [UnionLayout OpMem]

/-- `stx_operation_p2pk_init` -/
def init (path : Bip32Path) (networkId : UInt8) : OpM Unit := do
  ensure (bip32PathValidate path (bip32Hardened 44) (bip32Hardened bip32ErgoCoin) .addressGe5)
    .bip32BadPath
  ensure (networkIdIsSupported networkId) .badNetTypeValue
  zoom Op.mem Op.setMem id (sdkCalls .internalCryptoError 2)
  let inited ← zoom Op.signing Op.setSigning (fun _ => .internalCryptoError)
    (Schnorr.signInit sdk (sdk.deriveBip32 path).1)
  ensure inited .internalCryptoError
  modifyOp fun ctx => { ctx with
    bip32 := path
    networkId := networkId
    state := .initialized
    blindSigningRequired := false }

/-- `stx_operation_p2pk_start_tx` -/
def startTx (inputsCount dataInputsCount outputsCount : UInt16) (tokensCount : UInt8) :
    OpM Unit := do
  checkProperState [.initialized]
  checkTxCall (TxSerFull.init inputsCount dataInputsCount outputsCount tokensCount)
  modifyOp fun ctx => { ctx with
    mem := { ctx.mem with amounts := .init }
    tokensTable := .empty
    state := .txStarted }

/-- `stx_operation_p2pk_add_tokens` -/
def addTokens (cdata : Buffer) : OpM Unit := do
  checkProperState [.txStarted]
  let _ ← checkTxCall (TxSerFull.addTokens cdata)

/-- `stx_operation_p2pk_add_input` -/
def addInput (boxId : ErgoId) (ergAmount : UInt64) (framesCount : UInt8)
    (extensionLength : UInt32) : OpM Unit := do
  checkProperState [.txStarted, .inputsStarted]
  checkTxCall (TxSerFull.addInput boxId framesCount extensionLength)
  checkTxCall (TxSerFull.setInputCallback (some p2pkInputTokenCb))
  let ctx ← getOp
  match ctx.mem.amounts.addInput ergAmount with
  | none => handlerErr .u64Overflow
  | some amounts =>
      modifyOp fun ctx => { ctx with mem := { ctx.mem with amounts }, state := .inputsStarted }

/-- `stx_operation_p2pk_add_input_tokens` -/
def addInputTokens (boxId : ErgoId) (frameIndex : UInt8) (tokens : Buffer) : OpM Unit := do
  checkProperState [.inputsStarted]
  let _ ← checkTxCall (TxSerFull.addInputTokens boxId frameIndex tokens)

/-- `stx_operation_p2pk_add_input_context_extension` -/
def addInputContextExtension (data : Buffer) : OpM Unit := do
  checkProperState [.inputsStarted]
  let _ ← checkTxCall (TxSerFull.addInputContextExtension data)

/-- `stx_operation_p2pk_add_data_inputs` -/
def addDataInputs (data : Buffer) : OpM Unit := do
  checkProperState [.inputsStarted]
  let _ ← checkTxCall (TxSerFull.addDataInputs data)

/-- `stx_operation_p2pk_add_output` -/
def addOutput (value : UInt64) (ergoTreeSize creationHeight : UInt32) (tokensCount : UInt8)
    (registersSize : UInt32) : OpM Unit := do
  checkProperState [.inputsStarted, .outputsStarted]
  checkTxCall (TxSerFull.addBox value ergoTreeSize creationHeight tokensCount registersSize)
  checkTxCall (TxSerFull.setBoxCallbacks (outputCallbacks sdk))
  modifyOp fun ctx => { ctx with
    mem := { ctx.mem with output := .init value }
    state := .outputsStarted }

/-- `stx_operation_p2pk_add_output_tree_chunk` -/
def addOutputTreeChunk (data : Buffer) : OpM Unit := do
  checkProperState [.outputsStarted]
  let res ← checkTxCall (TxSerFull.addBoxErgoTree data)
  checkOutputCall (addTreeChunk sdk.blake2b256 · data (res = .ok))
  checkTxFinished

/-- `stx_operation_p2pk_add_output_tree_fee` -/
def addOutputTreeFee : OpM Unit := do
  checkProperState [.outputsStarted]
  let ctx ← getOp
  checkTxCall (TxSerFull.addBoxMinersFeeTree (networkIdIsMainnet ctx.networkId))
  checkOutputCall (setFee sdk.blake2b256)
  checkTxFinished

/-- `stx_operation_p2pk_add_output_tree_change` -/
def addOutputTreeChange (path : Bip32Path) (pubKey : PublicKey) : OpM Unit := do
  checkProperState [.outputsStarted]
  checkTxCall (TxSerFull.addBoxChangeTree pubKey)
  checkOutputCall (setBip32 sdk.blake2b256 · path)
  checkTxFinished

/-- `stx_operation_p2pk_add_output_tokens` -/
def addOutputTokens (data : Buffer) : OpM Unit := do
  checkProperState [.outputsStarted]
  let _ ← checkTxCall (TxSerFull.addBoxTokens data)
  checkTxFinished

/-- `stx_operation_p2pk_add_output_registers` -/
def addOutputRegisters (data : Buffer) : OpM Unit := do
  checkProperState [.outputsStarted]
  let _ ← checkTxCall (TxSerFull.addBoxRegisters data)
  checkTxFinished

end Calls

/-- `stx_operation_p2pk_should_show_output_confirm_screen` -/
def shouldShowOutputConfirmScreen (ctx : OpCtx) : Bool :=
  let output := ctx.mem.output
  if ctx.state ≠ .outputsStarted ∧ ctx.state ≠ .txFinished then false
  else if ¬ output.isFinished then false
  else if output.type = .minersFee then output.usedTokensCount > 0
  else if output.type = .bip32 then
    if ¬ bip32PathValidate output.bip32Path (bip32Hardened 44) (bip32Hardened bip32ErgoCoin)
        .addressE5 then true
    else if bip32PathIsEqual output.bip32Path ctx.lastApprovedChange then false
    -- the same account, and an address not far beyond the signing one
    else ¬ (bip32PathSameAccount output.bip32Path ctx.bip32 ∧
      output.bip32Path.at 3 = ctx.bip32.at 3 ∧ output.bip32Path.at 4 < ctx.bip32.at 4 + 20)
  else true

/-- `is_blind_signing_tx` -/
def isBlindSigningTx (output : OutputInfo) : Bool :=
  output.type ≠ .bip32 ∧ output.type ≠ .address ∧ output.type ≠ .minersFee

end LedgerErgo.SignTx
