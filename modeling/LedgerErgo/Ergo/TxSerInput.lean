import LedgerErgo.Common.Gve
import LedgerErgo.Ergo.SerState
import LedgerErgo.Ergo.TxSerTable
import LedgerErgo.Lib.Counter

/-! # Serializer of an input

The tokens of an input arrive in numbered frames. They are shown to a callback and
add nothing to the stream: the last frame makes the serializer hash the box id and an
empty proof. The context extension follows in chunks of any size; a declared size of
zero stands for an empty extension, which is one zero byte.
-/

namespace LedgerErgo.Ergo

open LedgerErgo.Common LedgerErgo.Prog

/-- The error codes of `ergo_tx_serializer_input_result_e`. -/
inductive InputErr where
  | badContextExtensionSize | badInputId | badFrameIndex | badTokenId | badTokenValue
  | tooManyInputFrames | tooMuchProofData | hasher | buffer | badState | u64Overflow
  | tooManyTokens
deriving Repr, DecidableEq

/-- `ergo_tx_serializer_input_state_e` -/
inductive InputState where
  | framesStarted | extensionStarted | finished | error
deriving Repr, DecidableEq

/-- A token of an input frame: its id and its amount. -/
abbrev InputToken := ErgoId × UInt64

/-- A token as the frame carries it. -/
def InputToken.bytes (token : InputToken) : List UInt8 := token.1.val ++ u64Bytes token.2

/-- `ergo_tx_serializer_input_token_cb`: it gets the box id and a token of the box. -/
abbrev InputTokenCb (σ : Type) := Callback InputErr (ErgoId × InputToken) Unit σ

/-- `ergo_tx_serializer_input_context_t`; the table and the hash are shared. -/
structure InputCtx (σ : Type) where
  state : InputState
  boxId : ErgoId
  framesCount : UInt8
  framesProcessed : UInt8
  contextExtensionDataSize : UInt32
  onTokenCb : Option (InputTokenCb σ)

/-- A zeroed context. -/
def InputCtx.zero (σ : Type) : InputCtx σ := ⟨.framesStarted, Bytes.zero 32, 0, 0, 0, none⟩

instance (σ : Type) : Failable (InputCtx σ) := ⟨fun ctx => { ctx with state := .error }⟩

namespace TxSerInput

variable {σ : Type}

/-- `ergo_tx_serializer_input_init` -/
def init (boxId : ErgoId) (tokenFramesCount : UInt8) (contextExtensionDataSize : UInt32) :
    EStateM InputErr (SerState (InputCtx σ) σ) Unit := do
  modifyCtx fun _ => InputCtx.zero σ
  require (¬ (contextExtensionDataSize = 1 ∨ contextExtensionDataSize > maxTxDataPartLen))
    .badContextExtensionSize
  modifyCtx fun ctx => { ctx with
    boxId := boxId
    framesCount := tokenFramesCount
    framesProcessed := 0
    contextExtensionDataSize := contextExtensionDataSize
    state := .framesStarted }

/-- Show a token to the callback, if there is one. -/
def tokenCallback (ctx : InputCtx σ) (token : InputToken) : EStateM InputErr (Mem σ) Unit :=
  invoke ctx.onTokenCb (ctx.boxId, token)

/-- One round of the loop of `ergo_tx_serializer_input_add_tokens`. -/
def readToken (tokens : Buffer) : EStateM InputErr (SerState (InputCtx σ) σ) Buffer := do
  let (tokenId, rest) ← orFail (bufferReadBytes 32 tokens) .badTokenId
  let (tokenValue, rest) ← orFail (bufferReadU64 rest) .badTokenValue
  let ctx ← getCtx
  onMem (tokenCallback ctx (tokenId, tokenValue))
  return rest

/-- The end of `ergo_tx_serializer_input_add_tokens`: the last frame serializes the input. -/
def frameAdded (boxId : ErgoId) : EStateM InputErr (SerState (InputCtx σ) σ) Progress := do
  modifyCtx fun ctx => { ctx with framesProcessed := ctx.framesProcessed + 1 }
  let ctx ← getCtx
  if ctx.framesProcessed = ctx.framesCount then
    hashUpdate .hasher boxId.val
    -- an empty proof
    hashUpdate .hasher [0]
    if ctx.contextExtensionDataSize = 0 then
      -- an empty extension
      hashUpdate .hasher [0]
      modifyCtx fun ctx => { ctx with state := .finished }
    else
      modifyCtx fun ctx => { ctx with state := .extensionStarted }
    return .ok
  else
    return .moreData

/-- `ergo_tx_serializer_input_add_tokens` -/
def addTokens (boxId : ErgoId) (tokenFrameIndex : UInt8) (tokens : Buffer) :
    EStateM InputErr (SerState (InputCtx σ) σ) Progress := do
  let ctx ← getCtx
  require (ctx.state = .framesStarted) .badState
  require (ctx.boxId = boxId) .badInputId
  require (tokenFrameIndex < ctx.framesCount) .tooManyInputFrames
  require (tokenFrameIndex = ctx.framesProcessed) .badFrameIndex
  whileData readToken tokens.length tokens
  frameAdded boxId

/-- `ergo_tx_serializer_input_add_context_extension` -/
def addContextExtension (chunk : Buffer) :
    EStateM InputErr (SerState (InputCtx σ) σ) Progress := do
  let ctx ← getCtx
  require (ctx.state = .extensionStarted) .badState
  require (chunk.length ≤ ctx.contextExtensionDataSize.toNat) .tooMuchProofData
  hashUpdate .hasher chunk
  modifyCtx fun ctx => { ctx with
    contextExtensionDataSize := ctx.contextExtensionDataSize - UInt32.ofNat chunk.length }
  let ctx ← getCtx
  if ctx.contextExtensionDataSize = 0 then
    modifyCtx fun ctx => { ctx with state := .finished }
    return .ok
  else
    return .moreData

/-- `ergo_tx_serializer_input_is_finished` -/
def isFinished (ctx : InputCtx σ) : Bool := ctx.state = .finished

/-- `ergo_tx_serializer_input_set_callback` -/
def setCallback (ctx : InputCtx σ) (callback : Option (InputTokenCb σ)) : InputCtx σ :=
  { ctx with onTokenCb := callback }

/-! ## What the calls do -/

/-- The context a successful `init` leaves. -/
def started (boxId : ErgoId) (framesCount : UInt8) (extensionSize : UInt32) : InputCtx σ where
  state := .framesStarted
  boxId := boxId
  framesCount := framesCount
  framesProcessed := 0
  contextExtensionDataSize := extensionSize
  onTokenCb := none

/-- The next frame is the last one. -/
def LastFrame (ctx : InputCtx σ) : Prop := ctx.framesProcessed + 1 = ctx.framesCount

instance (ctx : InputCtx σ) : Decidable (LastFrame ctx) :=
  inferInstanceAs (Decidable (_ = _))

/-- The context after one more frame. -/
def frameDone (ctx : InputCtx σ) : InputCtx σ :=
  { ctx with
    framesProcessed := ctx.framesProcessed + 1
    state :=
      if LastFrame ctx then
        if ctx.contextExtensionDataSize = 0 then .finished else .extensionStarted
      else .framesStarted }

/-- The bytes one more frame adds to the stream. -/
def frameBytes (ctx : InputCtx σ) : List UInt8 :=
  if LastFrame ctx then
    ctx.boxId.val ++ [0] ++ if ctx.contextExtensionDataSize = 0 then [0] else []
  else []

/-- The number of SDK calls one more frame needs. -/
def frameCalls (ctx : InputCtx σ) : Nat :=
  if LastFrame ctx then if ctx.contextExtensionDataSize = 0 then 3 else 2 else 0

/-- The context after one more chunk of the extension. -/
def extensionDone (ctx : InputCtx σ) (len : Nat) : InputCtx σ :=
  { ctx with
    contextExtensionDataSize := ctx.contextExtensionDataSize - UInt32.ofNat len
    state := if ctx.contextExtensionDataSize.toNat = len then .finished else .extensionStarted }

theorem init_ok {boxId : ErgoId} {framesCount : UInt8} {extensionSize : UInt32}
    {s t : SerState (InputCtx σ) σ} {u : Unit} :
    init boxId framesCount extensionSize s = .ok u t ↔
      (extensionSize ≠ 1 ∧ extensionSize ≤ maxTxDataPartLen) ∧
        { s with ctx := started boxId framesCount extensionSize } = t := by
  simp [init, InputCtx.zero, started, not_or]

theorem readToken_ok {tokens rest : Buffer} {s t : SerState (InputCtx σ) σ} :
    readToken tokens s = .ok rest t ↔
      ∃ token : InputToken, tokens = token.bytes ++ rest ∧
        (do let ctx ← getCtx; onMem (tokenCallback ctx token) :
          EStateM InputErr (SerState (InputCtx σ) σ) Unit) s = .ok () t := by
  simp only [readToken, InputToken.bytes, bind_ok, orFail_ok, getCtx_ok, pure_ok, exists_unit,
    and_assoc, exists_and_left, exists_eq_left', bufferReadBytes_eq_some, bufferReadU64_eq_some,
    Prod.exists, List.append_assoc]
  constructor
  · rintro ⟨id, _, rfl, value, _, rfl, _, call, rfl, rfl⟩
    exact ⟨id, value, rfl, call⟩
  · rintro ⟨id, value, rfl, call⟩
    exact ⟨id, _, rfl, value, _, rfl, _, call, rfl, rfl⟩

theorem frameAdded_ok {s t : SerState (InputCtx σ) σ} {r : Progress}
    (started : s.ctx.state = .framesStarted) :
    frameAdded s.ctx.boxId s = .ok r t ↔
      ∃ n, sdkCalls InputErr.hasher (frameCalls s.ctx) s.mem = .ok () n ∧
        ⟨frameDone s.ctx, s.hash ++ frameBytes s.ctx, n⟩ = t ∧
        (if LastFrame s.ctx then .ok else .moreData) = r := by
  obtain ⟨ctx, hash, mem⟩ := s
  by_cases last : ctx.framesProcessed + 1 = ctx.framesCount
  · by_cases empty : ctx.contextExtensionDataSize = 0
    · simp [frameAdded, frameDone, frameBytes, frameCalls, LastFrame, sdkCalls, last, empty]
      aesop
    · simp [frameAdded, frameDone, frameBytes, frameCalls, LastFrame, sdkCalls, last, empty]
      aesop
  · simp [frameAdded, frameDone, frameBytes, frameCalls, LastFrame, sdkCalls, last, started.symm]
    aesop

theorem addTokens_ok {boxId : ErgoId} {frameIndex : UInt8} {tokens : Buffer}
    {s t : SerState (InputCtx σ) σ} {r : Progress} :
    addTokens boxId frameIndex tokens s = .ok r t ↔
      (s.ctx.state = .framesStarted ∧ s.ctx.boxId = boxId ∧ frameIndex < s.ctx.framesCount ∧
        frameIndex = s.ctx.framesProcessed) ∧
      ∃ items : List InputToken, tokens = items.flatMap InputToken.bytes ∧
      ∃ m, runAll (tokenCallback s.ctx) items s.mem = .ok () m ∧
      ∃ n, sdkCalls InputErr.hasher (frameCalls s.ctx) m = .ok () n ∧
        ⟨frameDone s.ctx, s.hash ++ frameBytes s.ctx, n⟩ = t ∧
        (if LastFrame s.ctx then .ok else .moreData) = r := by
  have items := @whileData_ok InputErr (SerState (InputCtx σ) σ) InputToken UInt8 readToken
    InputToken.bytes _ (fun token => List.ne_nil_of_length_pos (by simp [InputToken.bytes]))
    (fun _ _ _ _ => readToken_ok)
  simp only [addTokens, bind_ok, getCtx_ok, require_ok, exists_unit, items le_rfl, runAll_onMem_ok,
    and_assoc, exists_and_left, exists_eq_left']
  refine and_congr_right fun started => and_congr_right fun here => and_congr_right fun _ =>
    and_congr_right fun _ => ?_
  subst here
  constructor
  · rintro ⟨_, ⟨toks, rfl, m, callbacks, rfl⟩, last⟩
    exact ⟨toks, rfl, m, callbacks, (frameAdded_ok (s := { s with mem := m }) started).mp last⟩
  · rintro ⟨toks, rfl, m, callbacks, last⟩
    exact ⟨_, ⟨toks, rfl, m, callbacks, rfl⟩,
      (frameAdded_ok (s := { s with mem := m }) started).mpr last⟩

theorem addContextExtension_ok {chunk : Buffer} {s t : SerState (InputCtx σ) σ} {r : Progress} :
    addContextExtension chunk s = .ok r t ↔
      s.ctx.state = .extensionStarted ∧
      chunk.length ≤ s.ctx.contextExtensionDataSize.toNat ∧
      ∃ m, sdkCall InputErr.hasher s.mem = .ok () m ∧
        ⟨extensionDone s.ctx chunk.length, s.hash ++ chunk, m⟩ = t ∧
        (if s.ctx.contextExtensionDataSize.toNat = chunk.length then .ok else .moreData) = r := by
  simp only [addContextExtension, bind_ok, getCtx_ok, require_ok, exists_unit, hashUpdate_ok,
    modifyCtx_ok, and_assoc, exists_and_left, exists_eq_left']
  refine and_congr_right fun started => and_congr_right fun fits => ?_
  obtain ⟨ctx, hash, mem⟩ := s
  by_cases full : ctx.contextExtensionDataSize.toNat = chunk.length
  · simp [Counter.sub_ofNat32_eq_zero fits, extensionDone, full]
  · simp [Counter.sub_ofNat32_eq_zero fits, extensionDone, full, started.symm, and_comm]

/-- The answer and the state tell a finished input alike. -/
theorem addTokens_done {boxId : ErgoId} {frameIndex : UInt8} {tokens : Buffer}
    {s t : SerState (InputCtx σ) σ} {r : Progress}
    (ok : addTokens boxId frameIndex tokens s = .ok r t) :
    s.ctx.state ≠ .finished ∧ ((r = .ok ∧ isFinished t.ctx = true) ↔ t.ctx.state = .finished) := by
  obtain ⟨⟨state, -⟩, items, -, m, -, n, -, rfl, rfl⟩ := addTokens_ok.mp ok
  refine ⟨by simp [state], ?_⟩
  by_cases last : LastFrame s.ctx
  · simp [last, isFinished]
  · simp [frameDone, last]

theorem addContextExtension_done {chunk : Buffer} {s t : SerState (InputCtx σ) σ} {r : Progress}
    (ok : addContextExtension chunk s = .ok r t) :
    s.ctx.state ≠ .finished ∧ (r = .ok ↔ t.ctx.state = .finished) := by
  obtain ⟨state, -, m, -, rfl, rfl⟩ := addContextExtension_ok.mp ok
  refine ⟨by simp [state], ?_⟩
  by_cases last : s.ctx.contextExtensionDataSize.toNat = chunk.length <;>
    simp [extensionDone, last]

/-- The token callback may add ids to the table, nothing else touches it. -/
theorem addTokens_extends {boxId : ErgoId} {frameIndex : UInt8} {tokens : Buffer}
    {s t : SerState (InputCtx σ) σ} {r : Progress}
    (ok : addTokens boxId frameIndex tokens s = .ok r t) : t.mem.table.Extends s.mem.table := by
  obtain ⟨-, items, -, m, callbacks, n, calls, rfl, -⟩ := addTokens_ok.mp ok
  have shown : Appends (runAll (tokenCallback s.ctx) items) :=
    .runAll (fun token => .invoke _ _) items
  exact (Appends.sdkCalls _ _ _ _ _ calls).trans (shown _ _ _ callbacks)

theorem addContextExtension_extends {chunk : Buffer} {s t : SerState (InputCtx σ) σ} {r : Progress}
    (ok : addContextExtension chunk s = .ok r t) : t.mem.table.Extends s.mem.table := by
  obtain ⟨-, -, m, call, rfl, -⟩ := addContextExtension_ok.mp ok
  exact Appends.sdkCall _ _ _ _ call

end TxSerInput

end LedgerErgo.Ergo
