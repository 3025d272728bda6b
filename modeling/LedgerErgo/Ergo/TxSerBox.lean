import LedgerErgo.Common.Gve
import LedgerErgo.Ergo.ErgoTree
import LedgerErgo.Ergo.TxSerTable

/-! # Serializer of a box

A box is a value, an ergo tree, the creation height, the number of tokens, the tokens
and the registers. Tree and registers come in chunks whose total size is declared at
the start; neither of them is parsed. The tokens of a transaction output refer to the
distinct ids by index, the tokens of an attested box carry their ids. Empty registers
are one zero byte, and no call is needed for them.
-/

namespace LedgerErgo.Ergo

open LedgerErgo.Common LedgerErgo.Prog

/-- The error codes of `ergo_tx_serializer_box_result_e`. -/
inductive BoxErr where
  | badTokenIndex | badTokenId | badTokenValue | tooManyTokens | tooMuchData | hasher | buffer
  | badState | u64Overflow | smallChunk
deriving Repr, DecidableEq

/-- `ergo_tx_serializer_box_state_e` -/
inductive BoxState where
  | initialized | treeAdded | tokensAdded | finished | hashFinalized | error
deriving Repr, DecidableEq

/-- `ergo_tx_serializer_box_type_e` -/
inductive BoxType where
  | fee | change | tree
deriving Repr, DecidableEq

/-- `ergo_tx_serializer_box_type_cb`: it gets the type and the value of the box. -/
abbrev BoxTypeCb (σ : Type) := Callback BoxErr (BoxType × UInt64) Progress σ

/-- `ergo_tx_serializer_box_token_cb`: it gets the type of the box, a token id and an amount. -/
abbrev BoxTokenCb (σ : Type) := Callback BoxErr (BoxType × ErgoId × UInt64) Progress σ

/-- `ergo_tx_serializer_box_finished_cb` -/
abbrev BoxFinishedCb (σ : Type) := Callback BoxErr BoxType Progress σ

/-- `ergo_tx_serializer_box_callbacks_t` -/
structure BoxCallbacks (σ : Type) where
  onType : Option (BoxTypeCb σ)
  onToken : Option (BoxTokenCb σ)
  onFinished : Option (BoxFinishedCb σ)

/-- `ergo_tx_serializer_box_context_t`; the hash is shared. -/
structure BoxCtx (σ : Type) where
  callbacks : BoxCallbacks σ
  value : UInt64
  ergoTreeSize : UInt32
  creationHeight : UInt32
  registersSize : UInt32
  tokensCount : UInt8
  state : BoxState
  type : BoxType

/-- A zeroed context. -/
def BoxCtx.zero (σ : Type) : BoxCtx σ :=
  ⟨⟨none, none, none⟩, 0, 0, 0, 0, 0, .initialized, .fee⟩

instance (σ : Type) : Failable (BoxCtx σ) := ⟨fun ctx => { ctx with state := .error }⟩

/-- How a token entry of a box names its token. -/
inductive TokenRef where
  | id (id : ErgoId)
  | index (index : UInt32)
deriving DecidableEq

/-- A token entry of a box. -/
structure BoxToken where
  ref : TokenRef
  amount : UInt64
deriving DecidableEq

namespace TxSerBox

variable {σ : Type}

/-- `add_height_and_token_count` -/
def addHeightAndTokenCount : EStateM BoxErr (SerState (BoxCtx σ) σ) Unit := do
  let ctx ← getCtx
  let height ← orFail (RwBuffer.scratch 10 (gvePutU32 · ctx.creationHeight)) .buffer
  hashUpdate .hasher height
  let count ← orFail (RwBuffer.scratch 10 (gvePutU8 · ctx.tokensCount)) .buffer
  hashUpdate .hasher count

/-- `add_empty_registers_count` -/
def addEmptyRegistersCount : EStateM BoxErr (SerState (BoxCtx σ) σ) Unit := do
  let count ← orFail (RwBuffer.scratch 1 (gvePutU8 · 0)) .buffer
  hashUpdate .hasher count

/-- `box_finished` -/
def boxFinished : EStateM BoxErr (SerState (BoxCtx σ) σ) Unit := do
  let ctx ← getCtx
  onMem (invoke ctx.callbacks.onFinished ctx.type)
  modifyCtx fun ctx => { ctx with state := .finished }

/-- `ergo_tree_added` -/
def ergoTreeAdded : EStateM BoxErr (SerState (BoxCtx σ) σ) Unit := do
  let ctx ← getCtx
  onMem (invoke ctx.callbacks.onType (ctx.type, ctx.value))
  addHeightAndTokenCount
  if ctx.tokensCount = 0 then
    modifyCtx fun ctx => { ctx with state := .tokensAdded }
    if ctx.registersSize = 0 then
      addEmptyRegistersCount
      boxFinished
  else
    modifyCtx fun ctx => { ctx with state := .treeAdded }

/-- `ergo_tx_serializer_box_init` -/
def init (value : UInt64) (ergoTreeSize creationHeight : UInt32) (tokensCount : UInt8)
    (registersSize : UInt32) : EStateM BoxErr (SerState (BoxCtx σ) σ) Unit := do
  modifyCtx fun _ => BoxCtx.zero σ
  require (tokensCount.toNat ≤ tokenMaxCount) .tooManyTokens
  require (ergoTreeSize ≤ maxTxDataPartLen) .tooMuchData
  require (registersSize ≤ maxTxDataPartLen) .tooMuchData
  let bytes ← orFail (RwBuffer.scratch 10 (gvePutU64 · value)) .buffer
  hashUpdate .hasher bytes
  modifyCtx fun ctx => { ctx with
    ergoTreeSize := ergoTreeSize
    creationHeight := creationHeight
    tokensCount := tokensCount
    registersSize := registersSize
    value := value
    type := .tree
    state := .initialized }

/-- The end of `ergo_tx_serializer_box_add_tree`, after the chunk is hashed. -/
def treeChunkAdded (len : Nat) : EStateM BoxErr (SerState (BoxCtx σ) σ) Progress := do
  modifyCtx fun ctx => { ctx with ergoTreeSize := ctx.ergoTreeSize - UInt32.ofNat len }
  let ctx ← getCtx
  if ctx.ergoTreeSize = 0 then
    modifyCtx fun ctx => { ctx with type := .tree }
    ergoTreeAdded
    return .ok
  else
    return .moreData

/-- `ergo_tx_serializer_box_add_tree` -/
def addTree (treeChunk : Buffer) : EStateM BoxErr (SerState (BoxCtx σ) σ) Progress := do
  let ctx ← getCtx
  require (ctx.state = .initialized) .badState
  require (treeChunk.length ≤ ctx.ergoTreeSize.toNat) .tooMuchData
  require (¬ (treeChunk.length < ctx.ergoTreeSize.toNat ∧ treeChunk.length < maxDataChunkLen))
    .smallChunk
  hashUpdate .hasher treeChunk
  treeChunkAdded treeChunk.length

/-- The common part of the two calls that add a whole tree at once. -/
def addWholeTree (type : BoxType) (tree : List UInt8) :
    EStateM BoxErr (SerState (BoxCtx σ) σ) Unit := do
  let ctx ← getCtx
  require (ctx.state = .initialized) .badState
  hashUpdate .hasher tree
  modifyCtx fun ctx => { ctx with type := type }
  ergoTreeAdded

/-- `ergo_tx_serializer_box_add_miners_fee_tree` -/
def addMinersFeeTree (isMainnet : Bool) : EStateM BoxErr (SerState (BoxCtx σ) σ) Unit :=
  addWholeTree .fee (ErgoTree.minersFeeTree isMainnet)

/-- `ergo_tx_serializer_box_add_change_tree` -/
def addChangeTree (rawPublicKey : PublicKey) : EStateM BoxErr (SerState (BoxCtx σ) σ) Unit :=
  addWholeTree .change (ErgoTree.generateP2pk rawPublicKey)

/-- The first half of a round of the loop of `add_tokens`: without a table the entry carries
    the id, with one it carries an index. An entry too short for an index is reported without
    marking the context. -/
def readTokenRef (table : Option TableCtx) (input : Buffer) :
    EStateM BoxErr (SerState (BoxCtx σ) σ) (TokenRef × Buffer) :=
  match table with
  | none => do
      let (id, rest) ← orFail (bufferReadBytes 32 input) .badTokenId
      hashUpdate .hasher id.val
      return (.id id, rest)
  | some table =>
      match bufferReadU32 input with
      | none => throw .badTokenIndex
      | some (index, rest) => do
          require (index.toNat < table.distinctTokensCount.toNat) .badTokenIndex
          let bytes ← orFail (RwBuffer.scratch 10 (gvePutU32 · index)) .buffer
          hashUpdate .hasher bytes
          return (.index index, rest)

/-- The id the callback gets: the entry's own, or the one in the table. -/
def resolve (table : TokenTable) : TokenRef → ErgoId
  | .id id => id
  | .index index => table.slot index.toNat

/-- Show a token to the callback, if there is one. -/
def tokenCallback (ctx : BoxCtx σ) (token : BoxToken) : EStateM BoxErr (Mem σ) Unit := do
  let mem ← get
  invoke ctx.callbacks.onToken (ctx.type, resolve mem.table token.ref, token.amount)

/-- One round of the loop of `ergo_tx_serializer_box_add_tokens`. -/
def readToken (table : Option TableCtx) (input : Buffer) :
    EStateM BoxErr (SerState (BoxCtx σ) σ) Buffer := do
  let ctx ← getCtx
  require (ctx.tokensCount ≠ 0) .tooManyTokens
  let (ref, rest) ← readTokenRef table input
  let (value, rest) ← orFail (bufferReadU64 rest) .badTokenValue
  let bytes ← orFail (RwBuffer.scratch 10 (gvePutU64 · value)) .buffer
  hashUpdate .hasher bytes
  onMem (tokenCallback ctx ⟨ref, value⟩)
  modifyCtx fun ctx => { ctx with tokensCount := ctx.tokensCount - 1 }
  return rest

/-- The end of `ergo_tx_serializer_box_add_tokens`, after the loop. -/
def tokensRead : EStateM BoxErr (SerState (BoxCtx σ) σ) Progress := do
  let ctx ← getCtx
  if ctx.tokensCount = 0 then
    if ctx.registersSize = 0 then
      addEmptyRegistersCount
      boxFinished
      return .ok
    else
      modifyCtx fun ctx => { ctx with state := .tokensAdded }
      return .ok
  else
    return .moreData

/-- `ergo_tx_serializer_box_add_tokens` -/
def addTokens (input : Buffer) (table : Option TableCtx) :
    EStateM BoxErr (SerState (BoxCtx σ) σ) Progress := do
  let ctx ← getCtx
  require (ctx.state = .treeAdded) .badState
  whileData (readToken table) input.length input
  tokensRead

/-- The end of `ergo_tx_serializer_box_add_registers`, after the chunk is hashed. -/
def registersChunkAdded (len : Nat) : EStateM BoxErr (SerState (BoxCtx σ) σ) Progress := do
  modifyCtx fun ctx => { ctx with registersSize := ctx.registersSize - UInt32.ofNat len }
  let ctx ← getCtx
  if ctx.registersSize = 0 then
    boxFinished
    return .ok
  else
    return .moreData

/-- `ergo_tx_serializer_box_add_registers` -/
def addRegisters (registersChunk : Buffer) :
    EStateM BoxErr (SerState (BoxCtx σ) σ) Progress := do
  let ctx ← getCtx
  require (ctx.state = .tokensAdded) .badState
  require (registersChunk.length ≤ ctx.registersSize.toNat) .tooMuchData
  hashUpdate .hasher registersChunk
  registersChunkAdded registersChunk.length

/-- `ergo_tx_serializer_box_id_hash`: the answer is what it writes to `box_id`. -/
def idHash (blake2b256 : List UInt8 → ErgoId) (txId : ErgoId) (boxIndex : UInt16) :
    EStateM BoxErr (SerState (BoxCtx σ) σ) ErgoId := do
  let ctx ← getCtx
  require (ctx.state = .finished) .badState
  hashUpdate .hasher txId.val
  let bytes ← orFail (RwBuffer.scratch 4 (gvePutU16 · boxIndex)) .buffer
  hashUpdate .hasher bytes
  onMem (sdkCall .hasher)
  modifyCtx fun ctx => { ctx with state := .hashFinalized }
  let s ← get
  return blake2b256 s.hash

/-- `ergo_tx_serializer_box_is_finished` -/
def isFinished (ctx : BoxCtx σ) : Bool := ctx.state = .finished

/-- `ergo_tx_serializer_box_set_callbacks` -/
def setCallbacks (ctx : BoxCtx σ) (callbacks : BoxCallbacks σ) : BoxCtx σ :=
  { ctx with callbacks := callbacks }

end TxSerBox

end LedgerErgo.Ergo
