import LedgerErgo.Commands.SignTx.Amounts
import LedgerErgo.Common.Bip32
import LedgerErgo.Sw

/-! # What is known about an output

The information about the current output that its confirmation screens show: the value,
the tokens, and what its tree turned out to be. A tree that came in one chunk may be a
public key or a script hash; any other one is a script, of which the hash is shown.
-/

namespace LedgerErgo.SignTx

open LedgerErgo.Common LedgerErgo.Ergo LedgerErgo.Prog

/-- `sign_transaction_output_info_type_e` -/
inductive OutputType where
  | unknown | bip32 | address | script | scriptHash | minersFee
deriving Repr, DecidableEq

/-- The union of `sign_transaction_output_info_ctx_t`, with the member written last. -/
inductive OutputTree where
  | treeHashCtx (absorbed : List UInt8)
  | publicKey (key : List UInt8)
  | treeHash (hash : List UInt8)
  | bip32Path (path : Bip32Path)
deriving DecidableEq

/-- `sign_transaction_output_info_ctx_t`; its state byte is three fields. -/
structure OutputInfo where
  value : UInt64
  tokens : PerToken UInt64
  type : OutputType
  isTreeSet : Bool
  isBoxFinished : Bool
  tree : OutputTree
deriving DecidableEq

namespace OutputInfo

/-- `stx_output_info_init` -/
def init (value : UInt64) : OutputInfo where
  value := value
  tokens := Vector.replicate tokenMaxCount 0
  type := .unknown
  isTreeSet := false
  isBoxFinished := false
  tree := .treeHashCtx []

/-- The member `tree_hash_ctx`. -/
def absorbed (info : OutputInfo) : List UInt8 :=
  match info.tree with
  | .treeHashCtx absorbed => absorbed
  | _ => []

/-- The member `bip32_path`. -/
def bip32Path (info : OutputInfo) : Bip32Path :=
  match info.tree with
  | .bip32Path path => path
  | _ => .empty

/-- `stx_output_info_is_finished` -/
def isFinished (info : OutputInfo) : Bool := info.isTreeSet && info.isBoxFinished

/-- `find_token_index` -/
def findTokenIndex (table : TokenTable) (id : ErgoId) : Option Nat := table.findTokenIndex id

/-- `stx_output_info_add_token` -/
def addToken (info : OutputInfo) (table : TokenTable) (id : ErgoId) (value : UInt64) :
    Except BoxErr OutputInfo :=
  match findTokenIndex table id with
  | none => .error .badTokenId
  | some index =>
      if info.tokens[index]?.getD 0 ≠ 0 then .error .badTokenValue
      else .ok { info with tokens := info.tokens.setIfInBounds index value }

/-- `stx_output_info_used_tokens_count` -/
def usedTokensCount (info : OutputInfo) : Nat := info.tokens.toList.countP (· > 0)

end OutputInfo

section Programs

variable {σ : Type}

/-- `maybe_finished`: a script that is complete is replaced by its hash. -/
def maybeFinished (blake2b256 : List UInt8 → ErgoId) (info : OutputInfo) :
    EStateM BoxErr (Mem σ) OutputInfo :=
  if info.isFinished ∧ info.type = .script then do
    sdkCall .hasher
    return { info with tree := .treeHash (blake2b256 info.absorbed).val }
  else pure info

/-- `stx_output_info_set_box_finished` -/
def setBoxFinished (blake2b256 : List UInt8 → ErgoId) (info : OutputInfo) :
    EStateM BoxErr (Mem σ) OutputInfo :=
  maybeFinished blake2b256 { info with isBoxFinished := true }

/-- The result of `maybe_finished` as a status word. -/
def maybeFinishedSw (blake2b256 : List UInt8 → ErgoId) (info : OutputInfo) :
    EStateM Sw (Mem σ) OutputInfo :=
  zoom id (fun mem _ => mem) swFromTxBoxErr (maybeFinished blake2b256 info)

/-- `stx_output_info_set_bip32` -/
def setBip32 (blake2b256 : List UInt8 → ErgoId) (info : OutputInfo) (path : Bip32Path) :
    EStateM Sw (Mem σ) OutputInfo := do
  ensure (info.type = .unknown) .badState
  maybeFinishedSw blake2b256
    { info with type := .bip32, isTreeSet := true, tree := .bip32Path path }

/-- `stx_output_info_set_fee` -/
def setFee (blake2b256 : List UInt8 → ErgoId) (info : OutputInfo) :
    EStateM Sw (Mem σ) OutputInfo := do
  ensure (info.type = .unknown) .badState
  maybeFinishedSw blake2b256 { info with type := .minersFee, isTreeSet := true }

/-- What the first chunk of a tree says about it. -/
def classifyTree (info : OutputInfo) (chunk : List UInt8) (isFinished : Bool) :
    EStateM Sw (Mem σ) OutputInfo :=
  match (if chunk.length = ErgoTree.p2pkLen ∧ isFinished then ErgoTree.parseP2pk chunk else none),
      (if chunk.length = ErgoTree.p2shLen ∧ isFinished then ErgoTree.parseP2sh chunk else none) with
  | some key, _ => pure { info with type := .address, isTreeSet := true, tree := .publicKey key }
  | none, some hash =>
      pure { info with type := .scriptHash, isTreeSet := true, tree := .treeHash hash }
  | none, none => do
      sdkCall .hasherError
      return { info with type := .script, tree := .treeHashCtx [] }

/-- `stx_output_info_add_tree_chunk` -/
def addTreeChunk (blake2b256 : List UInt8 → ErgoId) (info : OutputInfo) (chunk : List UInt8)
    (isFinished : Bool) : EStateM Sw (Mem σ) OutputInfo := do
  ensure (info.type = .unknown ∨ info.type = .script) .badState
  ensure (info.isTreeSet = false) .badState
  let info ← if info.type = .unknown then classifyTree info chunk isFinished else pure info
  if info.type = .script then
    sdkCall .hasherError
    maybeFinishedSw blake2b256 { info with
      tree := .treeHashCtx (info.absorbed ++ chunk)
      isTreeSet := isFinished }
  else
    maybeFinishedSw blake2b256 info

/-! ## What these calls do -/

/-- The information once the tree and the box may be complete. -/
def finishTree (blake2b256 : List UInt8 → ErgoId) (info : OutputInfo) : OutputInfo :=
  if info.isFinished ∧ info.type = .script then
    { info with tree := .treeHash (blake2b256 info.absorbed).val }
  else info

/-- The information once the first chunk of the tree is known. -/
def classified (info : OutputInfo) (chunk : List UInt8) (isFinished : Bool) : OutputInfo :=
  match (if chunk.length = ErgoTree.p2pkLen ∧ isFinished then ErgoTree.parseP2pk chunk else none),
      (if chunk.length = ErgoTree.p2shLen ∧ isFinished then ErgoTree.parseP2sh chunk else none) with
  | some key, _ => { info with type := .address, isTreeSet := true, tree := .publicKey key }
  | none, some hash => { info with type := .scriptHash, isTreeSet := true, tree := .treeHash hash }
  | none, none => { info with type := .script, tree := .treeHashCtx [] }

/-- The chunk is added to the running hash of a script. -/
def chunkHashed (info : OutputInfo) (chunk : List UInt8) (isFinished : Bool) : OutputInfo :=
  if info.type = .script then
    { info with tree := .treeHashCtx (info.absorbed ++ chunk), isTreeSet := isFinished }
  else info

/-- The information after another chunk. -/
def chunkTaken (info : OutputInfo) (chunk : List UInt8) (isFinished : Bool) : OutputInfo :=
  chunkHashed (if info.type = .unknown then classified info chunk isFinished else info) chunk
    isFinished

section Ok

variable {blake2b256 : List UInt8 → ErgoId} {info info' : OutputInfo} {m n : Mem σ}

theorem maybeFinished_ok (ok : maybeFinished blake2b256 info m = .ok info' n) :
    info' = finishTree blake2b256 info ∧ n.table = m.table ∧ n.cb = m.cb := by
  unfold maybeFinished at ok
  unfold finishTree
  split at ok
  · simp only [bind_ok, exists_unit, pure_ok] at ok
    obtain ⟨_, call, rfl, rfl⟩ := ok
    rw [if_pos (by assumption)]
    exact ⟨rfl, sdkCall_frame call⟩
  · obtain ⟨rfl, rfl⟩ := pure_ok.mp ok
    rw [if_neg (by assumption)]
    exact ⟨rfl, rfl, rfl⟩

theorem setBoxFinished_ok (ok : setBoxFinished blake2b256 info m = .ok info' n) :
    info' = finishTree blake2b256 { info with isBoxFinished := true } ∧
      n.table = m.table ∧ n.cb = m.cb :=
  maybeFinished_ok ok

theorem maybeFinishedSw_ok (ok : maybeFinishedSw blake2b256 info m = .ok info' n) :
    info' = finishTree blake2b256 info ∧ n.table = m.table ∧ n.cb = m.cb := by
  obtain ⟨k, ran, rfl⟩ := zoom_ok.mp ok
  exact maybeFinished_ok ran

theorem setBip32_ok {path : Bip32Path} (ok : setBip32 blake2b256 info path m = .ok info' n) :
    (info.type = .unknown ∧
      info' = finishTree blake2b256
        { info with type := .bip32, isTreeSet := true, tree := .bip32Path path }) ∧
      n.table = m.table ∧ n.cb = m.cb := by
  simp only [setBip32, bind_ok, exists_unit, ensure_ok] at ok
  obtain ⟨_, ⟨unknown, rfl⟩, ran⟩ := ok
  obtain ⟨result, frame⟩ := maybeFinishedSw_ok ran
  exact ⟨⟨unknown, result⟩, frame⟩

theorem setFee_ok (ok : setFee blake2b256 info m = .ok info' n) :
    (info.type = .unknown ∧
      info' = finishTree blake2b256 { info with type := .minersFee, isTreeSet := true }) ∧
      n.table = m.table ∧ n.cb = m.cb := by
  simp only [setFee, bind_ok, exists_unit, ensure_ok] at ok
  obtain ⟨_, ⟨unknown, rfl⟩, ran⟩ := ok
  obtain ⟨result, frame⟩ := maybeFinishedSw_ok ran
  exact ⟨⟨unknown, result⟩, frame⟩

theorem classifyTree_ok {chunk : List UInt8} {isFinished : Bool}
    (ok : classifyTree info chunk isFinished m = .ok info' n) :
    info' = classified info chunk isFinished ∧ n.table = m.table ∧ n.cb = m.cb := by
  unfold classifyTree at ok
  unfold classified
  generalize (if chunk.length = ErgoTree.p2pkLen ∧ isFinished then ErgoTree.parseP2pk chunk
    else none) = key at ok ⊢
  generalize (if chunk.length = ErgoTree.p2shLen ∧ isFinished then ErgoTree.parseP2sh chunk
    else none) = hash at ok ⊢
  cases key with
  | some key =>
      obtain ⟨rfl, rfl⟩ := pure_ok.mp ok
      exact ⟨rfl, rfl, rfl⟩
  | none =>
      cases hash with
      | some hash =>
          obtain ⟨rfl, rfl⟩ := pure_ok.mp ok
          exact ⟨rfl, rfl, rfl⟩
      | none =>
          simp only [bind_ok, exists_unit, pure_ok] at ok
          obtain ⟨_, call, rfl, rfl⟩ := ok
          exact ⟨rfl, sdkCall_frame call⟩

/-- The end of `stx_output_info_add_tree_chunk`, once the type of the tree is known. -/
private theorem hashTreeChunk_ok {chunk : List UInt8} {isFinished : Bool}
    (ok : (if info.type = .script then do
        sdkCall .hasherError
        maybeFinishedSw blake2b256 { info with
          tree := .treeHashCtx (info.absorbed ++ chunk)
          isTreeSet := isFinished }
      else
        maybeFinishedSw blake2b256 info : EStateM Sw (Mem σ) OutputInfo) m = .ok info' n) :
    info' = finishTree blake2b256 (chunkHashed info chunk isFinished) ∧
      n.table = m.table ∧ n.cb = m.cb := by
  unfold chunkHashed
  split at ok
  · simp only [bind_ok, exists_unit] at ok
    obtain ⟨k, call, finish⟩ := ok
    have hashed := sdkCall_frame call
    obtain ⟨result, table, cb⟩ := maybeFinishedSw_ok finish
    rw [if_pos (by assumption)]
    exact ⟨result, table.trans hashed.1, cb.trans hashed.2⟩
  · rw [if_neg (by assumption)]
    exact maybeFinishedSw_ok ok

theorem addTreeChunk_ok {chunk : List UInt8} {isFinished : Bool}
    (ok : addTreeChunk blake2b256 info chunk isFinished m = .ok info' n) :
    (((info.type = .unknown ∨ info.type = .script) ∧ info.isTreeSet = false) ∧
      info' = finishTree blake2b256 (chunkTaken info chunk isFinished)) ∧
      n.table = m.table ∧ n.cb = m.cb := by
  simp only [addTreeChunk, bind_ok, exists_unit, ensure_ok] at ok
  obtain ⟨_, ⟨type, rfl⟩, _, ⟨notSet, rfl⟩, rest⟩ := ok
  unfold chunkTaken
  split at rest
  · obtain ⟨known, k, classified, hashed⟩ := bind_ok.mp rest
    obtain ⟨rfl, table, cb⟩ := classifyTree_ok classified
    obtain ⟨result, table', cb'⟩ := hashTreeChunk_ok hashed
    rw [if_pos (by assumption)]
    exact ⟨⟨⟨type, notSet⟩, result⟩, table'.trans table, cb'.trans cb⟩
  · obtain ⟨known, k, same, hashed⟩ := bind_ok.mp rest
    obtain ⟨rfl, rfl⟩ := pure_ok.mp same
    obtain ⟨result, frame⟩ := hashTreeChunk_ok hashed
    rw [if_neg (by assumption)]
    exact ⟨⟨⟨type, notSet⟩, result⟩, frame⟩

end Ok

/-- The tokens and the value stay as they are. -/
theorem finishTree_tokens {blake2b256 : List UInt8 → ErgoId} {info : OutputInfo} :
    (finishTree blake2b256 info).tokens = info.tokens ∧
      (finishTree blake2b256 info).value = info.value := by
  unfold finishTree
  split <;> exact ⟨rfl, rfl⟩

theorem chunkTaken_tokens {info : OutputInfo} {chunk : List UInt8} {isFinished : Bool} :
    (chunkTaken info chunk isFinished).tokens = info.tokens ∧
      (chunkTaken info chunk isFinished).value = info.value := by
  have known : (classified info chunk isFinished).tokens = info.tokens ∧
      (classified info chunk isFinished).value = info.value := by
    unfold classified
    split <;> exact ⟨rfl, rfl⟩
  have hashed : ∀ info, (chunkHashed info chunk isFinished).tokens = info.tokens ∧
      (chunkHashed info chunk isFinished).value = info.value := by
    intro info
    unfold chunkHashed
    split <;> exact ⟨rfl, rfl⟩
  unfold chunkTaken
  rw [(hashed _).1, (hashed _).2]
  split
  · exact known
  · exact ⟨rfl, rfl⟩

end Programs

end LedgerErgo.SignTx
