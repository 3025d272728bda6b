import LedgerErgo.Ergo.TxSerBox
import LedgerErgo.Lib.Counter

/-! # What the calls of the box serializer do

Each call that succeeds changes the context in one way, appends one string to the hash
and runs one sequence of SDK calls and callbacks on the shared memory. The theorems here
say which; the rest of the development uses them and no longer looks into the code.
-/

namespace LedgerErgo.Ergo

open LedgerErgo.Common LedgerErgo.Prog

/-- The name of the token as the host sends it. -/
def TokenRef.raw : TokenRef → List UInt8
  | .id tokenId => tokenId.val
  | .index i => u32Bytes i

/-- The name of the token as it is hashed. -/
def TokenRef.bytes : TokenRef → List UInt8
  | .id tokenId => tokenId.val
  | .index i => vlq i.toNat

/-- The token is named the way a call with this table expects. -/
def TokenRef.Fits : Option TableCtx → TokenRef → Prop
  | none, .id _ => True
  | some table, .index i => i.toNat < table.distinctTokensCount.toNat
  | _, _ => False

instance (table : Option TableCtx) (ref : TokenRef) : Decidable (ref.Fits table) := by
  unfold TokenRef.Fits
  split <;> infer_instance

/-- An entry as the host sends it. -/
def BoxToken.raw (token : BoxToken) : List UInt8 := token.ref.raw ++ u64Bytes token.amount

/-- An entry as it is hashed. -/
def BoxToken.bytes (token : BoxToken) : List UInt8 := token.ref.bytes ++ vlq token.amount.toNat

theorem BoxToken.raw_ne_nil (token : BoxToken) : token.raw ≠ [] :=
  List.ne_nil_of_length_pos (by simp [BoxToken.raw])

namespace BoxCallbacks

variable {σ : Type}

/-- The callbacks of a box are told its type and value. -/
def showsType (callbacks : BoxCallbacks σ) (type : BoxType) (value : UInt64) : Showing σ :=
  shows callbacks.onType (type, value)

/-- They are shown a token under its id, which is looked up in the table. -/
def showsToken (callbacks : BoxCallbacks σ) (type : BoxType) (token : BoxToken) : Showing σ :=
  fun m => shows callbacks.onToken (type, TxSerBox.resolve m.table token.ref, token.amount) m

/-- They are told that the box is complete. -/
def showsFinished (callbacks : BoxCallbacks σ) (type : BoxType) : Showing σ :=
  shows callbacks.onFinished type

end BoxCallbacks

namespace TxSerBox

variable {σ : Type}

/-- The context a successful `init` leaves. -/
def started (value : UInt64) (ergoTreeSize creationHeight : UInt32) (tokensCount : UInt8)
    (registersSize : UInt32) : BoxCtx σ where
  callbacks := ⟨none, none, none⟩
  value := value
  ergoTreeSize := ergoTreeSize
  creationHeight := creationHeight
  registersSize := registersSize
  tokensCount := tokensCount
  state := .initialized
  type := .tree

/-- Nothing is left to send after the part that is complete now. -/
def NothingLeft (ctx : BoxCtx σ) : Prop := ctx.tokensCount = 0 ∧ ctx.registersSize = 0

instance (ctx : BoxCtx σ) : Decidable (NothingLeft ctx) :=
  inferInstanceAs (Decidable (_ ∧ _))

/-- The state after the tree or the tokens, as the counters stand. -/
def nextState (ctx : BoxCtx σ) : BoxState :=
  if ctx.tokensCount = 0 then
    if ctx.registersSize = 0 then .finished else .tokensAdded
  else .treeAdded

/-- The bytes of empty registers, if the box ends here. -/
def endBytes (ctx : BoxCtx σ) : List UInt8 := if NothingLeft ctx then [0] else []

/-- What happens to the memory if the box ends here. -/
def endEffect (ctx : BoxCtx σ) : EStateM BoxErr (Mem σ) Unit :=
  if NothingLeft ctx then do
    sdkCall .hasher
    invoke ctx.callbacks.onFinished ctx.type
  else pure ()

/-- The context after the tree. -/
def treeDone (ctx : BoxCtx σ) : BoxCtx σ := { ctx with state := nextState ctx }

/-- The bytes hashed once the tree is complete. -/
def treeDoneBytes (ctx : BoxCtx σ) : List UInt8 :=
  vlq ctx.creationHeight.toNat ++ [ctx.tokensCount] ++ endBytes ctx

/-- What happens to the memory once the tree is complete. -/
def treeDoneEffect (ctx : BoxCtx σ) : EStateM BoxErr (Mem σ) Unit := do
  invoke ctx.callbacks.onType (ctx.type, ctx.value)
  sdkCalls .hasher 2
  endEffect ctx

theorem init_ok {value : UInt64} {treeSize height : UInt32} {tokensCount : UInt8}
    {registersSize : UInt32} {s t : SerState (BoxCtx σ) σ} {u : Unit} :
    init value treeSize height tokensCount registersSize s = .ok u t ↔
      (tokensCount.toNat ≤ tokenMaxCount ∧ treeSize ≤ maxTxDataPartLen ∧
        registersSize ≤ maxTxDataPartLen) ∧
      ∃ m, sdkCall BoxErr.hasher s.mem = .ok () m ∧
        ⟨started value treeSize height tokensCount registersSize,
          s.hash ++ vlq value.toNat, m⟩ = t := by
  simp [init, BoxCtx.zero, started]
  aesop

private theorem addHeightAndTokenCount_does (c : BoxCtx σ) :
    Does addHeightAndTokenCount c () c (vlq c.creationHeight.toNat ++ [c.tokensCount])
      (sdkCalls .hasher 2) := by
  have one : ∀ count, RwBuffer.scratch 10 (gvePutU8 · count) = some [count] :=
    fun _ => scratch_gvePutU8 (by omega) (by omega)
  simp only [addHeightAndTokenCount, scratch_gvePutU32, one]
  refine .congr (.getCtx_bind (.orFail_bind (.bind .hashUpdate (.orFail_bind .hashUpdate)))) rfl rfl ?_
  simp [sdkCalls]

private theorem addEmptyRegistersCount_does (c : BoxCtx σ) :
    Does addEmptyRegistersCount c () c [0] (sdkCall .hasher) := by
  have one : RwBuffer.scratch 1 (gvePutU8 · 0) = some [0] :=
    scratch_gvePutU8 (by omega) (by omega)
  simp only [addEmptyRegistersCount, one]
  exact .orFail_bind .hashUpdate

private theorem boxFinished_does (c : BoxCtx σ) :
    Does boxFinished c () { c with state := .finished } []
      (invoke c.callbacks.onFinished c.type) := by
  refine .congr (.getCtx_bind (.bind .onMem .modifyCtx)) rfl rfl ?_
  simp

/-- The end of a box without registers. -/
private theorem boxEnd_does (c : BoxCtx σ) :
    Does (do addEmptyRegistersCount; boxFinished) c () { c with state := .finished } [0]
      (do sdkCall .hasher; invoke c.callbacks.onFinished c.type) :=
  .bind (addEmptyRegistersCount_does c) (boxFinished_does c)

/-- The end of `ergo_tree_added`, where the counters decide what comes next. -/
private theorem treeEnd_does (c : BoxCtx σ) :
    Does (if c.tokensCount = 0 then do
        modifyCtx fun ctx => { ctx with state := .tokensAdded }
        if c.registersSize = 0 then
          addEmptyRegistersCount
          boxFinished
      else
        modifyCtx fun ctx => { ctx with state := .treeAdded }) c ()
      (treeDone c) (endBytes c) (endEffect c) := by
  refine .congr (.ite (.modifyCtx_bind (.ite (boxEnd_does _) .pure)) .modifyCtx) ?_ ?_ ?_
  · by_cases tokens : c.tokensCount = 0 <;> by_cases registers : c.registersSize = 0 <;>
      simp [treeDone, nextState, tokens, registers]
  · by_cases tokens : c.tokensCount = 0 <;> by_cases registers : c.registersSize = 0 <;>
      simp [endBytes, NothingLeft, tokens, registers]
  · by_cases tokens : c.tokensCount = 0 <;> by_cases registers : c.registersSize = 0 <;>
      simp [endEffect, NothingLeft, tokens, registers]

theorem ergoTreeAdded_does (c : BoxCtx σ) :
    Does ergoTreeAdded c () (treeDone c) (treeDoneBytes c) (treeDoneEffect c) := by
  refine .congr (.getCtx_bind (.bind .onMem (.bind (addHeightAndTokenCount_does c)
    (treeEnd_does c)))) rfl ?_ fun _ _ => Iff.rfl
  simp [treeDoneBytes]

/-- A chunk of this length completes the tree. -/
def LastChunk (ctx : BoxCtx σ) (len : Nat) : Prop := ctx.ergoTreeSize - UInt32.ofNat len = 0

instance (ctx : BoxCtx σ) (len : Nat) : Decidable (LastChunk ctx len) :=
  inferInstanceAs (Decidable (_ = _))

/-- The context after one more chunk of the tree. -/
def treeChunkDone (ctx : BoxCtx σ) (len : Nat) : BoxCtx σ :=
  let rest := { ctx with ergoTreeSize := ctx.ergoTreeSize - UInt32.ofNat len }
  if LastChunk ctx len then treeDone { rest with type := .tree } else rest

/-- The bytes hashed for one more chunk of the tree. -/
def treeChunkBytes (ctx : BoxCtx σ) (chunk : Buffer) : List UInt8 :=
  chunk ++ if LastChunk ctx chunk.length then treeDoneBytes ctx else []

/-- What happens to the memory for one more chunk of the tree. -/
def treeChunkEffect (ctx : BoxCtx σ) (len : Nat) : EStateM BoxErr (Mem σ) Unit := do
  sdkCall .hasher
  if LastChunk ctx len then treeDoneEffect { ctx with type := .tree } else pure ()

private theorem treeChunkAdded_does (c : BoxCtx σ) (len : Nat) :
    Does (treeChunkAdded len) c (if LastChunk c len then .ok else .moreData) (treeChunkDone c len)
      (if LastChunk c len then treeDoneBytes c else [])
      (if LastChunk c len then treeDoneEffect { c with type := .tree } else pure ()) := by
  refine .modifyCtx_bind (.getCtx_bind (.ite (.modifyCtx_bind (.congr
    (.bind (ergoTreeAdded_does _) .pure) rfl ?_ ?_)) .pure))
  · exact List.append_nil _
  · intro m n
    simp only [bind_ok, exists_unit, pure_ok, true_and, exists_eq_right]
    rfl

theorem addTree_ok {chunk : Buffer} {s t : SerState (BoxCtx σ) σ} {r : Progress} :
    addTree chunk s = .ok r t ↔
      (s.ctx.state = .initialized ∧ chunk.length ≤ s.ctx.ergoTreeSize.toNat ∧
        ¬ (chunk.length < s.ctx.ergoTreeSize.toNat ∧ chunk.length < maxDataChunkLen)) ∧
      ∃ m, treeChunkEffect s.ctx chunk.length s.mem = .ok () m ∧
        (if LastChunk s.ctx chunk.length then .ok else .moreData) = r ∧
        ⟨treeChunkDone s.ctx chunk.length, s.hash ++ treeChunkBytes s.ctx chunk, m⟩ = t := by
  simp only [addTree, getCtx_bind, require_bind_ok, and_assoc]
  exact and_congr_right fun started => and_congr_right fun fits => and_congr_right fun _ =>
    Does.bind .hashUpdate (treeChunkAdded_does s.ctx chunk.length) _ _ _ _

/-- What happens to the memory when a whole tree is added at once. -/
def wholeTreeEffect (ctx : BoxCtx σ) (type : BoxType) : EStateM BoxErr (Mem σ) Unit := do
  sdkCall .hasher
  treeDoneEffect { ctx with type := type }

theorem addWholeTree_ok {type : BoxType} {tree : List UInt8} {s t : SerState (BoxCtx σ) σ}
    {u : Unit} :
    addWholeTree type tree s = .ok u t ↔
      s.ctx.state = .initialized ∧
      ∃ m, wholeTreeEffect s.ctx type s.mem = .ok () m ∧
        ⟨treeDone { s.ctx with type := type }, s.hash ++ (tree ++ treeDoneBytes s.ctx), m⟩ = t := by
  simp only [addWholeTree, getCtx_bind, require_bind_ok]
  exact and_congr_right fun _ =>
    (Does.bind .hashUpdate (.modifyCtx_bind (ergoTreeAdded_does _))).ok_iff

/-- What happens to the memory for one token. -/
def tokenEffect (ctx : BoxCtx σ) (token : BoxToken) : EStateM BoxErr (Mem σ) Unit := do
  sdkCalls .hasher 2
  tokenCallback ctx token

/-- A round of the loop of `add_tokens`, once the entry is known. -/
def takeToken (table : Option TableCtx) (token : BoxToken) :
    EStateM BoxErr (SerState (BoxCtx σ) σ) Unit := do
  let ctx ← getCtx
  require (ctx.tokensCount ≠ 0) .tooManyTokens
  require (token.ref.Fits table) .badTokenIndex
  onMem (tokenEffect ctx token)
  modify fun s => ⟨{ ctx with tokensCount := ctx.tokensCount - 1 }, s.hash ++ token.bytes, s.mem⟩

private theorem readTokenRef_ok {table : Option TableCtx} {input rest : Buffer} {ref : TokenRef}
    {s t : SerState (BoxCtx σ) σ} :
    readTokenRef table input s = .ok (ref, rest) t ↔
      input = ref.raw ++ rest ∧ ref.Fits table ∧
      ∃ m, sdkCall BoxErr.hasher s.mem = .ok () m ∧ ⟨s.ctx, s.hash ++ ref.bytes, m⟩ = t := by
  cases table with
  | none =>
      simp only [readTokenRef, bind_ok, exists_unit, orFail_ok, hashUpdate_ok, pure_ok,
        Prod.exists, bufferReadBytes_eq_some, Prod.mk.injEq]
      constructor
      · rintro ⟨id, after, _, ⟨rfl, rfl⟩, _, ⟨m, hm, rfl⟩, ⟨rfl, rfl⟩, rfl⟩
        exact ⟨rfl, trivial, m, hm, rfl⟩
      · rintro ⟨rfl, fits, m, hm, rfl⟩
        cases ref with
        | id id => exact ⟨id, _, s, ⟨rfl, rfl⟩, _, ⟨m, hm, rfl⟩, ⟨rfl, rfl⟩, rfl⟩
        | index index => exact fits.elim
  | some table =>
      cases read : bufferReadU32 input with
      | none =>
          simp only [readTokenRef, read, throw_ok, false_iff]
          rintro ⟨rfl, fits, _⟩
          cases ref with
          | id id => exact fits
          | index index => simp [TokenRef.raw, bufferReadU32_eq_some.mpr rfl] at read
      | some found =>
          obtain ⟨index, after⟩ := found
          simp only [readTokenRef, read, require_bind_ok]
          simp only [scratch_gvePutU32, bind_ok, exists_unit, orFail_ok, hashUpdate_ok, pure_ok,
            Option.some.injEq, Prod.mk.injEq]
          obtain rfl := bufferReadU32_eq_some.mp read
          constructor
          · rintro ⟨inside, _, _, ⟨rfl, rfl⟩, _, ⟨m, hm, rfl⟩, ⟨rfl, rfl⟩, rfl⟩
            exact ⟨rfl, inside, m, hm, rfl⟩
          · rintro ⟨split, fits, m, hm, rfl⟩
            cases ref with
            | id id => exact fits.elim
            | index index' =>
                rw [TokenRef.raw, ← bufferReadU32_eq_some, read] at split
                obtain ⟨rfl, rfl⟩ := Prod.mk.inj (Option.some.inj split)
                exact ⟨fits, _, s, ⟨rfl, rfl⟩, _, ⟨m, hm, rfl⟩, ⟨rfl, rfl⟩, rfl⟩

theorem readToken_ok {table : Option TableCtx} {input rest : Buffer}
    {s t : SerState (BoxCtx σ) σ} :
    readToken table input s = .ok rest t ↔
      ∃ token : BoxToken, input = token.raw ++ rest ∧ takeToken table token s = .ok () t := by
  simp only [readToken, takeToken, getCtx_bind, require_bind_ok]
  simp only [scratch_gvePutU64, bind_ok,
    exists_unit, orFail_ok, hashUpdate_ok, onMem_ok, modifyCtx_ok, modify_ok, pure_ok, Prod.exists,
    readTokenRef_ok, bufferReadU64_eq_some, tokenEffect, sdkCalls, Option.some.injEq]
  constructor
  · rintro ⟨count, ref, _, _, ⟨rfl, fits, m, hm, rfl⟩, value, _, _, ⟨rfl, rfl⟩, _, _, ⟨rfl, rfl⟩,
      _, ⟨n, hn, rfl⟩, _, ⟨k, hk, rfl⟩, _, rfl, rfl, rfl⟩
    refine ⟨⟨ref, value⟩, by simp [BoxToken.raw], count, fits, _,
      ⟨k, ⟨n, ⟨m, hm, ⟨n, hn, trivial, rfl⟩⟩, hk⟩, rfl⟩, by simp [BoxToken.bytes]⟩
  · rintro ⟨⟨ref, value⟩, rfl, count, fits, _, ⟨k, ⟨n, ⟨m, hm, ⟨_, hn, _, rfl⟩⟩, hk⟩, rfl⟩, rfl⟩
    refine ⟨count, ref, u64Bytes value ++ rest, _, ⟨by simp [BoxToken.raw], fits, m, hm, rfl⟩,
      value, _, _, ⟨rfl, rfl⟩, _, _, ⟨rfl, rfl⟩, _, ⟨_, hn, rfl⟩, _, ⟨k, hk, rfl⟩, _, rfl, rfl, ?_⟩
    simp [BoxToken.bytes]

/-- The context after some tokens are taken off the counter. -/
def tokensTaken (ctx : BoxCtx σ) (len : Nat) : BoxCtx σ :=
  { ctx with tokensCount := ctx.tokensCount - UInt8.ofNat len }

private theorem takeToken_ok {table : Option TableCtx} {token : BoxToken}
    {s t : SerState (BoxCtx σ) σ} :
    takeToken table token s = .ok () t ↔
      s.ctx.tokensCount ≠ 0 ∧ token.ref.Fits table ∧
      ∃ m, tokenEffect s.ctx token s.mem = .ok () m ∧
        ⟨tokensTaken s.ctx 1, s.hash ++ token.bytes, m⟩ = t := by
  simp only [takeToken, getCtx_bind, require_bind_ok]
  simp only [bind_ok, exists_unit, onMem_ok, modify_ok]
  refine and_congr_right fun _ => and_congr_right fun _ => ?_
  constructor
  · rintro ⟨_, ⟨m, hm, rfl⟩, rfl⟩
    exact ⟨m, hm, rfl⟩
  · rintro ⟨m, hm, rfl⟩
    exact ⟨_, ⟨m, hm, rfl⟩, rfl⟩

/-- The rounds of the loop together. -/
theorem takeTokens_ok {table : Option TableCtx} {tokens : List BoxToken}
    {s t : SerState (BoxCtx σ) σ} :
    runAll (takeToken table) tokens s = .ok () t ↔
      tokens.length ≤ s.ctx.tokensCount.toNat ∧ (∀ token ∈ tokens, token.ref.Fits table) ∧
      ∃ m, runAll (tokenEffect s.ctx) tokens s.mem = .ok () m ∧
        ⟨tokensTaken s.ctx tokens.length, s.hash ++ tokens.flatMap BoxToken.bytes, m⟩ = t := by
  induction tokens generalizing s with
  | nil => simp [runAll_nil_ok, tokensTaken]
  | cons token tokens ih =>
      have merge : tokensTaken (tokensTaken s.ctx 1) tokens.length =
          tokensTaken s.ctx (tokens.length + 1) := by
        have counts : s.ctx.tokensCount - UInt8.ofNat 1 - UInt8.ofNat tokens.length =
            s.ctx.tokensCount - (UInt8.ofNat tokens.length + UInt8.ofNat 1) := by grind
        simp only [tokensTaken, UInt8.ofNat_add, counts]
      have same : tokenEffect (tokensTaken s.ctx 1) = tokenEffect s.ctx := rfl
      simp only [runAll_cons_ok, exists_unit, takeToken_ok, ih, List.length_cons,
        List.forall_mem_cons, List.flatMap_cons]
      constructor
      · rintro ⟨_, ⟨more, fits, m, hm, rfl⟩, room, others, n, hn, rfl⟩
        have positive := Counter.toNat_pos8.mp more
        rw [tokensTaken, Counter.toNat_sub_ofNat8 positive] at room
        exact ⟨by omega, ⟨fits, others⟩, n, ⟨m, hm, hn⟩, by rw [merge, List.append_assoc]⟩
      · rintro ⟨room, ⟨fits, others⟩, n, ⟨m, hm, hn⟩, rfl⟩
        have more : s.ctx.tokensCount ≠ 0 := by
          rintro zero
          rw [zero] at room
          simp at room
        refine ⟨_, ⟨more, fits, m, hm, rfl⟩, ?_, others, n, hn, by rw [merge, List.append_assoc]⟩
        rw [tokensTaken, Counter.toNat_sub_ofNat8 (by omega)]
        omega

/-- What happens to the memory in a call of `add_tokens`. -/
def tokensEffect (ctx : BoxCtx σ) (tokens : List BoxToken) : EStateM BoxErr (Mem σ) Unit := do
  runAll (tokenEffect ctx) tokens
  endEffect (tokensTaken ctx tokens.length)

private theorem tokensRead_does {c : BoxCtx σ} (reading : c.state = .treeAdded) :
    Does tokensRead c (if c.tokensCount = 0 then .ok else .moreData) (treeDone c) (endBytes c)
      (endEffect c) := by
  refine .congr (.getCtx_bind (.ite (.ite_same (.bind (addEmptyRegistersCount_does c)
    (.bind (boxFinished_does c) .pure)) (.modifyCtx_bind .pure)) .pure)) ?_ ?_ ?_
  · by_cases tokens : c.tokensCount = 0
    · by_cases registers : c.registersSize = 0 <;> simp [treeDone, nextState, tokens, registers]
    · simp [treeDone, nextState, tokens, ← reading]
  · by_cases tokens : c.tokensCount = 0 <;> by_cases registers : c.registersSize = 0 <;>
      simp [endBytes, NothingLeft, tokens, registers]
  · by_cases tokens : c.tokensCount = 0 <;> by_cases registers : c.registersSize = 0 <;>
      simp [endEffect, NothingLeft, tokens, registers]

theorem addTokens_ok {input : Buffer} {table : Option TableCtx} {s t : SerState (BoxCtx σ) σ}
    {r : Progress} :
    addTokens input table s = .ok r t ↔
      s.ctx.state = .treeAdded ∧
      ∃ tokens : List BoxToken, input = tokens.flatMap BoxToken.raw ∧
      tokens.length ≤ s.ctx.tokensCount.toNat ∧ (∀ token ∈ tokens, token.ref.Fits table) ∧
      ∃ m, tokensEffect s.ctx tokens s.mem = .ok () m ∧
        (if (tokensTaken s.ctx tokens.length).tokensCount = 0 then .ok else .moreData) = r ∧
        ⟨treeDone (tokensTaken s.ctx tokens.length),
          s.hash ++ (tokens.flatMap BoxToken.bytes ++ endBytes (tokensTaken s.ctx tokens.length)),
          m⟩ = t := by
  have entries := @whileData_ok BoxErr (SerState (BoxCtx σ) σ) BoxToken UInt8 (readToken table)
    BoxToken.raw (takeToken table) BoxToken.raw_ne_nil (fun _ _ _ _ => readToken_ok)
  simp only [addTokens, getCtx_bind, require_bind_ok]
  simp only [bind_ok, exists_unit, entries le_rfl, takeTokens_ok, tokensEffect]
  refine and_congr_right fun reading => ?_
  have last := fun len => tokensRead_does (c := tokensTaken s.ctx len) reading
  constructor
  · rintro ⟨_, ⟨tokens, rfl, room, fits, m, hm, rfl⟩, rest⟩
    obtain ⟨n, hn, rfl, rfl⟩ := (last _ _ _ _ _).mp rest
    exact ⟨tokens, rfl, room, fits, n, ⟨m, hm, hn⟩, rfl, by simp⟩
  · rintro ⟨tokens, rfl, room, fits, n, ⟨m, hm, hn⟩, rfl, rfl⟩
    exact ⟨_, ⟨tokens, rfl, room, fits, m, hm, rfl⟩,
      (last _ _ _ _ _).mpr ⟨n, hn, rfl, by simp⟩⟩

/-- A chunk of this length completes the registers. -/
def LastRegisters (ctx : BoxCtx σ) (len : Nat) : Prop := ctx.registersSize - UInt32.ofNat len = 0

instance (ctx : BoxCtx σ) (len : Nat) : Decidable (LastRegisters ctx len) :=
  inferInstanceAs (Decidable (_ = _))

/-- The context after one more chunk of the registers. -/
def registersDone (ctx : BoxCtx σ) (len : Nat) : BoxCtx σ :=
  let rest := { ctx with registersSize := ctx.registersSize - UInt32.ofNat len }
  if LastRegisters ctx len then { rest with state := .finished } else rest

/-- What happens to the memory for one more chunk of the registers. -/
def registersEffect (ctx : BoxCtx σ) (len : Nat) : EStateM BoxErr (Mem σ) Unit := do
  sdkCall .hasher
  if LastRegisters ctx len then invoke ctx.callbacks.onFinished ctx.type else pure ()

theorem addRegisters_ok {chunk : Buffer} {s t : SerState (BoxCtx σ) σ} {r : Progress} :
    addRegisters chunk s = .ok r t ↔
      s.ctx.state = .tokensAdded ∧ chunk.length ≤ s.ctx.registersSize.toNat ∧
      ∃ m, registersEffect s.ctx chunk.length s.mem = .ok () m ∧
        (if LastRegisters s.ctx chunk.length then .ok else .moreData) = r ∧
        ⟨registersDone s.ctx chunk.length, s.hash ++ chunk, m⟩ = t := by
  have added : ∀ c : BoxCtx σ, Does (registersChunkAdded chunk.length) c
      (if LastRegisters c chunk.length then .ok else .moreData) (registersDone c chunk.length)
      (if LastRegisters c chunk.length then [] else [])
      (if LastRegisters c chunk.length then invoke c.callbacks.onFinished c.type else pure ()) :=
    fun c => .modifyCtx_bind (.getCtx_bind (.ite
      (.congr (.bind (boxFinished_does _) .pure) rfl rfl (by simp)) .pure))
  simp only [addRegisters, getCtx_bind, require_bind_ok]
  refine and_congr_right fun started => and_congr_right fun fits => ?_
  have both : Does (do
      hashUpdate BoxErr.hasher chunk
      registersChunkAdded chunk.length) s.ctx _ _ _ _ := .bind .hashUpdate (added s.ctx)
  simpa [registersEffect] using both s.hash s.mem r t

theorem idHash_ok {blake2b256 : List UInt8 → ErgoId} {txId boxId : ErgoId} {boxIndex : UInt16}
    {s t : SerState (BoxCtx σ) σ} :
    idHash blake2b256 txId boxIndex s = .ok boxId t ↔
      s.ctx.state = .finished ∧
      ∃ m, sdkCalls BoxErr.hasher 3 s.mem = .ok () m ∧
        blake2b256 (s.hash ++ (txId.val ++ vlq boxIndex.toNat)) = boxId ∧
        ⟨{ s.ctx with state := .hashFinalized }, s.hash ++ (txId.val ++ vlq boxIndex.toNat), m⟩ =
          t := by
  simp only [idHash, getCtx_bind, require_bind_ok]
  refine and_congr_right fun _ => ?_
  simp only [scratch_gvePutU16, bind_ok, exists_unit, orFail_ok, hashUpdate_ok, onMem_ok,
    modifyCtx_ok, get_ok, pure_ok, Option.some.injEq, sdkCalls]
  constructor
  · rintro ⟨_, ⟨m, hm, rfl⟩, _, _, ⟨rfl, rfl⟩, _, ⟨n, hn, rfl⟩, _, ⟨k, hk, rfl⟩, _, rfl, _, _,
      ⟨rfl, rfl⟩, rfl, rfl⟩
    exact ⟨k, ⟨m, hm, n, hn, k, hk, trivial, rfl⟩, by simp, by simp⟩
  · rintro ⟨_, ⟨m, hm, n, hn, k, hk, _, rfl⟩, rfl, rfl⟩
    exact ⟨_, ⟨m, hm, rfl⟩, _, _, ⟨rfl, rfl⟩, _, ⟨n, hn, rfl⟩, _, ⟨k, hk, rfl⟩, _, rfl, _, _,
      ⟨rfl, rfl⟩, by simp, by simp⟩

/-! ## The effects on the memory -/

section Effects

variable (ctx : BoxCtx σ)

theorem appends_tokenCallback (token : BoxToken) : Appends (tokenCallback ctx token) := by
  intro m a n ok
  simp only [tokenCallback, bind_ok, get_ok] at ok
  obtain ⟨_, _, ⟨rfl, rfl⟩, ran⟩ := ok
  exact invoke_extends ran

theorem appends_endEffect : Appends (endEffect ctx) :=
  .ite ((Appends.sdkCall _).bind (.invoke _ _)) .pure

theorem appends_treeDoneEffect : Appends (treeDoneEffect ctx) :=
  (Appends.invoke _ _).bind ((Appends.sdkCalls _ _).bind (appends_endEffect ctx))

theorem appends_treeChunkEffect (len : Nat) : Appends (treeChunkEffect ctx len) :=
  (Appends.sdkCall _).bind (.ite (appends_treeDoneEffect _) .pure)

theorem appends_wholeTreeEffect (type : BoxType) : Appends (wholeTreeEffect ctx type) :=
  (Appends.sdkCall _).bind (appends_treeDoneEffect _)

theorem appends_tokensEffect (tokens : List BoxToken) : Appends (tokensEffect ctx tokens) :=
  (Appends.runAll (fun token => (Appends.sdkCalls _ _).bind (appends_tokenCallback ctx token))
    tokens).bind (appends_endEffect _)

theorem appends_registersEffect (len : Nat) : Appends (registersEffect ctx len) :=
  (Appends.sdkCall _).bind (.ite (.invoke _ _) .pure)

end Effects

section Progress

variable (ctx : BoxCtx σ)

/-- What is shown if the box ends here. -/
def endShown : List (Showing σ) :=
  if NothingLeft ctx then [ctx.callbacks.showsFinished ctx.type] else []

/-- What is shown once the tree is complete. -/
def treeDoneShown : List (Showing σ) :=
  ctx.callbacks.showsType ctx.type ctx.value :: endShown ctx

theorem goes_tokenEffect (token : BoxToken) :
    Goes [ctx.callbacks.showsToken ctx.type token] (tokenEffect ctx token) := by
  have callback : Goes [ctx.callbacks.showsToken ctx.type token] (tokenCallback ctx token) :=
    fun _ m quiet welcomes => welcomes m rfl rfl quiet
  exact (Goes.sdkCalls _ _).bind callback

theorem goes_endEffect : Goes (endShown ctx) (endEffect ctx) :=
  .ite ((Goes.sdkCall _).bind (.invoke _ _)) .pure

theorem goes_treeDoneEffect : Goes (treeDoneShown ctx) (treeDoneEffect ctx) :=
  (Goes.invoke ctx.callbacks.onType (ctx.type, ctx.value)).bind
    ((Goes.sdkCalls _ _).bind (goes_endEffect ctx))

theorem goes_treeChunkEffect (len : Nat) :
    Goes (if LastChunk ctx len then treeDoneShown { ctx with type := .tree } else [])
      (treeChunkEffect ctx len) :=
  (Goes.sdkCall _).bind (.ite (goes_treeDoneEffect _) .pure)

theorem goes_wholeTreeEffect (type : BoxType) :
    Goes (treeDoneShown { ctx with type := type }) (wholeTreeEffect ctx type) :=
  (Goes.sdkCall _).bind (goes_treeDoneEffect _)

theorem goes_tokensEffect (tokens : List BoxToken) :
    Goes (tokens.map (ctx.callbacks.showsToken ctx.type) ++ endShown (tokensTaken ctx tokens.length))
      (tokensEffect ctx tokens) :=
  (Goes.runAll (goes_tokenEffect ctx) tokens).bind (goes_endEffect _)

theorem goes_registersEffect (len : Nat) :
    Goes (if LastRegisters ctx len then [ctx.callbacks.showsFinished ctx.type] else [])
      (registersEffect ctx len) :=
  (Goes.sdkCall _).bind (.ite (.invoke _ _) .pure)

end Progress

end TxSerBox

end LedgerErgo.Ergo
