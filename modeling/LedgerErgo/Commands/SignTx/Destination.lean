import LedgerErgo.Commands.SignTx.Variants
import LedgerErgo.Ergo.Address

/-! # Where an output goes

The tree of an output comes in chunks, and its type is decided when the first one is there.
The running hash of a script is replaced by the hash when the tree and the box are complete,
whichever of the two is last. What the screens show in the end depends on the tree only, not
on how it was cut and not on the part that completes the box.
-/

namespace LedgerErgo.SignTx

open LedgerErgo.Common LedgerErgo.Ergo LedgerErgo.Prog TxSerBox
open ErgoTree (P2pk P2sh)

/-- The tree pays to a public key or to the hash of a script. -/
def KnownTree (tree : List UInt8) : Prop := (∃ key, P2pk tree key) ∨ ∃ hash, P2sh tree hash

/-- Long trees are neither. -/
theorem KnownTree.length {tree : List UInt8} (known : KnownTree tree) :
    tree.length = ErgoTree.p2pkLen ∨ tree.length = ErgoTree.p2shLen := by
  cases known with
  | inl pays => exact .inl (pays.elim fun _ => P2pk.length)
  | inr pays => exact .inr (pays.elim fun _ => P2sh.length)

/-- The information about an output while its tree is sent. -/
inductive Growing (tree : List UInt8) (info : OutputInfo) : Prop where
  | nothing (empty : tree = []) (type : info.type = .unknown) (notSet : info.isTreeSet = false)
  | hashing (long : maxDataChunkLen ≤ tree.length) (type : info.type = .script)
      (notSet : info.isTreeSet = false) (stored : info.tree = .treeHashCtx tree)

/-- The information about an output with this tree. -/
inductive Settled (blake2b256 : List UInt8 → ErgoId) (tree : List UInt8) (info : OutputInfo) :
    Prop where
  | address {key : List UInt8} (pays : P2pk tree key) (type : info.type = .address)
      (set : info.isTreeSet = true) (stored : info.tree = .publicKey key)
  | scriptHash {hash : List UInt8} (pays : P2sh tree hash) (type : info.type = .scriptHash)
      (set : info.isTreeSet = true) (stored : info.tree = .treeHash hash)
  | script (other : ¬ KnownTree tree) (type : info.type = .script) (set : info.isTreeSet = true)
      (stored : info.tree = if info.isBoxFinished then .treeHash (blake2b256 tree).val
        else .treeHashCtx tree)

section Infos

variable {blake2b256 : List UInt8 → ErgoId} {tree chunk : List UInt8} {info : OutputInfo}

theorem Growing.isTreeSet (growing : Growing tree info) : info.isTreeSet = false := by
  cases growing with
  | nothing _ _ notSet => exact notSet
  | hashing _ _ notSet _ => exact notSet

/-- Another chunk that is not the last one. -/
theorem Growing.nextChunk (growing : Growing tree info) (long : maxDataChunkLen ≤ chunk.length) :
    Growing (tree ++ chunk) (finishTree blake2b256 (chunkTaken info chunk false)) := by
  have open_ : ∀ other : OutputInfo, other.isTreeSet = false → finishTree blake2b256 other = other := by
    intro other notSet
    simp [finishTree, OutputInfo.isFinished, notSet]
  cases growing with
  | nothing empty type notSet =>
      have taken : chunkTaken info chunk false =
          { info with type := .script, tree := .treeHashCtx chunk, isTreeSet := false } := by
        simp [chunkTaken, classified, chunkHashed, OutputInfo.absorbed, type]
      rw [taken, open_ _ rfl, empty, List.nil_append]
      exact .hashing long rfl rfl rfl
  | hashing before type notSet stored =>
      have taken : chunkTaken info chunk false =
          { info with tree := .treeHashCtx (tree ++ chunk), isTreeSet := false } := by
        simp [chunkTaken, chunkHashed, OutputInfo.absorbed, type, stored]
      rw [taken, open_ _ rfl]
      exact .hashing (by rw [List.length_append]; omega) type rfl rfl

/-- A complete tree of which only the running hash is known. -/
private theorem Settled.ofScript (other : ¬ KnownTree tree) (type : info.type = .script) :
    Settled blake2b256 tree
      (finishTree blake2b256 { info with tree := .treeHashCtx tree, isTreeSet := true }) := by
  by_cases finished : info.isBoxFinished
  · have done : finishTree blake2b256 { info with tree := .treeHashCtx tree, isTreeSet := true } =
        { info with tree := .treeHash (blake2b256 tree).val, isTreeSet := true } := by
      simp [finishTree, OutputInfo.isFinished, OutputInfo.absorbed, finished, type]
    rw [done]
    exact .script other type rfl (by simp [finished])
  · have open_ : finishTree blake2b256 { info with tree := .treeHashCtx tree, isTreeSet := true } =
        { info with tree := .treeHashCtx tree, isTreeSet := true } := by
      simp [finishTree, OutputInfo.isFinished, finished]
    rw [open_]
    exact .script other type rfl (by simp [finished])

/-- Nothing is hashed for a tree that is known. -/
private theorem finish_of_known {isFinished : Bool} (type : info.type ≠ .script) :
    finishTree blake2b256 (chunkHashed info chunk isFinished) = info := by
  rw [chunkHashed, if_neg type, finishTree, if_neg fun finished => type finished.2]

/-- The last chunk settles what the tree is. -/
theorem Growing.lastChunk (growing : Growing tree info) :
    Settled blake2b256 (tree ++ chunk) (finishTree blake2b256 (chunkTaken info chunk true)) := by
  cases growing with
  | hashing long type notSet stored =>
      have taken : chunkTaken info chunk true =
          { info with tree := .treeHashCtx (tree ++ chunk), isTreeSet := true } := by
        simp [chunkTaken, chunkHashed, OutputInfo.absorbed, type, stored]
      rw [taken]
      apply Settled.ofScript _ type
      intro known
      have length := known.length
      rw [List.length_append] at length
      simp only [maxDataChunkLen, ErgoTree.p2pkLen, ErgoTree.p2shLen] at long length
      omega
  | nothing empty type notSet =>
      rw [empty, List.nil_append, chunkTaken, if_pos type]
      cases key : (if chunk.length = ErgoTree.p2pkLen then ErgoTree.parseP2pk chunk else none) with
      | some key' =>
          obtain ⟨length, parsed⟩ := Option.ite_none_right_eq_some.mp key
          have known : classified info chunk true =
              { info with type := .address, isTreeSet := true, tree := .publicKey key' } := by
            simp [classified, length, parsed]
          rw [known, finish_of_known (by simp)]
          exact .address ((ErgoTree.parseP2pk_eq_some length).mp parsed) rfl rfl rfl
      | none =>
          have noKey : ¬ ∃ key, P2pk chunk key := by
            intro pays
            obtain ⟨key', pays⟩ := pays
            rw [if_pos pays.length, (ErgoTree.parseP2pk_eq_some pays.length).mpr pays] at key
            cases key
          cases hash : (if chunk.length = ErgoTree.p2shLen then ErgoTree.parseP2sh chunk
              else none) with
          | some hash' =>
              obtain ⟨length, parsed⟩ := Option.ite_none_right_eq_some.mp hash
              have known : classified info chunk true =
                  { info with type := .scriptHash, isTreeSet := true, tree := .treeHash hash' } := by
                simp only [classified, and_true, key, hash]
              rw [known, finish_of_known (by simp)]
              exact .scriptHash ((ErgoTree.parseP2sh_eq_some length).mp parsed) rfl rfl rfl
          | none =>
              have noHash : ¬ ∃ hash, P2sh chunk hash := by
                intro pays
                obtain ⟨hash', pays⟩ := pays
                rw [if_pos pays.length, (ErgoTree.parseP2sh_eq_some pays.length).mpr pays] at hash
                cases hash
              have known : classified info chunk true =
                  { info with type := .script, tree := .treeHashCtx [] } := by
                simp only [classified, and_true, key, hash]
              rw [known]
              have script : ({ info with type := .script } : OutputInfo).type = .script := rfl
              exact Settled.ofScript (not_or.mpr ⟨noKey, noHash⟩) script

/-- The finished callback after the tree. -/
theorem Settled.boxFinished (settled : Settled blake2b256 tree info)
    (unfinished : info.isBoxFinished = false) (tokens : PerToken UInt64) :
    Settled blake2b256 tree
      (finishTree blake2b256 { info with tokens, isBoxFinished := true }) := by
  cases settled with
  | address pays type set stored =>
      rw [finishTree, if_neg (by simp [type])]
      exact .address pays type set stored
  | scriptHash pays type set stored =>
      rw [finishTree, if_neg (by simp [type])]
      exact .scriptHash pays type set stored
  | script other type set stored =>
      rw [unfinished, if_neg Bool.false_ne_true] at stored
      have absorbed : OutputInfo.absorbed { info with tokens, isBoxFinished := true } = tree := by
        simp [OutputInfo.absorbed, stored]
      rw [finishTree, if_pos (by simp [OutputInfo.isFinished, set, type]), absorbed]
      exact .script other type set rfl

/-- The tokens do not matter. -/
theorem Settled.setTokens (settled : Settled blake2b256 tree info) (tokens : PerToken UInt64) :
    Settled blake2b256 tree { info with tokens } := by
  cases settled with
  | address pays type set stored => exact .address pays type set stored
  | scriptHash pays type set stored => exact .scriptHash pays type set stored
  | script other type set stored => exact .script other type set stored

end Infos

/-! ## The calls of an output -/

namespace OutputCall

/-- The calls of an output that has its tree in chunks. -/
def Delivers : OutputCall → Prop
  | .treeChunk _ | .tokens _ | .registers _ => True
  | _ => False

/-- The bytes of the tree in a call. -/
def chunk : OutputCall → List UInt8
  | .treeChunk data => data
  | _ => []

end OutputCall

/-- The tree of an output, as far as it was sent, with the box of the serializer. -/
structure Sent (sdk : Sdk) (tree : List UInt8) (box : BoxCtx OpMem) (info : OutputInfo) : Prop where
  callbacks : box.callbacks = outputCallbacks sdk
  finished : box.state = .finished ↔ info.isBoxFinished
  growing : box.state = .initialized → Growing tree info
  settled : box.state ≠ .initialized → Settled sdk.blake2b256 tree info

/-- The tree that was sent of the output that was started last. -/
def Delivering (sdk : Sdk) (tree : List UInt8) (op : Op) : Prop :=
  ∃ box, op.ctx.tx.part = .box box ∧ Sent sdk tree box op.ctx.mem.output

theorem nextState_ne_initialized {σ : Type} {ctx : BoxCtx σ} : nextState ctx ≠ .initialized := by
  unfold nextState
  split
  · split <;> simp
  · simp

/-- A chunk that does not complete the tree is shorter than what was left of it. -/
theorem length_lt_of_not_last {σ : Type} {ctx : BoxCtx σ} {len : Nat}
    (fits : len ≤ ctx.ergoTreeSize.toNat) (more : ¬ LastChunk ctx len) :
    len < ctx.ergoTreeSize.toNat := by
  apply Nat.lt_of_le_of_ne fits
  intro whole
  apply more
  rw [LastChunk, whole, UInt32.ofNat_toNat, UInt32.sub_self]

namespace Sent

variable {sdk : Sdk} {tree : List UInt8} {box next : BoxCtx OpMem} {m n : OpMem}

/-- The box is complete in the information exactly when it is in the serializer. -/
theorem unfinished {info : OutputInfo} (sent : Sent sdk tree box info)
    (open_ : box.state ≠ .finished) : info.isBoxFinished = false := by
  rw [Bool.eq_false_iff]
  exact fun marked => open_ (sent.finished.mpr marked)

/-- A call about the tokens or the registers. -/
theorem noted (sent : Sent sdk tree box m.output) (known : box.state ≠ .initialized)
    (open_ : box.state ≠ .finished) (later : next.state ≠ .initialized)
    (callbacks : next.callbacks = outputCallbacks sdk)
    (noted : Noted sdk.blake2b256 (if next.state = .finished then 1 else 0) m n) :
    Sent sdk tree next n.output := by
  have settled := sent.settled known
  have unfinished := sent.unfinished open_
  by_cases done : next.state = .finished
  · rw [if_pos done] at noted
    obtain ⟨tokens, same⟩ := noted
    rw [same]
    refine ⟨callbacks, ?_, fun first => absurd first later, fun _ => ?_⟩
    · rw [OutputInfo.finishTree_frame.2.2]
      simp [done]
    · exact settled.boxFinished unfinished tokens
  · rw [if_neg done] at noted
    obtain ⟨tokens, same⟩ := noted
    rw [same]
    refine ⟨callbacks, ?_, fun first => absurd first later, fun _ => settled.setTokens tokens⟩
    simp [done, unfinished]

/-- The callbacks change nothing of a tree that is not complete. -/
private theorem growing_noted {done : Prop} [Decidable done] (growing : Growing tree m.output)
    (unfinished : m.output.isBoxFinished = false)
    (noted : Noted sdk.blake2b256 (if done then 1 else 0) m n) :
    Growing tree n.output ∧ (done ↔ n.output.isBoxFinished) := by
  have same : ∃ tokens, n.output = { m.output with tokens, isBoxFinished := decide done } := by
    by_cases here : done
    · rw [if_pos here] at noted
      obtain ⟨tokens, same⟩ := noted
      refine ⟨tokens, same.trans ?_⟩
      rw [finishTree, if_neg (by simp [OutputInfo.isFinished, growing.isTreeSet])]
      simp [here]
    · rw [if_neg here] at noted
      obtain ⟨tokens, same⟩ := noted
      refine ⟨tokens, same.trans ?_⟩
      simp [here, ← unfinished]
  obtain ⟨tokens, same⟩ := same
  rw [same]
  refine ⟨?_, by simp⟩
  cases growing with
  | nothing empty type notSet => exact .nothing empty type notSet
  | hashing long type notSet stored => exact .hashing long type notSet stored

/-- A call about the tree. -/
theorem treeChunk {chunk : Buffer} (sent : Sent sdk tree box m.output)
    (initialized : box.state = .initialized) (fits : chunk.length ≤ box.ergoTreeSize.toNat)
    (whole : ¬ (chunk.length < box.ergoTreeSize.toNat ∧ chunk.length < maxDataChunkLen))
    (noted : Noted sdk.blake2b256
      (if (treeChunkDone box chunk.length).state = .finished then 1 else 0) m n) :
    Sent sdk (tree ++ chunk) (treeChunkDone box chunk.length) (finishTree sdk.blake2b256
      (chunkTaken n.output chunk (LastChunk box chunk.length))) := by
  have unfinished := sent.unfinished (by simp [initialized])
  obtain ⟨growing, marked⟩ := growing_noted (sent.growing initialized) unfinished noted
  have callbacks : (treeChunkDone box chunk.length).callbacks = outputCallbacks sdk := by
    rw [← sent.callbacks, treeChunkDone]
    split <;> rfl
  have finished : (treeChunkDone box chunk.length).state = .finished ↔
      (finishTree sdk.blake2b256
        (chunkTaken n.output chunk (LastChunk box chunk.length))).isBoxFinished := by
    rw [OutputInfo.finishTree_frame.2.2, OutputInfo.chunkTaken_isBoxFinished]
    exact marked
  by_cases last : LastChunk box chunk.length
  · refine ⟨callbacks, finished, ?_, ?_⟩
    · intro first
      simp only [treeChunkDone, if_pos last, treeDone] at first
      exact absurd first nextState_ne_initialized
    · intro _
      rw [decide_eq_true last]
      exact growing.lastChunk
  · have long : maxDataChunkLen ≤ chunk.length := by
      by_contra short
      exact whole ⟨length_lt_of_not_last fits last, Nat.lt_of_not_le short⟩
    refine ⟨callbacks, finished, ?_, ?_⟩
    · intro _
      rw [decide_eq_false last]
      exact growing.nextChunk long
    · intro known
      simp only [treeChunkDone, if_neg last] at known
      exact absurd initialized known

end Sent

namespace Delivering

variable {sdk : Sdk} [UnionLayout OpMem] {tree : List UInt8} {s t : Op} {u : Unit}

/-- An output is started. -/
theorem start {value : UInt64} {treeSize height : UInt32} {tokensCount : UInt8}
    {registersSize : UInt32}
    (ok : addOutput sdk value treeSize height tokensCount registersSize s = .ok u t) :
    Delivering sdk [] t := by
  obtain ⟨-, v, added, w, set, rfl⟩ := addOutput_ok.mp ok
  obtain ⟨-, -, -, m, -, rfl⟩ := TxSerFull.addBox_ok.mp added
  obtain ⟨-, rest⟩ := TxSerFull.checkProperState_bind_ok.mp set
  obtain rfl := modifyCtx_ok.mp rest
  refine ⟨_, rfl, rfl, ?_, fun _ => .nothing rfl rfl rfl, fun known => absurd rfl known⟩
  simp [OutputInfo.init, TxSerBox.setCallbacks, FullCtx.boxCtx, FullCtx.setBoxCtx,
    TxSerBox.started]

/-- A call that delivers is made while the box is open. -/
theorem step {call : OutputCall} (delivering : Delivering sdk tree s) (delivers : call.Delivers)
    (ok : call.run sdk s = .ok u t) :
    s.ctx.mem.output.isBoxFinished = false ∧ Delivering sdk (tree ++ call.chunk) t := by
  obtain ⟨part, about⟩ : ∃ part, call.part s.ctx.networkId = some part := by
    cases call with
    | treeChunk data => exact ⟨_, rfl⟩
    | tokens data => exact ⟨_, rfl⟩
    | registers data => exact ⟨_, rfl⟩
    | add => exact delivers.elim
    | treeFee => exact delivers.elim
    | treeChange => exact delivers.elim
  obtain ⟨-, r, v, ran, -, left⟩ := OutputCall.part_eq about ok
  obtain ⟨box, isBox, sent⟩ := delivering
  obtain ⟨-, w, run, rfl⟩ := BoxCall.full_ok.mp ran
  have same : s.ser.ctx.boxCtx = box := by
    have isBox : s.ser.ctx.part = .box box := isBox
    rw [FullCtx.boxCtx, isBox]
  rw [same] at run
  have open_ : box.state ≠ .finished := BoxCall.state_of_run run
  obtain ⟨callbacks, noted⟩ :=
    followed_of_run (s := { s.ser with ctx := box }) Noted.followed sent.callbacks run
  have output : t.ctx.mem.output = call.info sdk r w.mem.cb.output := by
    rw [← left]
    rfl
  refine ⟨sent.unfinished open_, w.ctx, ?_, ?_⟩
  · rw [← left]
    simp only [OutputCall.after, Op.setSer, TxSerFull.afterBox]
    split <;> rfl
  · rw [output]
    cases call with
    | add => exact delivers.elim
    | treeFee => exact delivers.elim
    | treeChange => exact delivers.elim
    | treeChunk data =>
        obtain rfl := Option.some.inj about
        obtain ⟨⟨initialized, fits, whole⟩, k, -, answer, rfl⟩ := addTree_ok.mp run
        have complete : decide (r = .ok) = decide (LastChunk box data.length) := by
          rw [← answer]
          by_cases last : LastChunk box data.length <;> simp [last]
        rw [OutputCall.info, complete]
        exact sent.treeChunk initialized fits whole noted
    | tokens data =>
        obtain rfl := Option.some.inj about
        obtain ⟨state, entries, -, -, -, k, -, -, rfl⟩ := addTokens_ok.mp run
        have state : box.state = .treeAdded := state
        have same : tree ++ (OutputCall.tokens data).chunk = tree := List.append_nil tree
        rw [same]
        refine sent.noted ?_ open_ ?_ callbacks noted
        · simp [state]
        · exact nextState_ne_initialized
    | registers data =>
        obtain rfl := Option.some.inj about
        obtain ⟨state, -, k, -, -, rfl⟩ := addRegisters_ok.mp run
        have state : box.state = .tokensAdded := state
        have same : tree ++ (OutputCall.registers data).chunk = tree := List.append_nil tree
        rw [same]
        refine sent.noted ?_ open_ ?_ callbacks noted
        · simp [state]
        · simp only [registersDone]
          split
          · simp
          · simp [state]

/-- The calls after an output was started. -/
theorem run {calls : List OutputCall} (delivering : Delivering sdk tree s)
    (delivers : ∀ call ∈ calls, call.Delivers)
    (ok : runAll (OutputCall.run sdk) calls s = .ok u t) :
    Delivering sdk (tree ++ calls.flatMap OutputCall.chunk) t := by
  induction calls generalizing tree s with
  | nil =>
      obtain rfl := runAll_nil_ok.mp ok
      rwa [List.flatMap_nil, List.append_nil]
  | cons call calls ih =>
      obtain ⟨_, m, first, rest⟩ := runAll_cons_ok.mp ok
      have next := (delivering.step (delivers call List.mem_cons_self) first).2
      rw [List.flatMap_cons, ← List.append_assoc]
      exact ih next (fun call mem => delivers call (List.mem_cons_of_mem _ mem)) rest

omit [UnionLayout OpMem] in
/-- While the box is open, the running hash of a script has all of the tree so far. -/
theorem absorbed (delivering : Delivering sdk tree s)
    (unfinished : s.ctx.mem.output.isBoxFinished = false) (type : s.ctx.mem.output.type = .script) :
    s.ctx.mem.output.tree = .treeHashCtx tree := by
  obtain ⟨box, -, sent⟩ := delivering
  by_cases initialized : box.state = .initialized
  · cases sent.growing initialized with
    | nothing _ unknown _ => simp [unknown] at type
    | hashing _ _ _ stored => exact stored
  · cases sent.settled initialized with
    | address _ known _ _ => simp [known] at type
    | scriptHash _ known _ _ => simp [known] at type
    | script _ _ _ stored => rwa [unfinished, if_neg Bool.false_ne_true] at stored

omit [UnionLayout OpMem] in
/-- The tree of an output that is complete is settled, and its box is. -/
theorem settled (delivering : Delivering sdk tree s) (finished : s.ctx.mem.output.isFinished) :
    Settled sdk.blake2b256 tree s.ctx.mem.output := by
  obtain ⟨box, -, sent⟩ := delivering
  obtain ⟨set, -⟩ := (Bool.and_eq_true _ _).mp finished
  apply sent.settled
  intro initialized
  rw [(sent.growing initialized).isTreeSet] at set
  cases set

/-- Nothing can be added to an output that is complete. -/
theorem part_none {call : OutputCall} (delivering : Delivering sdk tree s)
    (finished : s.ctx.mem.output.isFinished) (ok : call.run sdk s = .ok u t) :
    call.part s.ctx.networkId = none := by
  obtain ⟨box, isBox, sent⟩ := delivering
  cases about : call.part s.ctx.networkId with
  | none => rfl
  | some part =>
      obtain ⟨-, r, v, ran, -⟩ := OutputCall.part_eq about ok
      obtain ⟨-, w, run, -⟩ := BoxCall.full_ok.mp ran
      have same : s.ser.ctx.boxCtx = box := by
        have isBox : s.ser.ctx.part = .box box := isBox
        rw [FullCtx.boxCtx, isBox]
      rw [same] at run
      have unfinished := sent.unfinished (BoxCall.state_of_run run)
      rw [OutputInfo.isFinished, unfinished, Bool.and_false] at finished
      cases finished

end Delivering

/-! ## The destination that is shown -/

/-- What the information about an output with this tree says in the end. -/
structure Destination (blake2b256 : List UInt8 → ErgoId) (tree : List UInt8) (info : OutputInfo) :
    Prop where
  address : info.type = .address ↔ ∃ key, P2pk tree key
  publicKey : info.type = .address → info.tree = .publicKey ((tree.drop 3).take 33)
  scriptHash : info.type = .scriptHash ↔ ∃ hash, P2sh tree hash
  hash : info.type = .scriptHash → info.tree = .treeHash ((tree.drop 17).take 24)
  script : info.type = .script ↔ ¬ KnownTree tree
  treeHash : info.type = .script → info.tree = .treeHash (blake2b256 tree).val

theorem Settled.destination {blake2b256 : List UInt8 → ErgoId} {tree : List UInt8}
    {info : OutputInfo} (settled : Settled blake2b256 tree info) (finished : info.isFinished) :
    Destination blake2b256 tree info := by
  obtain ⟨-, closed⟩ := (Bool.and_eq_true _ _).mp finished
  cases settled with
  | address pays type set stored =>
      have noHash : ¬ ∃ hash, P2sh tree hash := fun also => also.elim fun _ => pays.not_p2sh
      refine ⟨⟨fun _ => ⟨_, pays⟩, fun _ => type⟩, ?_, ?_, ?_, ?_, ?_⟩
      · rw [pays.key_eq]
        exact fun _ => stored
      · simp [type, noHash]
      · simp [type]
      · simp [type, KnownTree, Exists.intro _ pays]
      · simp [type]
  | scriptHash pays type set stored =>
      have noKey : ¬ ∃ key, P2pk tree key := fun also => also.elim fun _ key => key.not_p2sh pays
      refine ⟨?_, ?_, ⟨fun _ => ⟨_, pays⟩, fun _ => type⟩, ?_, ?_, ?_⟩
      · simp [type, noKey]
      · simp [type]
      · rw [pays.hash_eq]
        exact fun _ => stored
      · simp [type, KnownTree, Exists.intro _ pays]
      · simp [type]
  | script other type set stored =>
      obtain ⟨noKey, noHash⟩ := not_or.mp other
      rw [closed, if_pos rfl] at stored
      refine ⟨?_, ?_, ?_, ?_, ⟨fun _ => other, fun _ => type⟩, fun _ => stored⟩
      · simp [type, noKey]
      · simp [type]
      · simp [type, noHash]
      · simp [type]

section Runs

variable (sdk : Sdk) [UnionLayout OpMem]

/-- The calls complete an output. Before the last one it is open, and of a script there is the
    running hash of what was sent; after the last one nothing of the output can change. -/
structure CompletedOnce (calls : List OutputCall) (s t : Op) : Prop where
  before : ∀ early late m, calls = early ++ late → late ≠ [] →
    runAll (OutputCall.run sdk) early s = .ok () m →
    m.ctx.mem.output.isFinished = false ∧ (m.ctx.mem.output.type = .script →
      m.ctx.mem.output.tree = .treeHashCtx (early.flatMap OutputCall.chunk))
  after : ∀ call t', OutputCall.run sdk call t = .ok () t' → call.part t.ctx.networkId = none

end Runs

section Claims

variable {sdk : Sdk} [UnionLayout OpMem] {s s' t : Op}

/-- For every way to deliver a tree in chunks, the destination that is shown is the one of the
    tree, and the hash of a script is computed once, from all of it. The address of a public key is
    shown for the tree of that key. -/
theorem destination_of_chunks {value : UInt64} {treeSize height : UInt32} {tokensCount : UInt8}
    {registersSize : UInt32} {calls : List OutputCall}
    (started : addOutput sdk value treeSize height tokensCount registersSize s = .ok () s')
    (delivers : ∀ call ∈ calls, call.Delivers)
    (ok : runAll (OutputCall.run sdk) calls s' = .ok () t)
    (finished : t.ctx.mem.output.isFinished) :
    Destination sdk.blake2b256 (calls.flatMap OutputCall.chunk) t.ctx.mem.output ∧
      CompletedOnce sdk calls s' t ∧
      ∀ network publicKey address,
        calls.flatMap OutputCall.chunk = ErgoTree.generateP2pk publicKey →
        ∃ key, t.ctx.mem.output.tree = .publicKey key ∧
          Address.fromCompressedPubkey sdk network key address =
            (Address.fromPubkey sdk network publicKey address :
              EStateM Unit (Mem OpMem) (List UInt8)) := by
  have begin_ : Delivering sdk [] s' := Delivering.start started
  have done : Delivering sdk (calls.flatMap OutputCall.chunk) t := begin_.run delivers ok
  have settled := done.settled finished
  refine ⟨settled.destination finished, ⟨?_, ?_⟩, ?_⟩
  · intro early late m split more ran
    subst split
    obtain ⟨call, late, rfl⟩ := List.exists_cons_of_ne_nil more
    have here : Delivering sdk (early.flatMap OutputCall.chunk) m :=
      begin_.run (fun call mem => delivers call (List.mem_append_left _ mem)) ran
    obtain ⟨k, ran', rest⟩ := runAll_append_ok.mp ok
    obtain ⟨-, rfl⟩ := EStateM.Result.ok.inj (ran.symm.trans ran')
    obtain ⟨_, n, next, -⟩ := runAll_cons_ok.mp rest
    have open_ := (here.step (delivers call (by simp)) next).1
    refine ⟨?_, here.absorbed open_⟩
    rw [OutputInfo.isFinished, open_, Bool.and_false]
  · intro call t' next
    exact done.part_none finished next
  · intro network publicKey address same
    have shown := settled.destination finished
    have pays := ErgoTree.p2pk_generateP2pk publicKey
    rw [← same] at pays
    refine ⟨_, shown.publicKey (shown.address.mpr ⟨_, pays⟩), ?_⟩
    rw [pays.key_eq, same, Address.fromCompressedPubkey_generateP2pk]

end Claims

namespace OneToken

/-- A layout in which the union reads as zero bytes when its other member was written. -/
local instance destinationLayout : UnionLayout OpMem := ⟨fun _ => .zero OpMem, fun _ => .zero OpMem⟩

/-- The operation before its first output. -/
def inputsSent : Op := final (runAll (OpCall.run sdk) (calls.take 4) begun)

/-- An output with a token is started. -/
def outputStarted : Op := final (addOutput sdk 8 36 1 1 0 inputsSent)

theorem outputStarted_ok : addOutput sdk 8 36 1 1 0 inputsSent = .ok () outputStarted :=
  eq_ok_of_succeeds (by decide +kernel)

/-- The tree of a public key, and the token that completes the box. -/
def delivery : List OutputCall :=
  [.treeChunk (ErgoTree.generateP2pk (Bytes.zero 65)), .tokens (u32Bytes 0 ++ u64Bytes 3)]

/-- The operation after it. -/
def outputSent : Op := final (runAll (OutputCall.run sdk) delivery outputStarted)

theorem destination_of_chunks_p2pk :
    Destination sdk.blake2b256 (delivery.flatMap OutputCall.chunk) outputSent.ctx.mem.output ∧
      CompletedOnce sdk delivery outputStarted outputSent ∧
      ∀ network publicKey address,
        delivery.flatMap OutputCall.chunk = ErgoTree.generateP2pk publicKey →
        ∃ key, outputSent.ctx.mem.output.tree = .publicKey key ∧
          Address.fromCompressedPubkey sdk network key address =
            (Address.fromPubkey sdk network publicKey address :
              EStateM Unit (Mem OpMem) (List UInt8)) :=
  destination_of_chunks outputStarted_ok (by simp [delivery, OutputCall.Delivers])
    (eq_ok_of_succeeds (by decide +kernel)) (by decide +kernel)

end OneToken

end LedgerErgo.SignTx
