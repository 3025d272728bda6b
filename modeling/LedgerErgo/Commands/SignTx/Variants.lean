import LedgerErgo.Commands.SignTx.AmountsExact

/-! # Which variant of a shared storage is live

The contexts of the input and of the box share their storage in the serializer, and the
information about an output keeps a path, a public key, a hash or a running hash in one
place. Neither storage records by itself which variant was written last. The state of the
operation, the state of the serializer and the type tag of the output agree on it after
every sequence of calls, also where a path is written before anything was checked.
-/

namespace LedgerErgo.SignTx

open LedgerErgo.Common LedgerErgo.Ergo LedgerErgo.Prog TxSerBox

/-- A call about the output information depends on what the information is. -/
theorem checkOutputCall_congr {f g : OutputInfo → EStateM Sw (Mem OpMem) OutputInfo} {s : Op}
    (same : f s.ctx.mem.output = g s.ctx.mem.output) : checkOutputCall f s = checkOutputCall g s := by
  have calls : ∀ m : Mem OpMem, m.cb = s.ctx.mem →
      (do let mem ← get
          let output ← f mem.cb.output
          modify fun mem => { mem with cb := { mem.cb with output } } :
        EStateM Sw (Mem OpMem) Unit) m =
      (do let mem ← get
          let output ← g mem.cb.output
          modify fun mem => { mem with cb := { mem.cb with output } } :
        EStateM Sw (Mem OpMem) Unit) m := by
    intro m here
    rw [bind_of_ok (get_ok.mpr ⟨rfl, rfl⟩), bind_of_ok (get_ok.mpr ⟨rfl, rfl⟩), here, same]
  unfold checkOutputCall orHandlerErr zoom
  rw [calls s.mem rfl]

/-! ## The variant of an output -/

namespace OutputInfo

/-- The variant that belongs to the type, while the tree of a script is hashed. -/
def Live (info : OutputInfo) : Prop :=
  match info.type with
  | .unknown | .minersFee => True
  | .bip32 => ∃ path, info.tree = .bip32Path path
  | .address => ∃ key, info.tree = .publicKey key
  | .scriptHash => ∃ hash, info.tree = .treeHash hash
  | .script => ∃ absorbed, info.tree = .treeHashCtx absorbed

/-- The variant that was written last belongs to the type: the running hash of a script is
    replaced by the hash once the output is complete. -/
def Matches (info : OutputInfo) : Prop :=
  if info.type = .script ∧ info.isFinished then ∃ hash, info.tree = .treeHash hash else info.Live

/-- Before the output is complete, the running hash of a script is there. -/
theorem Matches.live {info : OutputInfo} (same : info.Matches) (open_ : info.isBoxFinished = false) :
    info.Live := by
  have notYet : ¬ (info.type = .script ∧ info.isFinished) := by simp [isFinished, open_]
  unfold Matches at same
  rwa [if_neg notYet] at same

theorem Live.finishTree {blake2b256 : List UInt8 → ErgoId} {info : OutputInfo} (live : info.Live) :
    (finishTree blake2b256 info).Matches := by
  unfold SignTx.finishTree
  by_cases complete : info.isFinished ∧ info.type = .script
  · rw [if_pos complete, Matches, if_pos ⟨complete.2, complete.1⟩]
    exact ⟨_, rfl⟩
  · rw [if_neg complete, Matches, if_neg fun here => complete here.symm]
    exact live

theorem Live.chunkTaken {info : OutputInfo} {chunk : List UInt8} {isFinished : Bool}
    (live : info.Live) : (chunkTaken info chunk isFinished).Live := by
  have hashed : ∀ {info : OutputInfo}, info.Live → (chunkHashed info chunk isFinished).Live := by
    intro info live
    unfold chunkHashed
    split
    · simp [Live, *]
    · exact live
  unfold SignTx.chunkTaken
  apply hashed
  split
  · unfold classified
    split <;> simp [Live]
  · exact live

theorem finishTree_frame {blake2b256 : List UInt8 → ErgoId} {info : OutputInfo} :
    (SignTx.finishTree blake2b256 info).type = info.type ∧
      (SignTx.finishTree blake2b256 info).isTreeSet = info.isTreeSet ∧
      (SignTx.finishTree blake2b256 info).isBoxFinished = info.isBoxFinished := by
  unfold SignTx.finishTree
  split <;> exact ⟨rfl, rfl, rfl⟩

theorem chunkTaken_isBoxFinished {info : OutputInfo} {chunk : List UInt8} {isFinished : Bool} :
    (SignTx.chunkTaken info chunk isFinished).isBoxFinished = info.isBoxFinished := by
  have hashed : ∀ info : OutputInfo,
      (chunkHashed info chunk isFinished).isBoxFinished = info.isBoxFinished := by
    intro info
    unfold chunkHashed
    split <;> rfl
  unfold SignTx.chunkTaken
  rw [hashed]
  split
  · unfold classified
    split <;> rfl
  · rfl

end OutputInfo

/-! ## What the callbacks leave of it -/

theorem finishTree_setTokens {blake2b256 : List UInt8 → ErgoId} {info : OutputInfo}
    {tokens : PerToken UInt64} :
    { finishTree blake2b256 info with tokens } = finishTree blake2b256 { info with tokens } := by
  have same : ∀ p : Prop, [Decidable p] → ∀ hash : OutputTree,
      { (if p then { info with tree := hash } else info) with tokens } =
        if p then { info with tokens, tree := hash } else { info with tokens } := by
    intro p _ hash
    split <;> rfl
  exact same _ _

/-- The callbacks change the tokens of an output, and the last one marks it as finished. -/
def Noted (blake2b256 : List UInt8 → ErgoId) (count : Nat) (m n : OpMem) : Prop :=
  match count with
  | 0 => ∃ tokens, n.output = { m.output with tokens }
  | 1 => ∃ tokens, n.output = finishTree blake2b256 { m.output with tokens, isBoxFinished := true }
  | _ => True

namespace Noted

variable {sdk : Sdk}

theorem onType (a : BoxType × UInt64) :
    Tracks (Noted sdk.blake2b256) 0 (invoke (some p2pkOutputTypeCb) a) := by
  apply Tracks.invoke
  intro m r n ok
  simp only [p2pkOutputTypeCb, boxCallback, bind_ok, get_ok, ofExcept_ok, set_ok, pure_ok] at ok
  obtain ⟨_, _, ⟨_, _, ⟨rfl, rfl⟩, _, _, ⟨-, rfl⟩, rfl⟩, -, rfl⟩ := ok
  exact ⟨_, rfl⟩

theorem addToken {table : TokenTable} {id : ErgoId} {value : UInt64} {info info' : OutputInfo}
    (ok : info.addToken table id value = .ok info') : ∃ tokens, info' = { info with tokens } := by
  unfold OutputInfo.addToken at ok
  split at ok
  · simp at ok
  · split at ok
    · simp at ok
    · exact ⟨_, (Except.ok.inj ok).symm⟩

theorem onToken (a : BoxType × ErgoId × UInt64) :
    Tracks (Noted sdk.blake2b256) 0 (invoke (some p2pkOutputTokenCb) a) := by
  apply Tracks.invoke
  intro m r n ok
  simp only [p2pkOutputTokenCb, boxCallback, bind_ok, get_ok, ofExcept_ok, set_ok, pure_ok] at ok
  obtain ⟨_, _, ⟨_, _, ⟨rfl, rfl⟩, _, _, ⟨added, rfl⟩, _, _, ⟨-, rfl⟩, rfl⟩, -, rfl⟩ := ok
  exact addToken added

theorem onFinished (a : BoxType) :
    Tracks (Noted sdk.blake2b256) 1 (invoke (some (p2pkOutputFinishedCb sdk)) a) := by
  apply Tracks.invoke
  intro m r n ok
  simp only [p2pkOutputFinishedCb, boxCallback, bind_ok, get_ok, modify_ok, pure_ok] at ok
  obtain ⟨_, _, ⟨_, _, ⟨rfl, rfl⟩, info, k, ran, rfl⟩, -, rfl⟩ := ok
  obtain ⟨rfl, -, -⟩ := setBoxFinished_ok ran
  exact ⟨m.cb.output.tokens, rfl⟩

theorem trans {a b : Nat} {m k n : OpMem} (first : Noted sdk.blake2b256 a m k)
    (second : Noted sdk.blake2b256 b k n) : Noted sdk.blake2b256 (a + b) m n := by
  match a, b with
  | 0, 0 =>
      obtain ⟨tokens, here⟩ := first
      obtain ⟨tokens', there⟩ := second
      rw [here] at there
      exact ⟨tokens', there⟩
  | 0, 1 =>
      obtain ⟨tokens, here⟩ := first
      obtain ⟨tokens', there⟩ := second
      rw [here] at there
      exact ⟨tokens', there⟩
  | 1, 0 =>
      obtain ⟨tokens, here⟩ := first
      obtain ⟨tokens', there⟩ := second
      rw [here] at there
      exact ⟨tokens', there.trans finishTree_setTokens⟩
  | 1, b + 1 =>
      rw [Nat.add_comm]
      trivial
  | 0, b + 2 =>
      rw [Nat.zero_add]
      trivial
  | a + 2, b =>
      rw [Nat.add_right_comm]
      trivial

theorem followed : Followed sdk (Noted sdk.blake2b256) where
  refl := fun m => ⟨m.output.tokens, rfl⟩
  trans := trans
  onType := onType
  onToken := onToken
  onFinished := onFinished

/-- The information about an output that was not finished, after the callbacks of a call. -/
theorem output {m n : OpMem} {finished : Prop} [Decidable finished]
    (noted : Noted sdk.blake2b256 (if finished then 1 else 0) m n) (live : m.output.Live)
    (unfinished : m.output.isBoxFinished = false) :
    n.output.Matches ∧ (n.output.isTreeSet = false → n.output.Live) ∧
      (finished ↔ n.output.isBoxFinished) := by
  by_cases done : finished
  · rw [if_pos done] at noted
    obtain ⟨tokens, same⟩ := noted
    have marked : ({ m.output with tokens, isBoxFinished := true } : OutputInfo).Live := live
    rw [same]
    refine ⟨marked.finishTree, ?_, ?_⟩
    · intro notSet
      rw [OutputInfo.finishTree_frame.2.1] at notSet
      have notSet : m.output.isTreeSet = false := notSet
      have open_ : ¬ (({ m.output with tokens, isBoxFinished := true } : OutputInfo).isFinished ∧
          m.output.type = .script) := by simp [OutputInfo.isFinished, notSet]
      rw [finishTree, if_neg open_]
      exact marked
    · rw [OutputInfo.finishTree_frame.2.2]
      simp [done]
  · rw [if_neg done] at noted
    obtain ⟨tokens, same⟩ := noted
    have open_ : ¬ (m.output.type = .script ∧
        ({ m.output with tokens } : OutputInfo).isFinished) := by
      simp [OutputInfo.isFinished, unfinished]
    rw [same]
    refine ⟨?_, fun _ => live, by simp [done, unfinished]⟩
    rw [OutputInfo.Matches, if_neg open_]
    exact live

/-- What a call notes about the output after the callbacks. -/
theorem info {call : OutputCall} {r : Progress} {m n : OpMem} {finished : Prop} [Decidable finished]
    (noted : Noted sdk.blake2b256 (if finished then 1 else 0) m n) (live : m.output.Live)
    (unfinished : m.output.isBoxFinished = false) (expects : call.Expects n.output) :
    (call.info sdk r n.output).Matches ∧
      (finished ↔ (call.info sdk r n.output).isBoxFinished) := by
  obtain ⟨same, untilSet, marked⟩ := noted.output live unfinished
  cases call with
  | add | tokens | registers => exact ⟨same, marked⟩
  | treeChunk data =>
      refine ⟨(untilSet expects.2).chunkTaken.finishTree, ?_⟩
      rw [OutputCall.info, OutputInfo.finishTree_frame.2.2, OutputInfo.chunkTaken_isBoxFinished]
      exact marked
  | treeFee =>
      refine ⟨OutputInfo.Live.finishTree trivial, ?_⟩
      rw [OutputCall.info, OutputInfo.finishTree_frame.2.2]
      exact marked
  | treeChange path pubKey =>
      refine ⟨OutputInfo.Live.finishTree ⟨path, rfl⟩, ?_⟩
      rw [OutputCall.info, OutputInfo.finishTree_frame.2.2]
      exact marked

end Noted

/-! ## The member of the union -/

/-- A member of the serializer's union, as it was initialized. -/
inductive Member where
  | input (boxId : ErgoId)
  | box (value : UInt64)
deriving DecidableEq

/-- The member that a call initializes, if it does. -/
def OpCall.member : OpCall → Option Member
  | .addInput boxId _ _ _ => some (.input boxId)
  | .output (.add value _ _ _ _) => some (.box value)
  | _ => none

/-- The member that was initialized last. -/
def lastMember (calls : List OpCall) : Option Member := calls.reverse.findSome? OpCall.member

theorem lastMember_concat (calls : List OpCall) (call : OpCall) :
    lastMember (calls ++ [call]) = call.member.or (lastMember calls) := by
  simp [lastMember, List.findSome?_cons]
  cases call.member <;> rfl

/-- The input context is live: it was marked as finished when the inputs began, or its
    initialization was the last one and the callback of the operation is installed. -/
def InputLive (calls : List OpCall) (ctx : FullCtx OpMem) : Prop :=
  ∃ input, ctx.part = .input input ∧
    (lastMember calls = none ∧ input.state = .finished ∨
      lastMember calls = some (.input input.boxId) ∧ input.onTokenCb = some p2pkInputTokenCb)

/-- The box context is live: its initialization was the last one and the callbacks of the
    operation are installed. -/
def BoxLive (sdk : Sdk) (calls : List OpCall) (ctx : FullCtx OpMem) : Prop :=
  ∃ box, ctx.part = .box box ∧ lastMember calls = some (.box box.value) ∧
    box.callbacks = outputCallbacks sdk

/-- When a change path is read back, which is behind the change tree, the path is what was written. -/
def ReadsBack [UnionLayout OpMem] (path : Bip32Path) (pubKey : PublicKey) (op : Op) : Prop :=
  ∃ v, TxSerFull.addBoxChangeTree pubKey ({ op with ctx := writePath path op.ctx } : Op).ser = .ok () v ∧
    v.mem.cb.output.type = .unknown ∧ v.mem.cb.output.tree = .bip32Path path

/-- What a call reads from the shared storages is live when it is made. -/
def ReadsLive [UnionLayout OpMem] (sdk : Sdk) (calls : List OpCall) (op : Op) : OpCall → Prop
  | .startTx .. | .addTokens _ | .addDataInputs _ | .output (.add ..) => True
  | .addInput .. | .addInputTokens .. | .addInputContextExtension _ => InputLive calls op.ctx.tx
  | .output (.treeChange path pubKey) =>
      BoxLive sdk calls op.ctx.tx ∧ op.ctx.mem.output.type = .unknown ∧ ReadsBack path pubKey op
  | .output _ => BoxLive sdk calls op.ctx.tx ∧ op.ctx.mem.output.Live

/-- What holds of the shared storages after the calls of a session. -/
structure Variants (sdk : Sdk) (calls : List OpCall) (op : Op) : Prop where
  before : op.ctx.state = .initialized ∨ op.ctx.state = .txStarted → lastMember calls = none
  started : op.ctx.state = .txStarted → ∃ input, op.ctx.tx.part = .input input ∧
    (op.ctx.tx.state ≠ .tokensStarted → input.state = .finished)
  input : op.ctx.state = .inputsStarted → ∃ input, op.ctx.tx.part = .input input ∧
    lastMember calls = some (.input input.boxId) ∧ input.onTokenCb = some p2pkInputTokenCb
  box : op.ctx.state = .outputsStarted → ∃ box, op.ctx.tx.part = .box box ∧
    (lastMember calls = some (.box box.value) ∧ box.callbacks = outputCallbacks sdk) ∧
    (box.state = .finished ↔ op.ctx.mem.output.isBoxFinished)
  tree : op.ctx.state = .outputsStarted ∨ op.ctx.state = .txFinished → op.ctx.mem.output.Matches

namespace Variants

variable {sdk : Sdk} [UnionLayout OpMem] {calls : List OpCall} {s t : Op} {u : Unit}

private theorem startTx {inputs dataInputs outputs : UInt16} {tokens : UInt8}
    (variants : Variants sdk calls s)
    (ok : SignTx.startTx inputs dataInputs outputs tokens s = .ok u t) :
    Variants sdk (calls ++ [.startTx inputs dataInputs outputs tokens]) t := by
  obtain ⟨state, v, ran, rfl⟩ := startTx_ok.mp ok
  obtain ⟨-, bounded, -, m, -, rfl⟩ := TxSerFull.init_ok.mp ran
  have none : lastMember calls = none := variants.before (.inl state)
  refine ⟨?_, ?_, by simp, by simp, by simp⟩
  · intro _
    rw [lastMember_concat, none]
    rfl
  · intro _
    change ∃ input, (TxSerFull.started inputs dataInputs outputs ⟨tokens, bounded⟩ :
      FullCtx OpMem).part = .input input ∧ (_ → input.state = .finished)
    unfold TxSerFull.started
    split
    · exact ⟨_, rfl, fun _ => rfl⟩
    · exact ⟨_, rfl, fun past => (past (by simp [Op.setSer, *])).elim⟩

/-- The distinct ids are collected in the token table; the union is written when they are
    complete. -/
private theorem addTokens_part {tokens : Buffer} {s t : SerState (FullCtx OpMem) OpMem}
    {r : Progress} (ok : TxSerFull.addTokens tokens s = .ok r t) :
    s.ctx.state = .tokensStarted ∧ (t.ctx.part = s.ctx.part ∧ t.ctx.state = .tokensStarted ∨
      t.ctx.state = .inputsStarted ∧ ∃ input, t.ctx.part = .input input ∧ input.state = .finished) := by
  obtain ⟨state, ok⟩ := TxSerFull.checkProperState_bind_ok.mp ok
  obtain ⟨res, k, called, ok⟩ := bind_ok.mp ok
  obtain ⟨v, -, rfl⟩ := callPart_ok.mp called
  refine ⟨state, ?_⟩
  cases res with
  | ok =>
      simp only [TxSerFull.startInputs, bind_ok, modifyCtx_ok, exists_unit, pure_ok] at ok
      obtain ⟨_, rfl, -, rfl⟩ := ok
      exact .inr ⟨rfl, _, rfl, rfl⟩
  | moreData =>
      obtain ⟨-, rfl⟩ := pure_ok.mp ok
      exact .inl ⟨rfl, state⟩

private theorem addTokens {data : Buffer} (variants : Variants sdk calls s)
    (ok : SignTx.addTokens data s = .ok u t) : Variants sdk (calls ++ [.addTokens data]) t := by
  obtain ⟨state, r, v, ran, rfl⟩ := serial_ok.mp ok
  have state : s.ctx.state = .txStarted := by simpa using state
  obtain ⟨-, part⟩ := addTokens_part ran
  have same : (s.setSer v).ctx.state = .txStarted := state
  refine ⟨?_, ?_, by simp [same], by simp [same], by simp [same]⟩
  · intro _
    rw [lastMember_concat, variants.before (.inr state)]
    rfl
  · intro _
    rcases part with ⟨part, collecting⟩ | ⟨-, input, part, finished⟩
    · obtain ⟨input, before, -⟩ := variants.started state
      exact ⟨input, part.trans before, fun past => (past collecting).elim⟩
    · exact ⟨input, part, fun _ => finished⟩

omit [UnionLayout OpMem] in
/-- What a call about inputs reads, in the states in which it is accepted. -/
private theorem inputLive (variants : Variants sdk calls s)
    (state : s.ctx.state ∈ [OpState.txStarted, .inputsStarted])
    (collected : s.ctx.tx.state = .inputsStarted) : InputLive calls s.ctx.tx := by
  rcases List.mem_pair.mp state with state | state
  · obtain ⟨input, part, finished⟩ := variants.started state
    exact ⟨input, part, .inl ⟨variants.before (.inr state), finished (by simp [collected])⟩⟩
  · obtain ⟨input, part, last⟩ := variants.input state
    exact ⟨input, part, .inr last⟩

private theorem addInput {boxId : ErgoId} {value : UInt64} {framesCount : UInt8}
    {extensionLength : UInt32} (variants : Variants sdk calls s)
    (ok : SignTx.addInput boxId value framesCount extensionLength s = .ok u t) :
    InputLive calls s.ctx.tx ∧
      Variants sdk (calls ++ [.addInput boxId value framesCount extensionLength]) t := by
  obtain ⟨state, v, added, w, set, amounts, -, rfl⟩ := addInput_ok ok
  obtain ⟨collected, -, -, -, rfl⟩ := TxSerFull.addInput_ok.mp added
  obtain ⟨-, rest⟩ := TxSerFull.checkProperState_bind_ok.mp set
  obtain rfl := modifyCtx_ok.mp rest
  refine ⟨variants.inputLive state collected, by simp, by simp, ?_, by simp, by simp⟩
  intro _
  refine ⟨_, rfl, ?_, rfl⟩
  rw [lastMember_concat]
  rfl

omit [UnionLayout OpMem] in
/-- A call about the input that was started leaves its id and its callback. -/
private theorem inputPart {call : OpCall} {v : SerState (InputCtx OpMem) OpMem} {m : Mem OpMem}
    {input : InputCtx OpMem} (variants : Variants sdk calls s) (none : call.member = none)
    (state : s.ctx.state = .inputsStarted) (part : s.ctx.tx.part = .input input)
    (boxId : v.ctx.boxId = input.boxId) (callback : v.ctx.onTokenCb = input.onTokenCb) :
    Variants sdk (calls ++ [call]) (s.setSer (TxSerFull.afterInput s.ctx.tx v m)) := by
  have same : (s.setSer (TxSerFull.afterInput s.ctx.tx v m)).ctx.state = .inputsStarted := state
  refine ⟨by simp [same], by simp [same], ?_, by simp [same], by simp [same]⟩
  intro _
  obtain ⟨input', part', last, installed⟩ := variants.input state
  obtain rfl : input = input' := Part.input.inj (part.symm.trans part')
  refine ⟨v.ctx, ?_, ?_, callback.trans installed⟩
  · simp only [Op.setSer, TxSerFull.afterInput]
    split <;> rfl
  · rw [lastMember_concat, none, boxId]
    exact last

private theorem addInputTokens {boxId : ErgoId} {frameIndex : UInt8} {tokens : Buffer}
    (variants : Variants sdk calls s) (ok : SignTx.addInputTokens boxId frameIndex tokens s = .ok u t) :
    InputLive calls s.ctx.tx ∧
      Variants sdk (calls ++ [.addInputTokens boxId frameIndex tokens]) t := by
  obtain ⟨state, r, v, ran, rfl⟩ := serial_ok.mp ok
  obtain ⟨txState, w, call, m, -, rfl⟩ := TxSerFull.addInputTokens_ok.mp ran
  have state : s.ctx.state = .inputsStarted := by simpa using state
  obtain ⟨input, part, -⟩ := variants.input state
  have same : s.ser.ctx.inputCtx = input := by
    have part : s.ser.ctx.part = .input input := part
    rw [FullCtx.inputCtx, part]
  rw [same] at call
  obtain ⟨-, items, -, k, -, n, -, rfl, -⟩ := TxSerInput.addTokens_ok.mp call
  exact ⟨variants.inputLive (by simp [state]) txState, variants.inputPart rfl state part rfl rfl⟩

private theorem addInputContextExtension {data : Buffer} (variants : Variants sdk calls s)
    (ok : SignTx.addInputContextExtension data s = .ok u t) :
    InputLive calls s.ctx.tx ∧ Variants sdk (calls ++ [.addInputContextExtension data]) t := by
  obtain ⟨state, r, v, ran, rfl⟩ := serial_ok.mp ok
  obtain ⟨txState, w, call, m, -, rfl⟩ := TxSerFull.addInputContextExtension_ok.mp ran
  have state : s.ctx.state = .inputsStarted := by simpa using state
  obtain ⟨input, part, -⟩ := variants.input state
  have same : s.ser.ctx.inputCtx = input := by
    have part : s.ser.ctx.part = .input input := part
    rw [FullCtx.inputCtx, part]
  rw [same] at call
  obtain ⟨-, -, k, -, rfl, -⟩ := TxSerInput.addContextExtension_ok.mp call
  exact ⟨variants.inputLive (by simp [state]) txState, variants.inputPart rfl state part rfl rfl⟩

omit [UnionLayout OpMem] in
private theorem addDataInputs {data : Buffer} (variants : Variants sdk calls s)
    (ok : SignTx.addDataInputs data s = .ok u t) :
    Variants sdk (calls ++ [.addDataInputs data]) t := by
  obtain ⟨state, r, v, ran, rfl⟩ := serial_ok.mp ok
  obtain ⟨-, ids, -, -, m, -, rest⟩ := TxSerFull.addDataInputs_ok.mp ran
  have state : s.ctx.state = .inputsStarted := by simpa using state
  have part : v.ctx.part = s.ctx.tx.part := by
    split at rest
    · obtain ⟨n, -, -, rfl⟩ := rest
      rfl
    · obtain ⟨-, rfl⟩ := rest
      rfl
  have same : (s.setSer v).ctx.state = .inputsStarted := state
  refine ⟨by simp [same], by simp [same], ?_, by simp [same], by simp [same]⟩
  intro _
  obtain ⟨input, before, last, installed⟩ := variants.input state
  refine ⟨input, part.trans before, ?_, installed⟩
  rw [lastMember_concat]
  exact last

private theorem addOutput {value : UInt64} {treeSize height : UInt32} {tokensCount : UInt8}
    {registersSize : UInt32}
    (ok : SignTx.addOutput sdk value treeSize height tokensCount registersSize s = .ok u t) :
    Variants sdk (calls ++ [.output (.add value treeSize height tokensCount registersSize)]) t := by
  obtain ⟨-, v, added, w, set, rfl⟩ := addOutput_ok.mp ok
  obtain ⟨-, -, -, m, -, rfl⟩ := TxSerFull.addBox_ok.mp added
  obtain ⟨-, rest⟩ := TxSerFull.checkProperState_bind_ok.mp set
  obtain rfl := modifyCtx_ok.mp rest
  refine ⟨by simp, by simp, by simp, ?_, ?_⟩
  · intro _
    refine ⟨_, rfl, ⟨?_, rfl⟩, ?_⟩
    · rw [lastMember_concat]
      rfl
    · simp [OutputInfo.init, TxSerBox.setCallbacks, FullCtx.boxCtx, FullCtx.setBoxCtx,
        TxSerBox.started]
  · intro _
    simp [OutputInfo.init, OutputInfo.Matches, OutputInfo.Live]

/-- What the serializer does in a call about a part of the box that was started. -/
private theorem boxCall {part : BoxCall} {r : Progress} {v : SerState (FullCtx OpMem) OpMem}
    (box : ∃ box, s.ctx.tx.part = .box box ∧
      (lastMember calls = some (.box box.value) ∧ box.callbacks = outputCallbacks sdk) ∧
      (box.state = .finished ↔ s.ctx.mem.output.isBoxFinished))
    (ran : part.full.run s.ser = .ok r v) :
    s.ctx.mem.output.isBoxFinished = false ∧ ∃ box, v.ctx.part = .box box ∧
      (lastMember calls = some (.box box.value) ∧ box.callbacks = outputCallbacks sdk) ∧
      Noted sdk.blake2b256 (if box.state = .finished then 1 else 0) s.ctx.mem v.mem.cb := by
  obtain ⟨box, isBox, ⟨last, callbacks⟩, finished⟩ := box
  obtain ⟨-, w, call, rfl⟩ := BoxCall.full_ok.mp ran
  have same : s.ser.ctx.boxCtx = box := by
    have isBox : s.ser.ctx.part = .box box := isBox
    rw [FullCtx.boxCtx, isBox]
  rw [same] at call
  have unfinished := BoxCall.state_of_run call
  obtain ⟨callbacks', noted⟩ :=
    followed_of_run (s := { s.ser with ctx := box }) Noted.followed callbacks call
  have value : w.ctx.value = box.value := BoxCall.value_of_run call
  refine ⟨?_, w.ctx, ?_, ⟨?_, callbacks'⟩, noted⟩
  · rw [Bool.eq_false_iff]
    exact fun marked => unfinished (finished.mpr marked)
  · simp only [TxSerFull.afterBox]
    split <;> rfl
  · rw [value]
    exact last

private theorem outputPart {part : BoxCall} (call : OutputCall) (variants : Variants sdk calls s)
    (about : call.part s.ctx.networkId = some part) (ok : call.run sdk s = .ok u t) :
    (BoxLive sdk calls s.ctx.tx ∧ s.ctx.mem.output.Live) ∧
      Variants sdk (calls ++ [.output call]) t := by
  obtain ⟨state, r, v, ran, expects, left⟩ := OutputCall.part_eq about ok
  obtain ⟨unfinished, box, isBox, installed, noted⟩ := boxCall (variants.box state) ran
  have live := (variants.tree (.inl state)).live unfinished
  obtain ⟨same, marked⟩ := noted.info live unfinished expects (r := r)
  obtain ⟨before, isBefore, installedBefore, -⟩ := variants.box state
  refine ⟨⟨⟨before, isBefore, installedBefore⟩, live⟩, ?_⟩
  have none : (OpCall.output call).member = none := by
    cases call with
    | add => simp [OutputCall.part] at about
    | treeChunk | treeFee | treeChange | tokens | registers => rfl
  have later : t.ctx.state = .outputsStarted ∨ t.ctx.state = .txFinished := by
    rw [← left]
    simp only [OutputCall.after]
    split
    · exact .inr rfl
    · exact .inl state
  have output : t.ctx.mem.output = call.info sdk r v.mem.cb.output := by rw [← left]; rfl
  have tx : t.ctx.tx = v.ctx := by rw [← left]; rfl
  refine ⟨?_, ?_, ?_, ?_, ?_⟩
  · rcases later with here | here <;> simp [here]
  · rcases later with here | here <;> simp [here]
  · rcases later with here | here <;> simp [here]
  · intro _
    rw [tx, output, lastMember_concat, none]
    exact ⟨box, isBox, installed, marked⟩
  · intro _
    rw [output]
    exact same

/-- The path that is read back is the one that was written, and nothing of the output was known
    before. -/
theorem changeRun {path : Bip32Path} {pubKey : PublicKey} (variants : Variants sdk calls s)
    (ok : handleOutputTreeChange sdk path pubKey s = .ok u t) :
    s.ctx.state = .outputsStarted ∧ s.ctx.mem.output.type = .unknown ∧ ReadsBack path pubKey s ∧
      OpCall.run sdk (.output (.treeChange path pubKey)) { s with ctx := writePath path s.ctx } =
        .ok u t := by
  obtain ⟨_, _, wrote, ok⟩ := bind_ok.mp ok
  obtain rfl := modifyOp_ok.mp wrote
  obtain ⟨_, _, checked, ok⟩ := bind_ok.mp ok
  obtain ⟨state, rfl⟩ := checkProperState_ok.mp checked
  obtain ⟨_, _, call, ok⟩ := bind_ok.mp ok
  obtain ⟨v, ran, rfl⟩ := checkTxCall_ok.mp call
  obtain ⟨_, k, set, done⟩ := bind_ok.mp ok
  have state' : s.ctx.state = .outputsStarted := List.mem_singleton.mp state
  obtain ⟨_, ⟨unknown, -⟩, -⟩ := checkOutputCall_ok (fun ran => setBip32_ok ran) set
  have unknown : v.mem.cb.output.type = .unknown := unknown
  have full : (BoxCall.changeTree pubKey).full.run ({ s with ctx := writePath path s.ctx } : Op).ser =
      .ok .ok v := TxSerFull.plain_ok.mpr ⟨ran, rfl⟩
  obtain ⟨unfinished, box, -, -, noted⟩ :=
    boxCall (s := { s with ctx := writePath path s.ctx }) (variants.box state') full
  -- the callbacks of an output of unknown type leave the path that was just written
  have written : v.mem.cb.output.type = s.ctx.mem.output.type ∧
      v.mem.cb.output.tree = .bip32Path path := by
    by_cases finished : box.state = .finished
    · rw [if_pos finished] at noted
      obtain ⟨tokens, same⟩ := noted
      rw [same, OutputInfo.finishTree_frame.1] at unknown
      have known : s.ctx.mem.output.type ≠ .script := by simp [writePath] at unknown; simp [unknown]
      rw [same, finishTree, if_neg fun complete => known complete.2]
      exact ⟨rfl, rfl⟩
    · rw [if_neg finished] at noted
      obtain ⟨tokens, same⟩ := noted
      rw [same]
      exact ⟨rfl, rfl⟩
  have readBack : v.mem.cb.output.bip32Path = path := by rw [OutputInfo.bip32Path, written.2]
  refine ⟨state', written.1.symm.trans unknown, ⟨v, ran, unknown, written.2⟩, ?_⟩
  have byValue : checkOutputCall (setBip32 sdk.blake2b256 · path)
      (({ s with ctx := writePath path s.ctx } : Op).setSer v) = .ok () k := by
    rw [← checkOutputCall_congr (f := fun info => setBip32 sdk.blake2b256 info info.bip32Path)]
    · exact set
    · change setBip32 _ v.mem.cb.output v.mem.cb.output.bip32Path = _
      rw [readBack]
      rfl
  exact bind_ok.mpr ⟨(), _, checkProperState_ok.mpr ⟨state, rfl⟩, bind_ok.mpr ⟨(), _,
    checkTxCall_ok.mpr ⟨v, ran, rfl⟩, bind_ok.mpr ⟨(), k, byValue, done⟩⟩⟩

private theorem treeChange {path : Bip32Path} {pubKey : PublicKey} (variants : Variants sdk calls s)
    (ok : handleOutputTreeChange sdk path pubKey s = .ok u t) :
    ReadsLive sdk calls s (.output (.treeChange path pubKey)) ∧
      Variants sdk (calls ++ [.output (.treeChange path pubKey)]) t := by
  obtain ⟨state, unknown, readsBack, ran⟩ := variants.changeRun ok
  have written : Variants sdk calls { s with ctx := writePath path s.ctx } := by
    refine ⟨variants.before, variants.started, variants.input, variants.box, ?_⟩
    intro _
    simp [writePath, OutputInfo.Matches, OutputInfo.Live, unknown]
  obtain ⟨⟨live, -⟩, next⟩ := written.outputPart (.treeChange path pubKey) rfl ran
  exact ⟨⟨live, unknown, readsBack⟩, next⟩

/-- What a call reads is live, and so it stays. -/
theorem step {call : OpCall} (variants : Variants sdk calls s) (ok : call.handle sdk s = .ok u t) :
    ReadsLive sdk calls s call ∧ Variants sdk (calls ++ [call]) t := by
  cases call with
  | startTx inputs dataInputs outputs tokens => exact ⟨trivial, variants.startTx ok⟩
  | addTokens data => exact ⟨trivial, variants.addTokens ok⟩
  | addInput boxId value framesCount extensionLength => exact variants.addInput ok
  | addInputTokens boxId frameIndex tokens => exact variants.addInputTokens ok
  | addInputContextExtension data => exact variants.addInputContextExtension ok
  | addDataInputs data => exact ⟨trivial, variants.addDataInputs ok⟩
  | output call =>
      cases call with
      | add value treeSize height tokensCount registersSize => exact ⟨trivial, addOutput ok⟩
      | treeChunk data => exact variants.outputPart (.treeChunk data) rfl ok
      | treeFee => exact variants.outputPart .treeFee rfl ok
      | treeChange path pubKey => exact variants.treeChange ok
      | tokens data => exact variants.outputPart (.tokens data) rfl ok
      | registers data => exact variants.outputPart (.registers data) rfl ok

theorem run {more : List OpCall} (variants : Variants sdk calls s)
    (ok : runAll (OpCall.handle sdk) more s = .ok u t) : Variants sdk (calls ++ more) t := by
  induction more generalizing calls s with
  | nil =>
      obtain rfl := runAll_nil_ok.mp ok
      rwa [List.append_nil]
  | cons call more ih =>
      obtain ⟨_, m, first, rest⟩ := runAll_cons_ok.mp ok
      simpa using ih (variants.step first).2 rest

end Variants

section Sessions

variable {sdk : Sdk} {path : Bip32Path} {networkId : UInt8} {supply : Supply} {s t t' : Op}

theorem Variants.begin (begun : init sdk path networkId (.zero supply) = .ok () s) :
    Variants sdk [] s := by
  obtain ⟨state, -⟩ := init_frame begun
  refine ⟨fun _ => rfl, ?_, ?_, ?_, ?_⟩ <;> intro here <;> simp [state] at here

variable [UnionLayout OpMem]

/-- In every session a call that ends successfully reads live variants only, and after it the
    variant of the output that its screens show belongs to the type. -/
theorem variants_live {calls : List OpCall} {call : OpCall}
    (begun : init sdk path networkId (.zero supply) = .ok () s)
    (ok : runAll (OpCall.handle sdk) calls s = .ok () t) (next : call.handle sdk t = .ok () t') :
    ReadsLive sdk calls t call ∧
      (t'.ctx.state = .outputsStarted ∨ t'.ctx.state = .txFinished → t'.ctx.mem.output.Matches) := by
  have variants : Variants sdk calls t := (Variants.begin begun).run ok
  exact ⟨(variants.step next).1, (variants.step next).2.tree⟩

end Sessions

namespace OneToken

/-- A layout in which the union reads as zero bytes when its other member was written. -/
local instance variantsLayout : UnionLayout OpMem := ⟨fun _ => .zero OpMem, fun _ => .zero OpMem⟩

/-- A change output that ends the transaction, after the calls before the fee. -/
def beforeChange : List OpCall := calls.take 7 ++ [.output (.add 2 36 1 0 0)]

/-- The operation before the change tree. -/
def changeStarted : Op := final (runAll (OpCall.handle sdk) beforeChange begun)

/-- The operation after it. -/
def changeDone : Op :=
  final (OpCall.handle sdk (.output (.treeChange path (Bytes.zero 65))) changeStarted)

theorem variants_live_change :
    ReadsLive sdk beforeChange changeStarted (.output (.treeChange path (Bytes.zero 65))) ∧
      (changeDone.ctx.state = .outputsStarted ∨ changeDone.ctx.state = .txFinished →
        changeDone.ctx.mem.output.Matches) :=
  variants_live begun_ok (eq_ok_of_succeeds (by decide +kernel)) (eq_ok_of_succeeds (by decide +kernel))

end OneToken

end LedgerErgo.SignTx
