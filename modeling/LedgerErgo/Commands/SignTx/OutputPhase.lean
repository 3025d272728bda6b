import LedgerErgo.Commands.SignTx.OpP2pk
import LedgerErgo.Ergo.FullRuns

/-! # The output phase of the operation

The host sends the outputs in calls of the operation, in any order it likes. What was
hashed is a sequence of complete boxes, and the finished callback ran once for each,
provided that an output is started only when the one before it is complete. The operation
does not check that, and neither does the serializer.
-/

namespace LedgerErgo.SignTx

open LedgerErgo.Common LedgerErgo.Ergo LedgerErgo.Prog TxSerBox

/-- A call of the operation about the outputs. -/
inductive OutputCall where
  | add (value : UInt64) (ergoTreeSize creationHeight : UInt32) (tokensCount : UInt8)
      (registersSize : UInt32)
  | treeChunk (data : Buffer)
  | treeFee
  | treeChange (path : Bip32Path) (pubKey : PublicKey)
  | tokens (data : Buffer)
  | registers (data : Buffer)

namespace OutputCall

/-- Make the call. -/
def run (sdk : Sdk) [UnionLayout OpMem] : OutputCall → OpM Unit
  | .add value ergoTreeSize creationHeight tokensCount registersSize =>
      addOutput sdk value ergoTreeSize creationHeight tokensCount registersSize
  | .treeChunk data => addOutputTreeChunk sdk data
  | .treeFee => addOutputTreeFee sdk
  | .treeChange path pubKey => addOutputTreeChange sdk path pubKey
  | .tokens data => addOutputTokens data
  | .registers data => addOutputRegisters data

/-- The part of a box the call is about, on a network. -/
def part (networkId : UInt8) : OutputCall → Option BoxCall
  | .add .. => none
  | .treeChunk data => some (.tree data)
  | .treeFee => some (.minersFeeTree (networkIdIsMainnet networkId))
  | .treeChange _ pubKey => some (.changeTree pubKey)
  | .tokens data => some (.tokens data)
  | .registers data => some (.registers data)

/-- The boxes sent so far, after the call. -/
def record (networkId : UInt8) (boxes : List BoxRecord) (call : OutputCall) : List BoxRecord :=
  match call with
  | .add value ergoTreeSize creationHeight tokensCount registersSize =>
      boxes ++ [.start value ergoTreeSize creationHeight tokensCount registersSize]
  | call => boxes.modifyLast fun box =>
      match call.part networkId with
      | some part => part.record box
      | none => box

/-- What the code leaves to the host: an output is started when none is open. -/
def Orderly (call : OutputCall) (op : Op) : Prop :=
  match call with
  | .add .. => ¬ op.ctx.tx.BoxOpen
  | _ => True

instance (call : OutputCall) (op : Op) : Decidable (call.Orderly op) := by
  unfold Orderly
  split <;> infer_instance

end OutputCall

/-! ## What the callbacks do to the memory of the operation -/

/-- A success relates the memories by `R`, which counts how often the finished callback ran. -/
def Tracks (R : Nat → OpMem → OpMem → Prop) (count : Nat)
    (effect : EStateM BoxErr (Mem OpMem) Unit) : Prop :=
  ∀ m u n, effect m = .ok u n → R count m.cb n.cb

/-- A success adds so many to the count of finished outputs. -/
def Finishes (count : Nat) (effect : EStateM BoxErr (Mem OpMem) Unit) : Prop :=
  Tracks (fun count m n => n.outputsFinished = m.outputsFinished + count) count effect

/-- A relation of memories that composes and that the callbacks of an output follow. -/
structure Followed (sdk : Sdk) (R : Nat → OpMem → OpMem → Prop) : Prop where
  refl : ∀ m, R 0 m m
  trans : ∀ {a b m k n}, R a m k → R b k n → R (a + b) m n
  onType : ∀ a, Tracks R 0 (invoke (some p2pkOutputTypeCb) a)
  onToken : ∀ a, Tracks R 0 (invoke (some p2pkOutputTokenCb) a)
  onFinished : ∀ a, Tracks R 1 (invoke (some (p2pkOutputFinishedCb sdk)) a)

/-- The effect of a callback is what its program does. -/
theorem Tracks.invoke {R : Nat → OpMem → OpMem → Prop} {α : Type}
    {cb : Callback BoxErr α Progress OpMem} {count : Nat} (a : α)
    (run : ∀ m r n, cb.run a m = .ok r n → R count m.cb n.cb) :
    Tracks R count (invoke (some cb) a) := by
  intro m u n ok
  simp only [Ergo.invoke, whenSome_ok, bind_ok, pure_ok] at ok
  rcases ok with ⟨absent, -⟩ | ⟨_, same, r, _, ran, -, rfl⟩
  · simp at absent
  · obtain rfl := Option.some.inj same
    exact run m r _ ran

namespace Followed

variable {sdk : Sdk} {R : Nat → OpMem → OpMem → Prop}

theorem bind (followed : Followed sdk R) {a b : Nat} {x y : EStateM BoxErr (Mem OpMem) Unit}
    (first : Tracks R a x) (second : Tracks R b y) : Tracks R (a + b) (do x; y) := by
  intro m u n ok
  simp only [bind_ok, exists_unit] at ok
  obtain ⟨k, hk, hn⟩ := ok
  exact followed.trans (first m () k hk) (second k u n hn)

theorem pure (followed : Followed sdk R) : Tracks R 0 (Pure.pure ()) := by
  intro m u n ok
  obtain ⟨-, rfl⟩ := pure_ok.mp ok
  exact followed.refl _

theorem ite {p : Prop} [Decidable p] {a b : Nat} {x y : EStateM BoxErr (Mem OpMem) Unit}
    (yes : Tracks R a x) (no : Tracks R b y) :
    Tracks R (if p then a else b) (if p then x else y) := by
  split
  · exact yes
  · exact no

theorem sdkCall (followed : Followed sdk R) : Tracks R 0 (sdkCall .hasher) := by
  intro m u n ok
  rw [(sdkCall_frame ok).2]
  exact followed.refl _

theorem sdkCalls (followed : Followed sdk R) (count : Nat) :
    Tracks R 0 (sdkCalls .hasher count) := by
  intro m u n ok
  rw [(sdkCalls_frame ok).2]
  exact followed.refl _

theorem runAll (followed : Followed sdk R) {β : Type} {step : β → EStateM BoxErr (Mem OpMem) Unit}
    (each : ∀ b, Tracks R 0 (step b)) (bs : List β) : Tracks R 0 (runAll step bs) := by
  induction bs with
  | nil => exact followed.pure
  | cons b bs ih => exact followed.bind (each b) ih

variable {ctx : BoxCtx OpMem}

theorem tokenCallback (followed : Followed sdk R) (callbacks : ctx.callbacks = outputCallbacks sdk)
    (token : BoxToken) : Tracks R 0 (tokenCallback ctx token) := by
  intro m u n ok
  simp only [TxSerBox.tokenCallback, callbacks, bind_ok, get_ok] at ok
  obtain ⟨_, _, ⟨rfl, rfl⟩, ran⟩ := ok
  exact followed.onToken _ m u n ran

theorem endEffect (followed : Followed sdk R) (callbacks : ctx.callbacks = outputCallbacks sdk) :
    Tracks R (if NothingLeft ctx then 1 else 0) (endEffect ctx) := by
  have ends := followed.bind followed.sdkCall (followed.onFinished ctx.type)
  unfold TxSerBox.endEffect
  rw [callbacks]
  exact ite ends followed.pure

theorem treeDoneEffect (followed : Followed sdk R) (callbacks : ctx.callbacks = outputCallbacks sdk) :
    Tracks R (if NothingLeft ctx then 1 else 0) (treeDoneEffect ctx) := by
  have done := followed.bind (followed.onType (ctx.type, ctx.value))
    (followed.bind (followed.sdkCalls 2) (followed.endEffect callbacks))
  simp only [Nat.zero_add] at done
  unfold TxSerBox.treeDoneEffect
  rw [callbacks]
  exact done

theorem tokensEffect (followed : Followed sdk R) (callbacks : ctx.callbacks = outputCallbacks sdk)
    (tokens : List BoxToken) :
    Tracks R (if NothingLeft (tokensTaken ctx tokens.length) then 1 else 0)
      (tokensEffect ctx tokens) := by
  have each : ∀ token, Tracks R 0 (tokenEffect ctx token) := fun token =>
    followed.bind (followed.sdkCalls 2) (followed.tokenCallback callbacks token)
  have ends : Tracks R _ (TxSerBox.endEffect (tokensTaken ctx tokens.length)) :=
    followed.endEffect callbacks
  have all := followed.bind (followed.runAll each tokens) ends
  rwa [Nat.zero_add] at all

theorem registersEffect (followed : Followed sdk R) (callbacks : ctx.callbacks = outputCallbacks sdk)
    (len : Nat) : Tracks R (if LastRegisters ctx len then 1 else 0) (registersEffect ctx len) := by
  have all := followed.bind followed.sdkCall
    (ite (p := LastRegisters ctx len) (followed.onFinished ctx.type) followed.pure)
  rw [Nat.zero_add] at all
  unfold TxSerBox.registersEffect
  rw [callbacks]
  exact all

end Followed

theorem nextState_eq_finished {σ : Type} {ctx : BoxCtx σ} :
    nextState ctx = .finished ↔ NothingLeft ctx := by
  unfold nextState NothingLeft
  split
  · split <;> simp [*]
  · simp [*]

/-- A call follows the relation, with the finished callback exactly when it completes the box. -/
theorem followed_of_run {sdk : Sdk} {R : Nat → OpMem → OpMem → Prop} (followed : Followed sdk R)
    {call : BoxCall} {table : TableCtx} {s t : SerState (BoxCtx OpMem) OpMem} {r : Progress}
    (callbacks : s.ctx.callbacks = outputCallbacks sdk) (ok : call.run table s = .ok r t) :
    t.ctx.callbacks = outputCallbacks sdk ∧
      R (if t.ctx.state = .finished then 1 else 0) s.mem.cb t.mem.cb := by
  have whole : ∀ {type : BoxType} {tree : List UInt8},
      addWholeTree type tree s = .ok () t → t.ctx.callbacks = outputCallbacks sdk ∧
        R (if t.ctx.state = .finished then 1 else 0) s.mem.cb t.mem.cb := by
    intro type tree ok
    obtain ⟨-, m, ran, rfl⟩ := addWholeTree_ok.mp ok
    have done : Tracks R _ (treeDoneEffect { s.ctx with type := type }) :=
      followed.treeDoneEffect callbacks
    have counted := followed.bind followed.sdkCall done _ _ _ ran
    rw [Nat.zero_add] at counted
    refine ⟨callbacks, ?_⟩
    simp only [treeDone, nextState_eq_finished]
    exact counted
  cases call with
  | tree chunk =>
      obtain ⟨⟨state, -⟩, m, ran, -, rfl⟩ := addTree_ok.mp ok
      have done : Tracks R _ (treeDoneEffect { s.ctx with type := .tree }) :=
        followed.treeDoneEffect callbacks
      have counted := followed.bind followed.sdkCall
        (Followed.ite (p := LastChunk s.ctx chunk.length) done followed.pure) _ _ _ ran
      rw [Nat.zero_add] at counted
      by_cases last : LastChunk s.ctx chunk.length
      · rw [if_pos last] at counted
        simp only [treeChunkDone, if_pos last]
        refine ⟨callbacks, ?_⟩
        simp only [treeDone, nextState_eq_finished]
        exact counted
      · rw [if_neg last] at counted
        simp only [treeChunkDone, if_neg last]
        refine ⟨callbacks, ?_⟩
        simpa [state] using counted
  | changeTree => exact whole (BoxCall.run_wholeTree_ok.mp ok).1
  | minersFeeTree => exact whole (BoxCall.run_wholeTree_ok.mp ok).1
  | tokens =>
      obtain ⟨-, entries, -, -, -, m, ran, -, rfl⟩ := addTokens_ok.mp ok
      refine ⟨callbacks, ?_⟩
      simp only [treeDone, nextState_eq_finished]
      exact followed.tokensEffect callbacks entries _ _ _ ran
  | registers chunk =>
      obtain ⟨state, -, m, ran, -, rfl⟩ := addRegisters_ok.mp ok
      have counted := followed.registersEffect callbacks chunk.length _ _ _ ran
      by_cases last : LastRegisters s.ctx chunk.length
      · simp only [registersDone, if_pos last] at counted ⊢
        exact ⟨callbacks, counted⟩
      · simp only [registersDone, if_neg last] at counted ⊢
        exact ⟨callbacks, by simpa [state] using counted⟩

/-! ## How often the finished callback runs -/

namespace Finishes

theorem onType (a : BoxType × UInt64) : Finishes 0 (invoke (some p2pkOutputTypeCb) a) := by
  apply Tracks.invoke
  intro m r n ok
  simp only [p2pkOutputTypeCb, boxCallback, bind_ok, get_ok, ofExcept_ok, set_ok, pure_ok] at ok
  obtain ⟨_, _, ⟨_, _, ⟨rfl, rfl⟩, _, _, ⟨-, rfl⟩, rfl⟩, -, rfl⟩ := ok
  rfl

theorem onToken (a : BoxType × ErgoId × UInt64) :
    Finishes 0 (invoke (some p2pkOutputTokenCb) a) := by
  apply Tracks.invoke
  intro m r n ok
  simp only [p2pkOutputTokenCb, boxCallback, bind_ok, get_ok, ofExcept_ok, set_ok, pure_ok] at ok
  obtain ⟨_, _, ⟨_, _, ⟨rfl, rfl⟩, _, _, ⟨-, rfl⟩, _, _, ⟨-, rfl⟩, rfl⟩, -, rfl⟩ := ok
  rfl

theorem onFinished (sdk : Sdk) (a : BoxType) :
    Finishes 1 (invoke (some (p2pkOutputFinishedCb sdk)) a) := by
  apply Tracks.invoke
  intro m r n ok
  simp only [p2pkOutputFinishedCb, boxCallback, bind_ok, get_ok, modify_ok, pure_ok] at ok
  obtain ⟨_, _, ⟨_, _, ⟨rfl, rfl⟩, _, k, ran, rfl⟩, -, rfl⟩ := ok
  rw [(setBoxFinished_ok ran).2.2]

theorem followed (sdk : Sdk) :
    Followed sdk fun count m n => n.outputsFinished = m.outputsFinished + count where
  refl := fun _ => rfl
  trans := by
    intro a b m k n first second
    omega
  onType := onType
  onToken := onToken
  onFinished := onFinished sdk

end Finishes

/-- The finished callback runs exactly when a call completes the box. -/
theorem finishes_of_run {sdk : Sdk} {call : BoxCall} {table : TableCtx}
    {s t : SerState (BoxCtx OpMem) OpMem} {r : Progress}
    (callbacks : s.ctx.callbacks = outputCallbacks sdk) (ok : call.run table s = .ok r t) :
    t.ctx.callbacks = outputCallbacks sdk ∧
      t.mem.cb.outputsFinished =
        s.mem.cb.outputsFinished + if t.ctx.state = .finished then 1 else 0 :=
  followed_of_run (Finishes.followed sdk) callbacks ok

/-! ## What a call does -/

namespace OutputCall

theorem record_part {networkId : UInt8} {boxes : List BoxRecord} {call : OutputCall}
    {part : BoxCall} (about : call.part networkId = some part) :
    call.record networkId boxes = boxes.modifyLast part.record := by
  cases call with
  | add => simp [OutputCall.part] at about
  | treeChunk | treeFee | treeChange | tokens | registers =>
      obtain rfl := Option.some.inj about
      rfl

variable {sdk : Sdk} [UnionLayout OpMem] {s t : Op} {u : Unit}

/-- What the call expects of the information about the output. -/
def Expects (call : OutputCall) (info : OutputInfo) : Prop :=
  match call with
  | .treeChunk _ => (info.type = .unknown ∨ info.type = .script) ∧ info.isTreeSet = false
  | .treeFee | .treeChange .. => info.type = .unknown
  | _ => True

/-- What the call makes of it, if the serializer answered `r`. -/
def info (sdk : Sdk) (call : OutputCall) (r : Progress) (info : OutputInfo) : OutputInfo :=
  match call with
  | .treeChunk data => finishTree sdk.blake2b256 (chunkTaken info data (r = .ok))
  | .treeFee => finishTree sdk.blake2b256 { info with type := .minersFee, isTreeSet := true }
  | .treeChange path _ => finishTree sdk.blake2b256
      { info with type := .bip32, isTreeSet := true, tree := .bip32Path path }
  | _ => info

/-- The context of the operation after a call of the serializer left `v`. -/
def after (s : Op) (v : SerState (FullCtx OpMem) OpMem) (output : OutputInfo) : OpCtx :=
  { (s.setSer v).ctx with
    mem := { v.mem.cb with output }
    state := if TxSerFull.isFinished v.ctx then .txFinished else s.ctx.state }

omit [UnionLayout OpMem] in
/-- The end of every call about a part. -/
private theorem after_of {ctx : OpCtx} {supply : Supply} {v : SerState (FullCtx OpMem) OpMem}
    {output : OutputInfo}
    (set : { (s.setSer v).ctx with mem := { (s.setSer v).ctx.mem with output } } = ctx)
    (done : { ctx := if TxSerFull.isFinished ctx.tx then { ctx with state := .txFinished } else ctx,
              supply := supply } = t) : after s v output = t.ctx := by
  subst set done
  unfold after
  by_cases finished : TxSerFull.isFinished v.ctx <;>
    simp [Op.setSer, Op.setMem, finished]

/-- A call about a part of a box makes the call of the serializer, and then it takes notes
    about the output. -/
theorem part_eq {call : OutputCall} {part : BoxCall} (about : call.part s.ctx.networkId = some part)
    (ok : call.run sdk s = .ok u t) :
    s.ctx.state = .outputsStarted ∧
      ∃ r v, part.full.run s.ser = .ok r v ∧ call.Expects v.mem.cb.output ∧
        after s v (call.info sdk r v.mem.cb.output) = t.ctx := by
  cases call with
  | add => simp [OutputCall.part] at about
  | treeChunk data =>
      obtain rfl := Option.some.inj about
      simp only [run, addOutputTreeChunk, bind_ok, exists_unit, checkProperState_ok, checkTxCall_ok,
        checkTxFinished_ok, List.mem_singleton] at ok
      obtain ⟨_, ⟨state, rfl⟩, r, _, ⟨v, call, rfl⟩, k, set, done⟩ := ok
      obtain ⟨_, ⟨expects, rfl⟩, set⟩ := checkOutputCall_ok (fun ran => addTreeChunk_ok ran) set
      exact ⟨state, r, v, call, expects, after_of set done⟩
  | treeFee =>
      obtain rfl := Option.some.inj about
      simp only [run, addOutputTreeFee, bind_ok, exists_unit, checkProperState_ok, checkTxCall_ok,
        checkTxFinished_ok, getOp_ok, List.mem_singleton] at ok
      obtain ⟨_, ⟨state, rfl⟩, _, _, ⟨rfl, rfl⟩, _, ⟨v, call, rfl⟩, k, set, done⟩ := ok
      obtain ⟨_, ⟨expects, rfl⟩, set⟩ := checkOutputCall_ok (fun ran => setFee_ok ran) set
      exact ⟨state, .ok, v, TxSerFull.plain_ok.mpr ⟨call, rfl⟩, expects, after_of set done⟩
  | treeChange path pubKey =>
      obtain rfl := Option.some.inj about
      simp only [run, addOutputTreeChange, bind_ok, exists_unit, checkProperState_ok, checkTxCall_ok,
        checkTxFinished_ok, List.mem_singleton] at ok
      obtain ⟨_, ⟨state, rfl⟩, _, ⟨v, call, rfl⟩, k, set, done⟩ := ok
      obtain ⟨_, ⟨expects, rfl⟩, set⟩ := checkOutputCall_ok (fun ran => setBip32_ok ran) set
      exact ⟨state, .ok, v, TxSerFull.plain_ok.mpr ⟨call, rfl⟩, expects, after_of set done⟩
  | tokens data =>
      obtain rfl := Option.some.inj about
      simp only [run, addOutputTokens, bind_ok, exists_unit, checkProperState_ok, checkTxCall_ok,
        checkTxFinished_ok, List.mem_singleton] at ok
      obtain ⟨_, ⟨state, rfl⟩, r, _, ⟨v, call, rfl⟩, done⟩ := ok
      exact ⟨state, r, v, call, trivial, after_of rfl done⟩
  | registers data =>
      obtain rfl := Option.some.inj about
      simp only [run, addOutputRegisters, bind_ok, exists_unit, checkProperState_ok, checkTxCall_ok,
        checkTxFinished_ok, List.mem_singleton] at ok
      obtain ⟨_, ⟨state, rfl⟩, r, _, ⟨v, call, rfl⟩, done⟩ := ok
      exact ⟨state, r, v, call, trivial, after_of rfl done⟩

/-- What a call about a part of a box leaves, if the call of the serializer left `v`. -/
structure Leaves (s : Op) (v : SerState (FullCtx OpMem) OpMem) (t : Op) : Prop where
  tx : t.ctx.tx = v.ctx
  hash : t.ctx.txHash = v.hash
  outputsFinished : t.ctx.mem.outputsFinished = v.mem.cb.outputsFinished
  networkId : t.ctx.networkId = s.ctx.networkId
  state : t.ctx.state = if v.ctx.state = .finished then .txFinished else .outputsStarted

/-- A call about a part of a box makes the call of the serializer. -/
theorem part_ok {call : OutputCall} {part : BoxCall} (about : call.part s.ctx.networkId = some part)
    (ok : call.run sdk s = .ok u t) :
    s.ctx.state = .outputsStarted ∧
      ∃ r v, part.full.run s.ser = .ok r v ∧ Leaves s v t := by
  obtain ⟨state, r, v, ran, -, left⟩ := part_eq about ok
  refine ⟨state, r, v, ran, ?_, ?_, ?_, ?_, ?_⟩
  · rw [← left]
    rfl
  · rw [← left]
    rfl
  · rw [← left]
    rfl
  · rw [← left]
    rfl
  · rw [← left]
    simp [after, TxSerFull.isFinished, state]

end OutputCall

/-- What `add_output` does. -/
theorem addOutput_ok {sdk : Sdk} [UnionLayout OpMem] {value : UInt64}
    {treeSize height : UInt32} {tokensCount : UInt8} {registersSize : UInt32} {s t : Op} {u : Unit} :
    addOutput sdk value treeSize height tokensCount registersSize s = .ok u t ↔
      s.ctx.state ∈ [.inputsStarted, .outputsStarted] ∧
      ∃ v, TxSerFull.addBox value treeSize height tokensCount registersSize s.ser = .ok () v ∧
      ∃ w, TxSerFull.setBoxCallbacks (outputCallbacks sdk) v = .ok () w ∧
        { s.setSer w with ctx := { (s.setSer w).ctx with
            mem := { w.mem.cb with output := .init value }
            state := .outputsStarted } } = t := by
  simp only [addOutput, bind_ok, exists_unit, checkProperState_ok, checkTxCall_ok, modifyOp_ok]
  constructor
  · rintro ⟨_, ⟨state, rfl⟩, _, ⟨v, added, rfl⟩, _, ⟨w, set, rfl⟩, rfl⟩
    exact ⟨state, v, added, w, set, rfl⟩
  · rintro ⟨state, v, added, w, set, rfl⟩
    exact ⟨s, ⟨state, rfl⟩, _, ⟨v, added, rfl⟩, _, ⟨w, set, rfl⟩, rfl⟩

/-! ## The invariant of the phase -/

/-- The boxes sent so far; `finished` counts the boxes that were finished before the phase. -/
structure OutputPhase (sdk : Sdk) (base : List UInt8) (count finished : Nat)
    (boxes : List BoxRecord) (op : Op) : Prop where
  outputs : OutputsInv base count boxes op.ctx.tx op.ctx.txHash
  started : op.ctx.state = .outputsStarted → op.ctx.tx.BoxStarted
  callbacks : ∀ box, op.ctx.tx.part = .box box → box.state ≠ .finished →
    box.callbacks = outputCallbacks sdk
  counted : op.ctx.mem.outputsFinished + op.ctx.tx.outputsCount.toNat = finished + count

namespace OutputPhase

variable {sdk : Sdk} [UnionLayout OpMem] {base : List UInt8} {count finished : Nat}
  {boxes : List BoxRecord} {s t : Op} {u : Unit}

theorem addOutput {value : UInt64} {treeSize height : UInt32} {tokensCount : UInt8}
    {registersSize : UInt32} (phase : OutputPhase sdk base count finished boxes s)
    (noneOpen : ¬ s.ctx.tx.BoxOpen)
    (ok : addOutput sdk value treeSize height tokensCount registersSize s = .ok u t) :
    OutputPhase sdk base count finished
      (boxes ++ [.start value treeSize height tokensCount registersSize]) t := by
  obtain ⟨-, v, added, w, set, rfl⟩ := addOutput_ok.mp ok
  have opened := phase.outputs.addBox (s := s.ser) (FullCtx.not_boxOpen.mp noneOpen) added
  obtain ⟨-, -, -, m, ran, rfl⟩ := TxSerFull.addBox_ok.mp added
  have outputs := opened.setBoxCallbacks trivial set
  obtain ⟨-, rest⟩ := TxSerFull.checkProperState_bind_ok.mp set
  obtain rfl := modifyCtx_ok.mp rest
  refine ⟨outputs, fun _ => trivial, ?_, ?_⟩
  · rintro _ ⟨⟩ -
    rfl
  · have same : m.cb = s.ctx.mem := (sdkCalls_frame ran).2
    simp only [Op.setSer, Op.setMem, same]
    exact phase.counted

/-- A call about a part of the open box. -/
theorem part {call : OutputCall} {part : BoxCall}
    (phase : OutputPhase sdk base count finished boxes s)
    (about : call.part s.ctx.networkId = some part) (ok : call.run sdk s = .ok u t) :
    OutputPhase sdk base count finished (boxes.modifyLast part.record) t := by
  obtain ⟨state, r, v, ran, left⟩ := OutputCall.part_ok about ok
  obtain ⟨box, isBox⟩ := (phase.started state).box
  have outputs := phase.outputs.boxCall (s := s.ser) part (phase.started state) ran
  obtain ⟨-, w, call, rfl⟩ := BoxCall.full_ok.mp ran
  have same : s.ser.ctx.boxCtx = box := by
    have isBox : s.ser.ctx.part = .box box := isBox
    rw [FullCtx.boxCtx, isBox]
  rw [same] at call
  have callbacks := phase.callbacks box isBox (BoxCall.state_of_run call)
  obtain ⟨callbacks', counted⟩ := finishes_of_run callbacks call
  have more : s.ctx.tx.outputsCount ≠ 0 := by
    cases phase.outputs with
    | closed _ done => exact (BoxCall.state_of_run call (done box isBox)).elim
    | opened _ _ _ _ _ _ _ _ _ more => exact more
  refine ⟨by rw [left.tx, left.hash]; exact outputs, ?_, ?_, ?_⟩
  · intro _
    rw [left.tx]
    simp only [TxSerFull.afterBox]
    split <;> trivial
  · intro box' isBox' notDone
    rw [left.tx] at isBox'
    have : w.ctx = box' := by
      simp only [TxSerFull.afterBox] at isBox'
      split at isBox'
      · exact Part.box.inj isBox'
      · exact Part.box.inj isBox'
    rw [← this]
    exact callbacks'
  · have counted₀ := phase.counted
    have rest := Counter.toNat_sub_one16 more
    rw [left.outputsFinished, left.tx]
    have counted : w.mem.cb.outputsFinished =
      s.ctx.mem.outputsFinished + if w.ctx.state = .finished then 1 else 0 := counted
    by_cases done : w.ctx.state = .finished
    · simp only [TxSerFull.afterBox, if_pos done, TxSerFull.outputEnd, FullCtx.setBoxCtx] at counted ⊢
      have rest : (s.ser.ctx.outputsCount - 1).toNat + 1 = s.ctx.tx.outputsCount.toNat := rest
      omega
    · simp only [TxSerFull.afterBox, if_neg done, FullCtx.setBoxCtx] at counted ⊢
      have same : s.ser.ctx.outputsCount = s.ctx.tx.outputsCount := rfl
      rw [same]
      omega

/-- Every orderly call. -/
theorem step {call : OutputCall} (phase : OutputPhase sdk base count finished boxes s)
    (orderly : call.Orderly s) (ok : call.run sdk s = .ok u t) :
    OutputPhase sdk base count finished (call.record s.ctx.networkId boxes) t ∧
      t.ctx.networkId = s.ctx.networkId := by
  cases about : call.part s.ctx.networkId with
  | some part =>
      rw [OutputCall.record_part about]
      obtain ⟨-, _, _, -, left⟩ := OutputCall.part_ok about ok
      exact ⟨phase.part about ok, left.networkId⟩
  | none =>
      cases call with
      | add value treeSize height tokensCount registersSize =>
          refine ⟨phase.addOutput orderly ok, ?_⟩
          obtain ⟨-, v, -, w, -, rfl⟩ := addOutput_ok.mp ok
          rfl
      | treeChunk | treeFee | treeChange | tokens | registers => simp [OutputCall.part] at about

end OutputPhase

/-- The serializer expects outputs, so many, and none is open. -/
structure Op.OutputsEntered (op : Op) (count : Nat) : Prop where
  serializer : op.ctx.tx.state = .outputsStarted
  expected : op.ctx.tx.outputsCount.toNat = count
  some : count ≠ 0
  noneOpen : ¬ op.ctx.tx.BoxOpen
  started : op.ctx.state = .outputsStarted → op.ctx.tx.BoxStarted

/-- The boxes that the calls send, on a network. -/
def sentBoxes (networkId : UInt8) (calls : List OutputCall) : List BoxRecord :=
  calls.foldl (fun boxes call => call.record networkId boxes) []

/-- The calls were about so many boxes, all are complete and finished, and nothing else was
    hashed. -/
structure OutputsSound (count : Nat) (calls : List OutputCall) (s t : Op) : Prop where
  boxesCount : (sentBoxes s.ctx.networkId calls).length = count
  complete : ∀ record ∈ sentBoxes s.ctx.networkId calls, record.Complete
  bytes : t.ctx.txHash =
    s.ctx.txHash ++ (sentBoxes s.ctx.networkId calls).flatMap (·.box.encode)
  finished : t.ctx.mem.outputsFinished = s.ctx.mem.outputsFinished + count

/-- A run of the output phase that finishes the transaction is sound, if every output is
    started when none is open. -/
theorem outputs_sound_of_orderly {sdk : Sdk} [UnionLayout OpMem] {calls : List OutputCall}
    {s t : Op} {count : Nat} (entered : s.OutputsEntered count)
    (orderly : Guarded OutputCall.Orderly (OutputCall.run sdk) calls s)
    (ok : runAll (OutputCall.run sdk) calls s = .ok () t) (finished : t.ctx.tx.state = .finished) :
    OutputsSound count calls s t := by
  have some : s.ctx.tx.outputsCount ≠ 0 := fun none => entered.some (by simp [← entered.expected, none])
  have start : OutputPhase sdk s.ctx.txHash count s.ctx.mem.outputsFinished [] s := by
    refine ⟨.closed ?_ (FullCtx.not_boxOpen.mp entered.noneOpen) (by simp) (by simp) ?_,
      entered.started, ?_, ?_⟩
    · rw [entered.serializer, if_neg some]
    · simp [entered.expected]
    · intro box isBox notDone
      exact (notDone (FullCtx.not_boxOpen.mp entered.noneOpen box isBox)).elim
    · rw [entered.expected]
  obtain ⟨phase, -⟩ := runAll_guarded
    (fun done op => OutputPhase sdk s.ctx.txHash count s.ctx.mem.outputsFinished
      (sentBoxes s.ctx.networkId done) op ∧ op.ctx.networkId = s.ctx.networkId)
    (by
      rintro done call u r v ⟨phase, same⟩ orderly ok
      obtain ⟨phase', same'⟩ := phase.step orderly ok
      rw [same] at phase'
      refine ⟨?_, same'.trans same⟩
      simp only [sentBoxes, List.foldl_concat]
      exact phase')
    ⟨start, rfl⟩ orderly ok
  obtain ⟨complete, boxesCount, bytes⟩ := phase.outputs.finished finished
  have none : t.ctx.tx.outputsCount = 0 := by
    cases phase.outputs with
    | closed state =>
        by_contra more
        simp [finished, more] at state
    | opened _ _ _ _ state => simp [finished] at state
  have counted := phase.counted
  rw [none] at counted
  exact ⟨boxesCount, complete, bytes, counted⟩

namespace OutputRuns

/-- A layout in which the union reads as zero bytes when its other member was written. -/
local instance outputPhaseLayout : UnionLayout OpMem := ⟨fun _ => .zero OpMem, fun _ => .zero OpMem⟩

/-- An SDK for runs that neither hash a script nor use a key. -/
def sdk : Sdk where
  blake2b256 := fun _ => Bytes.zero 32
  hmacSha256 := fun _ _ => Bytes.zero 32
  deriveBip32 := fun _ => (Bytes.zero 32, Bytes.zero 32)
  scalarMult := fun _ => Bytes.zero 65
  base58Encode := fun _ => ""

/-- One output is expected. -/
def entered : Op where
  ctx := { OpCtx.zero with
    state := .inputsStarted
    mem := ⟨{ Amounts.init with value := 3 }, .init 0, 0⟩
    tx := { FullCtx.zero OpMem with
      state := .outputsStarted
      outputsCount := 1
      part := .input { InputCtx.zero OpMem with state := .finished } } }
  supply := ⟨[], [], []⟩

theorem entered_outputsEntered : entered.OutputsEntered 1 :=
  ⟨rfl, rfl, by decide, by decide, by decide⟩

/-- Two outputs are expected, and the amounts hold a token. -/
def enteredTwo : Op where
  ctx := { entered.ctx with
    tokensTable := ⟨[Bytes.zero 32], by decide⟩
    mem := ⟨{ Amounts.init with value := 8, tokens := Amounts.init.tokens.set 0 9 }, .init 0, 0⟩
    tx := { entered.ctx.tx with outputsCount := 2, tableCtx := ⟨1, by decide⟩ } }
  supply := ⟨[], [], []⟩

theorem enteredTwo_outputsEntered : enteredTwo.OutputsEntered 2 :=
  ⟨rfl, rfl, by decide, by decide, by decide⟩

/-- An output with its tree in two chunks, a token and registers, and then the miners fee. -/
def twoBoxes : List OutputCall :=
  [.add 7 260 3 1 2, .treeChunk (List.replicate 255 5), .treeChunk (List.replicate 5 5),
    .tokens [0, 0, 0, 0, 0, 0, 0, 0, 0, 0, 0, 9], .registers [0x01], .registers [0x04],
    .add 1 105 3 0 0, .treeFee]

theorem outputs_sound_of_orderly_twoBoxes :
    OutputsSound 2 twoBoxes enteredTwo
      (final (runAll (OutputCall.run sdk) twoBoxes enteredTwo)) := by
  have ok : runAll (OutputCall.run sdk) twoBoxes enteredTwo =
      .ok () (final (runAll (OutputCall.run sdk) twoBoxes enteredTwo)) :=
    eq_ok_of_succeeds (by decide +kernel)
  exact outputs_sound_of_orderly enteredTwo_outputsEntered (by decide +kernel) ok (by decide +kernel)

/-- An output whose tree never comes, and then the miners fee. -/
def twoStarted : List OutputCall := [.add 2 36 3 0 0, .add 1 105 3 0 0, .treeFee]

/-- One output is expected, two are started, no call fails and the transaction is finished:
    the first box is not complete and its value was hashed. -/
theorem unfinished_box_hashed :
    entered.OutputsEntered 1 ∧
      succeeds (runAll (OutputCall.run sdk) twoStarted entered) = true ∧
      (final (runAll (OutputCall.run sdk) twoStarted entered)).ctx.tx.state = .finished ∧
      (final (runAll (OutputCall.run sdk) twoStarted entered)).ctx.txHash.take 1 = vlq 2 ∧
      ¬ OutputsSound 1 twoStarted entered
        (final (runAll (OutputCall.run sdk) twoStarted entered)) := by
  refine ⟨entered_outputsEntered, by decide +kernel, by decide +kernel, by decide +kernel, ?_⟩
  intro sound
  have two : (sentBoxes entered.ctx.networkId twoStarted).length = 2 := by decide +kernel
  have one := sound.boxesCount
  omega

end OutputRuns

end LedgerErgo.SignTx
