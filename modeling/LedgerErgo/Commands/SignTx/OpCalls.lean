import LedgerErgo.Commands.SignTx.OutputPhase
import LedgerErgo.Ergo.HeaderRuns

/-! # The calls of the operation about a transaction

After it was initialized, the operation gets the transaction in calls. Each of them checks the
state of the operation, makes one or two calls of the full serializer and takes notes. So a
run of the operation is a run of the serializer.
-/

namespace LedgerErgo.SignTx

open LedgerErgo.Common LedgerErgo.Ergo LedgerErgo.Prog

/-- A call of the operation about a transaction. -/
inductive OpCall where
  | startTx (inputsCount dataInputsCount outputsCount : UInt16) (tokensCount : UInt8)
  | addTokens (data : Buffer)
  | addInput (boxId : ErgoId) (value : UInt64) (framesCount : UInt8) (extensionLength : UInt32)
  | addInputTokens (boxId : ErgoId) (frameIndex : UInt8) (tokens : Buffer)
  | addInputContextExtension (data : Buffer)
  | addDataInputs (data : Buffer)
  | output (call : OutputCall)

namespace OpCall

/-- Make the call. -/
def run (sdk : Sdk) [UnionLayout OpMem] : OpCall → OpM Unit
  | .startTx inputsCount dataInputsCount outputsCount tokensCount =>
      SignTx.startTx inputsCount dataInputsCount outputsCount tokensCount
  | .addTokens data => SignTx.addTokens data
  | .addInput boxId value framesCount extensionLength =>
      SignTx.addInput boxId value framesCount extensionLength
  | .addInputTokens boxId frameIndex tokens => SignTx.addInputTokens boxId frameIndex tokens
  | .addInputContextExtension data => SignTx.addInputContextExtension data
  | .addDataInputs data => SignTx.addDataInputs data
  | .output call => call.run sdk

/-- The calls of the serializer that it makes, on a network; the first call of a transaction
    initializes the serializer. -/
def full (sdk : Sdk) (networkId : UInt8) : OpCall → List (FullCall OpMem)
  | .startTx .. => []
  | .addTokens data => [.addTokens data]
  | .addInput boxId _ framesCount extensionLength =>
      [.addInput boxId framesCount extensionLength, .setInputCallback (some p2pkInputTokenCb)]
  | .addInputTokens boxId frameIndex tokens => [.addInputTokens boxId frameIndex tokens]
  | .addInputContextExtension data => [.addInputContextExtension data]
  | .addDataInputs data => [.addDataInputs data]
  | .output (.add value ergoTreeSize creationHeight tokensCount registersSize) =>
      [.addBox value ergoTreeSize creationHeight tokensCount registersSize,
        .setBoxCallbacks (outputCallbacks sdk)]
  | .output call => (call.part networkId).toList.map BoxCall.full

/-- The counts the first call declares. -/
def declared : List OpCall → Declared
  | .startTx inputs dataInputs outputs tokens :: _ => ⟨inputs, dataInputs, outputs, tokens⟩
  | _ => ⟨0, 0, 0, 0⟩

/-- What the calls send for the transaction, on a network. -/
def upload (sdk : Sdk) (networkId : UInt8) (calls : List OpCall) : Upload :=
  Upload.ofCalls (calls.flatMap (full sdk networkId))

theorem upload_concat {sdk : Sdk} {networkId : UInt8} {calls : List OpCall} {call : OpCall} :
    upload sdk networkId (calls ++ [call]) =
      (call.full sdk networkId).foldl Upload.record (upload sdk networkId calls) := by
  simp [upload, Upload.ofCalls]

theorem declared_concat {calls : List OpCall} (some : calls ≠ []) (call : OpCall) :
    declared (calls ++ [call]) = declared calls := by
  cases calls with
  | nil => exact (some rfl).elim
  | cons first calls => cases first <;> rfl

end OpCall

/-! ## What the calls do -/

section Calls

variable [UnionLayout OpMem] {s t : Op} {u : Unit}

theorem startTx_ok {inputsCount dataInputsCount outputsCount : UInt16} {tokensCount : UInt8} :
    startTx inputsCount dataInputsCount outputsCount tokensCount s = .ok u t ↔
      s.ctx.state = .initialized ∧
      ∃ v, TxSerFull.init inputsCount dataInputsCount outputsCount tokensCount s.ser = .ok () v ∧
        { s.setSer v with ctx := { (s.setSer v).ctx with
            mem := { v.mem.cb with amounts := .init }
            tokensTable := .empty
            state := .txStarted } } = t := by
  simp only [startTx, bind_ok, exists_unit, checkProperState_ok, checkTxCall_ok, modifyOp_ok,
    List.mem_singleton]
  constructor
  · rintro ⟨_, ⟨state, rfl⟩, _, ⟨v, ran, rfl⟩, rfl⟩
    exact ⟨state, v, ran, rfl⟩
  · rintro ⟨state, v, ran, rfl⟩
    exact ⟨s, ⟨state, rfl⟩, _, ⟨v, ran, rfl⟩, rfl⟩

omit [UnionLayout OpMem] in
/-- A call that checks the state and makes a call of the serializer. -/
theorem serial_ok {α : Type} {states : List OpState} {call : TxSerFull.FullM OpMem α} :
    (do checkProperState states
        let _ ← checkTxCall call : OpM Unit) s = .ok u t ↔
      s.ctx.state ∈ states ∧ ∃ r v, call s.ser = .ok r v ∧ s.setSer v = t := by
  simp only [bind_ok, exists_unit, checkProperState_ok, checkTxCall_ok, pure_ok]
  constructor
  · rintro ⟨_, ⟨state, rfl⟩, r, _, ⟨v, ran, rfl⟩, -, rfl⟩
    exact ⟨state, r, v, ran, rfl⟩
  · rintro ⟨state, r, v, ran, rfl⟩
    exact ⟨s, ⟨state, rfl⟩, r, _, ⟨v, ran, rfl⟩, trivial, rfl⟩

omit [UnionLayout OpMem] in
/-- The end of `add_input`, once the amount is added. -/
private theorem inputAdded_ok {value : UInt64} {k : Op}
    (ok : (match k.ctx.mem.amounts.addInput value with
      | none => handlerErr .u64Overflow
      | some amounts => modifyOp fun ctx =>
          { ctx with mem := { ctx.mem with amounts }, state := .inputsStarted } : OpM Unit) k =
        .ok u t) :
    ∃ amounts, k.ctx.mem.amounts.addInput value = some amounts ∧
      { k with ctx := { k.ctx with mem := { k.ctx.mem with amounts }, state := .inputsStarted } } =
        t := by
  cases sum : k.ctx.mem.amounts.addInput value with
  | none =>
      rw [sum] at ok
      exact (handlerErr_ok.mp ok).elim
  | some amounts =>
      rw [sum] at ok
      exact ⟨amounts, rfl, modifyOp_ok.mp ok⟩

theorem addInput_ok {boxId : ErgoId} {value : UInt64} {framesCount : UInt8}
    {extensionLength : UInt32} (ok : addInput boxId value framesCount extensionLength s = .ok u t) :
    s.ctx.state ∈ [.txStarted, .inputsStarted] ∧
      ∃ v, TxSerFull.addInput boxId framesCount extensionLength s.ser = .ok () v ∧
      ∃ w, TxSerFull.setInputCallback (some p2pkInputTokenCb) v = .ok () w ∧
      ∃ amounts, w.mem.cb.amounts.addInput value = some amounts ∧
        { s.setSer w with ctx := { (s.setSer w).ctx with
            mem := { w.mem.cb with amounts }
            state := .inputsStarted } } = t := by
  obtain ⟨_, _, checked, ok⟩ := bind_ok.mp ok
  obtain ⟨state, rfl⟩ := checkProperState_ok.mp checked
  obtain ⟨_, _, call, ok⟩ := bind_ok.mp ok
  obtain ⟨v, added, rfl⟩ := checkTxCall_ok.mp call
  obtain ⟨_, _, call, ok⟩ := bind_ok.mp ok
  obtain ⟨w, set, rfl⟩ := checkTxCall_ok.mp call
  obtain ⟨_, _, got, ok⟩ := bind_ok.mp ok
  obtain ⟨rfl, rfl⟩ := getOp_ok.mp got
  obtain ⟨amounts, sum, done⟩ := inputAdded_ok (k := (s.setSer v).setSer w) ok
  exact ⟨state, v, added, w, set, amounts, sum, done⟩

end Calls

namespace OpCall

variable {sdk : Sdk} [UnionLayout OpMem] {s t : Op} {u : Unit}

/-- One call of the serializer. -/
private theorem runAll_one_ok {call : FullCall OpMem} {s t : SerState (FullCtx OpMem) OpMem} :
    runAll FullCall.run [call] s = .ok u t ↔ ∃ r, call.run s = .ok r t := by
  simp only [runAll_cons_ok, runAll_nil_ok, exists_eq_right]

private theorem runAll_two_ok {first second : FullCall OpMem}
    {s t : SerState (FullCtx OpMem) OpMem} :
    runAll FullCall.run [first, second] s = .ok u t ↔
      ∃ r v, first.run s = .ok r v ∧ ∃ r', second.run v = .ok r' t := by
  rw [runAll_cons_ok]
  simp only [runAll_one_ok]

/-- After the first call, a call of the operation is a run of the serializer. -/
theorem full_ok {call : OpCall} (started : s.ctx.state ≠ .initialized)
    (ok : call.run sdk s = .ok u t) :
    t.ctx.networkId = s.ctx.networkId ∧ t.ctx.state ≠ .initialized ∧
      ∃ v, runAll FullCall.run (call.full sdk s.ctx.networkId) s.ser = .ok () v ∧
        ∃ m, m.table = v.mem.table ∧ t.ser = ⟨v.ctx, v.hash, m⟩ := by
  cases call with
  | startTx => exact (started (startTx_ok.mp ok).1).elim
  | addTokens data =>
      obtain ⟨-, r, v, ran, rfl⟩ := serial_ok.mp ok
      exact ⟨rfl, started, v, runAll_one_ok.mpr ⟨r, ran⟩, v.mem, rfl, rfl⟩
  | addInput boxId value framesCount extensionLength =>
      obtain ⟨-, v, added, w, set, amounts, -, rfl⟩ := addInput_ok ok
      exact ⟨rfl, by simp, w, runAll_two_ok.mpr ⟨.ok, v, TxSerFull.plain_ok.mpr ⟨added, rfl⟩, .ok,
        TxSerFull.plain_ok.mpr ⟨set, rfl⟩⟩, Op.mem _, rfl, rfl⟩
  | addInputTokens boxId frameIndex tokens =>
      obtain ⟨-, r, v, ran, rfl⟩ := serial_ok.mp ok
      exact ⟨rfl, started, v, runAll_one_ok.mpr ⟨r, ran⟩, v.mem, rfl, rfl⟩
  | addInputContextExtension data =>
      obtain ⟨-, r, v, ran, rfl⟩ := serial_ok.mp ok
      exact ⟨rfl, started, v, runAll_one_ok.mpr ⟨r, ran⟩, v.mem, rfl, rfl⟩
  | addDataInputs data =>
      obtain ⟨-, r, v, ran, rfl⟩ := serial_ok.mp ok
      exact ⟨rfl, started, v, runAll_one_ok.mpr ⟨r, ran⟩, v.mem, rfl, rfl⟩
  | output call =>
      cases about : call.part s.ctx.networkId with
      | some part =>
          obtain ⟨state, r, v, ran, -, left⟩ := OutputCall.part_eq about ok
          have full : (OpCall.output call).full sdk s.ctx.networkId = [part.full] := by
            cases call with
            | add => simp [OutputCall.part] at about
            | treeChunk | treeFee | treeChange | tokens | registers =>
                obtain rfl := Option.some.inj about
                rfl
          rw [full]
          refine ⟨by rw [← left]; rfl, ?_, v, runAll_one_ok.mpr ⟨r, ran⟩, t.mem, ?_, ?_⟩
          · rw [← left]
            simp only [OutputCall.after]
            split <;> simp [state]
          · rw [Op.mem, ← left]
            rfl
          · rw [Op.ser, ← left]
            rfl
      | none =>
          cases call with
          | add value treeSize height tokensCount registersSize =>
              obtain ⟨-, v, added, w, set, rfl⟩ := addOutput_ok.mp ok
              exact ⟨rfl, by simp, w, runAll_two_ok.mpr ⟨.ok, v,
                TxSerFull.plain_ok.mpr ⟨added, rfl⟩, .ok, TxSerFull.plain_ok.mpr ⟨set, rfl⟩⟩,
                Op.mem _, rfl, rfl⟩
          | treeChunk | treeFee | treeChange | tokens | registers => simp [OutputCall.part] at about

/-- After the distinct ids, a call only adds to the hash and to the table. -/
theorem grows {call : OpCall} (started : s.ctx.state ≠ .initialized)
    (later : s.ctx.tx.state ≠ .tokensStarted) (ok : call.run sdk s = .ok u t) :
    t.ctx.state ≠ .initialized ∧ Grows s.ser t.ser := by
  obtain ⟨-, started', v, ran, m, table, same⟩ := full_ok started ok
  have grown := Grows.run later ran
  refine ⟨started', ?_⟩
  rw [same]
  exact ⟨grown.hash, by rw [table]; exact grown.table, grown.distinct, grown.later⟩

theorem grows_run {calls : List OpCall} (started : s.ctx.state ≠ .initialized)
    (later : s.ctx.tx.state ≠ .tokensStarted) (ok : runAll (OpCall.run sdk) calls s = .ok u t) :
    Grows s.ser t.ser := by
  induction calls generalizing s with
  | nil =>
      obtain rfl := runAll_nil_ok.mp ok
      exact ⟨List.prefix_refl _, .refl _, rfl, later⟩
  | cons call calls ih =>
      obtain ⟨_, m, first, rest⟩ := runAll_cons_ok.mp ok
      obtain ⟨started', here⟩ := grows started later first
      have there := ih started' here.later rest
      exact ⟨here.hash.trans there.hash, there.table.trans here.table,
        there.distinct.trans here.distinct, there.later⟩

end OpCall

/-! ## The calls as the handlers make them -/

/-- The first step of `handle_output_tree_change`: the path is read into the information about
    the output, whatever the state is. -/
def writePath (path : Bip32Path) (ctx : OpCtx) : OpCtx :=
  { ctx with mem := { ctx.mem with output := { ctx.mem.output with tree := .bip32Path path } } }

section Calls

variable (sdk : Sdk) [UnionLayout OpMem]

/-- `handle_output_tree_change` after the key of the path is known: the operation gets the path
    by its place in the information about the output, and reads it back from there. -/
def handleOutputTreeChange (path : Bip32Path) (pubKey : PublicKey) : OpM Unit := do
  modifyOp (writePath path)
  checkProperState [.outputsStarted]
  checkTxCall (TxSerFull.addBoxChangeTree pubKey)
  checkOutputCall fun info => setBip32 sdk.blake2b256 info info.bip32Path
  checkTxFinished

/-- Make a call as the handler of its subcommand does. -/
def OpCall.handle : OpCall → OpM Unit
  | .output (.treeChange path pubKey) => handleOutputTreeChange sdk path pubKey
  | call => call.run sdk

end Calls

end LedgerErgo.SignTx
