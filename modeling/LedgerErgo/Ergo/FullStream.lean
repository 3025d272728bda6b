import LedgerErgo.Ergo.BoxCall
import LedgerErgo.Ergo.BoxStream
import Mathlib.Data.List.ModifyLast

/-! # The stream of a transaction

The upload is what the host has sent for a transaction, put together from the arguments
of the calls. The invariant says, phase by phase, that the hash has absorbed the encoding
of the upload and that the counters are what is still to come. It holds along every run
of successful calls in which a box is completed before the next one is started.
-/

namespace LedgerErgo.Ergo

open LedgerErgo.Common LedgerErgo.Prog

/-- What was declared and what was sent for an input. -/
structure InputRecord where
  extensionSize : UInt32
  input : Input

namespace InputRecord

/-- The record of an input that was just started. -/
def start (boxId : ErgoId) (extensionSize : UInt32) : InputRecord :=
  ⟨extensionSize, ⟨boxId, []⟩⟩

/-- Another chunk of the context extension. -/
def addExtension (record : InputRecord) (chunk : List UInt8) : InputRecord :=
  { record with input := { record.input with extension := record.input.extension ++ chunk } }

/-- The extension has the declared size. -/
def Complete (record : InputRecord) : Prop :=
  record.input.extension.length = record.extensionSize.toNat

end InputRecord

/-- The counts a transaction starts with. -/
structure Declared where
  inputs : UInt16
  dataInputs : UInt16
  outputs : UInt16
  tokens : UInt8

/-- What was sent for a transaction. -/
structure Upload where
  tokenIds : List UInt8
  inputs : List InputRecord
  dataInputs : List UInt8
  boxes : List BoxRecord

/-- The next token entry of an output. -/
def readEntry (input : Buffer) : Option (BoxToken × Buffer) := do
  let (index, rest) ← bufferReadU32 input
  let (amount, rest) ← bufferReadU64 rest
  return (⟨.index index, amount⟩, rest)

/-- The token entries of an output, as many as there are rounds. -/
def readEntries : Nat → Buffer → List BoxToken
  | 0, _ => []
  | rounds + 1, input =>
      match readEntry input with
      | none => []
      | some (token, rest) => token :: readEntries rounds rest

theorem readEntry_raw {token : BoxToken} (index : token.ref.isId = false) (rest : Buffer) :
    readEntry (token.raw ++ rest) = some (token, rest) := by
  obtain ⟨ref, amount⟩ := token
  cases ref with
  | id tokenId => simp [TokenRef.isId] at index
  | index i =>
      simp only [readEntry, BoxToken.raw, TokenRef.raw, List.append_assoc,
        bufferReadU32_eq_some.mpr rfl, bufferReadU64_eq_some.mpr rfl, Option.bind_eq_bind,
        Option.bind_some, Option.pure_def]

/-- Entries that were sent are read back. -/
theorem readEntries_raw {tokens : List BoxToken} (index : ∀ token ∈ tokens, token.ref.isId = false)
    {rounds : Nat} (enough : (tokens.flatMap BoxToken.raw).length ≤ rounds) :
    readEntries rounds (tokens.flatMap BoxToken.raw) = tokens := by
  induction tokens generalizing rounds with
  | nil => cases rounds <;> rfl
  | cons token tokens ih =>
      have positive := List.length_pos_iff.mpr token.raw_ne_nil
      simp only [List.flatMap_cons, List.length_append] at enough
      obtain ⟨rounds, rfl⟩ : ∃ k, rounds = k + 1 := ⟨rounds - 1, by omega⟩
      rw [List.flatMap_cons, readEntries, readEntry_raw (index token (by simp))]
      simp only [List.cons.injEq, true_and]
      exact ih (fun t ht => index t (by simp [ht])) (by omega)

/-- What a call about a part of a box sends for it. -/
def BoxCall.record : BoxCall → BoxRecord → BoxRecord
  | .tree chunk => (·.addTree chunk)
  | .changeTree rawPubKey => (·.addWholeTree (ErgoTree.generateP2pk rawPubKey))
  | .minersFeeTree isMainnet => (·.addWholeTree (ErgoTree.minersFeeTree isMainnet))
  | .tokens input => (·.addTokens (readEntries input.length input))
  | .registers chunk => (·.addRegisters chunk)

namespace Upload

/-- Nothing was sent yet. -/
def empty : Upload := ⟨[], [], [], []⟩

/-- What a call about a part of a box adds: it is about the last one. -/
def addToBox (upload : Upload) (call : BoxCall) : Upload :=
  { upload with boxes := upload.boxes.modifyLast call.record }

/-- What a call adds to the upload. -/
def record {σ : Type} (upload : Upload) : FullCall σ → Upload
  | .addTokens tokens => { upload with tokenIds := upload.tokenIds ++ tokens }
  | .addInput boxId _ extensionSize =>
      { upload with inputs := upload.inputs ++ [.start boxId extensionSize] }
  | .addInputContextExtension chunk =>
      { upload with inputs := upload.inputs.modifyLast (·.addExtension chunk) }
  | .addDataInputs inputs => { upload with dataInputs := upload.dataInputs ++ inputs }
  | .addBox value treeSize height tokensCount registersSize =>
      { upload with
        boxes := upload.boxes ++ [.start value treeSize height tokensCount registersSize] }
  | .addBoxErgoTree chunk => upload.addToBox (.tree chunk)
  | .addBoxChangeTree rawPubKey => upload.addToBox (.changeTree rawPubKey)
  | .addBoxMinersFeeTree isMainnet => upload.addToBox (.minersFeeTree isMainnet)
  | .addBoxTokens tokens => upload.addToBox (.tokens tokens)
  | .addBoxRegisters chunk => upload.addToBox (.registers chunk)
  | .addInputTokens _ _ _ | .setInputCallback _ | .setBoxCallbacks _ => upload

/-- What a sequence of calls sends. -/
def ofCalls {σ : Type} (calls : List (FullCall σ)) : Upload := calls.foldl record empty

/-- The bytes of the inputs. -/
def inputBytes (upload : Upload) : List UInt8 :=
  upload.inputs.flatMap (·.input.encode)

/-- Everything before the outputs. -/
def header (upload : Upload) (declared : Declared) : List UInt8 :=
  vlq declared.inputs.toNat ++ upload.inputBytes ++ vlq declared.dataInputs.toNat ++
    upload.dataInputs ++ vlq declared.tokens.toNat ++ upload.tokenIds ++
    vlq declared.outputs.toNat

/-- Everything before the outputs was sent as declared. -/
structure HeaderComplete (upload : Upload) (declared : Declared) : Prop where
  inputs : ∀ record ∈ upload.inputs, record.Complete
  inputsCount : upload.inputs.length = declared.inputs.toNat
  dataInputs : upload.dataInputs.length = 32 * declared.dataInputs.toNat
  tokenIds : upload.tokenIds.length = 32 * declared.tokens.toNat

end Upload

variable {σ : Type}

/-- Every call about a part of the box. -/
theorem BoxInv.step {base : List UInt8} {record : BoxRecord} {table : TableCtx} {call : BoxCall}
    {s t : SerState (BoxCtx σ) σ} {r : Progress} (inv : BoxInv base record s.ctx s.hash)
    (ok : call.run table s = .ok r t) : BoxInv base (call.record record) t.ctx t.hash := by
  cases call with
  | tree chunk => exact inv.addTree ok
  | changeTree rawPubKey => exact inv.addWholeTree (BoxCall.run_wholeTree_ok.mp ok).1
  | minersFeeTree isMainnet => exact inv.addWholeTree (BoxCall.run_wholeTree_ok.mp ok).1
  | tokens input =>
      obtain ⟨waiting, entries, rfl, room, fit, m, -, -, rfl⟩ := TxSerBox.addTokens_ok.mp ok
      have byIndex : ∀ entry ∈ entries, entry.ref.isId = false :=
        fun entry here => (fit entry here).isId
      simp only [BoxCall.record, readEntries_raw byIndex le_rfl]
      exact inv.addTokens waiting room
  | registers chunk => exact inv.addRegisters ok

/-- The context of the input serializer and the hash, as a function of the phase. -/
inductive InputInv (base : List UInt8) (record : InputRecord) (ctx : InputCtx σ)
    (hash : List UInt8) : Prop where
  | frames (state : ctx.state = .framesStarted) (bytes : hash = base)
      (boxId : ctx.boxId = record.input.boxId)
      (size : ctx.contextExtensionDataSize = record.extensionSize)
      (noExtension : record.input.extension = [])
  | extension (state : ctx.state = .extensionStarted)
      (bytes : hash = base ++ (record.input.boxId.val ++ [0] ++ record.input.extension))
      (size : ctx.contextExtensionDataSize.toNat + record.input.extension.length =
        record.extensionSize.toNat)
      (more : ctx.contextExtensionDataSize ≠ 0)
  | finished (state : ctx.state = .finished) (bytes : hash = base ++ record.input.encode)
      (complete : record.Complete)

namespace InputInv

open TxSerInput

variable {base hash : List UInt8} {record : InputRecord} {ctx : InputCtx σ}

theorem init {boxId : ErgoId} {framesCount : UInt8} {extensionSize : UInt32}
    {s t : SerState (InputCtx σ) σ} {u : Unit}
    (ok : TxSerInput.init boxId framesCount extensionSize s = .ok u t) :
    InputInv s.hash (.start boxId extensionSize) t.ctx t.hash := by
  obtain ⟨_, rfl⟩ := init_ok.mp ok
  exact .frames rfl rfl rfl rfl rfl

/-- The invariant does not look at the callback. -/
theorem setCallback (inv : InputInv base record ctx hash) (callback : Option (InputTokenCb σ)) :
    InputInv base record (TxSerInput.setCallback ctx callback) hash := by
  cases inv with
  | frames state bytes boxId size noExtension => exact .frames state bytes boxId size noExtension
  | extension state bytes size more => exact .extension state bytes size more
  | finished state bytes complete => exact .finished state bytes complete

theorem addTokens {boxId : ErgoId} {frameIndex : UInt8} {tokens : Buffer}
    {s t : SerState (InputCtx σ) σ} {r : Progress} (inv : InputInv base record s.ctx s.hash)
    (ok : TxSerInput.addTokens boxId frameIndex tokens s = .ok r t) :
    InputInv base record t.ctx t.hash := by
  obtain ⟨⟨state, _⟩, items, _, m, _, n, _, rfl, _⟩ := addTokens_ok.mp ok
  cases inv with
  | frames _ bytes boxId size noExtension =>
      by_cases last : LastFrame s.ctx
      · by_cases empty : s.ctx.contextExtensionDataSize = 0
        · refine .finished (by simp [frameDone, last, empty]) ?_ ?_
          · simp [frameBytes, last, empty, bytes, boxId, Input.encode, blobBytes, noExtension]
          · rw [InputRecord.Complete, noExtension, ← size, empty]
            rfl
        · refine .extension (by simp [frameDone, last, empty]) ?_ ?_ empty
          · simp [frameBytes, last, empty, bytes, boxId, noExtension]
          · simp [frameDone, size, noExtension]
      · exact .frames (by simp [frameDone, last]) (by simp [frameBytes, last, bytes]) boxId size
          noExtension
  | extension state' => simp [state] at state'
  | finished state' => simp [state] at state'

theorem addContextExtension {chunk : Buffer} {s t : SerState (InputCtx σ) σ} {r : Progress}
    (inv : InputInv base record s.ctx s.hash)
    (ok : TxSerInput.addContextExtension chunk s = .ok r t) :
    InputInv base (record.addExtension chunk) t.ctx t.hash ∧
      (r = .ok ↔ t.ctx.state = .finished) := by
  obtain ⟨state, fits, m, _, rfl, rfl⟩ := addContextExtension_ok.mp ok
  cases inv with
  | frames state' => simp [state] at state'
  | extension _ bytes size more =>
      have rest := Counter.toNat_sub_ofNat32 fits
      by_cases last : s.ctx.contextExtensionDataSize.toNat = chunk.length
      · have some : record.input.extension ++ chunk ≠ [] := by
          have positive := Counter.toNat_pos32.mp more
          exact List.ne_nil_of_length_pos (by rw [List.length_append]; omega)
        refine ⟨.finished (by simp [extensionDone, last]) ?_ ?_, by simp [extensionDone, last]⟩
        · simp [bytes, Input.encode, blobBytes, InputRecord.addExtension, some]
        · simp only [InputRecord.Complete, InputRecord.addExtension, List.length_append]
          omega
      · refine ⟨.extension (by simp [extensionDone, last]) ?_ ?_ ?_, by simp [extensionDone, last]⟩
        · simp [bytes, InputRecord.addExtension]
        · simp only [extensionDone, rest, InputRecord.addExtension, List.length_append]
          omega
        · exact fun zero => last ((Counter.sub_ofNat32_eq_zero fits).mp zero)
  | finished state' => simp [state] at state'

end InputInv

/-- The inputs sent so far: the last one may still be open. -/
inductive InputsInv (base : List UInt8) (count : Nat) (inputs : List InputRecord)
    (ctx : FullCtx σ) (hash : List UInt8) : Prop where
  | closed (input : InputCtx σ) (part : ctx.part = .input input) (done : input.state = .finished)
      (complete : ∀ record ∈ inputs, record.Complete)
      (bytes : hash = base ++ inputs.flatMap (·.input.encode))
      (counter : inputs.length + ctx.inputsCount.toNat = count)
  | opened (previous : List InputRecord) (current : InputRecord) (input : InputCtx σ)
      (split : inputs = previous ++ [current]) (part : ctx.part = .input input)
      (notDone : input.state ≠ .finished) (complete : ∀ record ∈ previous, record.Complete)
      (inv : InputInv (base ++ previous.flatMap (·.input.encode)) current input hash)
      (counter : previous.length + ctx.inputsCount.toNat = count)

/-- The outputs sent so far: the last one may still be open. -/
inductive OutputsInv (base : List UInt8) (count : Nat) (boxes : List BoxRecord)
    (ctx : FullCtx σ) (hash : List UInt8) : Prop where
  | closed (state : ctx.state = if ctx.outputsCount = 0 then .finished else .outputsStarted)
      (done : ∀ box, ctx.part = .box box → box.state = .finished)
      (complete : ∀ record ∈ boxes, record.Complete)
      (bytes : hash = base ++ boxes.flatMap (·.box.encode))
      (counter : boxes.length + ctx.outputsCount.toNat = count)
  | opened (previous : List BoxRecord) (current : BoxRecord) (box : BoxCtx σ)
      (split : boxes = previous ++ [current]) (state : ctx.state = .outputsStarted)
      (part : ctx.part = .box box) (notDone : box.state ≠ .finished)
      (complete : ∀ record ∈ previous, record.Complete)
      (inv : BoxInv (base ++ previous.flatMap (·.box.encode)) current box hash)
      (more : ctx.outputsCount ≠ 0) (counter : previous.length + ctx.outputsCount.toNat = count)

namespace InputsInv

open TxSerFull

variable {base hash : List UInt8} {count : Nat} {inputs : List InputRecord} {ctx : FullCtx σ}

/-- All inputs so far are complete. -/
structure AllDone (base : List UInt8) (inputs : List InputRecord) (hash : List UInt8) : Prop where
  complete : ∀ record ∈ inputs, record.Complete
  bytes : hash = base ++ inputs.flatMap (·.input.encode)

/-- No input is open: start one. -/
theorem addInput [UnionLayout σ] {boxId : ErgoId} {framesCount : UInt8} {extensionSize : UInt32}
    {s t : SerState (FullCtx σ) σ} {u : Unit} (inv : InputsInv base count inputs s.ctx s.hash)
    (ok : TxSerFull.addInput boxId framesCount extensionSize s = .ok u t) :
    InputsInv base count (inputs ++ [.start boxId extensionSize]) t.ctx t.hash := by
  obtain ⟨-, done, -, -, rfl⟩ := addInput_ok.mp ok
  cases inv with
  | closed _ _ _ complete bytes counter =>
      exact .opened inputs _ _ rfl rfl (by simp [TxSerInput.started]) complete
        (.frames rfl bytes rfl rfl rfl) counter
  | opened _ _ input _ part notDone =>
      rw [FullCtx.inputCtx, part] at done
      exact (notDone done).elim

/-- A call about the open input: either it stays open or all inputs so far are complete. -/
theorem part {input : InputCtx σ} {f : InputRecord → InputRecord} {v : SerState (InputCtx σ) σ}
    (inv : InputsInv base count inputs ctx hash) (part : ctx.part = .input input)
    (notDone : input.state ≠ .finished)
    (step : ∀ base record, InputInv base record input hash →
      InputInv base (f record) v.ctx v.hash) :
    if v.ctx.state = .finished then
      AllDone base (inputs.modifyLast f) v.hash ∧
        (inputs.modifyLast f).length + ctx.inputsCount.toNat = count + 1
    else InputsInv base count (inputs.modifyLast f) (ctx.setInputCtx v.ctx) v.hash := by
  cases inv with
  | closed input' part' done =>
      obtain rfl : input' = input := by simpa [part'] using part
      exact (notDone done).elim
  | opened previous current input' split part' _ complete inv counter =>
      obtain rfl : input' = input := by simpa [part'] using part
      have inv' := step _ _ inv
      rw [split, List.modifyLast_concat]
      by_cases finished : v.ctx.state = .finished
      · rw [if_pos finished]
        cases inv' with
        | finished _ bytes whole =>
            refine ⟨⟨?_, by simp [bytes]⟩, ?_⟩
            · simpa [or_imp, forall_and] using ⟨complete, whole⟩
            · simp only [List.length_append, List.length_singleton]
              omega
        | frames state' => simp [finished] at state'
        | extension state' => simp [finished] at state'
      · rw [if_neg finished]
        exact .opened previous _ v.ctx rfl rfl finished complete inv' counter

/-- The invariant does not look at the callback of the input. -/
theorem setCallback [UnionLayout σ] (inv : InputsInv base count inputs ctx hash)
    (callback : Option (InputTokenCb σ)) :
    InputsInv base count inputs (ctx.setInputCtx (TxSerInput.setCallback ctx.inputCtx callback))
      hash := by
  cases inv with
  | closed input part done complete bytes counter =>
      refine .closed _ rfl ?_ complete bytes counter
      rw [FullCtx.inputCtx, part]
      exact done
  | opened previous current input split part notDone complete inv counter =>
      refine .opened previous current _ split rfl ?_ complete ?_ counter
      · rw [FullCtx.inputCtx, part]
        exact notDone
      · rw [FullCtx.inputCtx, part]
        exact inv.setCallback callback

end InputsInv

namespace OutputsInv

open TxSerFull

variable {base hash : List UInt8} {count : Nat} {boxes : List BoxRecord} {ctx : FullCtx σ}

/-- No box is open: start one. -/
theorem addBox [UnionLayout σ] {value : UInt64} {treeSize height : UInt32} {tokensCount : UInt8}
    {registersSize : UInt32} {s t : SerState (FullCtx σ) σ} {u : Unit}
    (inv : OutputsInv base count boxes s.ctx s.hash)
    (noneOpen : ∀ box, s.ctx.part = .box box → box.state = .finished)
    (ok : TxSerFull.addBox value treeSize height tokensCount registersSize s = .ok u t) :
    OutputsInv base count (boxes ++ [.start value treeSize height tokensCount registersSize])
      t.ctx t.hash := by
  obtain ⟨state, more, -, m, -, rfl⟩ := addBox_ok.mp ok
  cases inv with
  | closed _ _ complete bytes counter =>
      refine .opened boxes _ _ rfl state rfl (by simp [TxSerBox.started]) complete ?_ more counter
      exact .initialized rfl (by simp [bytes, BoxRecord.start, BoxRecord.treeBytes])
        (by simp [BoxRecord.start, TxSerBox.started]) rfl rfl rfl rfl rfl
  | opened _ _ box _ _ part notDone => exact (notDone (noneOpen box part)).elim

/-- A call about the open box. -/
theorem part {box : BoxCtx σ} {f : BoxRecord → BoxRecord} {v : SerState (BoxCtx σ) σ}
    (inv : OutputsInv base count boxes ctx hash) (part : ctx.part = .box box)
    (notDone : box.state ≠ .finished)
    (step : ∀ base record, BoxInv base record box hash → BoxInv base (f record) v.ctx v.hash) :
    OutputsInv base count (boxes.modifyLast f) (afterBox ctx v).ctx (afterBox ctx v).hash := by
  cases inv with
  | closed _ done => exact (notDone (done box part)).elim
  | opened previous current box' split state part' _ complete inv more counter =>
      obtain rfl : box' = box := by simpa [part'] using part
      have inv' := step _ _ inv
      rw [split, List.modifyLast_concat]
      by_cases finished : v.ctx.state = .finished
      · simp only [afterBox, if_pos finished]
        cases inv' with
        | finished _ bytes whole =>
            refine .closed ?_ ?_ ?_ ?_ ?_
            · simp [outputEnd, FullCtx.setBoxCtx, state]
            · rintro _ ⟨⟩
              exact finished
            · simpa [or_imp, forall_and] using ⟨complete, whole⟩
            · simp [bytes]
            · have := Counter.toNat_sub_one16 more
              simp only [outputEnd, FullCtx.setBoxCtx, List.length_append, List.length_singleton]
              omega
        | initialized state' => simp [finished] at state'
        | treeAdded state' => simp [finished] at state'
        | tokensAdded state' => simp [finished] at state'
      · simp only [afterBox, if_neg finished]
        exact .opened previous _ v.ctx rfl state rfl finished complete inv' more counter

/-- The invariant does not look at the callbacks of the box. -/
theorem setCallbacks {box : BoxCtx σ} (inv : OutputsInv base count boxes ctx hash)
    (part : ctx.part = .box box) (callbacks : BoxCallbacks σ) :
    OutputsInv base count boxes (ctx.setBoxCtx (TxSerBox.setCallbacks box callbacks)) hash := by
  cases inv with
  | closed state done complete bytes counter =>
      refine .closed state ?_ complete bytes counter
      rintro _ ⟨⟩
      exact done box part
  | opened previous current box' split state part' notDone complete inv more counter =>
      obtain rfl : box' = box := by simpa [part'] using part
      exact .opened previous current _ split state rfl notDone complete
        (inv.congr rfl rfl rfl rfl rfl) more counter

/-- Once the transaction is finished all boxes are there and complete. -/
theorem finished (inv : OutputsInv base count boxes ctx hash) (state : ctx.state = .finished) :
    (∀ record ∈ boxes, record.Complete) ∧ boxes.length = count ∧
      hash = base ++ boxes.flatMap (·.box.encode) := by
  cases inv with
  | closed state' done complete bytes counter =>
      have none : ctx.outputsCount = 0 := by
        by_contra more
        simp [state, more] at state'
      exact ⟨complete, by simpa [none] using counter, bytes⟩
  | opened _ _ _ _ state' => simp [state] at state'

end OutputsInv

end LedgerErgo.Ergo
