import LedgerErgo.Ergo.FullStream

/-! # Runs of the full serializer

Phase by phase, the hash is a function of what was sent. A run is orderly when a box is
complete before the next one is started and when only a box that was started gets parts;
the code checks neither. Every call of an orderly run preserves the invariant.
-/

namespace LedgerErgo.Ergo

open LedgerErgo.Common LedgerErgo.Prog
open TxSerTable (idBytes)

variable {σ : Type}

/-- The distinct ids are the first entries of the table. -/
structure TableInv (declared : Declared) (upload : Upload) (ctx : FullCtx σ) (table : TokenTable) :
    Prop where
  distinct : ctx.tableCtx.distinctTokensCount = declared.tokens
  filled : declared.tokens.toNat ≤ table.count
  ids : upload.tokenIds = idBytes (table.tokens.take declared.tokens.toNat)

/-- The distinct ids are being collected. -/
structure TokensPhase (base : List UInt8) (declared : Declared) (upload : Upload)
    (s : SerState (FullCtx σ) σ) : Prop where
  state : s.ctx.state = .tokensStarted
  counts : s.ctx.inputsCount = declared.inputs ∧ s.ctx.dataInputsCount = declared.dataInputs ∧
    s.ctx.outputsCount = declared.outputs ∧ s.ctx.tableCtx.distinctTokensCount = declared.tokens
  someInputs : declared.inputs ≠ 0
  someOutputs : declared.outputs ≠ 0
  bytes : s.hash = base ++ vlq declared.inputs.toNat
  ids : upload.tokenIds = idBytes s.mem.table.tokens
  more : s.mem.table.count ≤ declared.tokens.toNat
  nothingElse : upload.inputs = [] ∧ upload.dataInputs = [] ∧ upload.boxes = []

/-- The inputs are being sent. -/
structure InputsPhase (base : List UInt8) (declared : Declared) (upload : Upload)
    (s : SerState (FullCtx σ) σ) : Prop where
  state : s.ctx.state = .inputsStarted
  counts : s.ctx.dataInputsCount = declared.dataInputs ∧ s.ctx.outputsCount = declared.outputs
  someOutputs : declared.outputs ≠ 0
  table : TableInv declared upload s.ctx s.mem.table
  more : s.ctx.inputsCount ≠ 0
  inputs : InputsInv (base ++ vlq declared.inputs.toNat) declared.inputs.toNat upload.inputs s.ctx
    s.hash
  nothingElse : upload.dataInputs = [] ∧ upload.boxes = []

/-- The data inputs are being sent. -/
structure DataInputsPhase (base : List UInt8) (declared : Declared) (upload : Upload)
    (s : SerState (FullCtx σ) σ) : Prop where
  state : s.ctx.state = .dataInputsStarted
  outputs : s.ctx.outputsCount = declared.outputs
  someOutputs : declared.outputs ≠ 0
  table : TableInv declared upload s.ctx s.mem.table
  part : ∃ input, s.ctx.part = .input input
  inputs : ∀ record ∈ upload.inputs, record.Complete
  inputsCount : upload.inputs.length = declared.inputs.toNat
  bytes : s.hash = base ++ vlq declared.inputs.toNat ++ upload.inputBytes ++
    vlq declared.dataInputs.toNat ++ upload.dataInputs
  counter : upload.dataInputs.length + 32 * s.ctx.dataInputsCount.toNat =
    32 * declared.dataInputs.toNat
  nothingElse : upload.boxes = []

/-- The outputs are being sent, or were sent. -/
structure OutputsPhase (base : List UInt8) (declared : Declared) (upload : Upload)
    (s : SerState (FullCtx σ) σ) : Prop where
  header : upload.HeaderComplete declared
  outputs : OutputsInv (base ++ upload.header declared) declared.outputs.toNat upload.boxes s.ctx
    s.hash

/-- The invariant of an orderly run. -/
inductive FullInv (base : List UInt8) (declared : Declared) (upload : Upload)
    (s : SerState (FullCtx σ) σ) : Prop where
  | tokens (phase : TokensPhase base declared upload s)
  | inputs (phase : InputsPhase base declared upload s)
  | dataInputs (phase : DataInputsPhase base declared upload s)
  | outputs (phase : OutputsPhase base declared upload s)

/-- A box was started. -/
def FullCtx.BoxStarted (ctx : FullCtx σ) : Prop :=
  match ctx.part with
  | .input _ => False
  | .box _ => True

/-- The box that was started last is not complete. -/
def FullCtx.BoxOpen (ctx : FullCtx σ) : Prop :=
  match ctx.part with
  | .input _ => False
  | .box box => box.state ≠ .finished

instance (ctx : FullCtx σ) : Decidable ctx.BoxStarted := by
  unfold FullCtx.BoxStarted
  split <;> infer_instance

instance (ctx : FullCtx σ) : Decidable ctx.BoxOpen := by
  unfold FullCtx.BoxOpen
  split <;> infer_instance

theorem FullCtx.BoxStarted.box {ctx : FullCtx σ} (started : ctx.BoxStarted) :
    ∃ box, ctx.part = .box box := by
  unfold FullCtx.BoxStarted at started
  split at started
  · exact started.elim
  · exact ⟨_, by assumption⟩

theorem FullCtx.not_boxOpen {ctx : FullCtx σ} :
    ¬ ctx.BoxOpen ↔ ∀ box, ctx.part = .box box → box.state = .finished := by
  unfold FullCtx.BoxOpen
  split <;> simp [*]

/-- What the code leaves to its caller: a box is started when none is open, and a box was
    started before a part of one is added. -/
def FullCall.Orderly : FullCall σ → FullCtx σ → Prop
  | .addBox .., ctx => ¬ ctx.BoxOpen
  | .addBoxErgoTree _, ctx | .addBoxChangeTree _, ctx | .addBoxMinersFeeTree _, ctx
  | .addBoxTokens _, ctx | .addBoxRegisters _, ctx | .setBoxCallbacks _, ctx => ctx.BoxStarted
  | _, _ => True

instance (call : FullCall σ) (ctx : FullCtx σ) : Decidable (call.Orderly ctx) := by
  unfold FullCall.Orderly
  split <;> infer_instance

/-- Every call is orderly when it is made. -/
abbrev OrderlyRun [UnionLayout σ] (calls : List (FullCall σ)) (s : SerState (FullCtx σ) σ) : Prop :=
  Guarded (fun call s => call.Orderly s.ctx) FullCall.run calls s

/-! ## Calls about a box -/

namespace OutputsInv

variable [UnionLayout σ] {base : List UInt8} {count : Nat} {boxes : List BoxRecord}
  {s t : SerState (FullCtx σ) σ} {r : Progress}

/-- A call about a part of the box that was started. -/
theorem boxCall (call : BoxCall) (inv : OutputsInv base count boxes s.ctx s.hash)
    (started : s.ctx.BoxStarted) (ok : call.full.run s = .ok r t) :
    OutputsInv base count (boxes.modifyLast call.record) t.ctx t.hash := by
  obtain ⟨box, part⟩ := started.box
  obtain ⟨-, v, ran, rfl⟩ := BoxCall.full_ok.mp ok
  simp only [FullCtx.boxCtx, part] at ran
  exact inv.part part (BoxCall.state_of_run ran) fun base record inv => inv.step ran

theorem setBoxCallbacks {callbacks : BoxCallbacks σ} {u : Unit}
    (inv : OutputsInv base count boxes s.ctx s.hash) (started : s.ctx.BoxStarted)
    (ok : TxSerFull.setBoxCallbacks callbacks s = .ok u t) :
    OutputsInv base count boxes t.ctx t.hash := by
  obtain ⟨box, part⟩ := started.box
  obtain ⟨state, rest⟩ := TxSerFull.checkProperState_bind_ok.mp ok
  obtain rfl := modifyCtx_ok.mp rest
  have outputs := inv.setCallbacks part callbacks
  have same : s.ctx.boxCtx = box := by rw [FullCtx.boxCtx, part]
  rw [← same] at outputs
  exact outputs

end OutputsInv

theorem TableInv.extends {declared : Declared} {upload upload' : Upload} {ctx ctx' : FullCtx σ}
    {table table' : TokenTable} (inv : TableInv declared upload ctx table)
    (extended : table'.Extends table) (ids : upload'.tokenIds = upload.tokenIds)
    (distinct : ctx'.tableCtx = ctx.tableCtx) : TableInv declared upload' ctx' table' where
  distinct := by rw [distinct, inv.distinct]
  filled := inv.filled.trans extended.count_le
  ids := by rw [ids, inv.ids, extended.take inv.filled]

theorem TableInv.headerEnd {declared : Declared} {upload : Upload} {ctx : FullCtx σ}
    {table : TokenTable} (inv : TableInv declared upload ctx table)
    (outputs : ctx.outputsCount = declared.outputs) :
    TxSerFull.headerEnd ctx table =
      vlq declared.tokens.toNat ++ upload.tokenIds ++ vlq declared.outputs.toNat := by
  rw [TxSerFull.headerEnd, inv.distinct, TokenTable.map_slot_range inv.filled, ← inv.ids, outputs]

theorem OutputsInv.state {base hash : List UInt8} {count : Nat} {boxes : List BoxRecord}
    {ctx : FullCtx σ} (inv : OutputsInv base count boxes ctx hash) :
    ctx.state = .outputsStarted ∨ ctx.state = .finished := by
  cases inv with
  | closed state =>
      by_cases none : ctx.outputsCount = 0
      · exact .inr (by simpa [none] using state)
      · exact .inl (by simpa [none] using state)
  | opened _ _ _ _ state => exact .inl state

namespace FullInv

variable {base : List UInt8} {declared : Declared} {upload : Upload} {s t : SerState (FullCtx σ) σ}

theorem tokensPhase (inv : FullInv base declared upload s) (state : s.ctx.state = .tokensStarted) :
    TokensPhase base declared upload s := by
  cases inv with
  | tokens phase => exact phase
  | inputs phase => simp [phase.state] at state
  | dataInputs phase => simp [phase.state] at state
  | outputs phase => rcases phase.outputs.state with h | h <;> simp [h] at state

theorem inputsPhase (inv : FullInv base declared upload s) (state : s.ctx.state = .inputsStarted) :
    InputsPhase base declared upload s := by
  cases inv with
  | tokens phase => simp [phase.state] at state
  | inputs phase => exact phase
  | dataInputs phase => simp [phase.state] at state
  | outputs phase => rcases phase.outputs.state with h | h <;> simp [h] at state

theorem dataInputsPhase (inv : FullInv base declared upload s)
    (state : s.ctx.state = .dataInputsStarted) : DataInputsPhase base declared upload s := by
  cases inv with
  | tokens phase => simp [phase.state] at state
  | inputs phase => simp [phase.state] at state
  | dataInputs phase => exact phase
  | outputs phase => rcases phase.outputs.state with h | h <;> simp [h] at state

theorem outputsPhase (inv : FullInv base declared upload s)
    (state : s.ctx.state = .outputsStarted ∨ s.ctx.state = .finished) :
    OutputsPhase base declared upload s := by
  cases inv with
  | tokens phase => simp [phase.state] at state
  | inputs phase => simp [phase.state] at state
  | dataInputs phase => simp [phase.state] at state
  | outputs phase => exact phase

/-- The header is complete when the output phase begins. -/
private theorem headerDone {ctx : FullCtx σ} {hash : List UInt8} {mem : Mem σ}
    (table : TableInv declared upload ctx mem.table) (header : upload.HeaderComplete declared)
    (state : ctx.state = .outputsStarted) (outputs : ctx.outputsCount = declared.outputs)
    (someOutputs : declared.outputs ≠ 0) (part : ∃ input, ctx.part = .input input)
    (boxes : upload.boxes = [])
    (bytes : hash = base ++ vlq declared.inputs.toNat ++ upload.inputBytes ++
      vlq declared.dataInputs.toNat ++ upload.dataInputs ++ TxSerFull.headerEnd ctx mem.table) :
    FullInv base declared upload ⟨ctx, hash, mem⟩ := by
  obtain ⟨input, isInput⟩ := part
  refine .outputs ⟨header, .closed ?_ ?_ ?_ ?_ ?_⟩
  · rw [state, outputs, if_neg someOutputs]
  · simp [isInput]
  · simp [boxes]
  · simp [bytes, boxes, table.headerEnd outputs, Upload.header]
  · simp [boxes, outputs]

/-- After the last input the data inputs follow, or the header ends. -/
private theorem inputsDone {ctx : FullCtx σ} {hash : List UInt8} {mem mem' : Mem σ}
    (table : TableInv declared upload ctx mem.table) (same : mem'.table = mem.table)
    (counts : ctx.dataInputsCount = declared.dataInputs ∧ ctx.outputsCount = declared.outputs)
    (someOutputs : declared.outputs ≠ 0) (part : ∃ input, ctx.part = .input input)
    (last : TxSerFull.LastInput ctx)
    (inputs : InputsInv.AllDone (base ++ vlq declared.inputs.toNat) upload.inputs hash)
    (inputsCount : upload.inputs.length = declared.inputs.toNat)
    (nothingElse : upload.dataInputs = [] ∧ upload.boxes = []) :
    FullInv base declared upload
      ⟨TxSerFull.inputEnd ctx, hash ++ TxSerFull.inputEndBytes ctx mem.table, mem'⟩ := by
  have table' : TableInv declared upload (TxSerFull.inputEnd ctx) mem'.table :=
    table.extends (by rw [same]) rfl rfl
  by_cases noData : ctx.dataInputsCount = 0
  · have zero : declared.dataInputs.toNat = 0 := by simp [← counts.1, noData]
    refine headerDone table' ⟨inputs.complete, inputsCount, ?_, ?_⟩ ?_ counts.2 someOutputs part
      nothingElse.2 ?_
    · simp [nothingElse.1, zero]
    · rw [table.ids, TxSerTable.length_idBytes, List.length_take_of_le table.filled]
    · simp [TxSerFull.inputEnd, last, noData]
    · simp [TxSerFull.inputEndBytes, last, noData, inputs.bytes, Upload.inputBytes, nothingElse.1,
        zero, same]
      rfl
  · have some : declared.dataInputs ≠ 0 := counts.1 ▸ noData
    refine .dataInputs ⟨?_, counts.2, someOutputs, table', part, inputs.complete, inputsCount, ?_,
      ?_, nothingElse.2⟩
    · simp [TxSerFull.inputEnd, last, noData]
    · simp [TxSerFull.inputEndBytes, last, some, inputs.bytes, Upload.inputBytes, nothingElse.1,
        counts.1]
    · simp [TxSerFull.inputEnd, nothingElse.1, counts.1]

section Steps

variable [UnionLayout σ] {r : Progress}

theorem init {inputs dataInputs outputs : UInt16} {tokens : UInt8} {u : Unit}
    (ok : TxSerFull.init inputs dataInputs outputs tokens s = .ok u t) :
    FullInv s.hash ⟨inputs, dataInputs, outputs, tokens⟩ .empty t := by
  obtain ⟨⟨someInputs, someOutputs⟩, bounded, empty, m, ran, rfl⟩ := TxSerFull.init_ok.mp ok
  have noIds : m.table.tokens = [] := by
    rw [ran.table]
    exact List.length_eq_zero_iff.mp empty
  by_cases none : tokens = 0
  · refine .inputs ⟨by simp [TxSerFull.started, none, TxSerFull.inputsEntered], ?_, someOutputs,
      ⟨?_, ?_, ?_⟩, ?_, ?_, rfl, rfl⟩
    · simp [TxSerFull.started, none, TxSerFull.inputsEntered]
    · simp [TxSerFull.started, none, TxSerFull.inputsEntered]
    · simp [none]
    · simp [Upload.empty, noIds, idBytes]
    · simpa [TxSerFull.started, none, TxSerFull.inputsEntered] using someInputs
    · refine .closed { InputCtx.zero σ with state := .finished } ?_ rfl (by simp [Upload.empty])
        (by simp [Upload.empty]) ?_
      · simp [TxSerFull.started, none, TxSerFull.inputsEntered, FullCtx.inputCtx]
      · simp [TxSerFull.started, none, TxSerFull.inputsEntered, Upload.empty]
  · exact .tokens ⟨by simp [TxSerFull.started, none], by simp [TxSerFull.started, none], someInputs,
      someOutputs, rfl, by simp [Upload.empty, noIds, idBytes],
      by simp [TokenTable.count, noIds], rfl, rfl, rfl⟩

theorem addTokens {tokens : Buffer} (inv : FullInv base declared upload s)
    (ok : TxSerFull.addTokens tokens s = .ok r t) :
    FullInv base declared { upload with tokenIds := upload.tokenIds ++ tokens } t := by
  have state : s.ctx.state = .tokensStarted :=
    (TxSerFull.checkProperState_bind_ok.mp ok).1
  have phase := inv.tokensPhase state
  obtain ⟨inputs, dataInputs, outputs, distinct⟩ := phase.counts
  obtain ⟨-, ids, rfl, room, rfl, -⟩ :=
    (TxSerFull.addTokens_ok (by rw [distinct]; exact phase.more)).mp ok
  have appended : upload.tokenIds ++ idBytes ids = idBytes (s.mem.table.tokens ++ ids) := by
    rw [phase.ids, idBytes, idBytes, idBytes, List.flatMap_append]
  rw [distinct] at room
  by_cases last : TxSerFull.LastTokens s.ctx s.mem.table ids.length
  · have all : (s.mem.table.tokens ++ ids).length = declared.tokens.toNat := by
      rw [List.length_append, ← distinct]
      exact last
    refine .inputs ⟨?_, ?_, phase.someOutputs, ⟨?_, ?_, ?_⟩, ?_, ?_, phase.nothingElse.2⟩
    · simp [last, TxSerFull.inputsEntered]
    · simp [last, TxSerFull.inputsEntered, dataInputs, outputs]
    · simp [last, TxSerFull.inputsEntered, distinct]
    · exact all.ge
    · exact appended.trans (congrArg idBytes (List.take_of_length_le all.le).symm)
    · simpa [last, TxSerFull.inputsEntered, inputs] using phase.someInputs
    · refine .closed { s.ctx.inputCtx with state := .finished } ?_ rfl ?_ ?_ ?_
      · simp [last, TxSerFull.inputsEntered]
      · simp [phase.nothingElse.1]
      · simp [phase.nothingElse.1, phase.bytes]
      · simp [phase.nothingElse.1, last, TxSerFull.inputsEntered, inputs]
  · refine .tokens ⟨?_, ?_, phase.someInputs, phase.someOutputs, phase.bytes, appended, ?_,
      phase.nothingElse⟩
    · simpa [last] using state
    · simpa [last] using phase.counts
    · simpa [TokenTable.append, TokenTable.count] using room

theorem addInput {boxId : ErgoId} {framesCount : UInt8} {extensionSize : UInt32} {u : Unit}
    (inv : FullInv base declared upload s)
    (ok : TxSerFull.addInput boxId framesCount extensionSize s = .ok u t) :
    FullInv base declared
      { upload with inputs := upload.inputs ++ [.start boxId extensionSize] } t := by
  have phase := inv.inputsPhase (TxSerFull.addInput_ok.mp ok).1
  have inputs := phase.inputs.addInput ok
  obtain ⟨state, -, -, -, rfl⟩ := TxSerFull.addInput_ok.mp ok
  exact .inputs ⟨state, phase.counts, phase.someOutputs, phase.table.extends (.refl _) rfl rfl,
    phase.more, inputs, phase.nothingElse⟩

/-- A call about an input that succeeded below. -/
private theorem afterInput {f : InputRecord → InputRecord} {v : SerState (InputCtx σ) σ} {m : Mem σ}
    (phase : InputsPhase base declared upload s) (notDone : s.ctx.inputCtx.state ≠ .finished)
    (grown : v.mem.table.Extends s.mem.table)
    (step : ∀ base record, InputInv base record s.ctx.inputCtx s.hash →
      InputInv base (f record) v.ctx v.hash)
    (ran : v.mem.Ran (TxSerFull.afterInputCalls s.ctx v.ctx) m) :
    FullInv base declared { upload with inputs := upload.inputs.modifyLast f }
      (TxSerFull.afterInput s.ctx v m) := by
  obtain ⟨input, part⟩ : ∃ input, s.ctx.part = .input input := by
    cases phase.inputs with
    | closed input part => exact ⟨input, part⟩
    | opened _ _ input _ part => exact ⟨input, part⟩
  have same : s.ctx.inputCtx = input := by rw [FullCtx.inputCtx, part]
  have inputs := phase.inputs.part (v := v) part (same ▸ notDone) (same ▸ step)
  have table : TableInv declared { upload with inputs := upload.inputs.modifyLast f }
      (s.ctx.setInputCtx v.ctx) v.mem.table := phase.table.extends grown rfl rfl
  by_cases finished : v.ctx.state = .finished
  · rw [if_pos finished] at inputs
    obtain ⟨done, counter⟩ := inputs
    have count := Counter.toNat_sub_one16 phase.more
    simp only [TxSerFull.afterInput, if_pos finished]
    by_cases last : TxSerFull.LastInput (s.ctx.setInputCtx v.ctx)
    · refine inputsDone table ran.table phase.counts phase.someOutputs ⟨v.ctx, rfl⟩ last done ?_
        phase.nothingElse
      have zero : s.ctx.inputsCount - 1 = 0 := last
      rw [zero, UInt16.toNat_zero] at count
      simp only at counter ⊢
      omega
    · refine .inputs ⟨?_, phase.counts, phase.someOutputs, ?_, ?_, ?_, phase.nothingElse⟩
      · rw [TxSerFull.inputEnd, if_neg last]
        exact phase.state
      · exact table.extends (by rw [ran.table]) rfl rfl
      · exact last
      · refine .closed v.ctx rfl finished done.complete ?_ ?_
        · simp [TxSerFull.inputEndBytes, last, done.bytes]
        · simp only [TxSerFull.inputEnd, FullCtx.setInputCtx]
          omega
  · rw [if_neg finished] at inputs
    simp only [TxSerFull.afterInput, if_neg finished]
    exact .inputs ⟨phase.state, phase.counts, phase.someOutputs,
      table.extends (by rw [ran.table]) rfl rfl, phase.more, inputs, phase.nothingElse⟩

private theorem modifyLast_id {α : Type} (as : List α) : as.modifyLast id = as := by
  rcases as.eq_nil_or_concat with rfl | ⟨as, a, rfl⟩
  · rfl
  · rw [List.concat_eq_append, List.modifyLast_concat, id]

theorem addInputTokens {boxId : ErgoId} {frameIndex : UInt8} {tokens : Buffer}
    (inv : FullInv base declared upload s)
    (ok : TxSerFull.addInputTokens boxId frameIndex tokens s = .ok r t) :
    FullInv base declared upload t := by
  obtain ⟨state, v, call, m, ran, rfl⟩ := TxSerFull.addInputTokens_ok.mp ok
  have waiting : s.ctx.inputCtx.state = .framesStarted := (TxSerInput.addTokens_ok.mp call).1.1
  have kept := afterInput (f := id) (inv.inputsPhase state) (by simp [waiting])
    (TxSerInput.addTokens_extends call) (fun base record inv => inv.addTokens call) ran
  rwa [modifyLast_id] at kept

theorem addInputContextExtension {chunk : Buffer} (inv : FullInv base declared upload s)
    (ok : TxSerFull.addInputContextExtension chunk s = .ok r t) :
    FullInv base declared
      { upload with inputs := upload.inputs.modifyLast (·.addExtension chunk) } t := by
  obtain ⟨state, v, call, m, ran, rfl⟩ := TxSerFull.addInputContextExtension_ok.mp ok
  have waiting : s.ctx.inputCtx.state = .extensionStarted :=
    (TxSerInput.addContextExtension_ok.mp call).1
  exact afterInput (inv.inputsPhase state) (by simp [waiting])
    (TxSerInput.addContextExtension_extends call)
    (fun base record inv => (inv.addContextExtension call).1) ran

theorem setInputCallback {callback : Option (InputTokenCb σ)} {u : Unit}
    (inv : FullInv base declared upload s)
    (ok : TxSerFull.setInputCallback callback s = .ok u t) : FullInv base declared upload t := by
  obtain ⟨state, rest⟩ := TxSerFull.checkProperState_bind_ok.mp ok
  obtain rfl := modifyCtx_ok.mp rest
  have phase := inv.inputsPhase state
  exact .inputs ⟨state, phase.counts, phase.someOutputs, phase.table.extends (.refl _) rfl rfl,
    phase.more, phase.inputs.setCallback callback, phase.nothingElse⟩

omit [UnionLayout σ] in
theorem addDataInputs {inputs : Buffer} (inv : FullInv base declared upload s)
    (ok : TxSerFull.addDataInputs inputs s = .ok r t) :
    FullInv base declared { upload with dataInputs := upload.dataInputs ++ inputs } t := by
  obtain ⟨state, ids, rfl, room, m, ran, rest⟩ := TxSerFull.addDataInputs_ok.mp ok
  have phase := inv.dataInputsPhase state
  have counter := phase.counter
  have length := TxSerTable.length_idBytes ids
  have table : TableInv declared
      { upload with dataInputs := upload.dataInputs ++ idBytes ids } s.ctx s.mem.table :=
    phase.table.extends (.refl _) rfl rfl
  by_cases all : ids.length = s.ctx.dataInputsCount.toNat
  · rw [if_pos all] at rest
    obtain ⟨n, ran', rfl, rfl⟩ := rest
    refine headerDone (table.extends (by rw [ran'.table, ran.table]) rfl rfl)
      ⟨phase.inputs, phase.inputsCount, ?_, ?_⟩ rfl phase.outputs phase.someOutputs phase.part
      phase.nothingElse ?_
    · simp only [List.length_append]
      omega
    · rw [table.ids, TxSerTable.length_idBytes, List.length_take_of_le table.filled]
    · simp only [phase.bytes, List.append_assoc, ran'.table, ran.table]
      rfl
  · rw [if_neg all] at rest
    obtain ⟨rfl, rfl⟩ := rest
    refine .dataInputs ⟨state, phase.outputs, phase.someOutputs,
      table.extends (by rw [ran.table]) rfl rfl, phase.part, phase.inputs, phase.inputsCount, ?_,
      ?_, phase.nothingElse⟩
    · simp [phase.bytes, Upload.inputBytes]
    · simp only [TxSerFull.dataInputsTaken, Counter.toNat_sub_ofNat16 room, List.length_append]
      omega

omit [UnionLayout σ] in
/-- A call about the outputs: nothing but the boxes grows. -/
private theorem outputCall {f : List BoxRecord → List BoxRecord}
    (inv : FullInv base declared upload s) (state : s.ctx.state = .outputsStarted)
    (step : ∀ base count boxes, OutputsInv base count boxes s.ctx s.hash →
      OutputsInv base count (f boxes) t.ctx t.hash) :
    FullInv base declared { upload with boxes := f upload.boxes } t := by
  have phase := inv.outputsPhase (.inl state)
  have header := phase.header
  exact .outputs ⟨⟨header.inputs, header.inputsCount, header.dataInputs, header.tokenIds⟩,
    step _ _ _ phase.outputs⟩

theorem boxCall (call : BoxCall) (inv : FullInv base declared upload s)
    (started : s.ctx.BoxStarted) (ok : call.full.run s = .ok r t) :
    FullInv base declared (upload.addToBox call) t :=
  inv.outputCall (BoxCall.full_ok.mp ok).1 fun _ _ _ outputs => outputs.boxCall call started ok

/-- Every call made in order preserves the invariant. -/
theorem step {call : FullCall σ} (inv : FullInv base declared upload s)
    (orderly : call.Orderly s.ctx) (ok : call.run s = .ok r t) :
    FullInv base declared (upload.record call) t := by
  cases call with
  | addTokens tokens => exact inv.addTokens ok
  | addInput boxId framesCount extensionSize => exact inv.addInput (TxSerFull.plain_ok.mp ok).1
  | addInputTokens boxId frameIndex tokens => exact inv.addInputTokens ok
  | addInputContextExtension chunk => exact inv.addInputContextExtension ok
  | addDataInputs inputs => exact inv.addDataInputs ok
  | addBox value treeSize height tokensCount registersSize =>
      obtain ⟨ok, -⟩ := TxSerFull.plain_ok.mp ok
      exact inv.outputCall (f := (· ++ [.start value treeSize height tokensCount registersSize]))
        (TxSerFull.addBox_ok.mp ok).1 fun _ _ _ outputs =>
          outputs.addBox (FullCtx.not_boxOpen.mp orderly) ok
  | addBoxErgoTree chunk => exact inv.boxCall (.tree chunk) orderly ok
  | addBoxChangeTree rawPubKey => exact inv.boxCall (.changeTree rawPubKey) orderly ok
  | addBoxMinersFeeTree isMainnet => exact inv.boxCall (.minersFeeTree isMainnet) orderly ok
  | addBoxTokens tokens => exact inv.boxCall (.tokens tokens) orderly ok
  | addBoxRegisters chunk => exact inv.boxCall (.registers chunk) orderly ok
  | setInputCallback callback => exact inv.setInputCallback (TxSerFull.plain_ok.mp ok).1
  | setBoxCallbacks callbacks =>
      obtain ⟨ok, -⟩ := TxSerFull.plain_ok.mp ok
      exact inv.outputCall (f := id) (TxSerFull.checkProperState_bind_ok.mp ok).1
        fun _ _ _ outputs => outputs.setBoxCallbacks orderly ok

/-- The invariant holds along every orderly run. -/
theorem run {calls : List (FullCall σ)} {u : Unit} (inv : FullInv base declared upload s)
    (orderly : OrderlyRun calls s) (ok : runAll FullCall.run calls s = .ok u t) :
    FullInv base declared (calls.foldl Upload.record upload) t := by
  refine runAll_guarded (fun done s => FullInv base declared (done.foldl Upload.record upload) s)
    ?_ inv orderly ok
  intro done call s r t inv orderly ok
  rw [List.foldl_concat]
  exact inv.step orderly ok

/-- Before the output phase no call is about a box. -/
theorem header_call {call : FullCall σ} (state : s.ctx.state ≠ .outputsStarted)
    (ok : call.run s = .ok r t) :
    call.Orderly s.ctx ∧ ∀ upload : Upload, (upload.record call).boxes = upload.boxes := by
  cases call with
  | addTokens | addInput | addInputTokens | addInputContextExtension | addDataInputs
  | setInputCallback => exact ⟨trivial, fun _ => rfl⟩
  | addBox => exact (state (TxSerFull.addBox_ok.mp (TxSerFull.plain_ok.mp ok).1).1).elim
  | addBoxErgoTree => exact (state (TxSerFull.addBoxErgoTree_ok.mp ok).1).elim
  | addBoxChangeTree => exact (state (TxSerFull.addBoxWholeTree_ok.mp (TxSerFull.plain_ok.mp ok).1).1).elim
  | addBoxMinersFeeTree => exact (state (TxSerFull.addBoxWholeTree_ok.mp (TxSerFull.plain_ok.mp ok).1).1).elim
  | addBoxTokens => exact (state (TxSerFull.addBoxTokens_ok.mp ok).1).elim
  | addBoxRegisters => exact (state (TxSerFull.addBoxRegisters_ok.mp ok).1).elim
  | setBoxCallbacks =>
      exact (state (TxSerFull.checkProperState_bind_ok.mp (TxSerFull.plain_ok.mp ok).1).1).elim

/-- The invariant holds along every run up to the output phase, and no box was sent yet. -/
theorem run_header {calls : List (FullCall σ)} {u : Unit} (inv : FullInv base declared upload s)
    (noBoxes : upload.boxes = []) (ok : runAll FullCall.run calls s = .ok u t)
    (before : ∀ k < calls.length, ∀ m, runAll FullCall.run (calls.take k) s = .ok () m →
      m.ctx.state ≠ .outputsStarted) :
    FullInv base declared (calls.foldl Upload.record upload) t ∧
      (calls.foldl Upload.record upload).boxes = [] := by
  induction calls generalizing upload s with
  | nil =>
      obtain rfl := runAll_nil_ok.mp ok
      exact ⟨inv, noBoxes⟩
  | cons call calls ih =>
      obtain ⟨r, m, first, rest⟩ := runAll_cons_ok.mp ok
      have state := before 0 (by simp) s (runAll_nil_ok.mpr rfl)
      obtain ⟨orderly, boxes⟩ := header_call state first
      refine ih (inv.step orderly first) ((boxes upload).trans noBoxes) rest ?_
      intro k within n run
      refine before (k + 1) (by simpa using within) n ?_
      rw [List.take_succ_cons]
      exact runAll_cons_ok.mpr ⟨r, m, first, run⟩

end Steps

end FullInv

end LedgerErgo.Ergo
