import LedgerErgo.Ergo.FullRuns

/-! # The header in every run

Boxes may be sent in any order, and then the invariant of an orderly run does not hold. What
was hashed before the output phase stays where it is all the same, and so do the distinct
ids at the start of the table: a call that succeeds only adds to the hash and to the table.
-/

namespace LedgerErgo.Ergo

open LedgerErgo.Common LedgerErgo.Prog

variable {σ : Type}

/-- A call about a part of a box only adds to the hash and to the table. -/
theorem BoxCall.grows {call : BoxCall} {table : TableCtx} {s t : SerState (BoxCtx σ) σ}
    {r : Progress} (ok : call.run table s = .ok r t) :
    s.hash <+: t.hash ∧ t.mem.table.Extends s.mem.table := by
  cases call with
  | tree chunk =>
      obtain ⟨-, m, ran, -, rfl⟩ := TxSerBox.addTree_ok.mp ok
      exact ⟨List.prefix_append _ _, TxSerBox.appends_treeChunkEffect _ _ _ _ _ ran⟩
  | changeTree rawPubKey =>
      obtain ⟨-, m, ran, rfl⟩ := TxSerBox.addWholeTree_ok.mp (run_wholeTree_ok.mp ok).1
      exact ⟨List.prefix_append _ _, TxSerBox.appends_wholeTreeEffect _ _ _ _ _ ran⟩
  | minersFeeTree isMainnet =>
      obtain ⟨-, m, ran, rfl⟩ := TxSerBox.addWholeTree_ok.mp (run_wholeTree_ok.mp ok).1
      exact ⟨List.prefix_append _ _, TxSerBox.appends_wholeTreeEffect _ _ _ _ _ ran⟩
  | tokens input =>
      obtain ⟨-, entries, -, -, -, m, ran, -, rfl⟩ := TxSerBox.addTokens_ok.mp ok
      exact ⟨List.prefix_append _ _, TxSerBox.appends_tokensEffect _ _ _ _ _ ran⟩
  | registers chunk =>
      obtain ⟨-, -, m, ran, -, rfl⟩ := TxSerBox.addRegisters_ok.mp ok
      exact ⟨List.prefix_append _ _, TxSerBox.appends_registersEffect _ _ _ _ _ ran⟩

/-- A call about a part of a box leaves its value. -/
theorem BoxCall.value_of_run {call : BoxCall} {table : TableCtx} {s t : SerState (BoxCtx σ) σ}
    {r : Progress} (ok : call.run table s = .ok r t) : t.ctx.value = s.ctx.value := by
  cases call with
  | tree chunk =>
      obtain ⟨-, m, -, -, rfl⟩ := TxSerBox.addTree_ok.mp ok
      simp only [TxSerBox.treeChunkDone]
      split <;> rfl
  | changeTree rawPubKey =>
      obtain ⟨-, m, -, rfl⟩ := TxSerBox.addWholeTree_ok.mp (run_wholeTree_ok.mp ok).1
      rfl
  | minersFeeTree isMainnet =>
      obtain ⟨-, m, -, rfl⟩ := TxSerBox.addWholeTree_ok.mp (run_wholeTree_ok.mp ok).1
      rfl
  | tokens input =>
      obtain ⟨-, entries, -, -, -, m, -, -, rfl⟩ := TxSerBox.addTokens_ok.mp ok
      rfl
  | registers chunk =>
      obtain ⟨-, -, m, -, -, rfl⟩ := TxSerBox.addRegisters_ok.mp ok
      simp only [TxSerBox.registersDone]
      split <;> rfl

/-- The phase in which a call is accepted. -/
def FullCall.phase : FullCall σ → FullState
  | .addTokens _ => .tokensStarted
  | .addInput .. | .addInputTokens .. | .addInputContextExtension _ | .setInputCallback _ =>
      .inputsStarted
  | .addDataInputs _ => .dataInputsStarted
  | .addBox .. | .addBoxErgoTree _ | .addBoxChangeTree _ | .addBoxMinersFeeTree _ | .addBoxTokens _
  | .addBoxRegisters _ | .setBoxCallbacks _ => .outputsStarted

theorem BoxCall.phase_of_run [UnionLayout σ] {s t : SerState (FullCtx σ) σ} {r : Progress}
    (call : BoxCall) (ok : call.full.run s = .ok r t) : s.ctx.state = .outputsStarted :=
  (BoxCall.full_ok.mp ok).1

theorem FullCall.phase_of_run [UnionLayout σ] {call : FullCall σ} {s t : SerState (FullCtx σ) σ}
    {r : Progress} (ok : call.run s = .ok r t) : s.ctx.state = call.phase := by
  cases call with
  | addTokens => exact (TxSerFull.checkProperState_bind_ok.mp ok).1
  | addInput => exact (TxSerFull.addInput_ok.mp (TxSerFull.plain_ok.mp ok).1).1
  | addInputTokens => exact (TxSerFull.addInputTokens_ok.mp ok).1
  | addInputContextExtension => exact (TxSerFull.addInputContextExtension_ok.mp ok).1
  | addDataInputs => exact (TxSerFull.addDataInputs_ok.mp ok).1
  | addBox => exact (TxSerFull.addBox_ok.mp (TxSerFull.plain_ok.mp ok).1).1
  | addBoxErgoTree chunk => exact BoxCall.phase_of_run (.tree chunk) ok
  | addBoxChangeTree key => exact BoxCall.phase_of_run (.changeTree key) ok
  | addBoxMinersFeeTree main => exact BoxCall.phase_of_run (.minersFeeTree main) ok
  | addBoxTokens tokens => exact BoxCall.phase_of_run (.tokens tokens) ok
  | addBoxRegisters chunk => exact BoxCall.phase_of_run (.registers chunk) ok
  | setInputCallback | setBoxCallbacks =>
      exact (TxSerFull.checkProperState_bind_ok.mp (TxSerFull.plain_ok.mp ok).1).1

/-- After the distinct ids were sent, the hash and the table only grow. -/
structure Grows (s t : SerState (FullCtx σ) σ) : Prop where
  hash : s.hash <+: t.hash
  table : t.mem.table.Extends s.mem.table
  distinct : t.ctx.tableCtx = s.ctx.tableCtx
  later : t.ctx.state ≠ .tokensStarted

/-- The phase is the output phase, or the transaction is finished. -/
def FullCtx.PastHeader (ctx : FullCtx σ) : Prop :=
  ctx.state = .outputsStarted ∨ ctx.state = .finished

namespace Grows

variable [UnionLayout σ] {s t : SerState (FullCtx σ) σ} {r : Progress}

omit [UnionLayout σ] in
private theorem afterInput {v : SerState (InputCtx σ) σ} {m : Mem σ}
    (later : s.ctx.state ≠ .tokensStarted) (hash : s.hash <+: v.hash)
    (table : v.mem.table.Extends s.mem.table)
    (ran : v.mem.Ran (TxSerFull.afterInputCalls s.ctx v.ctx) m) :
    Grows s (TxSerFull.afterInput s.ctx v m) := by
  have table' : m.table.Extends s.mem.table := by
    rw [ran.table]
    exact table
  unfold TxSerFull.afterInput
  split
  · refine ⟨hash.trans (List.prefix_append _ _), table', rfl, ?_⟩
    simp only [TxSerFull.inputEnd]
    split
    · split <;> simp
    · exact later
  · exact ⟨hash, table', rfl, later⟩

/-- A call about a part of a box. -/
theorem boxCall (call : BoxCall) (ok : call.full.run s = .ok r t) :
    Grows s t ∧ t.ctx.PastHeader := by
  obtain ⟨state, v, ran, rfl⟩ := BoxCall.full_ok.mp ok
  obtain ⟨hash, table⟩ := BoxCall.grows ran
  have past : (TxSerFull.afterBox s.ctx v).ctx.PastHeader := by
    simp only [TxSerFull.afterBox, FullCtx.PastHeader]
    split
    · simp only [TxSerFull.outputEnd, FullCtx.setBoxCtx, state]
      split <;> simp
    · exact .inl state
  refine ⟨⟨hash, table, ?_, ?_⟩, past⟩
  · simp only [TxSerFull.afterBox]
    split <;> rfl
  · rcases past with here | here <;> simp [here]

/-- Every call after the distinct ids. -/
theorem step {call : FullCall σ} (later : s.ctx.state ≠ .tokensStarted)
    (ok : call.run s = .ok r t) : Grows s t := by
  cases call with
  | addTokens tokens => exact (later (TxSerFull.checkProperState_bind_ok.mp ok).1).elim
  | addInput boxId framesCount extensionSize =>
      obtain ⟨-, -, -, -, rfl⟩ := TxSerFull.addInput_ok.mp (TxSerFull.plain_ok.mp ok).1
      exact ⟨List.prefix_refl _, .refl _, rfl, later⟩
  | addInputTokens boxId frameIndex tokens =>
      obtain ⟨-, v, call, m, ran, rfl⟩ := TxSerFull.addInputTokens_ok.mp ok
      refine afterInput later ?_ (TxSerInput.addTokens_extends call) ran
      obtain ⟨-, items, -, m, -, n, -, rfl, -⟩ := TxSerInput.addTokens_ok.mp call
      exact List.prefix_append _ _
  | addInputContextExtension chunk =>
      obtain ⟨-, v, call, m, ran, rfl⟩ := TxSerFull.addInputContextExtension_ok.mp ok
      refine afterInput later ?_ (TxSerInput.addContextExtension_extends call) ran
      obtain ⟨-, -, m, -, rfl, -⟩ := TxSerInput.addContextExtension_ok.mp call
      exact List.prefix_append _ _
  | addDataInputs inputs =>
      obtain ⟨-, ids, -, -, m, ran, rest⟩ := TxSerFull.addDataInputs_ok.mp ok
      split at rest
      · obtain ⟨n, ran', -, rfl⟩ := rest
        refine ⟨?_, by rw [TokenTable.Extends, ran'.table, ran.table], rfl, by simp⟩
        simp only [List.append_assoc]
        exact List.prefix_append _ _
      · obtain ⟨-, rfl⟩ := rest
        exact ⟨List.prefix_append _ _, by rw [TokenTable.Extends, ran.table], rfl, later⟩
  | addBox value treeSize height tokensCount registersSize =>
      obtain ⟨-, -, -, m, ran, rfl⟩ := TxSerFull.addBox_ok.mp (TxSerFull.plain_ok.mp ok).1
      exact ⟨List.prefix_append _ _, by rw [TokenTable.Extends, ran.table], rfl, later⟩
  | addBoxErgoTree chunk => exact (boxCall (.tree chunk) ok).1
  | addBoxChangeTree rawPubKey => exact (boxCall (.changeTree rawPubKey) ok).1
  | addBoxMinersFeeTree isMainnet => exact (boxCall (.minersFeeTree isMainnet) ok).1
  | addBoxTokens tokens => exact (boxCall (.tokens tokens) ok).1
  | addBoxRegisters chunk => exact (boxCall (.registers chunk) ok).1
  | setInputCallback callback =>
      obtain ⟨-, rest⟩ := TxSerFull.checkProperState_bind_ok.mp (TxSerFull.plain_ok.mp ok).1
      obtain rfl := modifyCtx_ok.mp rest
      exact ⟨List.prefix_refl _, .refl _, rfl, later⟩
  | setBoxCallbacks callbacks =>
      obtain ⟨-, rest⟩ := TxSerFull.checkProperState_bind_ok.mp (TxSerFull.plain_ok.mp ok).1
      obtain rfl := modifyCtx_ok.mp rest
      exact ⟨List.prefix_refl _, .refl _, rfl, later⟩

/-- Every run of calls after the distinct ids. -/
theorem run {calls : List (FullCall σ)} {u : Unit} (later : s.ctx.state ≠ .tokensStarted)
    (ok : runAll FullCall.run calls s = .ok u t) : Grows s t := by
  induction calls generalizing s with
  | nil =>
      obtain rfl := runAll_nil_ok.mp ok
      exact ⟨List.prefix_refl _, .refl _, rfl, later⟩
  | cons call calls ih =>
      obtain ⟨r, m, first, rest⟩ := runAll_cons_ok.mp ok
      have here := step later first
      have there := ih here.later rest
      exact ⟨here.hash.trans there.hash, there.table.trans here.table,
        there.distinct.trans here.distinct, there.later⟩

/-- In the output phase a call sends nothing but boxes, and the header stays behind. -/
theorem outputs {call : FullCall σ} (past : s.ctx.PastHeader) (ok : call.run s = .ok r t) :
    t.ctx.PastHeader ∧ ∀ upload : Upload, ∃ boxes, upload.record call = { upload with boxes } := by
  have state := call.phase_of_run ok
  cases call with
  | addTokens | addInput | addInputTokens | addInputContextExtension | addDataInputs
  | setInputCallback => rcases past with h | h <;> simp [h, FullCall.phase] at state
  | addBox =>
      obtain ⟨-, -, -, m, -, rfl⟩ := TxSerFull.addBox_ok.mp (TxSerFull.plain_ok.mp ok).1
      exact ⟨past, fun _ => ⟨_, rfl⟩⟩
  | addBoxErgoTree chunk => exact ⟨(boxCall (.tree chunk) ok).2, fun _ => ⟨_, rfl⟩⟩
  | addBoxChangeTree key => exact ⟨(boxCall (.changeTree key) ok).2, fun _ => ⟨_, rfl⟩⟩
  | addBoxMinersFeeTree main =>
      exact ⟨(boxCall (.minersFeeTree main) ok).2, fun _ => ⟨_, rfl⟩⟩
  | addBoxTokens tokens => exact ⟨(boxCall (.tokens tokens) ok).2, fun _ => ⟨_, rfl⟩⟩
  | addBoxRegisters chunk => exact ⟨(boxCall (.registers chunk) ok).2, fun _ => ⟨_, rfl⟩⟩
  | setBoxCallbacks =>
      obtain ⟨-, rest⟩ := TxSerFull.checkProperState_bind_ok.mp (TxSerFull.plain_ok.mp ok).1
      obtain rfl := modifyCtx_ok.mp rest
      exact ⟨past, fun _ => ⟨_, rfl⟩⟩

end Grows

/-- The invariant of an orderly run looks at the serializer, at the hash and at the table. -/
theorem FullInv.congr {base : List UInt8} {declared : Declared} {upload : Upload}
    {s : SerState (FullCtx σ) σ} {m : Mem σ} (inv : FullInv base declared upload s)
    (table : m.table = s.mem.table) : FullInv base declared upload ⟨s.ctx, s.hash, m⟩ := by
  cases inv with
  | tokens phase =>
      exact .tokens ⟨phase.state, phase.counts, phase.someInputs, phase.someOutputs, phase.bytes,
        by rw [table]; exact phase.ids, by rw [table]; exact phase.more, phase.nothingElse⟩
  | inputs phase =>
      exact .inputs ⟨phase.state, phase.counts, phase.someOutputs, by rw [table]; exact phase.table,
        phase.more, phase.inputs, phase.nothingElse⟩
  | dataInputs phase =>
      exact .dataInputs ⟨phase.state, phase.outputs, phase.someOutputs,
        by rw [table]; exact phase.table, phase.part, phase.inputs, phase.inputsCount, phase.bytes,
        phase.counter, phase.nothingElse⟩
  | outputs phase => exact .outputs ⟨phase.header, phase.outputs⟩

/-- What is known about the header, phase by phase. -/
structure Headed (base : List UInt8) (declared : Declared) (upload : Upload)
    (s : SerState (FullCtx σ) σ) : Prop where
  before : ¬ s.ctx.PastHeader → FullInv base declared upload s ∧ upload.boxes = []
  table : s.ctx.state ≠ .tokensStarted → TableInv declared upload s.ctx s.mem.table
  past : s.ctx.PastHeader →
    upload.HeaderComplete declared ∧ base ++ upload.header declared <+: s.hash

/-- The table keeps the distinct ids in every call after the one that completes them. -/
theorem TableInv.extends_step [UnionLayout σ] {declared : Declared} {upload : Upload}
    {s t : SerState (FullCtx σ) σ} {r : Progress} {call : FullCall σ}
    (inv : TableInv declared upload s.ctx s.mem.table) (later : s.ctx.state ≠ .tokensStarted)
    (ok : call.run s = .ok r t) : TableInv declared (upload.record call) t.ctx t.mem.table := by
  have grown := Grows.step later ok
  have accepted := call.phase_of_run ok
  refine inv.extends grown.table ?_ grown.distinct
  cases call with
  | addTokens => exact (later accepted).elim
  | _ => rfl

namespace Headed

variable {base : List UInt8} {declared : Declared} {upload : Upload} {s t : SerState (FullCtx σ) σ}

/-- The invariant of an orderly run says enough as long as no box was sent. -/
private theorem of_full (inv : FullInv base declared upload s) (noBoxes : upload.boxes = [])
    (table : s.ctx.state ≠ .tokensStarted → TableInv declared upload s.ctx s.mem.table) :
    Headed base declared upload s where
  before := fun _ => ⟨inv, noBoxes⟩
  table := table
  past := by
    intro past
    have phase := inv.outputsPhase past
    refine ⟨phase.header, ?_⟩
    cases phase.outputs with
    | closed _ _ _ bytes => simp [bytes]
    | opened previous current _ split => simp [noBoxes] at split

/-- The invariant looks at the serializer, at the hash and at the table. -/
theorem congr {m : Mem σ} (headed : Headed base declared upload s)
    (table : m.table = s.mem.table) : Headed base declared upload ⟨s.ctx, s.hash, m⟩ := by
  refine ⟨?_, ?_, headed.past⟩
  · intro before
    obtain ⟨inv, noBoxes⟩ := headed.before before
    exact ⟨inv.congr table, noBoxes⟩
  · intro later
    rw [table]
    exact headed.table later

variable [UnionLayout σ] {r : Progress}

theorem init {inputs dataInputs outputs : UInt16} {tokens : UInt8} {u : Unit}
    (ok : TxSerFull.init inputs dataInputs outputs tokens s = .ok u t) :
    Headed s.hash ⟨inputs, dataInputs, outputs, tokens⟩ .empty t := by
  have inv := FullInv.init ok
  obtain ⟨-, bounded, -, m, -, rfl⟩ := TxSerFull.init_ok.mp ok
  refine of_full inv rfl ?_
  intro later
  cases inv with
  | tokens phase => exact (later phase.state).elim
  | inputs phase => exact phase.table
  | dataInputs phase => exact phase.table
  | outputs phase =>
      rcases phase.outputs.state with past | past <;>
        simp [TxSerFull.started, TxSerFull.inputsEntered] at past <;> split at past <;> simp at past

/-- Every call that succeeds, orderly or not. -/
theorem step {call : FullCall σ} (headed : Headed base declared upload s)
    (ok : call.run s = .ok r t) : Headed base declared (upload.record call) t := by
  by_cases past : s.ctx.PastHeader
  · have later : s.ctx.state ≠ .tokensStarted := by
      rcases past with h | h <;> simp [h]
    obtain ⟨past', sent⟩ := Grows.outputs past ok
    obtain ⟨boxes, same⟩ := sent upload
    obtain ⟨complete, bytes⟩ := headed.past past
    refine ⟨fun before => (before past').elim, ?_, ?_⟩
    · intro _
      exact (headed.table later).extends_step later ok
    · intro _
      have grown := Grows.step later ok
      rw [same]
      exact ⟨⟨complete.inputs, complete.inputsCount, complete.dataInputs, complete.tokenIds⟩,
        bytes.trans grown.hash⟩
  · obtain ⟨inv, noBoxes⟩ := headed.before past
    have state : s.ctx.state ≠ .outputsStarted := fun here => past (.inl here)
    obtain ⟨orderly, boxes⟩ := FullInv.header_call state ok
    have inv' := inv.step orderly ok
    refine of_full inv' ((boxes upload).trans noBoxes) ?_
    intro later'
    cases inv with
    | tokens phase =>
        -- only distinct ids are accepted, and then the inputs follow
        have accepted := call.phase_of_run ok
        rw [phase.state] at accepted
        cases call with
        | addTokens tokens =>
            have fits : s.mem.table.count ≤ s.ctx.tableCtx.distinctTokensCount.toNat := by
              rw [phase.counts.2.2.2]
              exact phase.more
            obtain ⟨-, ids, -, room, rfl, -⟩ := (TxSerFull.addTokens_ok fits).mp ok
            by_cases last : TxSerFull.LastTokens s.ctx s.mem.table ids.length
            · have entered : (TxSerFull.inputsEntered s.ctx).state = .inputsStarted := rfl
              exact (inv'.inputsPhase (by rw [if_pos last]; exact entered)).table
            · simp only [if_neg last] at later'
              exact (later' phase.state).elim
        | _ => simp [FullCall.phase] at accepted
    | inputs phase =>
        exact phase.table.extends_step (by simp [phase.state]) ok
    | dataInputs phase =>
        exact phase.table.extends_step (by simp [phase.state]) ok
    | outputs phase => exact (past phase.outputs.state).elim

/-- Every run of successful calls. -/
theorem run {calls : List (FullCall σ)} {u : Unit} (headed : Headed base declared upload s)
    (ok : runAll FullCall.run calls s = .ok u t) :
    Headed base declared (calls.foldl Upload.record upload) t := by
  induction calls generalizing upload s with
  | nil =>
      obtain rfl := runAll_nil_ok.mp ok
      exact headed
  | cons call calls ih =>
      obtain ⟨r, m, first, rest⟩ := runAll_cons_ok.mp ok
      exact ih (headed.step first) rest

end Headed

end LedgerErgo.Ergo
