import LedgerErgo.Ergo.BoxDelivery
import LedgerErgo.Ergo.InputDelivery
import LedgerErgo.Ergo.SignedStream

/-! # Delivering a transaction

Every transaction within the limits of the code can be sent, in every way the order of the
calls allows: the distinct ids and the data inputs cut between two ids, the inputs and the
boxes as their own modules say. No call is refused, and the stream is the encoding of the
transaction with an empty proof for every input.
-/

namespace LedgerErgo.Ergo

open LedgerErgo.Common LedgerErgo.Prog
open TxSerTable (idBytes)

variable {σ : Type}

/-- The transaction respects the limits that the code checks. -/
structure Tx.Sendable (tx : Tx) : Prop where
  someInputs : tx.inputs ≠ []
  inputsCount : tx.inputs.length ≤ 65535
  dataInputsCount : tx.dataInputs.length ≤ 65535
  someOutputs : tx.outputs ≠ []
  outputsCount : tx.outputs.length ≤ 65535
  tokenIds : tx.tokenIds.length ≤ tokenMaxCount
  inputs : ∀ input ∈ tx.inputs, InputDelivery.Sendable input
  outputs : ∀ box ∈ tx.outputs, BoxDelivery.Sendable box tx.tokenIds.length

/-- How a transaction is sent. -/
structure TxDelivery (σ : Type) where
  tokenIds : List (List ErgoId)
  inputs : List (InputDelivery σ)
  dataInputs : List (List ErgoId)
  outputs : List (BoxDelivery σ)

namespace TxDelivery

/-- The delivery is one of this transaction. -/
structure Carries (delivery : TxDelivery σ) (tx : Tx) : Prop where
  tokenIds : Pieces tx.tokenIds delivery.tokenIds
  inputs : List.Forall₂ InputDelivery.Carries delivery.inputs tx.inputs
  dataInputs : Pieces tx.dataInputs delivery.dataInputs
  outputs : List.Forall₂ BoxDelivery.Carries delivery.outputs tx.outputs

/-- The calls after `init` that send the transaction. -/
def calls (delivery : TxDelivery σ) (tx : Tx) : List (FullCall σ) :=
  delivery.tokenIds.map (fun ids => .addTokens (idBytes ids)) ++
    (List.zipWith InputDelivery.calls delivery.inputs tx.inputs).flatten ++
    delivery.dataInputs.map (fun ids => .addDataInputs (idBytes ids)) ++
    (List.zipWith BoxDelivery.calls delivery.outputs tx.outputs).flatten

/-- What the callbacks are shown: the tokens of all inputs, then the outputs. -/
def shown (delivery : TxDelivery σ) (tx : Tx) : List (Showing σ) :=
  (List.zipWith InputDelivery.shown delivery.inputs tx.inputs).flatten ++
    (List.zipWith BoxDelivery.shown delivery.outputs tx.outputs).flatten

/-- What stays the same until the outputs begin. -/
structure HeaderStage (s : SerState (FullCtx σ) σ) (tx : Tx) (bytes : List UInt8)
    (later : List (Showing σ)) : Prop where
  outputs : s.ctx.outputsCount.toNat = tx.outputs.length
  distinct : s.ctx.tableCtx.distinctTokensCount.toNat = tx.tokenIds.length
  filled : tx.tokenIds.length ≤ s.mem.table.count
  ids : s.mem.table.tokens.take tx.tokenIds.length = tx.tokenIds
  bytes : s.hash = bytes
  quiet : s.mem.Quiet
  welcomes : Welcomes later s.mem

/-- So many inputs are missing. -/
structure InputsStage [UnionLayout σ] (s : SerState (FullCtx σ) σ) (tx : Tx) (missing : Nat)
    (bytes : List UInt8) (later : List (Showing σ)) : Prop extends HeaderStage s tx bytes later where
  state : s.ctx.state = .inputsStarted
  ready : s.ctx.inputCtx.state = .finished
  dataInputs : s.ctx.dataInputsCount.toNat = tx.dataInputs.length
  inputs : s.ctx.inputsCount.toNat = missing

/-- So many data inputs are missing. -/
structure DataInputsStage (s : SerState (FullCtx σ) σ) (tx : Tx) (missing : Nat)
    (bytes : List UInt8) (later : List (Showing σ)) : Prop extends HeaderStage s tx bytes later where
  state : s.ctx.state = .dataInputsStarted
  dataInputs : s.ctx.dataInputsCount.toNat = missing

/-- So many outputs are missing. -/
structure OutputsStage (s : SerState (FullCtx σ) σ) (tx : Tx) (missing : Nat)
    (bytes : List UInt8) (later : List (Showing σ)) : Prop where
  state : s.ctx.state = if missing = 0 then .finished else .outputsStarted
  outputs : s.ctx.outputsCount.toNat = missing
  distinct : s.ctx.tableCtx.distinctTokensCount.toNat = tx.tokenIds.length
  bytes : s.hash = bytes
  quiet : s.mem.Quiet
  welcomes : Welcomes later s.mem

variable {s : SerState (FullCtx σ) σ} {tx : Tx} {bytes : List UInt8} {later : List (Showing σ)}

/-- The end of the header of this transaction. -/
def endBytes (tx : Tx) : List UInt8 :=
  vlq tx.tokenIds.length ++ idBytes tx.tokenIds ++ vlq tx.outputs.length

theorem headerEnd_eq (stage : HeaderStage s tx bytes later) :
    TxSerFull.headerEnd s.ctx s.mem.table = endBytes tx := by
  rw [TxSerFull.headerEnd, stage.distinct, TokenTable.map_slot_range stage.filled, stage.ids,
    stage.outputs]
  rfl

section Stages

variable [UnionLayout σ]

/-- The outputs, one after the other. -/
theorem outputs_delivered {deliveries : List (BoxDelivery σ)} {boxes : List Box}
    (carries : List.Forall₂ BoxDelivery.Carries deliveries boxes)
    (sendable : ∀ box ∈ boxes, BoxDelivery.Sendable box tx.tokenIds.length)
    (stage : OutputsStage s tx boxes.length bytes
      ((List.zipWith BoxDelivery.shown deliveries boxes).flatten ++ later)) :
    ∃ t, runAll FullCall.run (List.zipWith BoxDelivery.calls deliveries boxes).flatten s = .ok () t ∧
      OutputsStage t tx 0 (bytes ++ boxes.flatMap Box.encode) later := by
  induction carries generalizing s bytes with
  | nil => exact ⟨s, rfl, by simpa using stage⟩
  | @cons delivery box deliveries boxes here _ ih =>
      have more : s.ctx.outputsCount ≠ 0 :=
        Counter.toNat_pos16.mpr (by rw [stage.outputs]; simp)
      have state : s.ctx.state = .outputsStarted := by simpa using stage.state
      have welcomes := stage.welcomes
      rw [List.zipWith_cons_cons, List.flatten_cons, List.append_assoc] at welcomes
      obtain ⟨box', m, ran, quiet, welcomes'⟩ := BoxDelivery.delivered here
        (by rw [stage.distinct]; exact sendable box (by simp)) state more stage.quiet welcomes
      have less := Counter.toNat_sub_one16 more
      have left : (s.ctx.outputsCount - 1).toNat = boxes.length := by
        have := stage.outputs
        rw [List.length_cons] at this
        omega
      have next : OutputsStage ⟨TxSerFull.outputEnd (s.ctx.setBoxCtx box'), s.hash ++ box.encode, m⟩
          tx boxes.length (bytes ++ box.encode)
          ((List.zipWith BoxDelivery.shown deliveries boxes).flatten ++ later) := by
        refine ⟨?_, left, stage.distinct, by rw [stage.bytes], quiet, welcomes'⟩
        have zero : s.ctx.outputsCount - 1 = 0 ↔ boxes.length = 0 := by
          rw [← UInt16.toNat_inj, left, UInt16.toNat_zero]
        simp only [TxSerFull.outputEnd, FullCtx.setBoxCtx, zero, state]
      obtain ⟨t, others, done⟩ := ih (fun box here => sendable box (by simp [here])) next
      refine ⟨t, runAll_append_ok.mpr ⟨_, ran, others⟩, ?_⟩
      simpa using done

theorem idBytes_append (ids ids' : List ErgoId) :
    idBytes (ids ++ ids') = idBytes ids ++ idBytes ids' :=
  List.flatMap_append

/-- The data inputs, in pieces. -/
theorem dataInputs_delivered {pieces : List (List ErgoId)}
    (stage : DataInputsStage s tx tx.dataInputs.length bytes later) (some : tx.dataInputs ≠ [])
    (someOutputs : tx.outputs ≠ []) (split : Pieces tx.dataInputs pieces) :
    ∃ t, runAll FullCall.run (pieces.map fun ids => .addDataInputs (idBytes ids)) s = .ok () t ∧
      OutputsStage t tx tx.outputs.length (bytes ++ idBytes tx.dataInputs ++ endBytes tx) later := by
  rw [runAll_map]
  let during (sent : List ErgoId) (u : SerState (FullCtx σ) σ) : Prop :=
    DataInputsStage u tx (tx.dataInputs.length - sent.length) (bytes ++ idBytes sent) later
  have start : during [] s := by
    have stage := stage
    simpa [during, idBytes] using stage
  refine Pieces.runAll during ?_ ?_ split some start
  · rintro sent piece rest u stage more all
    have lengths := congrArg List.length all
    have positive := List.length_pos_iff.mpr more
    have left := stage.dataInputs
    simp only [List.length_append] at lengths
    have room : piece.length ≤ u.ctx.dataInputsCount.toNat := by omega
    have notAll : ¬ piece.length = u.ctx.dataInputsCount.toNat := by omega
    obtain ⟨m, ran, quiet, table⟩ := stage.quiet.ran piece.length
    refine ⟨.moreData, ⟨TxSerFull.dataInputsTaken u.ctx piece.length, u.hash ++ idBytes piece, m⟩,
      TxSerFull.addDataInputs_ok.mpr ⟨stage.state, piece, rfl, room, m, ran, ?_⟩, ?_⟩
    · rw [if_neg notAll]
      exact ⟨rfl, rfl⟩
    · refine ⟨⟨stage.outputs, stage.distinct, by rw [table]; exact stage.filled,
        by rw [table]; exact stage.ids, ?_, quiet, stage.welcomes.ran ran⟩, stage.state, ?_⟩
      · rw [stage.bytes, idBytes_append, List.append_assoc]
      · simp only [TxSerFull.dataInputsTaken, Counter.toNat_sub_ofNat16 room, List.length_append]
        omega
  · rintro sent piece u stage - all
    have lengths := congrArg List.length all
    have left := stage.dataInputs
    simp only [List.length_append] at lengths
    have last : piece.length = u.ctx.dataInputsCount.toNat := by omega
    obtain ⟨m, ran, quiet, table⟩ := stage.quiet.ran piece.length
    obtain ⟨n, ran', quiet', -⟩ := quiet.ran (TxSerFull.headerEndCalls u.ctx)
    refine ⟨.ok, ⟨{ TxSerFull.dataInputsTaken u.ctx piece.length with state := .outputsStarted },
        u.hash ++ idBytes piece ++ TxSerFull.headerEnd u.ctx u.mem.table, n⟩,
      TxSerFull.addDataInputs_ok.mpr ⟨stage.state, piece, rfl, last.le, m, ran, ?_⟩, ?_⟩
    · rw [if_pos last]
      exact ⟨n, ran', rfl, rfl⟩
    · refine ⟨?_, stage.outputs, stage.distinct, ?_, quiet', (stage.welcomes.ran ran).ran ran'⟩
      · rw [if_neg (mt List.length_eq_zero_iff.mp someOutputs)]
      · rw [stage.bytes, headerEnd_eq stage.toHeaderStage, ← all, idBytes_append]
        simp only [List.append_assoc]

/-- The bytes and the stage after the inputs. -/
def AfterInputs (s : SerState (FullCtx σ) σ) (tx : Tx) (bytes : List UInt8) (later : List (Showing σ)) :
    Prop :=
  if tx.dataInputs = [] then
    OutputsStage s tx tx.outputs.length (bytes ++ vlq tx.dataInputs.length ++ endBytes tx) later
  else DataInputsStage s tx tx.dataInputs.length (bytes ++ vlq tx.dataInputs.length) later

/-- The inputs, one after the other. -/
theorem inputs_delivered {deliveries : List (InputDelivery σ)} {inputs : List Input}
    (carries : List.Forall₂ InputDelivery.Carries deliveries inputs)
    (sendable : ∀ input ∈ inputs, InputDelivery.Sendable input) (some : inputs ≠ [])
    (someOutputs : tx.outputs ≠ [])
    (stage : InputsStage s tx inputs.length bytes
      ((List.zipWith InputDelivery.shown deliveries inputs).flatten ++ later)) :
    ∃ t, runAll FullCall.run (List.zipWith InputDelivery.calls deliveries inputs).flatten s =
        .ok () t ∧
      AfterInputs t tx (bytes ++ inputs.flatMap Input.encode) later := by
  induction carries generalizing s bytes with
  | nil => exact (some rfl).elim
  | @cons delivery input deliveries inputs here others ih =>
      have more : s.ctx.inputsCount ≠ 0 := Counter.toNat_pos16.mpr (by rw [stage.inputs]; simp)
      have welcomes := stage.welcomes
      rw [List.zipWith_cons_cons, List.flatten_cons, List.append_assoc] at welcomes
      obtain ⟨input', m, ran, finished, quiet, grown, welcomes'⟩ := InputDelivery.delivered here
        (sendable input (by simp)) stage.state stage.ready more stage.quiet welcomes
      have less := Counter.toNat_sub_one16 more
      have left : (s.ctx.inputsCount - 1).toNat = inputs.length := by
        have := stage.inputs
        rw [List.length_cons] at this
        omega
      have last : TxSerFull.LastInput (s.ctx.setInputCtx input') ↔ inputs = [] := by
        rw [← List.length_eq_zero_iff, ← left, ← UInt16.toNat_zero, UInt16.toNat_inj]
        rfl
      have noData : s.ctx.dataInputsCount = 0 ↔ tx.dataInputs = [] := by
        rw [← UInt16.toNat_inj, stage.dataInputs, UInt16.toNat_zero, List.length_eq_zero_iff]
      have header : ∀ hash, HeaderStage ⟨TxSerFull.inputEnd (s.ctx.setInputCtx input'), hash, m⟩ tx
          hash ((List.zipWith InputDelivery.shown deliveries inputs).flatten ++ later) := fun hash =>
        ⟨stage.outputs, stage.distinct, stage.filled.trans grown.count_le,
          by rw [grown.take stage.filled, stage.ids], rfl, quiet, welcomes'⟩
      have headerEnd : TxSerFull.headerEnd (s.ctx.setInputCtx input') m.table = endBytes tx :=
        headerEnd_eq (header [])
      by_cases final : inputs = []
      · subst final
        cases others
        refine ⟨_, runAll_append_ok.mpr ⟨_, ran, runAll_nil_ok.mpr rfl⟩, ?_⟩
        have isLast := last.mpr rfl
        by_cases empty : tx.dataInputs = []
        · rw [AfterInputs, if_pos empty]
          refine ⟨?_, stage.outputs, stage.distinct, ?_, quiet, welcomes'⟩
          · rw [if_neg (mt List.length_eq_zero_iff.mp someOutputs), TxSerFull.inputEnd, if_pos isLast]
            exact if_pos (noData.mpr empty)
          · rw [TxSerFull.inputEndBytes, if_pos isLast, headerEnd, stage.bytes]
            simp [FullCtx.setInputCtx, noData.mpr empty, empty]
        · rw [AfterInputs, if_neg empty]
          have bytes : s.hash ++ input.encode ++
              TxSerFull.inputEndBytes (s.ctx.setInputCtx input') m.table =
              bytes ++ List.flatMap Input.encode [input] ++ vlq tx.dataInputs.length := by
            rw [TxSerFull.inputEndBytes, if_pos isLast, stage.bytes]
            simp [FullCtx.setInputCtx, mt noData.mp empty, stage.dataInputs]
          refine ⟨bytes ▸ header _, ?_, stage.dataInputs⟩
          rw [TxSerFull.inputEnd, if_pos isLast]
          exact if_neg (mt noData.mp empty)
      · have notLast := mt last.mp final
        have next : InputsStage ⟨TxSerFull.inputEnd (s.ctx.setInputCtx input'),
            s.hash ++ input.encode ++ TxSerFull.inputEndBytes (s.ctx.setInputCtx input') m.table, m⟩
            tx inputs.length (bytes ++ input.encode)
            ((List.zipWith InputDelivery.shown deliveries inputs).flatten ++ later) := by
          rw [TxSerFull.inputEndBytes, if_neg notLast, List.append_nil, stage.bytes]
          refine ⟨header _, ?_, finished, stage.dataInputs, left⟩
          rw [TxSerFull.inputEnd, if_neg notLast]
          exact stage.state
        obtain ⟨t, rest, done⟩ :=
          ih (fun input here => sendable input (by simp [here])) final next
        refine ⟨t, runAll_append_ok.mpr ⟨_, ran, rest⟩, ?_⟩
        simpa using done

/-- The distinct ids, in pieces. -/
theorem tokenIds_delivered {pieces : List (List ErgoId)} {inputs dataInputs outputs : UInt16}
    {table : TableCtx} (begun : s.ctx = TxSerFull.started inputs dataInputs outputs table)
    (empty : s.mem.table.count = 0) (hash : s.hash = bytes) (quiet : s.mem.Quiet)
    (bounded : tx.tokenIds.length ≤ tokenMaxCount)
    (welcomes : Welcomes later { s.mem with table := ⟨tx.tokenIds, bounded⟩ })
    (inputsCount : inputs.toNat = tx.inputs.length)
    (dataInputsCount : dataInputs.toNat = tx.dataInputs.length)
    (outputsCount : outputs.toNat = tx.outputs.length)
    (distinct : table.distinctTokensCount.toNat = tx.tokenIds.length)
    (split : Pieces tx.tokenIds pieces) :
    ∃ t, runAll FullCall.run (pieces.map fun ids => .addTokens (idBytes ids)) s = .ok () t ∧
      InputsStage t tx tx.inputs.length bytes later := by
  have filled (table : TokenTable) (all : table.tokens = tx.tokenIds) :
      table = ⟨tx.tokenIds, bounded⟩ := by
    cases table
    cases all
    rfl
  have noIds : s.mem.table.tokens = [] := List.length_eq_zero_iff.mp empty
  rw [runAll_map]
  by_cases none : tx.tokenIds = []
  · have zero : table.distinctTokensCount = 0 := UInt8.toNat_inj.mp (by rw [distinct, none]; rfl)
    rw [none] at split
    obtain rfl := split.eq_nil
    rw [TxSerFull.started, if_pos zero] at begun
    refine ⟨s, rfl, ⟨⟨?_, ?_, by simp [none], by simp [none], hash, quiet,
      welcomes.congr (filled _ (noIds.trans none.symm)) rfl⟩, ?_, ?_, ?_, ?_⟩⟩
    all_goals rw [begun]
    · exact outputsCount
    · exact distinct
    · rfl
    · rfl
    · exact dataInputsCount
    · exact inputsCount
  · have some : table.distinctTokensCount ≠ 0 := fun zero => by
      rw [zero] at distinct
      exact none (List.length_eq_zero_iff.mp distinct.symm)
    rw [TxSerFull.started, if_neg some] at begun
    let during (sent : List ErgoId) (u : SerState (FullCtx σ) σ) : Prop :=
      u.ctx = s.ctx ∧ u.mem.table.tokens = sent ∧ u.hash = bytes ∧ u.mem.Quiet ∧ u.mem.cb = s.mem.cb
    refine Pieces.runAll during ?_ ?_ split none ⟨rfl, noIds, hash, quiet, rfl⟩
    · rintro sent piece rest u ⟨same, ids, hash, quiet, cb⟩ more all
      have lengths := congrArg List.length all
      have positive := List.length_pos_iff.mpr more
      simp only [List.length_append] at lengths
      have target : u.ctx.tableCtx.distinctTokensCount.toNat = tx.tokenIds.length := by
        rw [same, begun]
        exact distinct
      have room : u.mem.table.count + piece.length ≤ u.ctx.tableCtx.distinctTokensCount.toNat := by
        rw [TokenTable.count, ids, target]
        omega
      have notLast : ¬ TxSerFull.LastTokens u.ctx u.mem.table piece.length := by
        rw [TxSerFull.LastTokens, TokenTable.count, ids, target]
        omega
      refine ⟨_, _, (TxSerFull.addTokens_ok (by omega)).mpr
        ⟨by rw [same, begun], piece, rfl, room, rfl, rfl⟩, ?_, ?_, hash, quiet, cb⟩
      · rw [if_neg notLast, same]
      · simp [TokenTable.append, ids]
    · rintro sent piece u ⟨same, ids, hash, quiet, cb⟩ - all
      have lengths := congrArg List.length all
      simp only [List.length_append] at lengths
      have target : u.ctx.tableCtx.distinctTokensCount.toNat = tx.tokenIds.length := by
        rw [same, begun]
        exact distinct
      have room : u.mem.table.count + piece.length ≤ u.ctx.tableCtx.distinctTokensCount.toNat := by
        rw [TokenTable.count, ids, target]
        omega
      have last : TxSerFull.LastTokens u.ctx u.mem.table piece.length := by
        rw [TxSerFull.LastTokens, TokenTable.count, ids, target]
        omega
      refine ⟨_, _, (TxSerFull.addTokens_ok (by omega)).mpr
        ⟨by rw [same, begun], piece, rfl, room, rfl, rfl⟩, ?_⟩
      have tokens : ∀ room, (u.mem.table.append piece room).tokens = tx.tokenIds := fun room => by
        change u.mem.table.tokens ++ piece = tx.tokenIds
        rw [ids, all]
      refine ⟨⟨?_, ?_, ?_, ?_, hash, quiet, ?_⟩, ?_, ?_, ?_, ?_⟩
      · rw [if_pos last]
        change u.ctx.outputsCount.toNat = tx.outputs.length
        rw [same, begun]
        exact outputsCount
      · rw [if_pos last]
        exact target
      · rw [TokenTable.count, tokens]
      · rw [tokens, List.take_length]
      · exact welcomes.congr (filled _ (tokens (room.trans u.ctx.tableCtx.bounded))) cb
      · rw [if_pos last]
        rfl
      · rw [if_pos last]
        rfl
      · rw [if_pos last]
        change u.ctx.dataInputsCount.toNat = tx.dataInputs.length
        rw [same, begun]
        exact dataInputsCount
      · rw [if_pos last]
        change u.ctx.inputsCount.toNat = tx.inputs.length
        rw [same, begun]
        exact inputsCount

/-- The counts a transaction is declared with. -/
def declared (tx : Tx) : Declared where
  inputs := UInt16.ofNat tx.inputs.length
  dataInputs := UInt16.ofNat tx.dataInputs.length
  outputs := UInt16.ofNat tx.outputs.length
  tokens := UInt8.ofNat tx.tokenIds.length

/-- Every transaction within the limits is accepted in every delivery, call by call, and its
    stream is its encoding, if the callbacks accept what they are shown of it. -/
theorem transaction_delivered {delivery : TxDelivery σ} (sendable : tx.Sendable)
    (carries : delivery.Carries tx) (empty : s.mem.table.count = 0) (quiet : s.mem.Quiet)
    (welcomes : Welcomes (delivery.shown tx)
      { s.mem with table := ⟨tx.tokenIds, sendable.tokenIds⟩ }) :
    ∃ t, fullRun (declared tx) (delivery.calls tx) s = .ok () t ∧ t.ctx.state = .finished ∧
      t.hash = s.hash ++ tx.encode := by
  have exact16 : ∀ {n : Nat}, n ≤ 65535 → (UInt16.ofNat n).toNat = n := fun few =>
    UInt16.toNat_ofNat_of_lt' (Nat.lt_of_le_of_lt few (by decide))
  have inputs : (declared tx).inputs.toNat = tx.inputs.length := exact16 sendable.inputsCount
  have dataInputs : (declared tx).dataInputs.toNat = tx.dataInputs.length :=
    exact16 sendable.dataInputsCount
  have outputs : (declared tx).outputs.toNat = tx.outputs.length := exact16 sendable.outputsCount
  have tokens : (declared tx).tokens.toNat = tx.tokenIds.length :=
    UInt8.toNat_ofNat_of_lt' (Nat.lt_of_le_of_lt sendable.tokenIds (by decide))
  have someInputs : (declared tx).inputs ≠ 0 := Counter.toNat_pos16.mpr
    (by rw [inputs]; exact List.length_pos_iff.mpr sendable.someInputs)
  have someOutputs : (declared tx).outputs ≠ 0 := Counter.toNat_pos16.mpr
    (by rw [outputs]; exact List.length_pos_iff.mpr sendable.someOutputs)
  obtain ⟨m, ran, quiet, table⟩ := quiet.ran 1
  have bounded : (declared tx).tokens.toNat ≤ tokenMaxCount := tokens.le.trans sendable.tokenIds
  obtain ⟨s₀, init, ctx₀, table₀, hash₀, quiet₀, cb₀⟩ : ∃ s₀, TxSerFull.init (declared tx).inputs
      (declared tx).dataInputs (declared tx).outputs (declared tx).tokens s = .ok () s₀ ∧
      s₀.ctx = TxSerFull.started (declared tx).inputs (declared tx).dataInputs (declared tx).outputs
        ⟨(declared tx).tokens, bounded⟩ ∧
      s₀.mem.table.count = 0 ∧ s₀.hash = s.hash ++ vlq (declared tx).inputs.toNat ∧ s₀.mem.Quiet ∧
      s₀.mem.cb = s.mem.cb :=
    ⟨_, TxSerFull.init_ok.mpr ⟨⟨someInputs, someOutputs⟩, bounded, empty, m, ran, rfl⟩, rfl,
      by rw [table]; exact empty, rfl, quiet, ran.cb⟩
  obtain ⟨s₁, ran₁, stage₁⟩ := tokenIds_delivered ctx₀ table₀ hash₀ quiet₀ sendable.tokenIds
    (welcomes.congr rfl cb₀) inputs dataInputs outputs tokens carries.tokenIds
  obtain ⟨s₂, ran₂, stage₂⟩ := inputs_delivered carries.inputs sendable.inputs sendable.someInputs
    sendable.someOutputs stage₁
  obtain ⟨s₃, ran₃, stage₃⟩ : ∃ t, runAll FullCall.run
      (delivery.dataInputs.map fun ids => .addDataInputs (idBytes ids)) s₂ = .ok () t ∧
      OutputsStage t tx tx.outputs.length
        (s.hash ++ headerBytes tx.inputs tx.dataInputs tx.tokenIds tx.outputs.length)
        ((List.zipWith BoxDelivery.shown delivery.outputs tx.outputs).flatten ++ []) := by
    by_cases none : tx.dataInputs = []
    · rw [AfterInputs, if_pos none] at stage₂
      have split := carries.dataInputs
      rw [none] at split
      refine ⟨s₂, by rw [split.eq_nil]; rfl, ?_⟩
      simpa [headerBytes, endBytes, none, inputs, idBytes] using stage₂
    · rw [AfterInputs, if_neg none] at stage₂
      obtain ⟨s₃, ran₃, stage₃⟩ :=
        dataInputs_delivered stage₂ none sendable.someOutputs carries.dataInputs
      refine ⟨s₃, ran₃, ?_⟩
      simpa [headerBytes, endBytes, inputs] using stage₃
  obtain ⟨s₄, ran₄, stage₄⟩ := outputs_delivered carries.outputs sendable.outputs stage₃
  refine ⟨s₄, bind_ok.mpr ⟨(), s₀, init, ?_⟩, stage₄.state, ?_⟩
  · exact runAll_append_ok.mpr ⟨s₃, runAll_append_ok.mpr ⟨s₂, runAll_append_ok.mpr ⟨s₁, ran₁, ran₂⟩,
      ran₃⟩, ran₄⟩
  · rw [stage₄.bytes, Tx.encode, List.append_assoc]

end Stages

/-- A payment of one token, with a context extension and a data input. -/
def payment : Tx where
  inputs := [⟨Bytes.zero 32, [0x01, 0x00]⟩]
  dataInputs := [⟨List.replicate 32 2, rfl⟩]
  tokenIds := [⟨List.replicate 32 1, rfl⟩]
  outputs := [⟨1000, [0x10, 0x01, 0x02], 3, [⟨.index 0, 7⟩], [0x00, 0x08]⟩]

/-- A callback that refuses amounts over seven. -/
def upToSeven : BoxTokenCb Unit where
  run shown := if shown.2.2 ≤ 7 then return .ok else throw .badTokenValue
  appends shown m r n ok := by
    split at ok
    · cases ok
      exact .refl _
    · cases ok

/-- One frame, one chunk for the tree, everything else cut in two where it can be. -/
def inTwo : TxDelivery Unit where
  tokenIds := [payment.tokenIds]
  inputs := [⟨none, [[]], [[0x01], [0x00]]⟩]
  dataInputs := [payment.dataInputs]
  outputs := [⟨some ⟨none, some upToSeven, none⟩, .chunks, [[⟨.index 0, 7⟩]], [[0x00], [0x08]]⟩]

theorem transaction_delivered_inTwo :
    ∃ t, fullRun (declared payment) (inTwo.calls payment) idle = .ok () t ∧
      t.ctx.state = .finished ∧ t.hash = idle.hash ++ payment.encode := by
  have sendable : payment.Sendable := by
    refine ⟨by decide, by decide, by decide, by decide, by decide, by decide, ?_, ?_⟩
    · simp only [payment, List.forall_mem_singleton]
      exact ⟨by decide, by decide⟩
    · simp only [payment, List.forall_mem_singleton]
      exact ⟨by decide, by decide, by decide, by simp⟩
  have whole : ∀ {ι : Type} {piece : List ι}, piece ≠ [] → Pieces piece [piece] := fun some =>
    ⟨by simp, by simpa using some⟩
  have halves : ∀ {a b : UInt8}, Pieces [a, b] [[a], [b]] := ⟨by simp, by simp⟩
  have carries : inTwo.Carries payment :=
    ⟨whole (by decide), .cons ⟨by simp, by simp, halves⟩ .nil, whole (by decide),
      .cons ⟨trivial, whole (by simp), halves⟩ .nil⟩
  have always : ∀ showing ∈ inTwo.shown payment, ∀ m, m.Quiet → ∃ n, showing m n ∧ n.Quiet :=
    List.forall_mem_cons.mpr ⟨fun m quiet => ⟨m, rfl, quiet⟩,
      List.forall_mem_cons.mpr ⟨fun m quiet => ⟨m, rfl, quiet⟩,
        List.forall_mem_singleton.mpr fun m quiet => ⟨m, rfl, quiet⟩⟩⟩
  exact transaction_delivered sendable carries rfl (by simp [Mem.Quiet, idle])
    (.of_always always _)

end TxDelivery

end LedgerErgo.Ergo
