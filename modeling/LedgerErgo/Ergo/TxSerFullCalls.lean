import LedgerErgo.Ergo.TxSerBoxCalls
import LedgerErgo.Ergo.TxSerFull

/-! # What the calls of the full serializer do

The full serializer adds to its parts the checks of the phase and the ends of the phases.
The ends hash the counts and, once the data inputs are there, the distinct token ids.
-/

namespace LedgerErgo.Ergo.TxSerFull

open LedgerErgo.Common LedgerErgo.Prog

section Phases

variable {σ : Type} {s t : SerState (FullCtx σ) σ}

theorem checkProperState_bind_ok {α : Type} {state : FullState} {f : Unit → FullM σ α} {a : α} :
    (checkProperState state >>= f) s = .ok a t ↔ s.ctx.state = state ∧ f () s = .ok a t := by
  simp only [checkProperState, bind_ok, exists_unit, getCtx_ok, require_ok]
  constructor
  · rintro ⟨_, ⟨_, _, ⟨rfl, rfl⟩, here, rfl⟩, rest⟩
    exact ⟨here, rest⟩
  · rintro ⟨here, rest⟩
    exact ⟨s, ⟨_, _, ⟨rfl, rfl⟩, here, rfl⟩, rest⟩

theorem hashU16_ok {u16 : UInt16} {u : Unit} :
    hashU16 u16 s = .ok u t ↔
      ∃ m, s.mem.Ran 1 m ∧ ⟨s.ctx, s.hash ++ vlq u16.toNat, m⟩ = t := by
  simp only [hashU16, scratch_gvePutU16, bind_ok, orFail_ok, hashUpdate_ok, sdkCall_ok_iff,
    Option.some.injEq]
  constructor
  · rintro ⟨_, _, ⟨rfl, rfl⟩, m, hm, rfl⟩
    exact ⟨m, hm, rfl⟩
  · rintro ⟨m, hm, rfl⟩
    exact ⟨_, _, ⟨rfl, rfl⟩, m, hm, rfl⟩

/-- The end of the header: the distinct ids and the number of outputs. -/
def headerEnd (ctx : FullCtx σ) (table : TokenTable) : List UInt8 :=
  vlq ctx.tableCtx.distinctTokensCount.toNat ++
    TxSerTable.idBytes
      ((List.range ctx.tableCtx.distinctTokensCount.toNat).map table.slot) ++
    vlq ctx.outputsCount.toNat

/-- The number of SDK calls the end of the header needs. -/
def headerEndCalls (ctx : FullCtx σ) : Nat := ctx.tableCtx.distinctTokensCount.toNat + 1 + 1

theorem dataInputsFinished_ok {u : Unit} :
    dataInputsFinished s = .ok u t ↔
      ∃ m, s.mem.Ran (headerEndCalls s.ctx) m ∧
        ⟨{ s.ctx with state := .outputsStarted }, s.hash ++ headerEnd s.ctx s.mem.table, m⟩ = t := by
  simp only [dataInputsFinished, callTable, bind_ok, exists_unit, callPart_ok, getCtx_ok,
    TxSerTable.hash_ok, hashU16_ok, modifyCtx_ok, sdkCalls_ok_iff, headerEndCalls]
  constructor
  · rintro ⟨_, ⟨_, ⟨m, hm, rfl⟩, rfl⟩, _, _, ⟨rfl, rfl⟩, _, ⟨n, hn, rfl⟩, rfl⟩
    exact ⟨n, Mem.ran_add.mpr ⟨m, hm, hn⟩, by simp [headerEnd, FullCtx.setTableCtx]⟩
  · rintro ⟨n, ran, rfl⟩
    obtain ⟨m, hm, hn⟩ := Mem.ran_add.mp ran
    exact ⟨_, ⟨_, ⟨m, hm, rfl⟩, rfl⟩, _, _, ⟨rfl, rfl⟩, _, ⟨n, hn, rfl⟩,
      by simp [headerEnd, FullCtx.setTableCtx]⟩

/-- No more inputs follow the one that is complete now. -/
def LastInput (ctx : FullCtx σ) : Prop := ctx.inputsCount - 1 = 0

instance (ctx : FullCtx σ) : Decidable (LastInput ctx) := inferInstanceAs (Decidable (_ = _))

/-- The context after an input is complete. -/
def inputEnd (ctx : FullCtx σ) : FullCtx σ :=
  { ctx with
    inputsCount := ctx.inputsCount - 1
    state :=
      if LastInput ctx then
        if ctx.dataInputsCount = 0 then .outputsStarted else .dataInputsStarted
      else ctx.state }

/-- The bytes hashed after an input is complete. -/
def inputEndBytes (ctx : FullCtx σ) (table : TokenTable) : List UInt8 :=
  if LastInput ctx then
    vlq ctx.dataInputsCount.toNat ++ if ctx.dataInputsCount = 0 then headerEnd ctx table else []
  else []

/-- The number of SDK calls after an input is complete. -/
def inputEndCalls (ctx : FullCtx σ) : Nat :=
  if LastInput ctx then 1 + if ctx.dataInputsCount = 0 then headerEndCalls ctx else 0 else 0

theorem inputFinished_ok {u : Unit} :
    inputFinished s = .ok u t ↔
      ∃ m, s.mem.Ran (inputEndCalls s.ctx) m ∧
        ⟨inputEnd s.ctx, s.hash ++ inputEndBytes s.ctx s.mem.table, m⟩ = t := by
  obtain ⟨ctx, hash, mem⟩ := s
  have decremented : inputFinished (σ := σ) ⟨ctx, hash, mem⟩ =
      (if LastInput ctx then do
        hashU16 ctx.dataInputsCount
        modifyCtx fun ctx => { ctx with state := .dataInputsStarted }
        if ctx.dataInputsCount = 0 then dataInputsFinished else pure ()
      else pure ())
      ⟨{ ctx with inputsCount := ctx.inputsCount - 1 }, hash, mem⟩ := rfl
  rw [decremented]
  by_cases last : LastInput ctx
  · simp only [if_pos last, inputEnd, inputEndBytes, inputEndCalls]
    by_cases noData : ctx.dataInputsCount = 0
    · simp only [if_pos noData, bind_ok, exists_unit, hashU16_ok, modifyCtx_ok,
        dataInputsFinished_ok, Mem.ran_add]
      constructor
      · rintro ⟨_, ⟨m, hm, rfl⟩, _, rfl, n, hn, rfl⟩
        exact ⟨n, ⟨m, hm, hn⟩, by simp [headerEnd, hm.table]⟩
      · rintro ⟨n, ⟨m, hm, hn⟩, rfl⟩
        exact ⟨_, ⟨m, hm, rfl⟩, _, rfl, n, hn, by simp [headerEnd, hm.table]⟩
    · simp [if_neg noData, hashU16_ok]
  · simp [if_neg last, inputEnd, inputEndBytes, inputEndCalls, Mem.Ran, sdkCalls]

end Phases

section Calls

variable {σ : Type} [UnionLayout σ] {s t : SerState (FullCtx σ) σ} {r : Progress} {u : Unit}

/-- The context when the input phase begins. -/
def inputsEntered (ctx : FullCtx σ) : FullCtx σ :=
  { ctx with state := .inputsStarted, part := .input { ctx.inputCtx with state := .finished } }

/-- The context a successful `init` leaves. -/
def started (inputsCount dataInputsCount outputsCount : UInt16) (table : TableCtx) : FullCtx σ :=
  let ctx := ⟨.tokensStarted, inputsCount, dataInputsCount, outputsCount, table, .input (.zero σ)⟩
  if table.distinctTokensCount = 0 then inputsEntered ctx else ctx

theorem init_ok {inputsCount dataInputsCount outputsCount : UInt16} {tokensCount : UInt8} :
    init inputsCount dataInputsCount outputsCount tokensCount s = .ok u t ↔
      (inputsCount ≠ 0 ∧ outputsCount ≠ 0) ∧
      ∃ bounded : tokensCount.toNat ≤ tokenMaxCount, s.mem.table.count = 0 ∧
      ∃ m, s.mem.Ran 1 m ∧
        ⟨started inputsCount dataInputsCount outputsCount ⟨tokensCount, bounded⟩,
          s.hash ++ vlq inputsCount.toNat, m⟩ = t := by
  have table : ∀ {m : Mem σ}, s.mem.Ran 1 m → (m.table.count = 0 ↔ s.mem.table.count = 0) :=
    fun ran => by rw [ran.table]
  by_cases none : tokensCount = 0
  · simp only [init, startInputs, bind_ok, exists_unit, modifyCtx_ok, require_ok, hashU16_ok,
      callTable, callPart_ok, TxSerTable.init_ok, none, ne_eq, not_true, if_false]
    constructor
    · rintro ⟨_, rfl, _, ⟨inputs, rfl⟩, _, ⟨outputs, rfl⟩, _, ⟨m, hm, rfl⟩, _, rfl, _,
        ⟨_, ⟨bounded, empty, rfl⟩, rfl⟩, rfl⟩
      exact ⟨⟨inputs, outputs⟩, bounded, (table hm).mp empty, m, hm, rfl⟩
    · rintro ⟨⟨inputs, outputs⟩, bounded, empty, m, hm, rfl⟩
      exact ⟨_, rfl, _, ⟨inputs, rfl⟩, _, ⟨outputs, rfl⟩, _, ⟨m, hm, rfl⟩, _, rfl, _,
        ⟨_, ⟨bounded, (table hm).mpr empty, rfl⟩, rfl⟩, rfl⟩
  · simp only [init, bind_ok, exists_unit, modifyCtx_ok, require_ok, hashU16_ok,
      callTable, callPart_ok, TxSerTable.init_ok, none, ne_eq, not_false_iff, if_true]
    have started_some : ∀ bounded : tokensCount.toNat ≤ tokenMaxCount,
        started (σ := σ) inputsCount dataInputsCount outputsCount ⟨tokensCount, bounded⟩ =
          ⟨.tokensStarted, inputsCount, dataInputsCount, outputsCount, ⟨tokensCount, bounded⟩,
            .input (.zero σ)⟩ := fun _ => if_neg none
    simp only [started_some]
    constructor
    · rintro ⟨_, rfl, _, ⟨inputs, rfl⟩, _, ⟨outputs, rfl⟩, _, ⟨m, hm, rfl⟩, _, rfl, _,
        ⟨_, ⟨bounded, empty, rfl⟩, rfl⟩, rfl⟩
      exact ⟨⟨inputs, outputs⟩, bounded, (table hm).mp empty, m, hm, rfl⟩
    · rintro ⟨⟨inputs, outputs⟩, bounded, empty, m, hm, rfl⟩
      exact ⟨_, rfl, _, ⟨inputs, rfl⟩, _, ⟨outputs, rfl⟩, _, ⟨m, hm, rfl⟩, _, rfl, _,
        ⟨_, ⟨bounded, (table hm).mpr empty, rfl⟩, rfl⟩, rfl⟩

/-- These ids complete the distinct ones. -/
def LastTokens (ctx : FullCtx σ) (table : TokenTable) (len : Nat) : Prop :=
  table.count + len = ctx.tableCtx.distinctTokensCount.toNat

instance (ctx : FullCtx σ) (table : TokenTable) (len : Nat) : Decidable (LastTokens ctx table len) :=
  inferInstanceAs (Decidable (_ = _))

theorem addTokens_ok {tokens : Buffer}
    (fits : s.mem.table.count ≤ s.ctx.tableCtx.distinctTokensCount.toNat) :
    addTokens tokens s = .ok r t ↔
      s.ctx.state = .tokensStarted ∧
      ∃ ids, tokens = TxSerTable.idBytes ids ∧
      ∃ room : s.mem.table.count + ids.length ≤ s.ctx.tableCtx.distinctTokensCount.toNat,
        ⟨if LastTokens s.ctx s.mem.table ids.length then inputsEntered s.ctx else s.ctx, s.hash,
          { s.mem with
            table := s.mem.table.append ids (room.trans s.ctx.tableCtx.bounded) }⟩ = t ∧
        (if LastTokens s.ctx s.mem.table ids.length then .ok else .moreData) = r := by
  have finished : ∀ (ids : List ErgoId) room,
      (s.mem.table.count + ids.length ≤ s.ctx.tableCtx.distinctTokensCount.toNat) →
      (TxSerTable.isFinished s.ctx.tableCtx (s.mem.table.append ids room) = true ↔
        LastTokens s.ctx s.mem.table ids.length) := by
    intro ids room within
    simp only [TxSerTable.isFinished, TokenTable.append, TokenTable.count, List.length_append,
      decide_eq_true_eq, LastTokens] at within ⊢
    omega
  simp only [addTokens, checkProperState_bind_ok, callTable]
  refine and_congr_right fun _ => ?_
  simp only [bind_ok, callPart_ok, TxSerTable.add_ok (s := { s with ctx := s.ctx.tableCtx }) fits]
  constructor
  · rintro ⟨res, _, ⟨_, ⟨ids, rfl, room, rfl, hres⟩, rfl⟩, rest⟩
    refine ⟨ids, rfl, room, ?_⟩
    simp only [finished ids _ room] at hres
    by_cases last : LastTokens s.ctx s.mem.table ids.length
    · obtain rfl : .ok = res := by simpa [last] using hres
      simpa [startInputs, last, FullCtx.setTableCtx, inputsEntered, FullCtx.inputCtx, and_comm]
        using rest
    · obtain rfl : .moreData = res := by simpa [last] using hres
      simpa [last, FullCtx.setTableCtx, and_comm] using rest
  · rintro ⟨ids, rfl, room, rfl, rfl⟩
    refine ⟨_, _, ⟨_, ⟨ids, rfl, room, rfl, rfl⟩, rfl⟩, ?_⟩
    simp only [finished ids _ room]
    by_cases last : LastTokens s.ctx s.mem.table ids.length
    · simp [startInputs, last, FullCtx.setTableCtx, inputsEntered, FullCtx.inputCtx]
    · simp [last, FullCtx.setTableCtx]

theorem addInput_ok {boxId : ErgoId} {framesCount : UInt8} {extensionSize : UInt32} :
    addInput boxId framesCount extensionSize s = .ok u t ↔
      s.ctx.state = .inputsStarted ∧ s.ctx.inputCtx.state = .finished ∧ s.ctx.inputsCount ≠ 0 ∧
      (extensionSize ≠ 1 ∧ extensionSize ≤ maxTxDataPartLen) ∧
        { s with
          ctx := s.ctx.setInputCtx (TxSerInput.started boxId framesCount extensionSize) } = t := by
  simp only [addInput, checkProperState_bind_ok, getCtx_bind, require_bind_ok]
  simp only [callInput, callPart_ok, TxSerInput.init_ok, TxSerInput.isFinished, decide_eq_true_eq]
  refine and_congr_right fun _ => and_congr_right fun _ => and_congr_right fun _ => ?_
  constructor
  · rintro ⟨_, ⟨size, rfl⟩, rfl⟩
    exact ⟨size, rfl⟩
  · rintro ⟨size, rfl⟩
    exact ⟨_, ⟨size, rfl⟩, rfl⟩

/-- The state after a call of the input serializer: a complete input ends its turn. -/
def afterInput (ctx : FullCtx σ) (v : SerState (InputCtx σ) σ) (m : Mem σ) :
    SerState (FullCtx σ) σ :=
  let next := ctx.setInputCtx v.ctx
  if v.ctx.state = .finished then
    ⟨inputEnd next, v.hash ++ inputEndBytes next v.mem.table, m⟩
  else ⟨next, v.hash, m⟩

/-- The number of SDK calls after a call of the input serializer. -/
def afterInputCalls (ctx : FullCtx σ) (input : InputCtx σ) : Nat :=
  if input.state = .finished then inputEndCalls (ctx.setInputCtx input) else 0

omit [UnionLayout σ] in
private theorem inputTail_ok {ctx : FullCtx σ} {v : SerState (InputCtx σ) σ} {res : Progress}
    {c : Prop} [Decidable c] (finished : c ↔ v.ctx.state = .finished) :
    (do if c then inputFinished
        return res : FullM σ Progress) ⟨ctx.setInputCtx v.ctx, v.hash, v.mem⟩ = .ok r t ↔
      res = r ∧ ∃ m, v.mem.Ran (afterInputCalls ctx v.ctx) m ∧ afterInput ctx v m = t := by
  by_cases done : v.ctx.state = .finished
  · simp only [finished.mpr done, if_true, bind_ok, exists_unit, inputFinished_ok, pure_ok, afterInput,
      afterInputCalls, done]
    constructor
    · rintro ⟨_, ⟨m, hm, rfl⟩, rfl, rfl⟩
      exact ⟨rfl, m, hm, rfl⟩
    · rintro ⟨rfl, m, hm, rfl⟩
      exact ⟨_, ⟨m, hm, rfl⟩, rfl, rfl⟩
  · simp [finished, done, afterInput, afterInputCalls, Mem.Ran, sdkCalls]

theorem addInputTokens_ok {boxId : ErgoId} {frameIndex : UInt8} {tokens : Buffer} :
    addInputTokens boxId frameIndex tokens s = .ok r t ↔
      s.ctx.state = .inputsStarted ∧
      ∃ v, TxSerInput.addTokens boxId frameIndex tokens { s with ctx := s.ctx.inputCtx } = .ok r v ∧
      ∃ m, v.mem.Ran (afterInputCalls s.ctx v.ctx) m ∧ afterInput s.ctx v m = t := by
  simp only [addInputTokens, checkProperState_bind_ok, callInput]
  refine and_congr_right fun _ => ?_
  simp only [bind_ok (x := callPart _ _ _ _), callPart_ok, getCtx_bind]
  constructor
  · rintro ⟨res, _, ⟨v, call, rfl⟩, rest⟩
    obtain ⟨rfl, ends⟩ := (inputTail_ok (TxSerInput.addTokens_done call).2).mp rest
    exact ⟨v, call, ends⟩
  · rintro ⟨v, call, ends⟩
    exact ⟨r, _, ⟨v, call, rfl⟩, (inputTail_ok (TxSerInput.addTokens_done call).2).mpr ⟨rfl, ends⟩⟩

theorem addInputContextExtension_ok {chunk : Buffer} :
    addInputContextExtension chunk s = .ok r t ↔
      s.ctx.state = .inputsStarted ∧
      ∃ v, TxSerInput.addContextExtension chunk { s with ctx := s.ctx.inputCtx } = .ok r v ∧
      ∃ m, v.mem.Ran (afterInputCalls s.ctx v.ctx) m ∧ afterInput s.ctx v m = t := by
  simp only [addInputContextExtension, checkProperState_bind_ok, callInput]
  refine and_congr_right fun _ => ?_
  simp only [bind_ok (x := callPart _ _ _ _), callPart_ok]
  constructor
  · rintro ⟨res, _, ⟨v, call, rfl⟩, rest⟩
    obtain ⟨rfl, ends⟩ := (inputTail_ok (TxSerInput.addContextExtension_done call).2).mp rest
    exact ⟨v, call, ends⟩
  · rintro ⟨v, call, ends⟩
    exact ⟨r, _, ⟨v, call, rfl⟩, (inputTail_ok (TxSerInput.addContextExtension_done call).2).mpr ⟨rfl, ends⟩⟩

/-- Take one data input off the counter and hash it. -/
def takeDataInput (boxId : ErgoId) : FullM σ Unit := do
  let ctx ← getCtx
  require (ctx.dataInputsCount ≠ 0) .tooManyDataInputs
  hashUpdate .hasher boxId.val
  modifyCtx fun ctx => { ctx with dataInputsCount := ctx.dataInputsCount - 1 }

/-- The context after some data inputs are taken off the counter. -/
def dataInputsTaken (ctx : FullCtx σ) (len : Nat) : FullCtx σ :=
  { ctx with dataInputsCount := ctx.dataInputsCount - UInt16.ofNat len }

omit [UnionLayout σ] in
private theorem readDataInput_ok {inputs rest : Buffer} :
    readDataInput inputs s = .ok rest t ↔
      ∃ boxId : ErgoId, inputs = boxId.val ++ rest ∧ takeDataInput boxId s = .ok () t := by
  simp only [readDataInput, takeDataInput, getCtx_bind, require_bind_ok]
  simp only [bind_ok, exists_unit, orFail_ok, hashUpdate_ok, modifyCtx_ok, pure_ok, Prod.exists,
    bufferReadBytes_eq_some]
  constructor
  · rintro ⟨more, id, _, _, ⟨rfl, rfl⟩, _, ⟨m, hm, rfl⟩, _, rfl, rfl, rfl⟩
    exact ⟨id, rfl, more, _, ⟨m, hm, rfl⟩, rfl⟩
  · rintro ⟨id, rfl, more, _, ⟨m, hm, rfl⟩, rfl⟩
    exact ⟨more, id, _, _, ⟨rfl, rfl⟩, _, ⟨m, hm, rfl⟩, _, rfl, rfl, rfl⟩

omit [UnionLayout σ] in
private theorem takeDataInputs_ok {ids : List ErgoId} :
    runAll takeDataInput ids s = .ok () t ↔
      ids.length ≤ s.ctx.dataInputsCount.toNat ∧
      ∃ m, s.mem.Ran ids.length m ∧
        ⟨dataInputsTaken s.ctx ids.length, s.hash ++ TxSerTable.idBytes ids, m⟩ = t := by
  induction ids generalizing s with
  | nil => simp [runAll_nil_ok, dataInputsTaken, TxSerTable.idBytes, Mem.Ran, sdkCalls]
  | cons id ids ih =>
      have merge : dataInputsTaken (dataInputsTaken s.ctx 1) ids.length =
          dataInputsTaken s.ctx (ids.length + 1) := by
        have counts : s.ctx.dataInputsCount - UInt16.ofNat 1 - UInt16.ofNat ids.length =
            s.ctx.dataInputsCount - (UInt16.ofNat ids.length + UInt16.ofNat 1) := by grind
        simp only [dataInputsTaken, UInt16.ofNat_add, counts]
      have step : ∀ m, takeDataInput id s = .ok () m ↔ s.ctx.dataInputsCount ≠ 0 ∧
          ∃ k, s.mem.Ran 1 k ∧ ⟨dataInputsTaken s.ctx 1, s.hash ++ id.val, k⟩ = m := by
        intro m
        simp only [takeDataInput, getCtx_bind, require_bind_ok]
        simp only [bind_ok, exists_unit, hashUpdate_ok, modifyCtx_ok, sdkCall_ok_iff]
        refine and_congr_right fun _ => ?_
        constructor
        · rintro ⟨_, ⟨k, hk, rfl⟩, rfl⟩
          exact ⟨k, hk, rfl⟩
        · rintro ⟨k, hk, rfl⟩
          exact ⟨_, ⟨k, hk, rfl⟩, rfl⟩
      simp only [runAll_cons_ok, exists_unit, step, ih, List.length_cons, Nat.add_comm _ 1,
        Mem.ran_add]
      constructor
      · rintro ⟨_, ⟨more, m, hm, rfl⟩, room, n, hn, rfl⟩
        have positive := Counter.toNat_pos16.mp more
        rw [dataInputsTaken, Counter.toNat_sub_ofNat16 (by omega)] at room
        exact ⟨by omega, n, ⟨m, hm, hn⟩, by simp [merge, Nat.add_comm, TxSerTable.idBytes]⟩
      · rintro ⟨room, n, ⟨m, hm, hn⟩, rfl⟩
        have more : s.ctx.dataInputsCount ≠ 0 := by
          rintro zero
          simp [zero] at room
        refine ⟨_, ⟨more, m, hm, rfl⟩, ?_, n, hn, by simp [merge, Nat.add_comm, TxSerTable.idBytes]⟩
        rw [dataInputsTaken, Counter.toNat_sub_ofNat16 (by omega)]
        omega

omit [UnionLayout σ] in
/-- The loop over the data inputs. -/
theorem readDataInputs_ok {inputs : Buffer} :
    whileData readDataInput inputs.length inputs s = .ok u t ↔
      ∃ ids, inputs = TxSerTable.idBytes ids ∧ ids.length ≤ s.ctx.dataInputsCount.toNat ∧
      ∃ m, s.mem.Ran ids.length m ∧
        ⟨dataInputsTaken s.ctx ids.length, s.hash ++ TxSerTable.idBytes ids, m⟩ = t := by
  have items := @whileData_ok FullErr (SerState (FullCtx σ) σ) ErgoId UInt8 readDataInput
    Subtype.val takeDataInput (fun id => List.ne_nil_of_length_pos (by simp))
    (fun _ _ _ _ => readDataInput_ok)
  simp only [items le_rfl, takeDataInputs_ok]
  rfl

omit [UnionLayout σ] in
theorem addDataInputs_ok {inputs : Buffer} :
    addDataInputs inputs s = .ok r t ↔
      s.ctx.state = .dataInputsStarted ∧
      ∃ ids, inputs = TxSerTable.idBytes ids ∧ ids.length ≤ s.ctx.dataInputsCount.toNat ∧
      ∃ m, s.mem.Ran ids.length m ∧
        (if ids.length = s.ctx.dataInputsCount.toNat then
          ∃ n, m.Ran (headerEndCalls s.ctx) n ∧ .ok = r ∧
            ⟨{ dataInputsTaken s.ctx ids.length with state := .outputsStarted },
              s.hash ++ TxSerTable.idBytes ids ++ headerEnd s.ctx s.mem.table, n⟩ = t
        else .moreData = r ∧
          ⟨dataInputsTaken s.ctx ids.length, s.hash ++ TxSerTable.idBytes ids, m⟩ = t) := by
  have empty : ∀ ids : List ErgoId, ids.length ≤ s.ctx.dataInputsCount.toNat →
      ((dataInputsTaken s.ctx ids.length).dataInputsCount = 0 ↔
        ids.length = s.ctx.dataInputsCount.toNat) := by
    intro ids room
    rw [← UInt16.toNat_inj, dataInputsTaken, Counter.toNat_sub_ofNat16 room, UInt16.toNat_zero]
    omega
  have headerEnds : ∀ {k : Nat} {m : Mem σ} {bytes : List UInt8} {len : Nat}, s.mem.Ran k m →
      ((do dataInputsFinished; return .ok : FullM σ Progress)
        ⟨dataInputsTaken s.ctx len, bytes, m⟩ = .ok r t ↔
        ∃ n, m.Ran (headerEndCalls s.ctx) n ∧ .ok = r ∧
          ⟨{ dataInputsTaken s.ctx len with state := .outputsStarted },
            bytes ++ headerEnd s.ctx s.mem.table, n⟩ = t) := by
    intro k m bytes len ran
    simp only [bind_ok, exists_unit, dataInputsFinished_ok, pure_ok, ← ran.table]
    constructor
    · rintro ⟨_, ⟨n, hn, rfl⟩, rfl, rfl⟩
      exact ⟨n, hn, rfl, rfl⟩
    · rintro ⟨n, hn, rfl, rfl⟩
      exact ⟨_, ⟨n, hn, rfl⟩, rfl, rfl⟩
  simp only [addDataInputs, checkProperState_bind_ok]
  refine and_congr_right fun _ => ?_
  simp only [bind_ok (x := whileData _ _ _), exists_unit, readDataInputs_ok, getCtx_bind]
  constructor
  · rintro ⟨_, ⟨ids, rfl, room, m, hm, rfl⟩, rest⟩
    refine ⟨ids, rfl, room, m, hm, ?_⟩
    by_cases all : ids.length = s.ctx.dataInputsCount.toNat
    · rw [if_pos ((empty ids room).mpr all)] at rest
      rw [if_pos all]
      exact (headerEnds hm).mp rest
    · rw [if_neg (mt (empty ids room).mp all)] at rest
      rw [if_neg all]
      exact pure_ok.mp rest
  · rintro ⟨ids, rfl, room, m, hm, rest⟩
    refine ⟨_, ⟨ids, rfl, room, m, hm, rfl⟩, ?_⟩
    by_cases all : ids.length = s.ctx.dataInputsCount.toNat
    · rw [if_pos ((empty ids room).mpr all)]
      rw [if_pos all] at rest
      exact (headerEnds hm).mpr rest
    · rw [if_neg (mt (empty ids room).mp all)]
      rw [if_neg all] at rest
      exact pure_ok.mpr rest

theorem addBox_ok {value : UInt64} {treeSize height : UInt32} {tokensCount : UInt8}
    {registersSize : UInt32} :
    addBox value treeSize height tokensCount registersSize s = .ok u t ↔
      s.ctx.state = .outputsStarted ∧ s.ctx.outputsCount ≠ 0 ∧
      (tokensCount.toNat ≤ tokenMaxCount ∧ treeSize ≤ maxTxDataPartLen ∧
        registersSize ≤ maxTxDataPartLen) ∧
      ∃ m, s.mem.Ran 1 m ∧
        ⟨s.ctx.setBoxCtx (TxSerBox.started value treeSize height tokensCount registersSize),
          s.hash ++ vlq value.toNat, m⟩ = t := by
  simp only [addBox, checkProperState_bind_ok, getCtx_bind, require_bind_ok]
  simp only [callBox, callPart_ok, TxSerBox.init_ok, sdkCall_ok_iff]
  refine and_congr_right fun _ => and_congr_right fun _ => ?_
  constructor
  · rintro ⟨_, ⟨sizes, m, hm, rfl⟩, rfl⟩
    exact ⟨sizes, m, hm, rfl⟩
  · rintro ⟨sizes, m, hm, rfl⟩
    exact ⟨_, ⟨sizes, m, hm, rfl⟩, rfl⟩

/-- The context after a box is complete. -/
def outputEnd (ctx : FullCtx σ) : FullCtx σ :=
  { ctx with
    outputsCount := ctx.outputsCount - 1
    state := if ctx.outputsCount - 1 = 0 then .finished else ctx.state }

omit [UnionLayout σ] in
theorem outputFinished_ok :
    outputFinished s = .ok u t ↔ { s with ctx := outputEnd s.ctx } = t :=
  modifyCtx_ok

/-- The state after a call of the box serializer: a complete box ends its turn. -/
def afterBox (ctx : FullCtx σ) (v : SerState (BoxCtx σ) σ) : SerState (FullCtx σ) σ :=
  let next := ctx.setBoxCtx v.ctx
  ⟨if v.ctx.state = .finished then outputEnd next else next, v.hash, v.mem⟩

omit [UnionLayout σ] in
private theorem boxTail_ok {ctx : FullCtx σ} {v : SerState (BoxCtx σ) σ} {res : Progress}
    {c : Prop} [Decidable c] (finished : c ↔ v.ctx.state = .finished) :
    (do if c then outputFinished
        return res : FullM σ Progress) ⟨ctx.setBoxCtx v.ctx, v.hash, v.mem⟩ = .ok r t ↔
      res = r ∧ afterBox ctx v = t := by
  by_cases done : v.ctx.state = .finished
  · simp [finished.mpr done, outputFinished_ok, afterBox, done, and_comm]
  · simp [finished, done, afterBox]

theorem addBoxErgoTree_ok {chunk : Buffer} :
    addBoxErgoTree chunk s = .ok r t ↔
      s.ctx.state = .outputsStarted ∧
      ∃ v, TxSerBox.addTree chunk { s with ctx := s.ctx.boxCtx } = .ok r v ∧
        afterBox s.ctx v = t := by
  have tail : ∀ res v, TxSerBox.addTree chunk { s with ctx := s.ctx.boxCtx } = .ok res v →
      ((res = .ok ∧ TxSerBox.isFinished v.ctx = true) ↔ v.ctx.state = .finished) := by
    intro res v call
    obtain ⟨⟨state, -⟩, m, -, rfl, rfl⟩ := TxSerBox.addTree_ok.mp call
    by_cases last : TxSerBox.LastChunk s.ctx.boxCtx chunk.length
    · simp [last, TxSerBox.isFinished]
    · have state : s.ctx.boxCtx.state = .initialized := state
      simp [TxSerBox.treeChunkDone, last, state]
  simp only [addBoxErgoTree, checkProperState_bind_ok, callBox]
  refine and_congr_right fun _ => ?_
  simp only [bind_ok (x := callPart _ _ _ _), callPart_ok, getCtx_bind]
  constructor
  · rintro ⟨res, _, ⟨v, call, rfl⟩, rest⟩
    obtain ⟨rfl, ends⟩ := (boxTail_ok (tail res v call)).mp rest
    exact ⟨v, call, ends⟩
  · rintro ⟨v, call, ends⟩
    exact ⟨r, _, ⟨v, call, rfl⟩, (boxTail_ok (tail r v call)).mpr ⟨rfl, ends⟩⟩

theorem addBoxTokens_ok {tokens : Buffer} :
    addBoxTokens tokens s = .ok r t ↔
      s.ctx.state = .outputsStarted ∧
      ∃ v, TxSerBox.addTokens tokens (some s.ctx.tableCtx) { s with ctx := s.ctx.boxCtx } = .ok r v ∧
        afterBox s.ctx v = t := by
  have tail : ∀ res v, TxSerBox.addTokens tokens (some s.ctx.tableCtx)
      { s with ctx := s.ctx.boxCtx } = .ok res v →
      ((res = .ok ∧ TxSerBox.isFinished v.ctx = true) ↔ v.ctx.state = .finished) := by
    intro res v call
    obtain ⟨-, entries, -, -, -, m, -, rfl, rfl⟩ := TxSerBox.addTokens_ok.mp call
    by_cases last : (TxSerBox.tokensTaken s.ctx.boxCtx entries.length).tokensCount = 0
    · simp [last, TxSerBox.isFinished]
    · simp [TxSerBox.treeDone, TxSerBox.nextState, last]
  simp only [addBoxTokens, checkProperState_bind_ok, callBox, getCtx_bind]
  refine and_congr_right fun _ => ?_
  simp only [bind_ok (x := callPart _ _ _ _), callPart_ok, getCtx_bind]
  constructor
  · rintro ⟨res, _, ⟨v, call, rfl⟩, rest⟩
    obtain ⟨rfl, ends⟩ := (boxTail_ok (tail res v call)).mp rest
    exact ⟨v, call, ends⟩
  · rintro ⟨v, call, ends⟩
    exact ⟨r, _, ⟨v, call, rfl⟩, (boxTail_ok (tail r v call)).mpr ⟨rfl, ends⟩⟩

theorem addBoxRegisters_ok {chunk : Buffer} :
    addBoxRegisters chunk s = .ok r t ↔
      s.ctx.state = .outputsStarted ∧
      ∃ v, TxSerBox.addRegisters chunk { s with ctx := s.ctx.boxCtx } = .ok r v ∧
        afterBox s.ctx v = t := by
  have tail : ∀ res v, TxSerBox.addRegisters chunk { s with ctx := s.ctx.boxCtx } = .ok res v →
      (res = .ok ↔ v.ctx.state = .finished) := by
    intro res v call
    obtain ⟨state, -, m, -, rfl, rfl⟩ := TxSerBox.addRegisters_ok.mp call
    have state : s.ctx.boxCtx.state = .tokensAdded := state
    by_cases last : TxSerBox.LastRegisters s.ctx.boxCtx chunk.length <;>
      simp [last, TxSerBox.registersDone, state]
  simp only [addBoxRegisters, checkProperState_bind_ok, callBox]
  refine and_congr_right fun _ => ?_
  simp only [bind_ok (x := callPart _ _ _ _), callPart_ok]
  constructor
  · rintro ⟨res, _, ⟨v, call, rfl⟩, rest⟩
    obtain ⟨rfl, ends⟩ := (boxTail_ok (tail res v call)).mp rest
    exact ⟨v, call, ends⟩
  · rintro ⟨v, call, ends⟩
    exact ⟨r, _, ⟨v, call, rfl⟩, (boxTail_ok (tail r v call)).mpr ⟨rfl, ends⟩⟩

/-- The two calls that add a whole tree. -/
theorem addBoxWholeTree_ok {type : BoxType} {tree : List UInt8} :
    (do checkProperState .outputsStarted
        callBox (TxSerBox.addWholeTree type tree)
        let ctx ← getCtx
        if TxSerBox.isFinished ctx.boxCtx then outputFinished : FullM σ Unit) s = .ok u t ↔
      s.ctx.state = .outputsStarted ∧
      ∃ v, TxSerBox.addWholeTree type tree { s with ctx := s.ctx.boxCtx } = .ok () v ∧
        afterBox s.ctx v = t := by
  simp only [checkProperState_bind_ok, callBox]
  refine and_congr_right fun _ => ?_
  simp only [bind_ok (x := callPart _ _ _ _), callPart_ok, getCtx_bind, exists_unit]
  have tail : ∀ v : SerState (BoxCtx σ) σ,
      (if TxSerBox.isFinished v.ctx then outputFinished else pure () : FullM σ Unit)
        ⟨s.ctx.setBoxCtx v.ctx, v.hash, v.mem⟩ = .ok u t ↔ afterBox s.ctx v = t := by
    intro v
    by_cases done : v.ctx.state = .finished <;>
      simp [TxSerBox.isFinished, done, outputFinished_ok, afterBox]
  constructor
  · rintro ⟨_, ⟨v, call, rfl⟩, rest⟩
    exact ⟨v, call, (tail v).mp rest⟩
  · rintro ⟨v, call, ends⟩
    exact ⟨_, ⟨v, call, rfl⟩, (tail v).mpr ends⟩

end Calls

/-- A call without an answer of its own. -/
theorem plain_ok {σ : Type} {call : FullM σ Unit} {s t : SerState (FullCtx σ) σ} {r : Progress} :
    FullCall.plain call s = .ok r t ↔ call s = .ok () t ∧ .ok = r := by
  simp only [FullCall.plain, bind_ok, exists_unit, pure_ok]
  constructor
  · rintro ⟨_, ran, rfl, rfl⟩
    exact ⟨ran, rfl⟩
  · rintro ⟨ran, rfl⟩
    exact ⟨t, ran, rfl, rfl⟩

end LedgerErgo.Ergo.TxSerFull
