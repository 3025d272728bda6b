import LedgerErgo.Ergo.Transaction
import LedgerErgo.Ergo.TxSerFullCalls
import LedgerErgo.Lib.Pieces

/-! # Delivering an input

While no SDK call fails and the callback accepts what it is shown, the input serializer takes the token
frames of an input in order and then its context extension in any pieces. It is finished
with the last of these and has hashed the input with an empty proof.
-/

namespace LedgerErgo.Ergo

open LedgerErgo.Common LedgerErgo.Prog TxSerInput

variable {σ : Type}

/-- A call about the input that was started. -/
inductive InputCall where
  | frame (boxId : ErgoId) (index : UInt8) (tokens : Buffer)
  | extension (chunk : Buffer)

namespace InputCall

/-- The call of the input serializer. -/
def run : InputCall → EStateM InputErr (SerState (InputCtx σ) σ) Progress
  | .frame boxId index tokens => addTokens boxId index tokens
  | .extension chunk => addContextExtension chunk

/-- The call of the full serializer. -/
def full : InputCall → FullCall σ
  | .frame boxId index tokens => .addInputTokens boxId index tokens
  | .extension chunk => .addInputContextExtension chunk

/-- A finished input takes nothing more. -/
theorem state_of_run {call : InputCall} {s t : SerState (InputCtx σ) σ} {r : Progress}
    (ok : call.run s = .ok r t) : s.ctx.state ≠ .finished := by
  cases call with
  | frame => simp [(addTokens_ok.mp ok).1.1]
  | extension => simp [(addContextExtension_ok.mp ok).1]

variable [UnionLayout σ]

/-- A call that succeeds on the input succeeds in the transaction if the SDK calls after it do. -/
theorem run_full {ctx : FullCtx σ} {call : InputCall} {v w : SerState (InputCtx σ) σ}
    {r : Progress} {m : Mem σ} (state : ctx.state = .inputsStarted) (ok : call.run v = .ok r w)
    (ran : w.mem.Ran (TxSerFull.afterInputCalls ctx w.ctx) m) :
    call.full.run ⟨ctx.setInputCtx v.ctx, v.hash, v.mem⟩ = .ok r (TxSerFull.afterInput ctx w m) := by
  cases call with
  | frame => exact TxSerFull.addInputTokens_ok.mpr ⟨state, w, ok, m, ran, rfl⟩
  | extension => exact TxSerFull.addInputContextExtension_ok.mpr ⟨state, w, ok, m, ran, rfl⟩

/-- So do several, since the input is not finished before the last one. -/
theorem runAll_full {ctx : FullCtx σ} {calls : List InputCall} {v w : SerState (InputCtx σ) σ}
    {m : Mem σ} (state : ctx.state = .inputsStarted) (some : calls ≠ [])
    (ok : runAll run calls v = .ok () w)
    (ran : w.mem.Ran (TxSerFull.afterInputCalls ctx w.ctx) m) :
    runAll FullCall.run (calls.map full) ⟨ctx.setInputCtx v.ctx, v.hash, v.mem⟩ =
      .ok () (TxSerFull.afterInput ctx w m) := by
  induction calls generalizing v with
  | nil => exact (some rfl).elim
  | cons call calls ih =>
      obtain ⟨r, u, first, rest⟩ := runAll_cons_ok.mp ok
      cases calls with
      | nil =>
          obtain rfl := runAll_nil_ok.mp rest
          exact runAll_cons_ok.mpr ⟨r, _, run_full state first ran, runAll_nil_ok.mpr rfl⟩
      | cons next calls =>
          obtain ⟨_, _, second, _⟩ := runAll_cons_ok.mp rest
          have more := state_of_run second
          have none : u.mem.Ran (TxSerFull.afterInputCalls ctx u.ctx) u.mem := by
            rw [TxSerFull.afterInputCalls, if_neg more]
            rfl
          have same : TxSerFull.afterInput ctx u u.mem = ⟨ctx.setInputCtx u.ctx, u.hash, u.mem⟩ := by
            rw [TxSerFull.afterInput, if_neg more]
          refine runAll_cons_ok.mpr ⟨r, _, run_full state first none, ?_⟩
          rw [same]
          exact ih (by simp) rest

end InputCall

/-- How an input is sent. -/
structure InputDelivery (σ : Type) where
  callback : Option (InputTokenCb σ)
  frames : List (List InputToken)
  extension : List (List UInt8)

namespace InputDelivery

/-- The delivery is one of this input. -/
structure Carries (delivery : InputDelivery σ) (input : Input) : Prop where
  someFrame : delivery.frames ≠ []
  fewFrames : delivery.frames.length ≤ 255
  extension : Pieces input.extension delivery.extension

/-- The calls for the frames from `index` on. -/
def frameParts (boxId : ErgoId) : Nat → List (List InputToken) → List InputCall
  | _, [] => []
  | index, frame :: frames =>
      .frame boxId (UInt8.ofNat index) (frame.flatMap InputToken.bytes) ::
        frameParts boxId (index + 1) frames

/-- The calls that send the parts of the input. -/
def parts (delivery : InputDelivery σ) (input : Input) : List InputCall :=
  frameParts input.boxId 0 delivery.frames ++ delivery.extension.map .extension

/-- The calls that send the input. -/
def calls (delivery : InputDelivery σ) (input : Input) : List (FullCall σ) :=
  .addInput input.boxId (UInt8.ofNat delivery.frames.length)
      (UInt32.ofNat input.extension.length) ::
    (delivery.callback.map fun callback => FullCall.setInputCallback (some callback)).toList ++
      (delivery.parts input).map InputCall.full

/-- What a callback is shown: the tokens of all frames, with the id of the input. -/
def tokensShown (callback : Option (InputTokenCb σ)) (boxId : ErgoId) (frames : List (List InputToken)) :
    List (Showing σ) :=
  frames.flatMap fun frame => frame.map fun token => shows callback (boxId, token)

/-- What the callback is shown. -/
def shown (delivery : InputDelivery σ) (input : Input) : List (Showing σ) :=
  tokensShown delivery.callback input.boxId delivery.frames

/-- These frames are missing, `index` is the next one. -/
structure FramesStage (v : SerState (InputCtx σ) σ) (input : Input) (frames : List (List InputToken))
    (index count : Nat) (bytes : List UInt8) (table : TokenTable) (later : List (Showing σ)) :
    Prop where
  state : v.ctx.state = .framesStarted
  welcomes : Welcomes (tokensShown v.ctx.onTokenCb input.boxId frames ++ later) v.mem
  boxId : v.ctx.boxId = input.boxId
  processed : v.ctx.framesProcessed = UInt8.ofNat index
  frames : v.ctx.framesCount = UInt8.ofNat count
  size : v.ctx.contextExtensionDataSize = UInt32.ofNat input.extension.length
  bytes : v.hash = bytes
  quiet : v.mem.Quiet
  grown : v.mem.table.Extends table

/-- The frames are there: so many bytes of the extension are missing. -/
structure ExtensionStage (v : SerState (InputCtx σ) σ) (missing : Nat) (bytes : List UInt8)
    (table : TokenTable) (later : List (Showing σ)) : Prop where
  state : v.ctx.state = if missing = 0 then .finished else .extensionStarted
  size : v.ctx.contextExtensionDataSize.toNat = missing
  bytes : v.hash = bytes
  quiet : v.mem.Quiet
  grown : v.mem.table.Extends table
  welcomes : Welcomes later v.mem

variable {v : SerState (InputCtx σ) σ} {input : Input} {bytes : List UInt8} {table : TokenTable}
  {later : List (Showing σ)}

/-- One frame, in its turn. -/
private theorem addTokens_ok_of_stage {index count : Nat} (frame : List InputToken)
    {frames : List (List InputToken)} (within : index < count) (few : count ≤ 255)
    (stage : FramesStage v input (frame :: frames) index count bytes table later) :
    ∃ r m, (InputCall.frame input.boxId (UInt8.ofNat index)
        (frame.flatMap InputToken.bytes)).run v =
          .ok r ⟨frameDone v.ctx, v.hash ++ frameBytes v.ctx, m⟩ ∧ m.Quiet ∧
      m.table.Extends table ∧ Welcomes (tokensShown v.ctx.onTokenCb input.boxId frames ++ later) m := by
  have shown : Goes (frame.map fun token => shows v.ctx.onTokenCb (v.ctx.boxId, token))
      (runAll (tokenCallback v.ctx) frame) := .runAll (fun token => .invoke _ _) frame
  have appends : Appends (runAll (tokenCallback v.ctx) frame) :=
    .runAll (fun token => .invoke _ _) frame
  have welcomes := stage.welcomes
  rw [tokensShown, List.flatMap_cons, List.append_assoc, ← stage.boxId] at welcomes
  obtain ⟨m, callbacks, quiet, welcomes'⟩ := shown _ v.mem stage.quiet welcomes
  obtain ⟨n, calls, quiet', same, cb⟩ := sdkCalls_quiet InputErr.hasher (frameCalls v.ctx) quiet
  have inside : UInt8.ofNat index < v.ctx.framesCount := by
    rw [stage.frames, UInt8.lt_iff_toNat_lt, UInt8.toNat_ofNat_of_lt' (by simp only [UInt8.size]; omega),
      UInt8.toNat_ofNat_of_lt' (by simp only [UInt8.size]; omega)]
    exact within
  refine ⟨_, n, addTokens_ok.mpr ⟨⟨stage.state, stage.boxId, inside, stage.processed.symm⟩, frame,
    rfl, m, callbacks, n, calls, rfl, rfl⟩, quiet', ?_, ?_⟩
  · rw [same]
    exact (appends _ _ _ callbacks).trans stage.grown
  · rw [tokensShown, ← stage.boxId]
    exact welcomes'.congr same cb

theorem frames_delivered {frames : List (List InputToken)} {index count : Nat}
    (some : frames ≠ []) (last : index + frames.length = count) (few : count ≤ 255)
    (short : input.extension.length < 2 ^ 32)
    (stage : FramesStage v input frames index count bytes table later) :
    ∃ w, runAll InputCall.run (frameParts input.boxId index frames) v = .ok () w ∧
      ExtensionStage w input.extension.length
        (bytes ++ (input.boxId.val ++ [0]) ++ if input.extension = [] then [0] else []) table
        later := by
  induction frames generalizing v index with
  | nil => exact (some rfl).elim
  | cons frame frames ih =>
      rw [List.length_cons] at last
      obtain ⟨r, m, ran, quiet, grown, welcomes⟩ := addTokens_ok_of_stage frame (by omega) few stage
      have next : v.ctx.framesProcessed + 1 = UInt8.ofNat (index + 1) := by
        rw [stage.processed, UInt8.ofNat_add]
        rfl
      have turn : LastFrame v.ctx ↔ frames = [] := by
        rw [LastFrame, next, stage.frames, ← UInt8.toNat_inj,
          UInt8.toNat_ofNat_of_lt' (by simp only [UInt8.size]; omega),
          UInt8.toNat_ofNat_of_lt' (by simp only [UInt8.size]; omega), ← List.length_eq_zero_iff]
        omega
      have empty : v.ctx.contextExtensionDataSize = 0 ↔ input.extension = [] := by
        rw [stage.size, ← UInt32.toNat_inj, UInt32.toNat_ofNat_of_lt' short, UInt32.toNat_zero,
          List.length_eq_zero_iff]
      by_cases final : frames = []
      · subst final
        refine ⟨_, runAll_cons_ok.mpr ⟨r, _, ran, runAll_nil_ok.mpr rfl⟩, ?_, ?_, ?_, quiet, grown, welcomes⟩
        · simp only [frameDone, if_pos (turn.mpr rfl), empty, List.length_eq_zero_iff]
        · rw [frameDone, stage.size]
          exact UInt32.toNat_ofNat_of_lt' short
        · simp only [frameBytes, if_pos (turn.mpr rfl), empty, stage.boxId, stage.bytes,
            List.append_assoc]
      · have notLast := mt turn.mp final
        have stage' : FramesStage ⟨frameDone v.ctx, v.hash ++ frameBytes v.ctx, m⟩ input frames
            (index + 1) count bytes table later := by
          refine ⟨?_, welcomes, stage.boxId, next, stage.frames, stage.size, ?_, quiet, grown⟩
          · simp only [frameDone, if_neg notLast]
          · rw [frameBytes, if_neg notLast, stage.bytes, List.append_nil]
        obtain ⟨w, others, done⟩ := ih final (by omega) stage'
        exact ⟨w, runAll_cons_ok.mpr ⟨r, _, ran, others⟩, done⟩

theorem extension_delivered {pieces : List (List UInt8)}
    (stage : ExtensionStage v input.extension.length
      (bytes ++ if input.extension = [] then [0] else []) table later)
    (split : Pieces input.extension pieces) :
    ∃ w, runAll InputCall.run (pieces.map .extension) v = .ok () w ∧
      ExtensionStage w 0 (bytes ++ blobBytes input.extension) table later := by
  rw [runAll_map]
  by_cases none : input.extension = []
  · rw [none] at split stage
    obtain rfl := split.eq_nil
    exact ⟨v, rfl, by simpa [none, blobBytes] using stage⟩
  · have positive := List.length_pos_iff.mpr none
    let during (sent : List UInt8) (u : SerState (InputCtx σ) σ) : Prop :=
      u.ctx.state = .extensionStarted ∧
        u.ctx.contextExtensionDataSize.toNat + sent.length = input.extension.length ∧
        u.hash = bytes ++ sent ∧ u.mem.Quiet ∧ u.mem.table.Extends table ∧ Welcomes later u.mem
    have start : during [] v := by
      refine ⟨?_, stage.size, ?_, stage.quiet, stage.grown, stage.welcomes⟩
      · rw [stage.state, if_neg (by omega)]
      · rw [stage.bytes, if_neg none]
    refine Pieces.runAll during ?_ ?_ split none start
    · rintro sent piece rest u ⟨state, left, hash, quiet, grown, welcomes⟩ more all
      have lengths := congrArg List.length all
      have some := List.length_pos_iff.mpr more
      simp only [List.length_append] at lengths
      have room : piece.length ≤ u.ctx.contextExtensionDataSize.toNat := by omega
      obtain ⟨m, call, quiet', same, cb⟩ := sdkCall_quiet InputErr.hasher quiet
      refine ⟨_, _, addContextExtension_ok.mpr ⟨state, room, m, call, rfl, rfl⟩, ?_, ?_, ?_, quiet',
        same ▸ grown, welcomes.congr same cb⟩
      · simp only [extensionDone, if_neg (show ¬ u.ctx.contextExtensionDataSize.toNat = piece.length by
          omega)]
      · simp only [extensionDone, Counter.toNat_sub_ofNat32 room, List.length_append]
        omega
      · simp [hash]
    · rintro sent piece u ⟨state, left, hash, quiet, grown, welcomes⟩ - all
      have lengths := congrArg List.length all
      simp only [List.length_append] at lengths
      have room : piece.length ≤ u.ctx.contextExtensionDataSize.toNat := by omega
      obtain ⟨m, call, quiet', same, cb⟩ := sdkCall_quiet InputErr.hasher quiet
      refine ⟨_, _, addContextExtension_ok.mpr ⟨state, room, m, call, rfl, rfl⟩, ?_, ?_, ?_, quiet',
        same ▸ grown, welcomes.congr same cb⟩
      · simp only [extensionDone, if_pos (show u.ctx.contextExtensionDataSize.toNat = piece.length by
          omega), if_true]
      · simp only [extensionDone, Counter.toNat_sub_ofNat32 room]
        omega
      · rw [hash, blobBytes, if_neg none, ← all, List.append_assoc]

/-- The parts of an input that was started arrive. -/
theorem parts_delivered {delivery : InputDelivery σ} (carries : delivery.Carries input)
    (short : input.extension.length < 2 ^ 32)
    (stage : FramesStage v input delivery.frames 0 delivery.frames.length bytes table later) :
    ∃ w, runAll InputCall.run (delivery.parts input) v = .ok () w ∧
      ExtensionStage w 0 (bytes ++ input.encode) table later := by
  obtain ⟨u, frames, extensionMissing⟩ :=
    frames_delivered carries.someFrame (Nat.zero_add _) carries.fewFrames short stage
  obtain ⟨w, extension, done⟩ := extension_delivered extensionMissing carries.extension
  refine ⟨w, runAll_append_ok.mpr ⟨u, frames, extension⟩, ?_⟩
  simpa only [Input.encode, List.append_assoc] using done

/-- The context extension respects the limits that the code checks. -/
structure Sendable (input : Input) : Prop where
  notOne : input.extension.length ≠ 1
  extension : input.extension.length ≤ maxTxDataPartLen.toNat

/-- The context of the input serializer after the first call. -/
def begun (delivery : InputDelivery σ) (input : Input) : InputCtx σ :=
  started input.boxId (UInt8.ofNat delivery.frames.length) (UInt32.ofNat input.extension.length)

/-- An input arrives when inputs are expected. -/
theorem delivered [UnionLayout σ] {delivery : InputDelivery σ} {s : SerState (FullCtx σ) σ}
    (carries : delivery.Carries input) (sendable : Sendable input)
    (state : s.ctx.state = .inputsStarted) (ready : s.ctx.inputCtx.state = .finished)
    (more : s.ctx.inputsCount ≠ 0) (quiet : s.mem.Quiet)
    (welcomes : Welcomes (delivery.shown input ++ later) s.mem) :
    ∃ input' m, runAll FullCall.run (delivery.calls input) s =
        .ok () ⟨TxSerFull.inputEnd (s.ctx.setInputCtx input'),
          s.hash ++ input.encode ++
            TxSerFull.inputEndBytes (s.ctx.setInputCtx input') m.table, m⟩ ∧
      input'.state = .finished ∧ m.Quiet ∧ m.table.Extends s.mem.table ∧ Welcomes later m := by
  have short : input.extension.length < 2 ^ 32 :=
    Nat.lt_of_le_of_lt sendable.extension (by decide)
  have size : (UInt32.ofNat input.extension.length).toNat = input.extension.length :=
    UInt32.toNat_ofNat_of_lt' short
  have begins : FullCall.run (.addInput input.boxId (UInt8.ofNat delivery.frames.length)
      (UInt32.ofNat input.extension.length)) s =
      .ok .ok { s with ctx := s.ctx.setInputCtx (delivery.begun input) } := by
    refine TxSerFull.plain_ok.mpr ⟨TxSerFull.addInput_ok.mpr ⟨state, ready, more, ⟨?_, ?_⟩, rfl⟩, rfl⟩
    · intro one
      rw [one] at size
      exact sendable.notOne size.symm
    · rw [UInt32.le_iff_toNat_le, size]
      exact sendable.extension
  obtain ⟨input', same, told⟩ : ∃ input' : InputCtx σ,
      input' = { delivery.begun input with onTokenCb := delivery.callback } ∧
      runAll FullCall.run
        (delivery.callback.map fun callback => FullCall.setInputCallback (some callback)).toList
        { s with ctx := s.ctx.setInputCtx (delivery.begun input) } =
        .ok () { s with ctx := s.ctx.setInputCtx input' } := by
    cases h : delivery.callback with
    | none => exact ⟨_, rfl, rfl⟩
    | some callback =>
        refine ⟨_, rfl, runAll_cons_ok.mpr ⟨.ok, _, TxSerFull.plain_ok.mpr
          ⟨TxSerFull.checkProperState_bind_ok.mpr ⟨state, modifyCtx_ok.mpr rfl⟩, rfl⟩, ?_⟩⟩
        exact runAll_nil_ok.mpr rfl
  have stage : FramesStage ⟨input', s.hash, s.mem⟩ input delivery.frames 0 delivery.frames.length
      s.hash s.mem.table later := by
    subst same
    exact ⟨rfl, welcomes, rfl, rfl, rfl, rfl, rfl, quiet, .refl _⟩
  obtain ⟨w, parts, done⟩ := parts_delivered carries short stage
  have finished : w.ctx.state = .finished := by simpa using done.state
  obtain ⟨m, ran, quiet', table⟩ := done.quiet.ran (TxSerFull.afterInputCalls s.ctx w.ctx)
  have some : delivery.parts input ≠ [] := by
    cases h : delivery.frames with
    | nil => exact (carries.someFrame h).elim
    | cons frame frames => simp [InputDelivery.parts, h, frameParts]
  refine ⟨w.ctx, m, ?_, finished, quiet', by rw [table]; exact done.grown, done.welcomes.ran ran⟩
  refine runAll_cons_ok.mpr ⟨.ok, _, begins, runAll_append_ok.mpr ⟨_, told, ?_⟩⟩
  have all := InputCall.runAll_full state some parts ran
  rw [all, TxSerFull.afterInput, if_pos finished, done.bytes, table]

end InputDelivery

end LedgerErgo.Ergo
