import LedgerErgo.Commands.SignTx.CallStates

/-! # The inputs of a transaction

An input is sent frame by frame, and the next one is not accepted before its last frame. So in a
session whose inputs were all sent, the calls about inputs are those of complete inputs, one input
after the other.
-/

namespace LedgerErgo.SignTx

open LedgerErgo.Common LedgerErgo.Ergo LedgerErgo.Prog

/-- An input as it was sent: the box it spends and the tokens of the box, frame by frame. -/
structure SentInput where
  boxId : ErgoId
  value : UInt64
  framesCount : UInt8
  extensionLength : UInt32
  frames : List Buffer

namespace SentInput

/-- All frames were sent. -/
def Complete (input : SentInput) : Prop := input.frames.length = input.framesCount.toNat

/-- The tokens of the input. -/
def tokens (input : SentInput) : List InputToken := input.frames.flatMap readTokens

/-- One more frame. -/
def addFrame (data : Buffer) (input : SentInput) : SentInput :=
  { input with frames := input.frames ++ [data] }

/-- The call for the frame with an index. -/
def frameCall (boxId : ErgoId) (index : Nat) (data : Buffer) : OpCall :=
  .addInputTokens boxId (UInt8.ofNat index) data

/-- The calls that send the input. -/
def calls (input : SentInput) : List OpCall :=
  .addInput input.boxId input.value input.framesCount input.extensionLength ::
    input.frames.mapIdx (frameCall input.boxId)

theorem calls_addFrame (input : SentInput) (data : Buffer) :
    (input.addFrame data).calls =
      input.calls ++ [frameCall input.boxId input.frames.length data] := by
  simp [calls, addFrame]

end SentInput

/-- The call is about the contents of an input. -/
def OpCall.isInput : OpCall → Bool
  | .addInput .. | .addInputTokens .. => true
  | .startTx .. | .addTokens _ | .addInputContextExtension _ | .addDataInputs _ | .output _ => false

/-- What a call adds to the inputs: a frame is one of the last input. -/
def OpCall.recordInput (inputs : List SentInput) : OpCall → List SentInput
  | .addInput boxId value framesCount extensionLength =>
      inputs ++ [⟨boxId, value, framesCount, extensionLength, []⟩]
  | .addInputTokens _ _ data => inputs.modifyLast (SentInput.addFrame data)
  | .startTx .. | .addTokens _ | .addInputContextExtension _ | .addDataInputs _ | .output _ => inputs

/-- The inputs that the calls send. -/
def sentInputs (calls : List OpCall) : List SentInput := calls.foldl OpCall.recordInput []

theorem sentInputs_concat (calls : List OpCall) (call : OpCall) :
    sentInputs (calls ++ [call]) = call.recordInput (sentInputs calls) := by
  simp [sentInputs]

theorem sentInputs_other {call : OpCall} (other : call.isInput = false) (calls : List OpCall) :
    sentInputs (calls ++ [call]) = sentInputs calls := by
  rw [sentInputs_concat]
  cases call with
  | addInput | addInputTokens => cases other
  | startTx | addTokens | addInputContextExtension | addDataInputs | output => rfl

/-! ## What they are to the header and to the ledger -/

private theorem map_modifyLast {α β : Type} {f : α → α} {g : α → β} (same : ∀ a, g (f a) = g a)
    (as : List α) : (as.modifyLast f).map g = as.map g := by
  rcases as.eq_nil_or_concat with rfl | ⟨as, a, rfl⟩
  · rfl
  · rw [List.concat_eq_append, List.modifyLast_concat, List.map_append, List.map_append,
      List.map_singleton, List.map_singleton, same]

/-- The header has the ids of the boxes that the inputs spend. -/
theorem boxIds_sent (sdk : Sdk) (networkId : UInt8) (calls : List OpCall) :
    (OpCall.upload sdk networkId calls).inputs.map (·.input.boxId) =
      (sentInputs calls).map SentInput.boxId := by
  induction calls using List.reverseRecOn with
  | nil => rfl
  | append_singleton calls call ih =>
      rw [OpCall.upload_concat, sentInputs_concat]
      cases call with
      | addInput boxId value framesCount extensionLength =>
          simp [OpCall.full, Upload.record, OpCall.recordInput, InputRecord.start, ih]
      | addInputTokens boxId frameIndex data =>
          exact ih.trans (@map_modifyLast SentInput ErgoId (SentInput.addFrame data)
            SentInput.boxId (fun _ => rfl) _).symm
      | addInputContextExtension data =>
          exact (@map_modifyLast InputRecord ErgoId (·.addExtension data) (·.input.boxId)
            (fun _ => rfl) _).trans ih
      | startTx | addTokens | addDataInputs => exact ih
      | output call =>
          cases call with
          | add | treeChunk | treeFee | treeChange | tokens | registers => exact ih

/-- Entries that leave a part of the ledger alone. -/
private theorem postAll_keeps {α : Type} {g : Ledger → α} {ledger : Ledger} {postings : List Posting}
    (keeps : ∀ posting ∈ postings, ∀ l : Ledger, g (l.post posting) = g l) :
    g (ledger.postAll postings) = g ledger := by
  induction postings generalizing ledger with
  | nil => rfl
  | cons posting postings ih =>
      exact (ih fun p here => keeps p (.tail _ here)).trans (keeps posting (.head _) ledger)

private theorem postAll_inputTokens (ledger : Ledger) (tokens : List InputToken) :
    ledger.postAll (tokens.map .inputToken) =
      { ledger with inputTokens := ledger.inputTokens ++ tokens } := by
  induction tokens generalizing ledger with
  | nil => simp [Ledger.postAll]
  | cons token tokens ih =>
      have rest := ih (ledger.post (.inputToken token))
      rw [List.map_cons]
      refine Eq.trans rest ?_
      simp [Ledger.post]

/-- The values and the tokens of inputs that a call adds to the ledger. -/
theorem addCall_inputs (ledger : Ledger) (call : OpCall) :
    (ledger.addCall call).inputs = ledger.inputs ++ (match call with
      | .addInput _ value _ _ => [value]
      | _ => []) ∧
    (ledger.addCall call).inputTokens = ledger.inputTokens ++ (match call with
      | .addInputTokens _ _ data => readTokens data
      | _ => []) := by
  cases call with
  | addInputTokens boxId frameIndex data =>
      have posted := postAll_inputTokens ledger (readTokens data)
      constructor
      · exact (congrArg Ledger.inputs posted).trans (List.append_nil _).symm
      · exact congrArg Ledger.inputTokens posted
  | startTx | addTokens | addInput | addInputContextExtension | addDataInputs =>
      simp [Ledger.addCall, Ledger.postings, Ledger.postAll, Ledger.post]
  | output call =>
      have others : ∀ posting ∈ ledger.postings (.output call), ∀ l : Ledger,
          (l.post posting).inputs = l.inputs ∧ (l.post posting).inputTokens = l.inputTokens := by
        intro posting here l
        cases call with
        | treeChunk | registers => cases here
        | add | treeFee | treeChange =>
            obtain rfl := List.mem_singleton.mp here
            exact ⟨rfl, rfl⟩
        | tokens data =>
            obtain ⟨token, -, rfl⟩ := List.mem_map.mp here
            exact ⟨rfl, rfl⟩
      rw [List.append_nil, List.append_nil]
      exact ⟨postAll_keeps fun p here l => (others p here l).1,
        postAll_keeps fun p here l => (others p here l).2⟩

/-- The ledger has the values of the inputs. -/
theorem values_sent (calls : List OpCall) :
    (Ledger.ofCalls calls).inputs = (sentInputs calls).map SentInput.value := by
  induction calls using List.reverseRecOn with
  | nil => rfl
  | append_singleton calls call ih =>
      rw [Ledger.ofCalls_concat, sentInputs_concat, (addCall_inputs _ call).1, ih]
      cases call with
      | addInput => simp [OpCall.recordInput]
      | addInputTokens boxId frameIndex data =>
          rw [List.append_nil]
          exact (@map_modifyLast SentInput UInt64 (SentInput.addFrame data) SentInput.value
            (fun _ => rfl) _).symm
      | startTx | addTokens | addInputContextExtension | addDataInputs | output =>
          exact List.append_nil _

/-! ## The input that is being sent -/

/-- The serializer has got the input as far as it was sent. -/
structure InputFollowed (input : InputCtx OpMem) (sent : SentInput) : Prop where
  boxId : sent.boxId = input.boxId
  framesCount : sent.framesCount = input.framesCount
  frames : sent.frames.length = input.framesProcessed.toNat
  complete : input.state = .extensionStarted ∨ input.state = .finished → sent.Complete

theorem InputFollowed.addFrame {input : InputCtx OpMem} {sent : SentInput}
    (followed : InputFollowed input sent)
    (data : Buffer) (within : input.framesProcessed < input.framesCount) :
    InputFollowed (TxSerInput.frameDone input) (sent.addFrame data) := by
  have within : input.framesProcessed.toNat < input.framesCount.toNat := within
  have bound : input.framesCount.toNat < 256 := input.framesCount.toNat_lt
  have next : (input.framesProcessed + 1).toNat = input.framesProcessed.toNat + 1 := by
    rw [UInt8.toNat_add]
    exact Nat.mod_eq_of_lt (by rw [UInt8.toNat_one]; omega)
  have length : (sent.addFrame data).frames.length = (input.framesProcessed + 1).toNat := by
    rw [next, ← followed.frames]
    exact List.length_append
  refine ⟨followed.boxId, followed.framesCount, length, ?_⟩
  intro done
  by_cases last : TxSerInput.LastFrame input
  · have count : (sent.addFrame data).framesCount = input.framesCount := followed.framesCount
    rw [SentInput.Complete, length, count, last]
  · simp [TxSerInput.frameDone, last] at done

/-- What is known about the inputs of a session. -/
structure InputsSent (calls : List OpCall) (op : Op) : Prop where
  inOrder : calls.filter OpCall.isInput = (sentInputs calls).flatMap SentInput.calls
  tokens : (Ledger.ofCalls calls).inputTokens = (sentInputs calls).flatMap SentInput.tokens
  before : op.ctx.state = .initialized ∨ op.ctx.state = .txStarted → sentInputs calls = []
  current : op.ctx.state = .inputsStarted → ∃ input previous last, op.ctx.tx.part = .input input ∧
    sentInputs calls = previous ++ [last] ∧ (∀ sent ∈ previous, sent.Complete) ∧
    InputFollowed input last ∧ (op.ctx.tx.state ≠ .inputsStarted → input.state = .finished)
  after : op.ctx.state = .outputsStarted ∨ op.ctx.state = .txFinished →
    ∀ sent ∈ sentInputs calls, sent.Complete

namespace InputsSent

variable {sdk : Sdk} [UnionLayout OpMem] {calls : List OpCall} {s t : Op} {u : Unit}

omit [UnionLayout OpMem] in
theorem congr (inv : InputsSent calls s) (state : t.ctx.state = s.ctx.state)
    (tx : t.ctx.tx = s.ctx.tx) : InputsSent calls t := by
  refine ⟨inv.inOrder, inv.tokens, ?_, ?_, ?_⟩
  · rw [state]
    exact inv.before
  · rw [state, tx]
    exact inv.current
  · rw [state]
    exact inv.after

omit [UnionLayout OpMem] in
/-- A call that is not about the contents of an input. -/
private theorem other {call : OpCall} (inv : InputsSent calls s) (other : call.isInput = false)
    (before : t.ctx.state = .initialized ∨ t.ctx.state = .txStarted → sentInputs calls = [])
    (current : t.ctx.state = .inputsStarted → ∃ input previous last,
      t.ctx.tx.part = .input input ∧ sentInputs calls = previous ++ [last] ∧
      (∀ sent ∈ previous, sent.Complete) ∧ InputFollowed input last ∧
      (t.ctx.tx.state ≠ .inputsStarted → input.state = .finished))
    (after : t.ctx.state = .outputsStarted ∨ t.ctx.state = .txFinished →
      ∀ sent ∈ sentInputs calls, sent.Complete) : InputsSent (calls ++ [call]) t := by
  have same := sentInputs_other other calls
  constructor
  · rw [same, List.filter_append, List.filter_singleton, other]
    exact (List.append_nil _).trans inv.inOrder
  · rw [same, Ledger.ofCalls_concat, (addCall_inputs _ call).2, inv.tokens]
    cases call with
    | addInput | addInputTokens => cases other
    | startTx | addTokens | addInputContextExtension | addDataInputs | output =>
        exact List.append_nil _
  · rw [same]
    exact before
  · rw [same]
    exact current
  · rw [same]
    exact after

omit [UnionLayout OpMem] in
/-- All inputs are complete once the serializer is past them. -/
private theorem completed (inv : InputsSent calls s) (past : s.ctx.tx.state ≠ .inputsStarted)
    (state : s.ctx.state = .inputsStarted ∨ s.ctx.state = .outputsStarted) :
    ∀ sent ∈ sentInputs calls, sent.Complete := by
  cases state with
  | inr state => exact inv.after (.inl state)
  | inl state =>
      obtain ⟨input, previous, last, -, split, complete, followed, finished⟩ := inv.current state
      intro sent here
      rw [split] at here
      rcases List.mem_append.mp here with here | here
      · exact complete sent here
      · rw [List.mem_singleton.mp here]
        exact followed.complete (.inr (finished past))

/-- A new input follows complete ones. -/
private theorem addInput {boxId : ErgoId} {value : UInt64} {framesCount : UInt8}
    {extensionLength : UInt32} (inv : InputsSent calls s)
    (ok : SignTx.addInput boxId value framesCount extensionLength s = .ok u t) :
    InputsSent (calls ++ [.addInput boxId value framesCount extensionLength]) t := by
  obtain ⟨state, v, added, w, set, amounts, -, rfl⟩ := addInput_ok ok
  obtain ⟨collected, ready, -, -, rfl⟩ := TxSerFull.addInput_ok.mp added
  obtain ⟨-, rest⟩ := TxSerFull.checkProperState_bind_ok.mp set
  obtain rfl := modifyCtx_ok.mp rest
  have complete : ∀ sent ∈ sentInputs calls, sent.Complete := by
    rcases List.mem_pair.mp state with state | state
    · rw [inv.before (.inr state)]
      exact fun _ here => absurd here List.not_mem_nil
    · obtain ⟨input, previous, last, part, split, complete, followed, -⟩ := inv.current state
      have same : s.ser.ctx.inputCtx = input := by
        have part : s.ser.ctx.part = .input input := part
        rw [FullCtx.inputCtx, part]
      rw [same] at ready
      intro sent here
      rw [split] at here
      rcases List.mem_append.mp here with here | here
      · exact complete sent here
      · rw [List.mem_singleton.mp here]
        exact followed.complete (.inr ready)
  refine ⟨?_, ?_, by simp, ?_, by simp⟩
  · rw [List.filter_append, inv.inOrder, sentInputs_concat, OpCall.recordInput, List.flatMap_append]
    rfl
  · rw [Ledger.ofCalls_concat, (addCall_inputs _ _).2, inv.tokens, sentInputs_concat,
      OpCall.recordInput, List.flatMap_append]
    rfl
  · intro _
    refine ⟨_, _, _, rfl, sentInputs_concat _ _, complete, ?_, fun past => (past collected).elim⟩
    exact ⟨rfl, rfl, rfl, fun none => by rcases none with none | none <;> cases none⟩

omit [UnionLayout OpMem] in
/-- The state after a call about the input that was started. -/
private theorem afterInput_ctx {ctx : FullCtx OpMem} {v : SerState (InputCtx OpMem) OpMem}
    {m : Mem OpMem} (state : ctx.state = .inputsStarted) :
    (TxSerFull.afterInput ctx v m).ctx.part = .input v.ctx ∧
      ((TxSerFull.afterInput ctx v m).ctx.state ≠ .inputsStarted → v.ctx.state = .finished) := by
  unfold TxSerFull.afterInput
  split
  · rename_i finished
    exact ⟨rfl, fun _ => finished⟩
  · exact ⟨rfl, fun past => (past state).elim⟩

/-- A frame is the next one of the input that was started last. -/
private theorem addInputTokens {boxId : ErgoId} {frameIndex : UInt8} {data : Buffer}
    (inv : InputsSent calls s) (ok : SignTx.addInputTokens boxId frameIndex data s = .ok u t) :
    InputsSent (calls ++ [.addInputTokens boxId frameIndex data]) t := by
  obtain ⟨state, r, v, ran, rfl⟩ := serial_ok.mp ok
  obtain ⟨txState, w, call, m, -, rfl⟩ := TxSerFull.addInputTokens_ok.mp ran
  have state : s.ctx.state = .inputsStarted := List.mem_singleton.mp state
  obtain ⟨input, previous, last, part, split, complete, followed, -⟩ := inv.current state
  have same : s.ser.ctx.inputCtx = input := by
    have part : s.ser.ctx.part = .input input := part
    rw [FullCtx.inputCtx, part]
  rw [same] at call
  obtain ⟨⟨started, here, within, due⟩, items, -, k, -, n, -, rfl, -⟩ := TxSerInput.addTokens_ok.mp call
  have sent : sentInputs (calls ++ [.addInputTokens boxId frameIndex data]) =
      previous ++ [last.addFrame data] := by
    rw [sentInputs_concat, OpCall.recordInput, split, List.modifyLast_concat]
  have index : OpCall.addInputTokens boxId frameIndex data =
      SentInput.frameCall last.boxId last.frames.length data := by
    rw [SentInput.frameCall, followed.frames, followed.boxId, here, due, UInt8.ofNat_toNat]
  refine ⟨?_, ?_, ?_, ?_, ?_⟩
  · rw [List.filter_append, inv.inOrder, sent, split, List.flatMap_append, List.flatMap_append,
      List.flatMap_singleton, List.flatMap_singleton, SentInput.calls_addFrame, List.append_assoc, ← index]
    rfl
  · rw [Ledger.ofCalls_concat, (addCall_inputs _ _).2, inv.tokens, sent, split, List.flatMap_append,
      List.flatMap_append, List.flatMap_singleton, List.flatMap_singleton, List.append_assoc]
    simp [SentInput.tokens, SentInput.addFrame]
  · intro none
    rcases none with none | none <;> cases state.symm.trans none
  · intro _
    obtain ⟨part, past⟩ := @afterInput_ctx s.ser.ctx ⟨_, _, n⟩ m txState
    exact ⟨_, previous, _, part, sent, complete, followed.addFrame data (due ▸ within), past⟩
  · intro done
    rcases done with done | done <;> cases state.symm.trans done

/-- The extension belongs to an input with all of its frames. -/
private theorem addInputContextExtension {data : Buffer} (inv : InputsSent calls s)
    (ok : SignTx.addInputContextExtension data s = .ok u t) :
    InputsSent (calls ++ [.addInputContextExtension data]) t := by
  obtain ⟨state, r, v, ran, rfl⟩ := serial_ok.mp ok
  obtain ⟨txState, w, call, m, -, rfl⟩ := TxSerFull.addInputContextExtension_ok.mp ran
  have state : s.ctx.state = .inputsStarted := List.mem_singleton.mp state
  obtain ⟨input, previous, last, part, split, complete, followed, -⟩ := inv.current state
  have same : s.ser.ctx.inputCtx = input := by
    have part : s.ser.ctx.part = .input input := part
    rw [FullCtx.inputCtx, part]
  rw [same] at call
  obtain ⟨started, -, k, -, rfl, -⟩ := TxSerInput.addContextExtension_ok.mp call
  apply inv.other rfl
  · intro none
    rcases none with none | none <;> cases state.symm.trans none
  · intro _
    obtain ⟨part, past⟩ := @afterInput_ctx s.ser.ctx ⟨_, _, k⟩ m txState
    refine ⟨_, previous, last, part, split, complete, ?_, past⟩
    exact ⟨followed.boxId, followed.framesCount, followed.frames,
      fun _ => followed.complete (.inl started)⟩
  · intro done
    rcases done with done | done <;> cases state.symm.trans done

omit [UnionLayout OpMem] in
/-- The data inputs follow the inputs. -/
private theorem addDataInputs {data : Buffer} (inv : InputsSent calls s)
    (ok : SignTx.addDataInputs data s = .ok u t) : InputsSent (calls ++ [.addDataInputs data]) t := by
  obtain ⟨state, r, v, ran, rfl⟩ := serial_ok.mp ok
  obtain ⟨txState, ids, -, -, m, -, rest⟩ := TxSerFull.addDataInputs_ok.mp ran
  have state : s.ctx.state = .inputsStarted := List.mem_singleton.mp state
  have past : s.ctx.tx.state ≠ .inputsStarted := by
    intro here
    cases txState.symm.trans here
  have part : v.ctx.part = s.ctx.tx.part := by
    split at rest
    · obtain ⟨n, -, -, rfl⟩ := rest
      rfl
    · obtain ⟨-, rfl⟩ := rest
      rfl
  apply inv.other rfl
  · intro none
    rcases none with none | none <;> cases state.symm.trans none
  · intro _
    obtain ⟨input, previous, last, before, split, complete, followed, finished⟩ := inv.current state
    exact ⟨input, previous, last, part.trans before, split, complete, followed, fun _ => finished past⟩
  · intro done
    rcases done with done | done <;> cases state.symm.trans done

/-- Outputs follow when all inputs are complete. -/
private theorem output {call : OutputCall} (inv : InputsSent calls s)
    (ok : (OpCall.output call).handle sdk s = .ok u t) : InputsSent (calls ++ [.output call]) t := by
  have proceeds := OpCall.handle_proceeds ok
  have all : ∀ sent ∈ sentInputs calls, sent.Complete := by
    cases call with
    | treeChunk | treeFee | treeChange | tokens | registers =>
        exact inv.after (.inl (List.mem_singleton.mp proceeds.accepted))
    | add value size height tokens registers =>
        have ran : SignTx.addOutput sdk value size height tokens registers s = .ok u t := ok
        obtain ⟨state, v, added, -⟩ := addOutput_ok.mp ran
        have past := (TxSerFull.addBox_ok.mp added).1
        apply inv.completed _ (List.mem_pair.mp state)
        intro here
        cases past.symm.trans here
  apply inv.other rfl
  · intro none
    rcases proceeds.output with state | state <;> rw [state] at none <;>
      rcases none with none | none <;> cases none
  · intro none
    rcases proceeds.output with state | state <;> cases state.symm.trans none
  · exact fun _ => all

/-- Every call keeps it. -/
theorem step {call : OpCall} (inv : InputsSent calls s) (ok : call.handle sdk s = .ok u t) :
    InputsSent (calls ++ [call]) t := by
  cases call with
  | addInput => exact inv.addInput ok
  | addInputTokens => exact inv.addInputTokens ok
  | addInputContextExtension => exact inv.addInputContextExtension ok
  | addDataInputs => exact inv.addDataInputs ok
  | output => exact inv.output ok
  | startTx | addTokens =>
      have proceeds := OpCall.handle_proceeds ok
      have leads : t.ctx.state = .txStarted := List.mem_singleton.mp proceeds.leads
      have accepted : s.ctx.state = .initialized ∨ s.ctx.state = .txStarted := by
        have accepted := proceeds.accepted
        simp only [OpCall.states, List.mem_singleton] at accepted
        simp [accepted]
      apply inv.other rfl
      · exact fun _ => inv.before accepted
      · intro none
        cases leads.symm.trans none
      · intro done
        rcases done with done | done <;> cases leads.symm.trans done

omit [UnionLayout OpMem] in
/-- A session begins without inputs. -/
theorem begin {path : Bip32Path} {networkId : UInt8} {supply : Supply}
    (begun : init sdk path networkId (.zero supply) = .ok () s) : InputsSent [] s := by
  obtain ⟨state, -⟩ := init_frame begun
  refine ⟨rfl, rfl, fun _ => rfl, ?_, ?_⟩
  · intro here
    cases state.symm.trans here
  · exact fun _ _ here => nomatch here

end InputsSent

end LedgerErgo.SignTx
