import LedgerErgo.Commands.SignTx.Variants

/-! # How the calls take the operation on

Every call about a transaction is accepted in some states of the operation only, and leads to some
states only. None of them changes the key, the path or the network of the session, and none of
them confirms the transaction.
-/

namespace LedgerErgo.SignTx

open LedgerErgo.Common LedgerErgo.Ergo LedgerErgo.Prog

/-- The states in which a call is accepted. -/
def OpCall.states : OpCall → List OpState
  | .startTx .. => [.initialized]
  | .addTokens _ => [.txStarted]
  | .addInput .. => [.txStarted, .inputsStarted]
  | .addInputTokens .. | .addInputContextExtension _ | .addDataInputs _ => [.inputsStarted]
  | .output (.add ..) => [.inputsStarted, .outputsStarted]
  | .output _ => [.outputsStarted]

/-- The states in which an accepted call leaves the operation. -/
def OpCall.leads : OpCall → List OpState
  | .startTx .. | .addTokens _ => [.txStarted]
  | .addInput .. | .addInputTokens .. | .addInputContextExtension _ | .addDataInputs _ =>
      [.inputsStarted]
  | .output (.add ..) => [.outputsStarted]
  | .output _ => [.outputsStarted, .txFinished]

/-- What no call about a transaction changes. -/
structure Kept (s t : OpCtx) : Prop where
  blindSigningRequired : t.blindSigningRequired = s.blindSigningRequired
  schnorrKey : t.schnorrKey = s.schnorrKey
  bip32 : t.bip32 = s.bip32
  networkId : t.networkId = s.networkId

instance : Std.Refl Kept := ⟨fun _ => ⟨rfl, rfl, rfl, rfl⟩⟩

instance : IsTrans OpCtx Kept where
  trans _ _ _ first second := ⟨second.blindSigningRequired.trans first.blindSigningRequired,
    second.schnorrKey.trans first.schnorrKey, second.bip32.trans first.bip32,
    second.networkId.trans first.networkId⟩

/-- How a call takes the operation on. -/
structure Proceeds (call : OpCall) (s t : OpCtx) : Prop where
  accepted : s.state ∈ call.states
  kept : Kept s t
  leads : t.state ∈ call.leads
  finished : t.state = .txFinished → t.tx.state = .finished

section Calls

variable {sdk : Sdk} [UnionLayout OpMem] {s t : Op} {u : Unit}

/-- A call about a part of an output. -/
private theorem part_proceeds {call : OutputCall} {part : BoxCall}
    (about : call.part s.ctx.networkId = some part) (ok : call.run sdk s = .ok u t) :
    Proceeds (.output call) s.ctx t.ctx := by
  obtain ⟨state, r, v, -, -, left⟩ := OutputCall.part_eq about ok
  have accepted : s.ctx.state ∈ (OpCall.output call).states := by
    cases call with
    | add => cases about
    | treeChunk | treeFee | treeChange | tokens | registers => exact List.mem_singleton.mpr state
  have kept : Kept s.ctx (OutputCall.after s v (call.info sdk r v.mem.cb.output)) :=
    ⟨rfl, rfl, rfl, rfl⟩
  rw [← left]
  have leads (state : OpState) (here : state = .outputsStarted ∨ state = .txFinished) :
      state ∈ (OpCall.output call).leads := by
    cases call with
    | add => cases about
    | treeChunk | treeFee | treeChange | tokens | registers =>
        rcases here with rfl | rfl <;> simp [OpCall.leads]
  cases finished : TxSerFull.isFinished v.ctx with
  | true =>
      have ended : v.ctx.state = .finished := of_decide_eq_true finished
      refine ⟨accepted, kept, leads _ (.inr ?_), ?_⟩
      all_goals simp [OutputCall.after, finished, Op.setSer, ended]
  | false =>
      refine ⟨accepted, kept, leads _ (.inl ?_), ?_⟩
      all_goals simp [OutputCall.after, finished, state]

private theorem treeChange_proceeds {path : Bip32Path} {pubKey : PublicKey}
    (ok : handleOutputTreeChange sdk path pubKey s = .ok u t) :
    Proceeds (.output (.treeChange path pubKey)) s.ctx t.ctx := by
  simp only [handleOutputTreeChange, bind_ok, exists_unit, modifyOp_ok, checkProperState_ok,
    checkTxCall_ok] at ok
  obtain ⟨_, rfl, _, ⟨accepted, rfl⟩, _, ⟨v, -, rfl⟩, k, set, done⟩ := ok
  obtain ⟨output, -, set⟩ := checkOutputCall_ok (fun ran => setBip32_ok ran) set
  obtain rfl := checkTxFinished_ok.mp done
  have state : s.ctx.state = .outputsStarted := List.mem_singleton.mp accepted
  rw [← set]
  cases finished : TxSerFull.isFinished v.ctx with
  | true =>
      have ended : v.ctx.state = .finished := of_decide_eq_true finished
      refine ⟨accepted, ?_, ?_, ?_⟩
      all_goals simp [Op.setSer, Op.setMem, finished, ended, writePath, OpCall.leads, Kept.mk]
  | false =>
      refine ⟨accepted, ?_, ?_, ?_⟩
      all_goals simp [Op.setSer, Op.setMem, finished, writePath, OpCall.leads, state, Kept.mk]

/-- A call changes nothing but the transaction. -/
theorem OpCall.handle_proceeds {call : OpCall} (ok : call.handle sdk s = .ok u t) :
    Proceeds call s.ctx t.ctx := by
  cases call with
  | startTx inputs dataInputs outputs tokens =>
      obtain ⟨state, v, -, rfl⟩ := startTx_ok.mp ok
      exact ⟨List.mem_singleton.mpr state, ⟨rfl, rfl, rfl, rfl⟩, List.mem_singleton.mpr rfl,
        fun none => by cases none⟩
  | addTokens data =>
      obtain ⟨accepted, r, v, -, rfl⟩ := serial_ok.mp ok
      have state : s.ctx.state = .txStarted := List.mem_singleton.mp accepted
      exact ⟨accepted, ⟨rfl, rfl, rfl, rfl⟩, List.mem_singleton.mpr state,
        fun here => by cases state.symm.trans here⟩
  | addInput boxId value framesCount extensionLength =>
      obtain ⟨accepted, v, -, w, -, amounts, -, rfl⟩ := addInput_ok ok
      exact ⟨accepted, ⟨rfl, rfl, rfl, rfl⟩, List.mem_singleton.mpr rfl, fun none => by cases none⟩
  | addInputTokens | addInputContextExtension | addDataInputs =>
      obtain ⟨accepted, r, v, -, rfl⟩ := serial_ok.mp ok
      have state : s.ctx.state = .inputsStarted := List.mem_singleton.mp accepted
      exact ⟨accepted, ⟨rfl, rfl, rfl, rfl⟩, List.mem_singleton.mpr state,
        fun here => by cases state.symm.trans here⟩
  | output call =>
      cases call with
      | add value size height tokens registers =>
          obtain ⟨accepted, v, -, w, -, rfl⟩ := addOutput_ok.mp ok
          exact ⟨accepted, ⟨rfl, rfl, rfl, rfl⟩, List.mem_singleton.mpr rfl, fun none => by cases none⟩
      | treeChange path pubKey => exact treeChange_proceeds ok
      | treeChunk data =>
          have ran : OutputCall.run sdk (.treeChunk data) s = .ok u t := ok
          exact part_proceeds rfl ran
      | treeFee =>
          have ran : OutputCall.run sdk .treeFee s = .ok u t := ok
          exact part_proceeds rfl ran
      | tokens data =>
          have ran : OutputCall.run sdk (.tokens data) s = .ok u t := ok
          exact part_proceeds rfl ran
      | registers data =>
          have ran : OutputCall.run sdk (.registers data) s = .ok u t := ok
          exact part_proceeds rfl ran

omit [UnionLayout OpMem] in
/-- No call confirms the operation. -/
theorem Proceeds.unconfirmed {call : OpCall} {s t : OpCtx} (proceeds : Proceeds call s t) :
    t.state ≠ .finalized := by
  have leads := proceeds.leads
  intro confirmed
  rw [confirmed] at leads
  cases call with
  | startTx | addTokens | addInput | addInputTokens | addInputContextExtension | addDataInputs =>
      simp [OpCall.leads] at leads
  | output call =>
      cases call with
      | add | treeChunk | treeFee | treeChange | tokens | registers => simp [OpCall.leads] at leads

omit [UnionLayout OpMem] in
/-- Outputs are being sent, or were the last to be sent. -/
theorem Proceeds.output {call : OutputCall} {s t : OpCtx} (proceeds : Proceeds (.output call) s t) :
    t.state = .outputsStarted ∨ t.state = .txFinished := by
  have leads := proceeds.leads
  cases call with
  | add => exact .inl (List.mem_singleton.mp leads)
  | treeChunk | treeFee | treeChange | tokens | registers => simpa [OpCall.leads] using leads

/-- A confirmed operation accepts no call. -/
theorem OpCall.unconfirmed {call : OpCall} (ok : call.handle sdk s = .ok u t) :
    s.ctx.state ≠ .finalized := by
  have accepted := (OpCall.handle_proceeds ok).accepted
  intro confirmed
  rw [confirmed] at accepted
  cases call with
  | startTx | addTokens | addInput | addInputTokens | addInputContextExtension | addDataInputs =>
      simp [OpCall.states] at accepted
  | output call =>
      cases call with
      | add | treeChunk | treeFee | treeChange | tokens | registers =>
          simp [OpCall.states] at accepted

theorem OpCall.runAll_kept {calls : List OpCall} (ok : runAll (OpCall.handle sdk) calls s = .ok u t) :
    Kept s.ctx t.ctx := by
  induction calls generalizing s with
  | nil =>
      obtain rfl := runAll_nil_ok.mp ok
      exact refl_of Kept s.ctx
  | cons call calls ih =>
      obtain ⟨_, m, first, rest⟩ := runAll_cons_ok.mp ok
      exact trans_of Kept (OpCall.handle_proceeds first).kept (ih rest)

theorem OpCall.runAll_unconfirmed {calls : List OpCall} (unconfirmed : s.ctx.state ≠ .finalized)
    (ok : runAll (OpCall.handle sdk) calls s = .ok u t) : t.ctx.state ≠ .finalized := by
  induction calls generalizing s with
  | nil =>
      obtain rfl := runAll_nil_ok.mp ok
      exact unconfirmed
  | cons call calls ih =>
      obtain ⟨_, m, first, rest⟩ := runAll_cons_ok.mp ok
      exact ih (OpCall.handle_proceeds first).unconfirmed rest

end Calls

end LedgerErgo.SignTx
