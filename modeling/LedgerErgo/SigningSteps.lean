import LedgerErgo.Commands.SignTx.Uploads
import LedgerErgo.HandlerSteps

/-! # The calls of an open session

A subcommand of an open session makes calls of the operation, which follow from its data. So a
session is a run of the operation, up to what the screens remember and what the SDK answers.
-/

namespace LedgerErgo.SignTx

open LedgerErgo.Common LedgerErgo.Ergo LedgerErgo.Prog

/-! ## From the data to the calls -/

/-- The calls that a subcommand makes of the operation. -/
def Subcommand.calls (sdk : Sdk) (cdata : Buffer) : Subcommand → List OpCall
  | .startTx => (do
      let (inputsCount, cdata) ← bufferReadU16 cdata
      let (dataInputsCount, cdata) ← bufferReadU16 cdata
      let (tokensCount, cdata) ← bufferReadU8 cdata
      let (outputsCount, _) ← bufferReadU16 cdata
      return [OpCall.startTx inputsCount dataInputsCount outputsCount tokensCount]).getD []
  | .tokenIds => [.addTokens cdata]
  | .inputFrame => (do
      let (head, cdata) ← readFrameHead cdata
      let tokensLen := (frameTokensLen head.tokensCount).toNat
      let tokens := OpCall.addInputTokens head.boxId head.frameIndex (cdata.take tokensLen)
      if head.frameIndex = 0 then do
        let (extensionLength, _) ← bufferReadU32 (cdata.drop (tokensLen + inputFrameSignatureLen))
        return [OpCall.addInput head.boxId head.value head.framesCount extensionLength, tokens]
      else return [tokens]).getD []
  | .inputContextExtension => [.addInputContextExtension cdata]
  | .dataInput => [.addDataInputs cdata]
  | .output => (do
      let (value, cdata) ← bufferReadU64 cdata
      let (ergoTreeSize, cdata) ← bufferReadU32 cdata
      let (creationHeight, cdata) ← bufferReadU32 cdata
      let (tokensCount, cdata) ← bufferReadU8 cdata
      let (registersSize, _) ← bufferReadU32 cdata
      return [OpCall.output (.add value ergoTreeSize creationHeight tokensCount
        registersSize)]).getD []
  | .outputTreeChunk => [.output (.treeChunk cdata)]
  | .outputMinersFeeTree => [.output .treeFee]
  | .outputChangeTree => (do
      let (path, _) ← readBip32Path cdata
      return [OpCall.output (.treeChange path (sdk.scalarMult (sdk.deriveBip32 path).1))]).getD []
  | .outputTokens => [.output (.tokens cdata)]
  | .outputRegisters => [.output (.registers cdata)]
  | .confirm => []

section Subcommands

variable {device : Device} [UnionLayout OpMem] {subcommand : Subcommand} {cdata : Buffer}
  {sessionKey : Bytes sessionKeyLen} {s t : App} {reply : Reply}

/-- What a subcommand does that shows nothing. -/
theorem plain_ok (plain : subcommand.outputPart device cdata = none) (unconfirmed : subcommand ≠ .confirm)
    (ok : subcommand.handle device sessionKey cdata s = .ok reply t) :
    reply = resOk ∧ s.signTxCtx.state = .approved ∧ ∃ op,
      runAll (OpCall.handle device.sdk) (subcommand.calls device.sdk cdata) (App.op s) = .ok () op ∧
        App.setOp op s = t := by
  cases subcommand with
  | outputTreeChunk | outputMinersFeeTree | outputChangeTree | outputTokens | outputRegisters =>
      cases plain
  | confirm => exact (unconfirmed rfl).elim
  | startTx =>
      simp only [Subcommand.handle, handleTxStart, bind_ok, exists_unit, checkApproved_ok,
        checkReadParam_ok, checkParamsFinished, ensure_ok, opCall_ok, pure_ok, Prod.exists] at ok
      obtain ⟨_, ⟨approved, rfl⟩, inputs, _, _, ⟨first, rfl⟩, dataInputs, _, _, ⟨second, rfl⟩, tokens,
        _, _, ⟨third, rfl⟩, outputs, _, _, ⟨fourth, rfl⟩, _, ⟨-, rfl⟩, _, ⟨op, ran, rfl⟩, rfl, rfl⟩ := ok
      refine ⟨rfl, approved, op, ?_, rfl⟩
      simp only [Subcommand.calls, first, second, third, fourth, Option.bind_eq_bind,
        Option.bind_some, Option.pure_def, Option.getD_some]
      exact runAll_cons_ok.mpr ⟨(), op, ran, runAll_nil_ok.mpr rfl⟩
  | tokenIds | inputContextExtension | dataInput =>
      simp only [Subcommand.handle, handleTokens, handleInputContextExtension, handleDataInputs,
        bind_ok, exists_unit, checkApproved_ok, opCall_ok, pure_ok] at ok
      obtain ⟨_, ⟨approved, rfl⟩, _, ⟨op, ran, rfl⟩, rfl, rfl⟩ := ok
      exact ⟨rfl, approved, op, runAll_cons_ok.mpr ⟨(), op, ran, runAll_nil_ok.mpr rfl⟩, rfl⟩
  | output =>
      simp only [Subcommand.handle, handleOutputInit, bind_ok, exists_unit, checkApproved_ok,
        checkReadParam_ok, checkParamsFinished, ensure_ok, opCall_ok, pure_ok, Prod.exists] at ok
      obtain ⟨_, ⟨approved, rfl⟩, value, _, _, ⟨first, rfl⟩, size, _, _, ⟨second, rfl⟩, height, _, _,
        ⟨third, rfl⟩, tokens, _, _, ⟨fourth, rfl⟩, registers, _, _, ⟨fifth, rfl⟩, _, ⟨-, rfl⟩, _,
        ⟨op, ran, rfl⟩, rfl, rfl⟩ := ok
      refine ⟨rfl, approved, op, ?_, rfl⟩
      simp only [Subcommand.calls, first, second, third, fourth, fifth, Option.bind_eq_bind,
        Option.bind_some, Option.pure_def, Option.getD_some]
      exact runAll_cons_ok.mpr ⟨(), op, ran, runAll_nil_ok.mpr rfl⟩
  | inputFrame =>
      simp only [Subcommand.handle, handleInputFrame, bind_ok, exists_unit, checkApproved_ok,
        ensure_ok, checkReadParam_ok, opCall_ok, pure_ok, Prod.exists] at ok
      obtain ⟨_, ⟨approved, rfl⟩, _, ⟨-, rfl⟩, _, ⟨-, rfl⟩, head, rest, _, ⟨read, rfl⟩, _, ⟨-, rfl⟩, m,
        started, _, ⟨op, ran, rfl⟩, rfl, rfl⟩ := ok
      by_cases first : head.frameIndex = 0
      · rw [startInput, if_pos first] at started
        simp only [bind_ok, checkReadParam_ok, opCall_ok, Prod.exists] at started
        obtain ⟨length, _, _, ⟨extension, rfl⟩, begun, added, rfl⟩ := started
        refine ⟨rfl, approved, op, ?_, rfl⟩
        simp only [Subcommand.calls, read, if_pos first, extension, Option.bind_eq_bind,
          Option.bind_some, Option.pure_def, Option.getD_some]
        exact runAll_cons_ok.mpr ⟨(), begun, added,
          runAll_cons_ok.mpr ⟨(), op, ran, runAll_nil_ok.mpr rfl⟩⟩
      · rw [startInput, if_neg first] at started
        obtain ⟨-, rfl⟩ := pure_ok.mp started
        refine ⟨rfl, approved, op, ?_, rfl⟩
        simp only [Subcommand.calls, read, if_neg first, Option.bind_eq_bind, Option.bind_some,
          Option.pure_def, Option.getD_some]
        exact runAll_cons_ok.mpr ⟨(), op, ran, runAll_nil_ok.mpr rfl⟩

omit [UnionLayout OpMem] in
theorem bip32PublicKey_key {path : Bip32Path} {pubKey : PublicKey}
    (ok : bip32PublicKey device path s = .ok pubKey t) :
    pubKey = device.sdk.scalarMult (device.sdk.deriveBip32 path).1 := by
  simp only [bip32PublicKey, bind_ok, exists_unit, ensure_ok, pure_ok] at ok
  obtain ⟨_, -, _, -, key, -⟩ := ok
  exact key.symm

/-- A subcommand about a part of an output makes its call of the operation. -/
theorem outputPart_call {part : AppM Unit} (output : subcommand.outputPart device cdata = some part)
    (ok : part s = .ok () t) :
    s.signTxCtx.state = .approved ∧ ∃ (call : OutputCall) (faults : List Bool) (op : Op),
      subcommand.calls device.sdk cdata = [.output call] ∧
        (OpCall.output call).handle device.sdk (App.opWith s faults) = .ok () op ∧
        App.setOp op s = t := by
  cases subcommand with
  | startTx | tokenIds | inputFrame | inputContextExtension | dataInput | output | confirm =>
      cases output
  | outputTreeChunk | outputTokens | outputRegisters =>
      obtain rfl := Option.some.inj output
      simp only [bind_ok, exists_unit, checkApproved_ok, opCall_ok] at ok
      obtain ⟨_, ⟨approved, rfl⟩, op, ran, rfl⟩ := ok
      exact ⟨approved, _, _, op, rfl, ran, rfl⟩
  | outputMinersFeeTree =>
      obtain rfl := Option.some.inj output
      simp only [bind_ok, exists_unit, checkApproved_ok, opCall_ok, checkParamsFinished,
        ensure_ok] at ok
      obtain ⟨_, ⟨approved, rfl⟩, _, ⟨-, rfl⟩, op, ran, rfl⟩ := ok
      exact ⟨approved, .treeFee, _, op, rfl, ran, rfl⟩
  | outputChangeTree =>
      obtain rfl := Option.some.inj output
      simp only [bind_ok, exists_unit, checkApproved_ok, opCall_ok, checkReadParam_ok,
        modify_ok] at ok
      obtain ⟨_, ⟨approved, rfl⟩, path, _, ⟨read, rfl⟩, _, rfl, pubKey, _, key, op, ran, rfl⟩ := ok
      obtain rfl := bip32PublicKey_key key
      obtain ⟨faults, rfl⟩ := bip32PublicKey_ok key
      refine ⟨approved, .treeChange path.1 _, faults, op, ?_, ran, rfl⟩
      simp only [Subcommand.calls, read, Option.bind_eq_bind, Option.bind_some, Option.pure_def,
        Option.getD_some]

end Subcommands

end LedgerErgo.SignTx
