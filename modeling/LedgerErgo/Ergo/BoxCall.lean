import LedgerErgo.Ergo.TxSerFullCalls

/-! # Calls about a part of a box

Once a box was started, five calls of the full serializer pass a part of it on to the box
serializer. They end alike: a complete box ends its turn.
-/

namespace LedgerErgo.Ergo

open LedgerErgo.Common LedgerErgo.Prog TxSerBox

variable {σ : Type}

/-- A call about a part of the box that was started. -/
inductive BoxCall where
  | tree (chunk : Buffer)
  | changeTree (rawPubKey : PublicKey)
  | minersFeeTree (isMainnet : Bool)
  | tokens (input : Buffer)
  | registers (chunk : Buffer)

namespace BoxCall

/-- The call of the box serializer. -/
def run (table : TableCtx) : BoxCall → EStateM BoxErr (SerState (BoxCtx σ) σ) Progress
  | .tree chunk => addTree chunk
  | .changeTree rawPubKey => do
      addChangeTree rawPubKey
      return .ok
  | .minersFeeTree isMainnet => do
      addMinersFeeTree isMainnet
      return .ok
  | .tokens input => addTokens input (some table)
  | .registers chunk => addRegisters chunk

/-- The call of the full serializer. -/
def full : BoxCall → FullCall σ
  | .tree chunk => .addBoxErgoTree chunk
  | .changeTree rawPubKey => .addBoxChangeTree rawPubKey
  | .minersFeeTree isMainnet => .addBoxMinersFeeTree isMainnet
  | .tokens input => .addBoxTokens input
  | .registers chunk => .addBoxRegisters chunk

theorem run_wholeTree_ok {type : BoxType} {tree : List UInt8} {s t : SerState (BoxCtx σ) σ}
    {r : Progress} :
    (do addWholeTree type tree
        return .ok : EStateM BoxErr (SerState (BoxCtx σ) σ) Progress) s = .ok r t ↔
      addWholeTree type tree s = .ok () t ∧ .ok = r := by
  simp only [bind_ok, exists_unit, pure_ok]
  constructor
  · rintro ⟨_, ran, rfl, rfl⟩
    exact ⟨ran, rfl⟩
  · rintro ⟨ran, rfl⟩
    exact ⟨t, ran, rfl, rfl⟩

/-- A finished box takes no more parts. -/
theorem state_of_run {table : TableCtx} {call : BoxCall} {s t : SerState (BoxCtx σ) σ}
    {r : Progress} (ok : call.run table s = .ok r t) : s.ctx.state ≠ .finished := by
  cases call with
  | tree => simp [(addTree_ok.mp ok).1.1]
  | changeTree => simp [(addWholeTree_ok.mp (run_wholeTree_ok.mp ok).1).1]
  | minersFeeTree => simp [(addWholeTree_ok.mp (run_wholeTree_ok.mp ok).1).1]
  | tokens => simp [(addTokens_ok.mp ok).1]
  | registers => simp [(addRegisters_ok.mp ok).1]

variable [UnionLayout σ]

/-- A call in the transaction is a call on the box. -/
theorem full_ok {call : BoxCall} {s t : SerState (FullCtx σ) σ} {r : Progress} :
    call.full.run s = .ok r t ↔
      s.ctx.state = .outputsStarted ∧
      ∃ v, call.run s.ctx.tableCtx { s with ctx := s.ctx.boxCtx } = .ok r v ∧
        TxSerFull.afterBox s.ctx v = t := by
  have whole : ∀ {type : BoxType} {tree : List UInt8},
      ((s.ctx.state = .outputsStarted ∧
        ∃ v, addWholeTree type tree { s with ctx := s.ctx.boxCtx } = .ok () v ∧
          TxSerFull.afterBox s.ctx v = t) ∧ .ok = r) ↔
      s.ctx.state = .outputsStarted ∧
        ∃ v, (addWholeTree type tree { s with ctx := s.ctx.boxCtx } = .ok () v ∧ .ok = r) ∧
          TxSerFull.afterBox s.ctx v = t := by
    intro type tree
    simp only [and_assoc]
    constructor
    · rintro ⟨state, ⟨v, ran, ends⟩, answer⟩
      exact ⟨state, v, ran, answer, ends⟩
    · rintro ⟨state, v, ran, answer, ends⟩
      exact ⟨state, ⟨v, ran, ends⟩, answer⟩
  cases call with
  | tree => exact TxSerFull.addBoxErgoTree_ok
  | changeTree =>
      simp only [run, run_wholeTree_ok, addChangeTree]
      exact TxSerFull.plain_ok.trans ((and_congr_left fun _ =>
        TxSerFull.addBoxWholeTree_ok).trans whole)
  | minersFeeTree =>
      simp only [run, run_wholeTree_ok, addMinersFeeTree]
      exact TxSerFull.plain_ok.trans ((and_congr_left fun _ =>
        TxSerFull.addBoxWholeTree_ok).trans whole)
  | tokens => exact TxSerFull.addBoxTokens_ok
  | registers => exact TxSerFull.addBoxRegisters_ok

end BoxCall

end LedgerErgo.Ergo
