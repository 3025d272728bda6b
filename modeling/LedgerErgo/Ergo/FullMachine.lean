import LedgerErgo.Ergo.SerErrors
import LedgerErgo.Ergo.SignedStream

/-! # The full serializer as a state machine

Whatever calls are made, and whether they succeed or not, the phases follow one another
and the counters are the inputs, data inputs and boxes that are still to come. Only calls
about a part of a box before any box was started are left out.
-/

namespace LedgerErgo.Ergo

open LedgerErgo.Common LedgerErgo.Prog

variable {σ : Type}

/-- The place of a phase in the order of the phases; the error state comes last. -/
def FullState.index : FullState → Nat
  | .tokensStarted => 0
  | .inputsStarted => 1
  | .dataInputsStarted => 2
  | .outputsStarted => 3
  | .finished => 4
  | .error => 5

/-- The input in the union is not complete. -/
def FullCtx.InputOpen (ctx : FullCtx σ) : Prop :=
  match ctx.part with
  | .input input => input.state ≠ .finished
  | .box _ => False

instance : (ctx : FullCtx σ) → Decidable ctx.InputOpen
  | ⟨_, _, _, _, _, .input input⟩ => inferInstanceAs (Decidable (¬ input.state = .finished))
  | ⟨_, _, _, _, _, .box _⟩ => inferInstanceAs (Decidable False)

/-- How many inputs, data inputs and boxes were completed. -/
structure Tally where
  inputs : Nat
  dataInputs : Nat
  boxes : Nat

namespace Tally

/-- Nothing was completed. -/
def zero : Tally := ⟨0, 0, 0⟩

/-- More was completed. -/
def add (a b : Tally) : Tally := ⟨a.inputs + b.inputs, a.dataInputs + b.dataInputs, a.boxes + b.boxes⟩

end Tally

namespace FullCall

/-- The call is about a part of a box. -/
def AboutPart : FullCall σ → Prop
  | .addBoxErgoTree _ | .addBoxChangeTree _ | .addBoxMinersFeeTree _ | .addBoxTokens _
  | .addBoxRegisters _ => True
  | _ => False

/-- The call starts a box, in the output phase. -/
def StartsBox (call : FullCall σ) (ctx : FullCtx σ) : Prop :=
  match call with
  | .addBox .. => ctx.state = .outputsStarted
  | _ => False

/-- What the call completed, as it found the state and left it: an input or a box whose
    serializer finished, and the data inputs whose ids it hashed. -/
def completed (call : FullCall σ) (s t : SerState (FullCtx σ) σ) : Tally :=
  match call with
  | .addInputTokens .. | .addInputContextExtension _ =>
      { Tally.zero with inputs := if s.ctx.InputOpen ∧ ¬ t.ctx.InputOpen then 1 else 0 }
  | .addDataInputs inputs =>
      { Tally.zero with dataInputs := min (inputs.length / 32) ((t.hash.length - s.hash.length) / 32) }
  | .addBoxErgoTree _ | .addBoxChangeTree _ | .addBoxMinersFeeTree _ | .addBoxTokens _
  | .addBoxRegisters _ =>
      { Tally.zero with boxes := if s.ctx.BoxOpen ∧ ¬ t.ctx.BoxOpen then 1 else 0 }
  | _ => .zero

/-- The state the call leaves, whether it succeeds or not. -/
def after [UnionLayout σ] (call : FullCall σ) (s : SerState (FullCtx σ) σ) :
    SerState (FullCtx σ) σ := final (call.run s)

end FullCall

/-- The states that calls lead to, with what they completed and whether a box was started. -/
inductive Reached [UnionLayout σ] (begun : SerState (FullCtx σ) σ) :
    Prop → Tally → SerState (FullCtx σ) σ → Prop where
  | init : Reached begun False .zero begun
  | call {started : Prop} {tally : Tally} {s : SerState (FullCtx σ) σ} (call : FullCall σ)
      (earlier : Reached begun started tally s) (guard : call.AboutPart → started) :
      Reached begun (started ∨ call.StartsBox s.ctx) (tally.add (call.completed s (call.after s)))
        (call.after s)

/-! ## The counters -/

/-- The three counters are the same. -/
def SameCounts (s t : SerState (FullCtx σ) σ) : Prop :=
  t.ctx.inputsCount = s.ctx.inputsCount ∧ t.ctx.dataInputsCount = s.ctx.dataInputsCount ∧
    t.ctx.outputsCount = s.ctx.outputsCount

instance : Std.Refl (SameCounts (σ := σ)) := ⟨fun _ => ⟨rfl, rfl, rfl⟩⟩

instance : IsTrans (SerState (FullCtx σ) σ) SameCounts :=
  ⟨fun _ _ _ a b => ⟨b.1.trans a.1, b.2.1.trans a.2.1, b.2.2.trans a.2.2⟩⟩

/-- The counters and the union are the same. -/
def SameProgress (s t : SerState (FullCtx σ) σ) : Prop := SameCounts s t ∧ t.ctx.part = s.ctx.part

instance : Std.Refl (SameProgress (σ := σ)) := ⟨fun _ => ⟨⟨rfl, rfl, rfl⟩, rfl⟩⟩

instance : IsTrans (SerState (FullCtx σ) σ) SameProgress :=
  ⟨fun _ _ _ a b => ⟨trans_of SameCounts a.1 b.1, b.2.trans a.2⟩⟩

/-- The call takes off the counters what it completed. -/
structure Balanced (call : FullCall σ) (s t : SerState (FullCtx σ) σ) : Prop where
  inputs : t.ctx.inputsCount.toNat + (call.completed s t).inputs = s.ctx.inputsCount.toNat
  dataInputs :
    t.ctx.dataInputsCount.toNat + (call.completed s t).dataInputs = s.ctx.dataInputsCount.toNat
  boxes : t.ctx.outputsCount.toNat + (call.completed s t).boxes = s.ctx.outputsCount.toNat

theorem balanced_of_same {call : FullCall σ} {s t : SerState (FullCtx σ) σ} (same : SameCounts s t)
    (nothing : call.completed s t = .zero) : Balanced call s t := by
  obtain ⟨inputs, dataInputs, outputs⟩ := same
  exact ⟨by rw [nothing, inputs]; rfl, by rw [nothing, dataInputs]; rfl,
    by rw [nothing, outputs]; rfl⟩

namespace TxSerFull

theorem same_checkProperState (state : FullState) :
    Moves SameProgress (checkProperState state : FullM σ Unit) := by
  intro s
  simp only [checkProperState, getCtx_bind, require]
  split
  · exact ⟨⟨rfl, rfl, rfl⟩, rfl⟩
  · exact ⟨⟨rfl, rfl, rfl⟩, rfl⟩

theorem same_hashU16 (u16 : UInt16) : Moves SameProgress (hashU16 u16 : FullM σ Unit) := by
  intro s
  cases h : hashU16 u16 s with
  | ok _ t =>
      obtain ⟨m, -, rfl⟩ := hashU16_ok.mp h
      exact ⟨⟨rfl, rfl, rfl⟩, rfl⟩
  | error e t =>
      rcases bind_error.mp h with absent | ⟨bytes, u, here, failed⟩
      · obtain ⟨-, -, rfl⟩ := orFail_error.mp absent
        exact ⟨⟨rfl, rfl, rfl⟩, rfl⟩
      · obtain ⟨-, rfl⟩ := orFail_ok.mp here
        obtain ⟨m, -, rfl⟩ := hashUpdate_error.mp failed
        exact ⟨⟨rfl, rfl, rfl⟩, rfl⟩

theorem same_callTable {α : Type} {call : EStateM TableErr (SerState TableCtx σ) α} :
    Moves SameProgress (callTable call : FullM σ α) := by
  intro s
  unfold callTable callPart
  split <;> exact ⟨⟨rfl, rfl, rfl⟩, rfl⟩

theorem same_dataInputsFinished : Moves SameProgress (dataInputsFinished : FullM σ Unit) :=
  same_callTable.bind fun _ => .bind (fun _ => ⟨⟨rfl, rfl, rfl⟩, rfl⟩) fun _ =>
    (same_hashU16 _).bind fun _ _ => ⟨⟨rfl, rfl, rfl⟩, rfl⟩

/-- The end of an input takes it off the counter, even if hashing what follows fails. -/
theorem inputFinished_moves : Moves (fun s t : SerState (FullCtx σ) σ =>
    SameProgress { s with ctx := { s.ctx with inputsCount := s.ctx.inputsCount - 1 } } t)
    (inputFinished : FullM σ Unit) := by
  have rest : Moves SameProgress (do
      let ctx ← getCtx
      if ctx.inputsCount = 0 then
        hashU16 ctx.dataInputsCount
        modifyCtx fun ctx => { ctx with state := .dataInputsStarted }
        if ctx.dataInputsCount = 0 then
          dataInputsFinished : FullM σ Unit) := by
    refine .bind (fun _ => ⟨⟨rfl, rfl, rfl⟩, rfl⟩) fun _ => .ite ?_ .pure
    exact (same_hashU16 _).bind fun _ => .bind (fun _ => ⟨⟨rfl, rfl, rfl⟩, rfl⟩) fun _ =>
      .ite same_dataInputsFinished .pure
  intro s
  exact rest _

variable [UnionLayout σ]

theorem same_callInput {α : Type} {call : EStateM InputErr (SerState (InputCtx σ) σ) α} :
    Moves SameCounts (callInput call : FullM σ α) := by
  intro s
  unfold callInput callPart
  split <;> exact ⟨rfl, rfl, rfl⟩

theorem same_callBox {α : Type} {call : EStateM BoxErr (SerState (BoxCtx σ) σ) α} :
    Moves SameCounts (callBox call : FullM σ α) := by
  intro s
  unfold callBox callPart
  split <;> exact ⟨rfl, rfl, rfl⟩

end TxSerFull

/-! ## Calls that fail -/

namespace Balanced

open TxSerFull

variable {s t : SerState (FullCtx σ) σ} {e : FullErr}

private theorem readDataInput_error {inputs : Buffer}
    (failed : readDataInput inputs s = .error e t) : SameCounts s t ∧ t.hash = s.hash := by
  rw [readDataInput, getCtx_bind] at failed
  rcases bind_error.mp failed with here | ⟨_, u, checked, failed⟩
  · obtain ⟨-, -, rfl⟩ := require_error.mp here
    exact ⟨⟨rfl, rfl, rfl⟩, rfl⟩
  obtain ⟨-, rfl⟩ := require_ok.mp checked
  rcases bind_error.mp failed with here | ⟨_, u, read, failed⟩
  · obtain ⟨-, -, rfl⟩ := orFail_error.mp here
    exact ⟨⟨rfl, rfl, rfl⟩, rfl⟩
  obtain ⟨-, rfl⟩ := orFail_ok.mp read
  rcases bind_error.mp failed with here | ⟨_, u, -, failed⟩
  · obtain ⟨m, -, rfl⟩ := hashUpdate_error.mp here
    exact ⟨⟨rfl, rfl, rfl⟩, rfl⟩
  · rcases bind_error.mp failed with impossible | ⟨_, _, -, impossible⟩
    · exact (modify_error.mp impossible).elim
    · exact (pure_error.mp impossible).elim

/-- So many ids were hashed and taken off the counter. -/
structure Read (s t : SerState (FullCtx σ) σ) (count : Nat) : Prop where
  inputs : t.ctx.inputsCount = s.ctx.inputsCount
  outputs : t.ctx.outputsCount = s.ctx.outputsCount
  counter : t.ctx.dataInputsCount.toNat + count = s.ctx.dataInputsCount.toNat
  hash : t.hash.length = s.hash.length + 32 * count

private theorem read_next {u v : SerState (FullCtx σ) σ} {inputs rest : Buffer} {count : Nat}
    (read : Read s u count) (ok : readDataInput inputs u = .ok rest v) :
    Read s v (count + 1) ∧ inputs.length = 32 + rest.length := by
  simp only [readDataInput, getCtx_bind, require_bind_ok] at ok
  simp only [bind_ok, exists_unit, orFail_ok, hashUpdate_ok, modifyCtx_ok, pure_ok, Prod.exists,
    bufferReadBytes_eq_some] at ok
  obtain ⟨more, id, _, _, ⟨rfl, rfl⟩, _, ⟨m, -, rfl⟩, _, rfl, rfl, rfl⟩ := ok
  have less := Counter.toNat_sub_one16 more
  have counter := read.counter
  have hash := read.hash
  refine ⟨⟨read.inputs, read.outputs, ?_, ?_⟩, by simp⟩
  · simp only
    omega
  · simp only [List.length_append, Bytes.length_val]
    omega

private theorem readLoop_error {inputs : Buffer} {rounds : Nat}
    (failed : whileData readDataInput rounds inputs s = .error e t) :
    ∃ count, Read s t count ∧ 32 * count ≤ inputs.length := by
  refine whileData_error
    (fun rest u => ∃ count, Read s u count ∧ rest.length + 32 * count = inputs.length)
    (fun t => ∃ count, Read s t count ∧ 32 * count ≤ inputs.length) ?_ ?_
    ⟨0, ⟨rfl, rfl, rfl, rfl⟩, rfl⟩ failed
  · rintro input u rest v ⟨count, read, left⟩ ok
    obtain ⟨read', length⟩ := read_next read ok
    exact ⟨count + 1, read', by omega⟩
  · rintro input u e v ⟨count, read, left⟩ failed
    obtain ⟨⟨inputs, dataInputs, outputs⟩, hash⟩ := readDataInput_error failed
    refine ⟨count, ⟨inputs.trans read.inputs, outputs.trans read.outputs, ?_, ?_⟩, by omega⟩
    · rw [dataInputs]
      exact read.counter
    · rw [hash]
      exact read.hash

/-- Data inputs were read, and then nothing more was taken off the counters. -/
private theorem of_read {inputs : Buffer} {u : SerState (FullCtx σ) σ} {count : Nat}
    (read : Read s u count) (same : SameCounts u t) (absorbed : u.hash <+: t.hash)
    (exact : u.hash = t.hash ∨ 32 * count = inputs.length) (fits : 32 * count ≤ inputs.length) :
    Balanced (.addDataInputs inputs) s t := by
  obtain ⟨sameInputs, sameData, sameOutputs⟩ := same
  have fed : (FullCall.completed (.addDataInputs inputs) s t).dataInputs = count := by
    have grown := absorbed.length_le
    have hash := read.hash
    simp only [FullCall.completed]
    rcases exact with equal | all
    · rw [← equal]
      omega
    · omega
  refine ⟨?_, ?_, ?_⟩
  · rw [sameInputs, read.inputs]
    rfl
  · rw [fed, sameData]
    exact read.counter
  · rw [sameOutputs, read.outputs]
    rfl

private theorem absorbs_dataInputsFinished :
    Moves Absorbs (dataInputsFinished : FullM σ Unit) := by
  have hashU16 : ∀ u16, Moves Absorbs (hashU16 u16 : FullM σ Unit) :=
    fun _ => absorbs_orFail.bind fun _ => absorbs_hashUpdate
  have hashSlots : ∀ i n, Moves Absorbs (TxSerTable.hashSlots i n :
      EStateM _ (SerState TableCtx σ) Unit) := by
    intro i n
    induction n generalizing i with
    | zero => exact .pure
    | succ n ih => exact .bind (fun _ => List.prefix_rfl) fun _ => absorbs_hashUpdate.bind fun _ => ih _
  have hash : Moves Absorbs (TxSerTable.hash : EStateM _ (SerState TableCtx σ) Unit) :=
    .bind (fun _ => List.prefix_rfl) fun _ => absorbs_orFail.bind fun _ => absorbs_hashUpdate.bind
      fun _ => hashSlots _ _
  exact (absorbs_callPart hash).bind fun _ => .bind (fun _ => List.prefix_rfl) fun _ =>
    (hashU16 _).bind fun _ _ => List.prefix_rfl

/-- The loop over the data inputs, when it succeeds. -/
private theorem readLoop_ok {inputs : Buffer} {u : Unit}
    (ok : whileData readDataInput inputs.length inputs s = .ok u t) :
    ∃ count, Read s t count ∧ 32 * count = inputs.length := by
  obtain ⟨ids, rfl, room, m, -, rfl⟩ := readDataInputs_ok.mp ok
  refine ⟨ids.length, ⟨rfl, rfl, ?_, ?_⟩, (TxSerTable.length_idBytes ids).symm⟩
  · rw [dataInputsTaken, Counter.toNat_sub_ofNat16 room]
    exact Nat.sub_add_cancel room
  · rw [List.length_append, TxSerTable.length_idBytes]

/-- Reading data inputs, and the end of the header behind the last one. -/
private theorem addDataInputs {inputs : Buffer} :
    Moves (Balanced (.addDataInputs inputs)) (TxSerFull.addDataInputs inputs : FullM σ Progress) := by
  intro s
  unfold TxSerFull.addDataInputs
  cases checked : (checkProperState .dataInputsStarted : FullM σ Unit) s with
  | error e t =>
      obtain ⟨-, -, rfl⟩ := require_error.mp checked
      rw [bind_of_error checked]
      have nothing : Read s { s with ctx := Failable.failed s.ctx } 0 := ⟨rfl, rfl, rfl, rfl⟩
      exact of_read nothing ⟨rfl, rfl, rfl⟩ List.prefix_rfl (.inl rfl) (by simp)
  | ok _ t =>
      obtain ⟨-, rfl⟩ := require_ok.mp checked
      rw [bind_of_ok checked]
      cases loop : whileData readDataInput inputs.length inputs s with
      | error e u =>
          rw [bind_of_error loop]
          obtain ⟨count, read, fits⟩ := readLoop_error loop
          exact of_read read ⟨rfl, rfl, rfl⟩ List.prefix_rfl (.inl rfl) fits
      | ok _ u =>
          rw [bind_of_ok loop]
          obtain ⟨count, read, all⟩ := readLoop_ok loop
          have same : Moves SameCounts (do
              if u.ctx.dataInputsCount = 0 then
                dataInputsFinished
                return .ok
              else return .moreData : FullM σ Progress) :=
            .ite ((same_dataInputsFinished.mono fun _ _ same => same.1).bind fun _ => .pure) .pure
          have absorbs : Moves Absorbs (do
              if u.ctx.dataInputsCount = 0 then
                dataInputsFinished
                return .ok
              else return .moreData : FullM σ Progress) :=
            .ite (absorbs_dataInputsFinished.bind fun _ => .pure) .pure
          exact of_read read (same u) (absorbs u) (.inr all) all.le

section Input

variable {call : FullCall σ}
  (about : ∀ s t, call.completed s t =
    { Tally.zero with inputs := if s.ctx.InputOpen ∧ ¬ t.ctx.InputOpen then 1 else 0 })

include about

private theorem input_kept (same : SameCounts s t) (kept : s.ctx.InputOpen → t.ctx.InputOpen) :
    Balanced call s t := by
  apply balanced_of_same same
  rw [about, if_neg fun completed => completed.2 (kept completed.1)]
  rfl

private theorem input_completed (opened : s.ctx.InputOpen) (closed : ¬ t.ctx.InputOpen)
    (more : s.ctx.inputsCount ≠ 0)
    (same : SameCounts { s with ctx := { s.ctx with inputsCount := s.ctx.inputsCount - 1 } } t) :
    Balanced call s t := by
  obtain ⟨inputs, dataInputs, outputs⟩ := same
  refine ⟨?_, by rw [about, dataInputs]; rfl, by rw [about, outputs]; rfl⟩
  rw [about, if_pos ⟨opened, closed⟩, inputs]
  exact Counter.toNat_sub_one16 more

variable [UnionLayout σ]

/-- A call about the input: it is taken off the counter once it is complete. -/
private theorem inputPart {inner : EStateM InputErr (SerState (InputCtx σ) σ) Progress}
    {c : Progress → InputCtx σ → Prop} [∀ res input, Decidable (c res input)] (marks : Marks inner)
    (done : ∀ s res v, inner s = .ok res v →
      s.ctx.state ≠ .finished ∧ (c res v.ctx ↔ v.ctx.state = .finished))
    (expected : s.ctx.state = .inputsStarted →
      (∃ input, s.ctx.part = .input input) ∧ s.ctx.inputsCount ≠ 0) :
    Balanced call s (final ((do
      checkProperState .inputsStarted
      let res ← callInput inner
      let ctx ← getCtx
      if c res ctx.inputCtx then inputFinished
      return res : FullM σ Progress) s)) := by
  cases checked : (checkProperState .inputsStarted : FullM σ Unit) s with
  | error e t =>
      obtain ⟨-, -, rfl⟩ := require_error.mp checked
      rw [bind_of_error checked]
      exact input_kept about ⟨rfl, rfl, rfl⟩ id
  | ok _ t =>
      obtain ⟨state, rfl⟩ := require_ok.mp checked
      obtain ⟨⟨input, part⟩, more⟩ := expected state
      have read : s.ctx.inputCtx = input := by rw [FullCtx.inputCtx, part]
      rw [bind_of_ok checked]
      cases called : callInput inner s with
      | error e t =>
          rw [bind_of_error called]
          obtain ⟨e', v, failed, -, rfl⟩ := callPart_error.mp called
          refine input_kept about ⟨rfl, rfl, rfl⟩ fun _ => ?_
          exact InputCtx.not_finished_of_marked (marks _ _ _ failed)
      | ok res t =>
          rw [bind_of_ok called, getCtx_bind]
          obtain ⟨v, ran, rfl⟩ := callPart_ok.mp called
          obtain ⟨notDone, ends⟩ := done _ _ _ ran
          have opened : s.ctx.InputOpen := by
            rw [FullCtx.InputOpen, part]
            exact read ▸ notDone
          by_cases finished : c res v.ctx
          · have closed : ∀ t : SerState (FullCtx σ) σ, t.ctx.part = .input v.ctx →
                ¬ t.ctx.InputOpen := by
              intro t same
              rw [FullCtx.InputOpen, same]
              exact fun opened => opened (ends.mp finished)
            rw [if_pos (show c res (s.ctx.setInputCtx v.ctx).inputCtx from finished)]
            cases last : (inputFinished : FullM σ Unit) { v with ctx := s.ctx.setInputCtx v.ctx } with
            | error e t =>
                have moved := inputFinished_moves.error last
                rw [bind_of_error last]
                exact input_completed about opened (closed _ moved.2) more moved.1
            | ok _ t =>
                have moved := inputFinished_moves.ok last
                rw [bind_of_ok last]
                exact input_completed about opened (closed _ moved.2) more moved.1
          · rw [if_neg (show ¬ c res (s.ctx.setInputCtx v.ctx).inputCtx from finished)]
            exact input_kept about ⟨rfl, rfl, rfl⟩ fun _ => mt ends.mpr finished

end Input

section Box

private theorem box_kept {call : BoxCall} (same : SameCounts s t)
    (kept : s.ctx.BoxOpen → t.ctx.BoxOpen) : Balanced call.full s t := by
  apply balanced_of_same same
  have none : ¬ (s.ctx.BoxOpen ∧ ¬ t.ctx.BoxOpen) := fun completed => completed.2 (kept completed.1)
  cases call <;> simp [FullCall.completed, BoxCall.full, none, Tally.zero]

private theorem box_completed {call : BoxCall} (opened : s.ctx.BoxOpen) (closed : ¬ t.ctx.BoxOpen)
    (more : s.ctx.outputsCount ≠ 0) (inputs : t.ctx.inputsCount = s.ctx.inputsCount)
    (dataInputs : t.ctx.dataInputsCount = s.ctx.dataInputsCount)
    (outputs : t.ctx.outputsCount = s.ctx.outputsCount - 1) : Balanced call.full s t := by
  have done : call.full.completed s t = ⟨0, 0, 1⟩ := by
    cases call <;> simp [FullCall.completed, BoxCall.full, opened, closed, Tally.zero]
  refine ⟨by rw [done, inputs]; rfl, by rw [done, dataInputs]; rfl, ?_⟩
  rw [done, outputs]
  exact Counter.toNat_sub_one16 more

/-- A call about a part of a box: the box is taken off the counter once it is complete. -/
private theorem boxPart [UnionLayout σ] {call : BoxCall}
    (expected : s.ctx.state = .outputsStarted →
      (∃ box, s.ctx.part = .box box) ∧ s.ctx.outputsCount ≠ 0) :
    Balanced call.full s (call.full.after s) := by
  rw [FullCall.after]
  cases ran : call.full.run s with
  | error e t =>
      rcases boxCall_error ran with rfl | ⟨e', v, failed, rfl⟩
      · exact box_kept ⟨rfl, rfl, rfl⟩ id
      · exact box_kept ⟨rfl, rfl, rfl⟩ fun _ => TxSerBox.not_finished_of_error failed
  | ok r t =>
      obtain ⟨state, v, inner, rfl⟩ := BoxCall.full_ok.mp ran
      obtain ⟨⟨box, part⟩, more⟩ := expected state
      by_cases finished : v.ctx.state = .finished
      · have opened : s.ctx.BoxOpen := by
          have notDone := BoxCall.state_of_run inner
          rw [FullCtx.boxCtx, part] at notDone
          rw [FullCtx.BoxOpen, part]
          exact notDone
        simp only [final, afterBox, if_pos finished]
        exact box_completed opened (fun opened => opened finished) more rfl rfl rfl
      · simp only [final, afterBox, if_neg finished]
        exact box_kept ⟨rfl, rfl, rfl⟩ fun _ => finished

end Box

end Balanced

/-! ## The phases -/

/-- What is known in each phase: what is still to come, and the member of the union in use. -/
def Placed (started : Prop) (s : SerState (FullCtx σ) σ) : Prop :=
  match s.ctx.state with
  | .tokensStarted => ¬ started ∧ s.ctx.inputsCount ≠ 0 ∧ s.ctx.outputsCount ≠ 0 ∧
      s.mem.table.count ≤ s.ctx.tableCtx.distinctTokensCount.toNat
  | .inputsStarted => ¬ started ∧ s.ctx.inputsCount ≠ 0 ∧ s.ctx.outputsCount ≠ 0 ∧
      ∃ input, s.ctx.part = .input input
  | .dataInputsStarted => ¬ started ∧ s.ctx.inputsCount = 0 ∧ s.ctx.dataInputsCount ≠ 0 ∧
      s.ctx.outputsCount ≠ 0
  | .outputsStarted => s.ctx.inputsCount = 0 ∧ s.ctx.dataInputsCount = 0 ∧ s.ctx.outputsCount ≠ 0 ∧
      (started → ∃ box, s.ctx.part = .box box)
  | .finished => s.ctx.inputsCount = 0 ∧ s.ctx.dataInputsCount = 0 ∧ s.ctx.outputsCount = 0
  | .error => True

namespace Placed

open TxSerFull

variable {started : Prop} {s t : SerState (FullCtx σ) σ} {call : FullCall σ}

theorem inputs (placed : Placed started s) (state : s.ctx.state = .inputsStarted) :
    (∃ input, s.ctx.part = .input input) ∧ s.ctx.inputsCount ≠ 0 := by
  simp only [Placed, state] at placed
  exact ⟨placed.2.2.2, placed.2.1⟩

theorem boxes (placed : Placed started s) (begun : started) (state : s.ctx.state = .outputsStarted) :
    (∃ box, s.ctx.part = .box box) ∧ s.ctx.outputsCount ≠ 0 := by
  simp only [Placed, state] at placed
  exact ⟨placed.2.2.2 begun, placed.2.2.1⟩

variable [UnionLayout σ]

/-- Every call takes off the counters what it completes. -/
theorem balanced (placed : Placed started s) (guard : call.AboutPart → started) :
    Balanced call s (call.after s) := by
  have check : ∀ {α : Type} {state : FullState} {f : Unit → FullM σ α}, (∀ u, Moves SameCounts (f u)) →
      Moves SameCounts (checkProperState state >>= f) :=
    fun rest => ((same_checkProperState _).mono fun _ _ same => same.1).bind rest
  have require : ∀ {c : Prop} [Decidable c] {err : FullErr},
      Moves SameCounts (require c err : FullM σ Unit) := by
    intro c _ err s
    unfold Ergo.require
    split <;> exact ⟨rfl, rfl, rfl⟩
  have same : ∀ {f : FullCtx σ → FullCtx σ}, (∀ ctx, (f ctx).inputsCount = ctx.inputsCount ∧
      (f ctx).dataInputsCount = ctx.dataInputsCount ∧ (f ctx).outputsCount = ctx.outputsCount) →
      Moves SameCounts (modifyCtx f : FullM σ Unit) := fun kept s => kept s.ctx
  have plain : ∀ {prog : FullM σ Unit}, Moves SameCounts prog →
      Moves SameCounts (FullCall.plain prog) := fun moves => moves.bind fun _ => .pure
  have inert : ∀ {call : FullCall σ}, Moves SameCounts call.run →
      (∀ t, call.completed s t = .zero) → Balanced call s (call.after s) :=
    fun moves nothing => balanced_of_same (moves s) (nothing _)
  have part : ∀ call : BoxCall, started → Balanced call.full s (call.full.after s) :=
    fun call begun => Balanced.boxPart (placed.boxes begun)
  cases call with
  | addTokens tokens =>
      refine inert (check fun _ => .bind (same_callTable.mono fun _ _ same => same.1) fun res => ?_)
        fun _ => rfl
      cases res with
      | ok => exact .bind (same fun _ => ⟨rfl, rfl, rfl⟩) fun _ => .pure
      | moreData => exact .pure
  | addInput =>
      exact inert (plain (check fun _ => .bind (fun _ => ⟨rfl, rfl, rfl⟩) fun _ => require.bind
        fun _ => require.bind fun _ => same_callInput)) fun _ => rfl
  | addInputTokens boxId frameIndex tokens =>
      refine Balanced.inputPart (fun _ _ => rfl)
        (c := fun res input => res = .ok ∧ TxSerInput.isFinished input)
        (TxSerInput.marks_addTokens boxId frameIndex tokens) ?_ placed.inputs
      exact fun _ _ _ ok => TxSerInput.addTokens_done ok
  | addInputContextExtension chunk =>
      refine Balanced.inputPart (fun _ _ => rfl) (c := fun res _ => res = .ok)
        (TxSerInput.marks_addContextExtension chunk) ?_ placed.inputs
      exact fun _ _ _ ok => TxSerInput.addContextExtension_done ok
  | addDataInputs inputs => exact Balanced.addDataInputs s
  | addBox =>
      exact inert (plain (check fun _ => .bind (fun _ => ⟨rfl, rfl, rfl⟩) fun _ => require.bind
        fun _ => same_callBox)) fun _ => rfl
  | addBoxErgoTree chunk => exact part (.tree chunk) (guard trivial)
  | addBoxChangeTree rawPubKey => exact part (.changeTree rawPubKey) (guard trivial)
  | addBoxMinersFeeTree isMainnet => exact part (.minersFeeTree isMainnet) (guard trivial)
  | addBoxTokens tokens => exact part (.tokens tokens) (guard trivial)
  | addBoxRegisters chunk => exact part (.registers chunk) (guard trivial)
  | setInputCallback =>
      exact inert (plain (check fun _ => same fun _ => ⟨rfl, rfl, rfl⟩)) fun _ => rfl
  | setBoxCallbacks =>
      exact inert (plain (check fun _ => same fun _ => ⟨rfl, rfl, rfl⟩)) fun _ => rfl

omit [UnionLayout σ] in
/-- The phase after an input. -/
private theorem inputEnd {ctx : FullCtx σ} {hash : List UInt8} {m : Mem σ}
    (notStarted : ¬ started) (part : ∃ input, ctx.part = .input input)
    (state : ctx.state = .inputsStarted) (outputs : ctx.outputsCount ≠ 0) :
    Placed started ⟨inputEnd ctx, hash, m⟩ ∧
      FullState.inputsStarted.index ≤ (TxSerFull.inputEnd ctx).state.index := by
  by_cases last : LastInput ctx
  · have none : ctx.inputsCount - 1 = 0 := last
    by_cases noData : ctx.dataInputsCount = 0
    · simp [Placed, TxSerFull.inputEnd, last, none, noData, outputs, notStarted, FullState.index]
    · simp [Placed, TxSerFull.inputEnd, last, none, noData, outputs, notStarted, FullState.index]
  · have some : ctx.inputsCount - 1 ≠ 0 := last
    simp [Placed, TxSerFull.inputEnd, last, state, some, outputs, notStarted, part, FullState.index]

omit [UnionLayout σ] in
/-- After a call about the input. -/
private theorem afterInput {v : SerState (InputCtx σ) σ} {m : Mem σ} (placed : Placed started s)
    (state : s.ctx.state = .inputsStarted) :
    Placed started (afterInput s.ctx v m) ∧
      s.ctx.state.index ≤ (TxSerFull.afterInput s.ctx v m).ctx.state.index := by
  simp only [Placed, state] at placed
  obtain ⟨notStarted, more, outputs, -⟩ := placed
  rw [TxSerFull.afterInput]
  by_cases finished : v.ctx.state = .finished
  · simp only [if_pos finished, state]
    exact inputEnd notStarted ⟨v.ctx, rfl⟩ state outputs
  · simp [if_neg finished, Placed, FullCtx.setInputCtx, state, notStarted, more, outputs]

/-- After a call about a part of a box. -/
private theorem boxPart (call : BoxCall) (placed : Placed started s) {r : Progress}
    (ran : call.full.run s = .ok r t) :
    Placed started t ∧ s.ctx.state.index ≤ t.ctx.state.index := by
  obtain ⟨state, v, -, rfl⟩ := BoxCall.full_ok.mp ran
  simp only [Placed, state] at placed
  obtain ⟨inputs, dataInputs, outputs, -⟩ := placed
  by_cases finished : v.ctx.state = .finished
  · by_cases last : s.ctx.outputsCount - 1 = 0
    · simp [afterBox, finished, outputEnd, FullCtx.setBoxCtx, last, Placed, inputs, dataInputs,
        state, FullState.index]
    · simp [afterBox, finished, outputEnd, FullCtx.setBoxCtx, last, Placed, inputs, dataInputs,
        state]
  · simp [afterBox, finished, FullCtx.setBoxCtx, Placed, inputs, dataInputs, state, outputs]

/-- Every call that succeeds leaves what is known in the phase it leaves. -/
theorem ok (placed : Placed started s) {r : Progress} (ran : call.run s = .ok r t) :
    Placed (started ∨ call.StartsBox s.ctx) t ∧ s.ctx.state.index ≤ t.ctx.state.index := by
  have still : ∀ {p : Prop}, Placed started t ∧ p → Placed (started ∨ False) t ∧ p := by
    intro p h
    rwa [or_false]
  cases call with
  | addTokens tokens =>
      refine still ?_
      have state : s.ctx.state = .tokensStarted := (checkProperState_bind_ok.mp ran).1
      simp only [Placed, state] at placed
      obtain ⟨notStarted, inputs, outputs, fits⟩ := placed
      obtain ⟨-, ids, -, room, rfl, -⟩ := (addTokens_ok fits).mp ran
      by_cases last : LastTokens s.ctx s.mem.table ids.length
      · simp [last, Placed, inputsEntered, notStarted, inputs, outputs, state, FullState.index]
      · simp [last, Placed, state, notStarted, inputs, outputs]
        simpa [TokenTable.append, TokenTable.count] using room
  | addInput =>
      refine still ?_
      obtain ⟨state, -, -, -, rfl⟩ := addInput_ok.mp (plain_ok.mp ran).1
      simp only [Placed, state] at placed
      obtain ⟨notStarted, inputs, outputs, -⟩ := placed
      simp [Placed, FullCtx.setInputCtx, state, notStarted, inputs, outputs]
  | addInputTokens boxId frameIndex tokens =>
      refine still ?_
      obtain ⟨state, v, -, m, -, rfl⟩ := addInputTokens_ok.mp ran
      exact placed.afterInput state
  | addInputContextExtension chunk =>
      refine still ?_
      obtain ⟨state, v, -, m, -, rfl⟩ := addInputContextExtension_ok.mp ran
      exact placed.afterInput state
  | addDataInputs inputs =>
      refine still ?_
      obtain ⟨state, ids, -, room, m, -, rest⟩ := addDataInputs_ok.mp ran
      simp only [Placed, state] at placed
      obtain ⟨notStarted, noInputs, -, outputs⟩ := placed
      have left := Counter.toNat_sub_ofNat16 room
      by_cases all : ids.length = s.ctx.dataInputsCount.toNat
      · rw [if_pos all] at rest
        obtain ⟨n, -, -, rfl⟩ := rest
        have none : (dataInputsTaken s.ctx ids.length).dataInputsCount = 0 := by
          rw [← UInt16.toNat_inj, dataInputsTaken, left, all]
          simp
        refine ⟨⟨noInputs, none, outputs, fun begun => (notStarted begun).elim⟩, ?_⟩
        simp [state, FullState.index]
      · rw [if_neg all] at rest
        obtain ⟨-, rfl⟩ := rest
        have some : (dataInputsTaken s.ctx ids.length).dataInputsCount ≠ 0 := by
          rw [Counter.toNat_pos16, dataInputsTaken, left]
          omega
        simp only [Placed, state, dataInputsTaken, le_refl, and_true]
        exact ⟨notStarted, noInputs, some, outputs⟩
  | addBox =>
      obtain ⟨state, more, -, m, -, rfl⟩ := addBox_ok.mp (plain_ok.mp ran).1
      simp only [Placed, state] at placed
      obtain ⟨inputs, dataInputs, -, -⟩ := placed
      simp [Placed, FullCtx.setBoxCtx, state, inputs, dataInputs, more]
  | addBoxErgoTree chunk =>
      refine still ?_
      exact Placed.boxPart (.tree chunk) placed ran
  | addBoxChangeTree rawPubKey =>
      refine still ?_
      exact Placed.boxPart (.changeTree rawPubKey) placed ran
  | addBoxMinersFeeTree isMainnet =>
      refine still ?_
      exact Placed.boxPart (.minersFeeTree isMainnet) placed ran
  | addBoxTokens tokens =>
      refine still ?_
      exact Placed.boxPart (.tokens tokens) placed ran
  | addBoxRegisters chunk =>
      refine still ?_
      exact Placed.boxPart (.registers chunk) placed ran
  | setInputCallback =>
      refine still ?_
      obtain ⟨state, set⟩ := checkProperState_bind_ok.mp (plain_ok.mp ran).1
      obtain rfl := modifyCtx_ok.mp set
      simp only [Placed, state] at placed
      obtain ⟨notStarted, inputs, outputs, -⟩ := placed
      simp [Placed, FullCtx.setInputCtx, state, notStarted, inputs, outputs]
  | setBoxCallbacks =>
      refine still ?_
      obtain ⟨state, set⟩ := checkProperState_bind_ok.mp (plain_ok.mp ran).1
      obtain rfl := modifyCtx_ok.mp set
      simp only [Placed, state] at placed
      obtain ⟨inputs, dataInputs, outputs, -⟩ := placed
      simp [Placed, FullCtx.setBoxCtx, state, inputs, dataInputs, outputs]

/-- Every call leaves what is known in the phase it leaves. -/
theorem step (placed : Placed started s) : Placed (started ∨ call.StartsBox s.ctx) (call.after s) := by
  rw [FullCall.after]
  cases ran : call.run s with
  | ok r t => exact (placed.ok ran).1
  | error e t =>
      have failed := FullCtx.error_of_marked (TxSerFull.marks_run call s e t ran)
      simp [final, Placed, failed]

omit [UnionLayout σ] in
/-- Boxes are to come until the transaction is finished or in error. -/
theorem moreBoxes (placed : Placed started s) (notFinished : s.ctx.state ≠ .finished)
    (notError : s.ctx.state ≠ .error) : s.ctx.outputsCount ≠ 0 := by
  unfold Placed at placed
  split at placed
  · exact placed.2.2.1
  · exact placed.2.2.1
  · exact placed.2.2.2
  · exact placed.2.2.1
  · contradiction
  · contradiction

end Placed

/-- What holds of every state that calls lead to. -/
structure Counted (begun : SerState (FullCtx σ) σ) (tally : Tally) (s : SerState (FullCtx σ) σ) :
    Prop where
  inputs : s.ctx.inputsCount.toNat + tally.inputs = begun.ctx.inputsCount.toNat
  dataInputs : s.ctx.dataInputsCount.toNat + tally.dataInputs = begun.ctx.dataInputsCount.toNat
  boxes : s.ctx.outputsCount.toNat + tally.boxes = begun.ctx.outputsCount.toNat

theorem Counted.step {begun s t : SerState (FullCtx σ) σ} {tally : Tally} {call : FullCall σ}
    (counted : Counted begun tally s) (balanced : Balanced call s t) :
    Counted begun (tally.add (call.completed s t)) t := by
  obtain ⟨inputs, dataInputs, boxes⟩ := counted
  obtain ⟨inputs', dataInputs', boxes'⟩ := balanced
  constructor
  · simp only [Tally.add]
    omega
  · simp only [Tally.add]
    omega
  · simp only [Tally.add]
    omega

variable [UnionLayout σ]

theorem Reached.invariant {begun s : SerState (FullCtx σ) σ} {started : Prop} {tally : Tally}
    (first : Placed False begun) (reached : Reached begun started tally s) :
    Placed started s ∧ Counted begun tally s := by
  induction reached with
  | init => exact ⟨first, rfl, rfl, rfl⟩
  | @call started tally s call earlier guard ih =>
      obtain ⟨placed, counted⟩ := ih
      exact ⟨placed.step, counted.step (placed.balanced guard)⟩

namespace FullCall

variable {call : FullCall σ} {s t : SerState (FullCtx σ) σ}

omit [UnionLayout σ] in
/-- Only calls about a part of a box complete one, and they complete one at most. -/
theorem completed_boxes (some : (call.completed s t).boxes ≠ 0) :
    (∃ part : BoxCall, call = part.full) ∧ (call.completed s t).boxes = 1 := by
  have one : ∀ {p : Prop} [Decidable p], (if p then 1 else 0) ≠ 0 → (if p then 1 else 0) = 1 := by
    intro p _ some
    by_cases h : p <;> simp_all
  cases call with
  | addBoxErgoTree chunk => exact ⟨⟨.tree chunk, rfl⟩, one some⟩
  | addBoxChangeTree rawPubKey => exact ⟨⟨.changeTree rawPubKey, rfl⟩, one some⟩
  | addBoxMinersFeeTree isMainnet => exact ⟨⟨.minersFeeTree isMainnet, rfl⟩, one some⟩
  | addBoxTokens tokens => exact ⟨⟨.tokens tokens, rfl⟩, one some⟩
  | addBoxRegisters chunk => exact ⟨⟨.registers chunk, rfl⟩, one some⟩
  | addTokens | addInput | addInputTokens | addInputContextExtension | addDataInputs | addBox
  | setInputCallback | setBoxCallbacks => exact (some rfl).elim

/-- The last box that is complete finishes the transaction. -/
theorem finished_of_completed (completed : (call.completed s (call.after s)).boxes ≠ 0)
    (balanced : Balanced call s (call.after s)) (none : (call.after s).ctx.outputsCount = 0) :
    (call.after s).ctx.state = .finished := by
  obtain ⟨⟨part, rfl⟩, one⟩ := completed_boxes completed
  have counter := balanced.boxes
  rw [one] at counter
  rw [FullCall.after] at *
  cases ran : part.full.run s with
  | error e t =>
      have same : t.ctx.outputsCount = s.ctx.outputsCount := by
        rcases TxSerFull.boxCall_error ran with rfl | ⟨e', v, -, rfl⟩ <;> rfl
      rw [ran, final, same] at counter
      omega
  | ok r t =>
      rw [ran, final] at none counter
      obtain ⟨-, v, -, rfl⟩ := BoxCall.full_ok.mp ran
      by_cases finished : v.ctx.state = .finished
      · simp only [TxSerFull.afterBox, if_pos finished, TxSerFull.outputEnd] at none ⊢
        simp only [final, if_pos none]
      · simp only [TxSerFull.afterBox, if_neg finished, FullCtx.setBoxCtx] at counter
        omega

end FullCall

/-- The full serializer as a state machine. After a successful `init`, whatever calls are made:
    the counters are what is still to be completed, and for every next call the phase does not
    move backwards, the transaction is finished by the last declared box and by nothing else, an
    error is final, and once no call is expected every call fails and touches neither the hash nor
    the memory of the callbacks. -/
theorem phases_and_counters {inputs dataInputs outputs : UInt16} {tokens : UInt8}
    {fresh begun s : SerState (FullCtx σ) σ} {started : Prop} {tally : Tally}
    (initialized : TxSerFull.init inputs dataInputs outputs tokens fresh = .ok () begun)
    (reached : Reached begun started tally s) :
    (s.ctx.inputsCount.toNat + tally.inputs = inputs.toNat ∧
      s.ctx.dataInputsCount.toNat + tally.dataInputs = dataInputs.toNat ∧
      s.ctx.outputsCount.toNat + tally.boxes = outputs.toNat) ∧
    ∀ call : FullCall σ, (call.AboutPart → started) →
      s.ctx.state.index ≤ (call.after s).ctx.state.index ∧
      (s.ctx.state ≠ .finished → ((call.after s).ctx.state = .finished ↔
        (call.completed s (call.after s)).boxes = 1 ∧ tally.boxes + 1 = outputs.toNat)) ∧
      (∀ e t, call.run s = .error e t → t.ctx.state = .error) ∧
      (s.ctx.state = .finished ∨ s.ctx.state = .error →
        ∃ e t, call.run s = .error e t ∧ t.hash = s.hash ∧ t.mem = s.mem) := by
  obtain ⟨⟨someInputs, someOutputs⟩, bounded, empty, m, ran, rfl⟩ := TxSerFull.init_ok.mp initialized
  have first : Placed False (⟨TxSerFull.started inputs dataInputs outputs ⟨tokens, bounded⟩,
      fresh.hash ++ vlq inputs.toNat, m⟩ : SerState (FullCtx σ) σ) := by
    by_cases none : tokens = 0
    · simp [Placed, TxSerFull.started, TxSerFull.inputsEntered, none, someInputs, someOutputs]
    · simp [Placed, TxSerFull.started, none, someInputs, someOutputs, ran.table, empty]
  obtain ⟨placed, counted⟩ := reached.invariant first
  have declared : s.ctx.inputsCount.toNat + tally.inputs = inputs.toNat ∧
      s.ctx.dataInputsCount.toNat + tally.dataInputs = dataInputs.toNat ∧
      s.ctx.outputsCount.toNat + tally.boxes = outputs.toNat := by
    obtain ⟨someInputs, someData, someBoxes⟩ := counted
    by_cases none : tokens = 0
    · simp only [TxSerFull.started, TxSerFull.inputsEntered, none, if_true] at *
      exact ⟨someInputs, someData, someBoxes⟩
    · simp only [TxSerFull.started, none, if_false] at *
      exact ⟨someInputs, someData, someBoxes⟩
  refine ⟨declared, fun call guard => ⟨?_, ?_, ?_, ?_⟩⟩
  · rw [FullCall.after]
    cases ran : call.run s with
    | ok r t => exact (placed.ok ran).2
    | error e t =>
        have failed := FullCtx.error_of_marked (TxSerFull.marks_run call s e t ran)
        rw [final, failed]
        cases s.ctx.state <;> decide
  · intro notFinished
    have balanced := placed.balanced guard
    have counter := balanced.boxes
    constructor
    · intro finished
      have none : (call.after s).ctx.outputsCount = 0 := by
        have placed' : Placed (started ∨ call.StartsBox s.ctx) (call.after s) := placed.step
        simp only [Placed, finished] at placed'
        exact placed'.2.2
      have more : s.ctx.outputsCount ≠ 0 := by
        apply placed.moreBoxes notFinished
        intro failed
        rw [FullCall.after, TxSerFull.run_of_dead call (.inr failed)] at finished
        cases finished
      have positive := Counter.toNat_pos16.mp more
      rw [none, UInt16.toNat_zero] at counter
      have some : (call.completed s (call.after s)).boxes ≠ 0 := by omega
      have one := (FullCall.completed_boxes some).2
      exact ⟨one, by omega⟩
    · rintro ⟨completed, last⟩
      apply FullCall.finished_of_completed (by omega) balanced
      rw [← UInt16.toNat_inj, UInt16.toNat_zero]
      omega
  · intro e t failed
    exact FullCtx.error_of_marked (TxSerFull.marks_run call s e t failed)
  · intro dead
    exact ⟨_, _, TxSerFull.run_of_dead call dead, rfl, rfl⟩

/-- A transaction with one input and one output, after its input was started. -/
def inputStarted : SerState (FullCtx Unit) Unit :=
  FullCall.after (.addInput (Bytes.zero 32) 1 0) (final (TxSerFull.init 1 0 1 0 idle))

theorem phases_and_counters_inputStarted :
    (inputStarted.ctx.inputsCount.toNat + 0 = 1 ∧ inputStarted.ctx.dataInputsCount.toNat + 0 = 0 ∧
      inputStarted.ctx.outputsCount.toNat + 0 = 1) ∧
    ∀ call : FullCall Unit, ¬ call.AboutPart →
      inputStarted.ctx.state.index ≤ (call.after inputStarted).ctx.state.index := by
  have initialized : TxSerFull.init 1 0 1 0 idle = .ok () (final (TxSerFull.init 1 0 1 0 idle)) :=
    eq_ok_of_succeeds (by decide)
  obtain ⟨counters, calls⟩ := phases_and_counters initialized
    (.call (.addInput (Bytes.zero 32) 1 0) .init False.elim)
  exact ⟨counters, fun call other => (calls call fun about => (other about).elim).1⟩

end LedgerErgo.Ergo
