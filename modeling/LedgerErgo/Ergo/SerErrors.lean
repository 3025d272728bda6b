import LedgerErgo.Ergo.BoxCall

/-! # Errors of the serializers

A call that fails puts its context into the error state, and a full serializer does so for
the errors of its parts too. What a call has hashed before it fails stays hashed: the
stream only grows.
-/

namespace LedgerErgo.Ergo

open LedgerErgo.Common LedgerErgo.Prog

section Programs

variable {ε ε' κ κ' σ α β : Type} [Failable κ]

section Rules

variable {s t : SerState κ σ} {e err : ε}

theorem require_error {c : Prop} [Decidable c] :
    (require c err : EStateM ε (SerState κ σ) Unit) s = .error e t ↔
      ¬ c ∧ err = e ∧ { s with ctx := Failable.failed s.ctx } = t := by
  unfold require
  split
  · simp [*]
  · simp [*, resError, bind_error]

theorem orFail_error {value : Option α} :
    (orFail value err : EStateM ε (SerState κ σ) α) s = .error e t ↔
      value = none ∧ err = e ∧ { s with ctx := Failable.failed s.ctx } = t := by
  cases value with
  | none => simp [orFail, resError, bind_error]
  | some a => simp [orFail]

theorem onMem_error {call : EStateM ε (Mem σ) α} :
    (onMem call : EStateM ε (SerState κ σ) α) s = .error e t ↔
      ∃ m, call s.mem = .error e m ∧ ⟨Failable.failed s.ctx, s.hash, m⟩ = t := by
  unfold onMem
  cases h : call s.mem <;> simp

theorem hashUpdate_error {data : List UInt8} :
    (hashUpdate err data : EStateM ε (SerState κ σ) Unit) s = .error e t ↔
      ∃ m, sdkCall err s.mem = .error e m ∧ ⟨Failable.failed s.ctx, s.hash, m⟩ = t := by
  simp [hashUpdate, bind_error, onMem_error]

theorem callPart_error {part : κ → κ'} {setPart : κ' → κ → κ} {mapResult : ε' → ε}
    {call : EStateM ε' (SerState κ' σ) α} :
    callPart part setPart mapResult call s = .error e t ↔
      ∃ e' v, call { s with ctx := part s.ctx } = .error e' v ∧ mapResult e' = e ∧
        { v with ctx := Failable.failed (setPart v.ctx s.ctx) } = t := by
  unfold callPart
  cases h : call { s with ctx := part s.ctx } <;> simp

end Rules

/-- The context is in its error state. -/
def SerState.Marked (s : SerState κ σ) : Prop := ∃ ctx, s.ctx = Failable.failed ctx

/-- A run that fails leaves the context in its error state. -/
def Marks (prog : EStateM ε (SerState κ σ) α) : Prop :=
  ∀ s e t, prog s = .error e t → t.Marked

namespace Marks

theorem bind {x : EStateM ε (SerState κ σ) α} {f : α → EStateM ε (SerState κ σ) β}
    (first : Marks x) (next : ∀ a, Marks (f a)) : Marks (x >>= f) := by
  intro s e t failed
  rcases bind_error.mp failed with here | ⟨a, u, -, later⟩
  · exact first s e t here
  · exact next a u e t later

theorem pure {a : α} : Marks (Pure.pure a : EStateM ε (SerState κ σ) α) := by
  intro s e t failed
  exact (pure_error.mp failed).elim

theorem getCtx : Marks (getCtx : EStateM ε (SerState κ σ) κ) := by
  intro s e t failed
  cases failed

theorem get : Marks (get : EStateM ε (SerState κ σ) _) := by
  intro s e t failed
  exact (get_error.mp failed).elim

theorem modifyCtx {f : κ → κ} : Marks (modifyCtx f : EStateM ε (SerState κ σ) Unit) := by
  intro s e t failed
  exact (modify_error.mp failed).elim

theorem ite {p : Prop} [Decidable p] {x y : EStateM ε (SerState κ σ) α} (yes : Marks x)
    (no : Marks y) : Marks (if p then x else y) := by
  split
  · exact yes
  · exact no

theorem require {c : Prop} [Decidable c] {err : ε} :
    Marks (require c err : EStateM ε (SerState κ σ) Unit) := by
  intro s e t failed
  obtain ⟨-, -, rfl⟩ := require_error.mp failed
  exact ⟨s.ctx, rfl⟩

theorem orFail {value : Option α} {err : ε} :
    Marks (orFail value err : EStateM ε (SerState κ σ) α) := by
  intro s e t failed
  obtain ⟨-, -, rfl⟩ := orFail_error.mp failed
  exact ⟨s.ctx, rfl⟩

theorem onMem {call : EStateM ε (Mem σ) α} :
    Marks (onMem call : EStateM ε (SerState κ σ) α) := by
  intro s e t failed
  obtain ⟨m, -, rfl⟩ := onMem_error.mp failed
  exact ⟨s.ctx, rfl⟩

theorem hashUpdate {err : ε} {data : List UInt8} :
    Marks (hashUpdate err data : EStateM ε (SerState κ σ) Unit) := by
  intro s e t failed
  obtain ⟨m, -, rfl⟩ := hashUpdate_error.mp failed
  exact ⟨s.ctx, rfl⟩

/-- The error of a part is an error of the whole, whatever the part did about it. -/
theorem callPart {part : κ → κ'} {setPart : κ' → κ → κ} {mapResult : ε' → ε}
    {call : EStateM ε' (SerState κ' σ) α} : Marks (callPart part setPart mapResult call) := by
  intro s e t failed
  obtain ⟨e', v, -, -, rfl⟩ := callPart_error.mp failed
  exact ⟨_, rfl⟩

theorem whileData {ι : Type} {body : List ι → EStateM ε (SerState κ σ) (List ι)}
    (each : ∀ input, Marks (body input)) (rounds : Nat) (input : List ι) :
    Marks (whileData body rounds input) := by
  intro s e t failed
  exact whileData_error (fun _ _ => True) SerState.Marked (fun _ _ _ _ _ _ => trivial)
    (fun input s e t _ here => each input s e t here) trivial failed

end Marks

/-- What was hashed stays hashed. -/
def Absorbs (s t : SerState κ σ) : Prop := s.hash <+: t.hash

omit [Failable κ] in
instance : Std.Refl (Absorbs (κ := κ) (σ := σ)) := ⟨fun _ => List.prefix_rfl⟩

omit [Failable κ] in
instance : IsTrans (SerState κ σ) Absorbs := ⟨fun _ _ _ first next => first.trans next⟩

theorem absorbs_orFail {value : Option α} {err : ε} :
    Moves Absorbs (orFail value err : EStateM ε (SerState κ σ) α) := by
  intro s
  cases value <;> exact List.prefix_rfl

theorem absorbs_onMem {call : EStateM ε (Mem σ) α} :
    Moves Absorbs (onMem call : EStateM ε (SerState κ σ) α) := by
  intro s
  unfold onMem
  cases call s.mem <;> exact List.prefix_rfl

theorem absorbs_hashUpdate {err : ε} {data : List UInt8} :
    Moves Absorbs (hashUpdate err data : EStateM ε (SerState κ σ) Unit) :=
  absorbs_onMem.bind fun _ _ => List.prefix_append ..

theorem absorbs_callPart {part : κ → κ'} {setPart : κ' → κ → κ} {mapResult : ε' → ε}
    {call : EStateM ε' (SerState κ' σ) α} (inner : Moves Absorbs call) :
    Moves Absorbs (callPart part setPart mapResult call) := by
  intro s
  have moved := inner { s with ctx := part s.ctx }
  unfold callPart
  cases h : call { s with ctx := part s.ctx } with
  | ok a t =>
      rw [h] at moved
      exact moved
  | error e t =>
      rw [h] at moved
      exact moved

end Programs

variable {σ : Type}

/-- An error state is not a finished one. -/
theorem InputCtx.not_finished_of_marked {s : SerState (InputCtx σ) σ} (marked : s.Marked) :
    s.ctx.state ≠ .finished := by
  obtain ⟨ctx, failed⟩ := marked
  simp [failed, Failable.failed]

theorem BoxCtx.not_finished_of_marked {s : SerState (BoxCtx σ) σ} (marked : s.Marked) :
    s.ctx.state ≠ .finished := by
  obtain ⟨ctx, failed⟩ := marked
  simp [failed, Failable.failed]

theorem FullCtx.error_of_marked {s : SerState (FullCtx σ) σ} (marked : s.Marked) :
    s.ctx.state = .error := by
  obtain ⟨ctx, failed⟩ := marked
  rw [failed]
  rfl

namespace TxSerInput

theorem marks_addTokens (boxId : ErgoId) (frameIndex : UInt8) (tokens : Buffer) :
    Marks (addTokens boxId frameIndex tokens : EStateM _ (SerState (InputCtx σ) σ) _) := by
  have readToken : ∀ input, Marks (readToken input : EStateM _ (SerState (InputCtx σ) σ) _) :=
    fun input => .bind .orFail fun _ => .bind .orFail fun _ => .bind .getCtx fun _ =>
      .bind .onMem fun _ => .pure
  have frameAdded : Marks (frameAdded boxId : EStateM _ (SerState (InputCtx σ) σ) _) := by
    refine .bind .modifyCtx fun _ => .bind .getCtx fun _ => .ite ?_ .pure
    refine .bind .hashUpdate fun _ => .bind .hashUpdate fun _ => .ite ?_ ?_
    · exact .bind .hashUpdate fun _ => .bind .modifyCtx fun _ => .pure
    · exact .bind .modifyCtx fun _ => .pure
  exact .bind .getCtx fun _ => .bind .require fun _ => .bind .require fun _ => .bind .require fun _ =>
    .bind .require fun _ => .bind (.whileData readToken _ _) fun _ => frameAdded

theorem marks_addContextExtension (chunk : Buffer) :
    Marks (addContextExtension chunk : EStateM _ (SerState (InputCtx σ) σ) _) :=
  .bind .getCtx fun _ => .bind .require fun _ => .bind .require fun _ => .bind .hashUpdate fun _ =>
    .bind .modifyCtx fun _ => .bind .getCtx fun _ => .ite (.bind .modifyCtx fun _ => .pure) .pure

end TxSerInput

namespace TxSerBox

theorem marks_boxFinished : Marks (boxFinished : EStateM _ (SerState (BoxCtx σ) σ) _) :=
  .bind .getCtx fun _ => .bind .onMem fun _ => .modifyCtx

theorem marks_addEmptyRegistersCount :
    Marks (addEmptyRegistersCount : EStateM _ (SerState (BoxCtx σ) σ) _) :=
  .bind .orFail fun _ => .hashUpdate

theorem marks_ergoTreeAdded : Marks (ergoTreeAdded : EStateM _ (SerState (BoxCtx σ) σ) _) := by
  have heightAndCount : Marks (addHeightAndTokenCount : EStateM _ (SerState (BoxCtx σ) σ) _) :=
    .bind .getCtx fun _ => .bind .orFail fun _ => .bind .hashUpdate fun _ => .bind .orFail fun _ =>
      .hashUpdate
  refine .bind .getCtx fun _ => .bind .onMem fun _ => .bind heightAndCount fun _ => .ite ?_ .modifyCtx
  exact .bind .modifyCtx fun _ => .ite
    (.bind marks_addEmptyRegistersCount fun _ => marks_boxFinished) .pure

theorem marks_addTree (chunk : Buffer) :
    Marks (addTree chunk : EStateM _ (SerState (BoxCtx σ) σ) _) := by
  have chunkAdded : Marks (treeChunkAdded chunk.length : EStateM _ (SerState (BoxCtx σ) σ) _) :=
    .bind .modifyCtx fun _ => .bind .getCtx fun _ => .ite
      (.bind .modifyCtx fun _ => .bind marks_ergoTreeAdded fun _ => .pure) .pure
  exact .bind .getCtx fun _ => .bind .require fun _ => .bind .require fun _ => .bind .require fun _ =>
    .bind .hashUpdate fun _ => chunkAdded

theorem marks_addWholeTree (type : BoxType) (tree : List UInt8) :
    Marks (addWholeTree type tree : EStateM _ (SerState (BoxCtx σ) σ) _) :=
  .bind .getCtx fun _ => .bind .require fun _ => .bind .hashUpdate fun _ => .bind .modifyCtx fun _ =>
    marks_ergoTreeAdded

theorem marks_addRegisters (chunk : Buffer) :
    Marks (addRegisters chunk : EStateM _ (SerState (BoxCtx σ) σ) _) := by
  have chunkAdded :
      Marks (registersChunkAdded chunk.length : EStateM _ (SerState (BoxCtx σ) σ) _) :=
    .bind .modifyCtx fun _ => .bind .getCtx fun _ => .ite
      (.bind marks_boxFinished fun _ => .pure) .pure
  exact .bind .getCtx fun _ => .bind .require fun _ => .bind .require fun _ => .bind .hashUpdate fun _ =>
    chunkAdded

/-- The name of a token is read or the box is marked, unless the index is cut off. -/
private theorem readTokenRef_error {table : Option TableCtx} {input : Buffer}
    {s t : SerState (BoxCtx σ) σ} {e : BoxErr} (failed : readTokenRef table input s = .error e t) :
    t.Marked ∨ table.isSome ∧ input.length < 4 ∧ t = s := by
  cases table with
  | none =>
      have marks : Marks (readTokenRef none input : EStateM _ (SerState (BoxCtx σ) σ) _) :=
        .bind .orFail fun _ => .bind .hashUpdate fun _ => .pure
      exact .inl (marks s e t failed)
  | some table =>
      unfold readTokenRef at failed
      cases read : bufferReadU32 input with
      | none =>
          simp only [read, throw_error] at failed
          exact .inr ⟨rfl, bufferReadU32_eq_none.mp read, failed.2.symm⟩
      | some found =>
          simp only [read] at failed
          have marks : Marks (do
              require (found.1.toNat < table.distinctTokensCount.toNat) .badTokenIndex
              let bytes ← orFail (RwBuffer.scratch 10 (gvePutU32 · found.1)) .buffer
              hashUpdate .hasher bytes
              return (TokenRef.index found.1, found.2) :
              EStateM BoxErr (SerState (BoxCtx σ) σ) (TokenRef × Buffer)) :=
            .bind .require fun _ => .bind .orFail fun _ => .bind .hashUpdate fun _ => .pure
          exact .inl (marks s e t failed)

/-- A round of the loop that fails marks the box, unless the index of a token is cut off. -/
theorem readToken_error {table : Option TableCtx} {input : Buffer}
    {s t : SerState (BoxCtx σ) σ} {e : BoxErr} (failed : readToken table input s = .error e t) :
    t.Marked ∨ table.isSome ∧ s.ctx.tokensCount ≠ 0 ∧ input.length < 4 ∧ t = s := by
  rw [readToken, getCtx_bind] at failed
  cases bind_error.mp failed with
  | inl marked => exact .inl (Marks.require s e t marked)
  | inr later =>
      obtain ⟨_, u, more, failed⟩ := later
      obtain ⟨count, rfl⟩ := require_ok.mp more
      cases bind_error.mp failed with
      | inl noRef =>
          cases readTokenRef_error noRef with
          | inl marked => exact .inl marked
          | inr short => exact .inr ⟨short.1, count, short.2⟩
      | inr later =>
          obtain ⟨_, u, -, failed⟩ := later
          refine .inl (Marks.bind .orFail (fun _ => ?_) u e t failed)
          exact .bind .orFail fun _ => .bind .hashUpdate fun _ => .bind .onMem fun _ =>
            .bind .modifyCtx fun _ => .pure

theorem marks_tokensRead : Marks (tokensRead : EStateM _ (SerState (BoxCtx σ) σ) _) := by
  refine .bind .getCtx fun _ => .ite (.ite ?_ ?_) .pure
  · exact .bind marks_addEmptyRegistersCount fun _ => .bind marks_boxFinished fun _ => .pure
  · exact .bind .modifyCtx fun _ => .pure

/-- An entry that is too short does not mark the box, but it does not finish it either. -/
theorem not_finished_of_addTokens_error {input : Buffer} {table : Option TableCtx}
    {s t : SerState (BoxCtx σ) σ} {e : BoxErr} (failed : addTokens input table s = .error e t) :
    t.ctx.state ≠ .finished := by
  have keeps : ∀ input (s : SerState (BoxCtx σ) σ) rest t, s.ctx.state = .treeAdded →
      readToken table input s = .ok rest t → t.ctx.state = .treeAdded := by
    intro input s rest t reading ok
    obtain ⟨token, -, taken⟩ := readToken_ok.mp ok
    simp only [takeToken, getCtx_bind, require_bind_ok] at taken
    simp only [bind_ok, exists_unit, onMem_ok, modify_ok] at taken
    obtain ⟨-, -, _, ⟨m, -, rfl⟩, rfl⟩ := taken
    exact reading
  have fails : ∀ input (s : SerState (BoxCtx σ) σ) e t, s.ctx.state = .treeAdded →
      readToken table input s = .error e t → t.ctx.state ≠ .finished := by
    intro input s e t reading failed
    cases readToken_error failed with
    | inl marked => exact BoxCtx.not_finished_of_marked marked
    | inr short =>
        obtain ⟨-, -, -, rfl⟩ := short
        simp [reading]
  rw [addTokens, getCtx_bind] at failed
  rcases bind_error.mp failed with marked | ⟨_, u, checked, failed⟩
  · exact BoxCtx.not_finished_of_marked (Marks.require s e t marked)
  obtain ⟨reading, rfl⟩ := require_ok.mp checked
  rcases bind_error.mp failed with marked | ⟨_, u, -, failed⟩
  · exact whileData_error (fun _ s => s.ctx.state = .treeAdded)
      (fun t => t.ctx.state ≠ .finished) keeps fails reading marked
  · exact BoxCtx.not_finished_of_marked (marks_tokensRead u e t failed)

/-- A call about a part that fails does not finish the box. -/
theorem not_finished_of_error {call : BoxCall} {table : TableCtx} {s t : SerState (BoxCtx σ) σ}
    {e : BoxErr} (failed : call.run table s = .error e t) : t.ctx.state ≠ .finished := by
  cases call with
  | tree chunk => exact BoxCtx.not_finished_of_marked (marks_addTree chunk s e t failed)
  | changeTree rawPubKey =>
      exact BoxCtx.not_finished_of_marked
        (Marks.bind (marks_addWholeTree _ _) (fun _ => .pure) s e t failed)
  | minersFeeTree isMainnet =>
      exact BoxCtx.not_finished_of_marked
        (Marks.bind (marks_addWholeTree _ _) (fun _ => .pure) s e t failed)
  | tokens input => exact not_finished_of_addTokens_error failed
  | registers chunk => exact BoxCtx.not_finished_of_marked (marks_addRegisters chunk s e t failed)

end TxSerBox

/-! ## The full serializer -/

namespace TxSerFull

theorem marks_checkProperState (state : FullState) :
    Marks (checkProperState state : FullM σ Unit) := .bind .getCtx fun _ => .require

theorem marks_hashU16 (u16 : UInt16) : Marks (hashU16 u16 : FullM σ Unit) :=
  .bind .orFail fun _ => .hashUpdate

theorem marks_dataInputsFinished : Marks (dataInputsFinished : FullM σ Unit) :=
  .bind .callPart fun _ => .bind .getCtx fun _ => .bind (marks_hashU16 _) fun _ => .modifyCtx

theorem marks_inputFinished : Marks (inputFinished : FullM σ Unit) := by
  refine .bind .modifyCtx fun _ => .bind .getCtx fun _ => .ite ?_ .pure
  exact .bind (marks_hashU16 _) fun _ => .bind .modifyCtx fun _ => .ite marks_dataInputsFinished .pure

/-- A call about a part of a box fails in the wrong phase or because the box refuses it. -/
theorem boxCall_error [UnionLayout σ] {call : BoxCall} {s t : SerState (FullCtx σ) σ} {e : FullErr}
    (failed : call.full.run s = .error e t) :
    { s with ctx := Failable.failed s.ctx } = t ∨
      ∃ e' v, call.run s.ctx.tableCtx { s with ctx := s.ctx.boxCtx } = .error e' v ∧
        { v with ctx := Failable.failed (s.ctx.setBoxCtx v.ctx) } = t := by
  have refused : ∀ {state : FullState},
      (checkProperState state : FullM σ Unit) s = .error e t →
      { s with ctx := Failable.failed s.ctx } = t :=
    fun failed => (require_error.mp failed).2.2
  have inner : ∀ {α : Type} {prog : EStateM BoxErr (SerState (BoxCtx σ) σ) α},
      (callBox prog : FullM σ α) s = .error e t →
      ∃ e' v, prog { s with ctx := s.ctx.boxCtx } = .error e' v ∧
        { v with ctx := Failable.failed (s.ctx.setBoxCtx v.ctx) } = t := by
    intro α prog failed
    obtain ⟨e', v, ran, -, rfl⟩ := callPart_error.mp failed
    exact ⟨e', v, ran, rfl⟩
  have ends : ∀ {c : Prop} [Decidable c] {u : SerState (FullCtx σ) σ},
      ¬ (if c then outputFinished else pure () : FullM σ Unit) u = .error e t := by
    intro c _ u failed
    rcases ite_error.mp failed with ⟨-, impossible⟩ | ⟨-, impossible⟩
    · exact modify_error.mp impossible
    · exact pure_error.mp impossible
  have tail : ∀ {c : Prop} [Decidable c] {res : Progress} {u : SerState (FullCtx σ) σ},
      ¬ (do if c then outputFinished
            return res : FullM σ Progress) u = .error e t := by
    intro c _ res u failed
    rcases ite_error.mp failed with ⟨-, impossible⟩ | ⟨-, impossible⟩
    · rcases bind_error.mp impossible with impossible | ⟨_, _, -, impossible⟩
      · exact modify_error.mp impossible
      · exact pure_error.mp impossible
    · exact pure_error.mp impossible
  have whole : ∀ {prog : EStateM BoxErr (SerState (BoxCtx σ) σ) Unit},
      FullCall.plain (do
        checkProperState .outputsStarted
        callBox prog
        let ctx ← getCtx
        if TxSerBox.isFinished ctx.boxCtx then outputFinished : FullM σ Unit) s = .error e t →
      { s with ctx := Failable.failed s.ctx } = t ∨
        ∃ e' v, (do prog; return .ok : EStateM _ _ Progress) { s with ctx := s.ctx.boxCtx } =
          .error e' v ∧ { v with ctx := Failable.failed (s.ctx.setBoxCtx v.ctx) } = t := by
    intro prog failed
    rcases bind_error.mp failed with failed | ⟨_, _, -, impossible⟩
    · rcases bind_error.mp failed with failed | ⟨_, u, checked, failed⟩
      · exact .inl (refused failed)
      obtain ⟨-, rfl⟩ := require_ok.mp checked
      rcases bind_error.mp failed with failed | ⟨_, u, -, impossible⟩
      · obtain ⟨e', v, ran, marked⟩ := inner failed
        exact .inr ⟨e', v, bind_of_error ran, marked⟩
      · exact (ends impossible).elim
    · exact (pure_error.mp impossible).elim
  cases call with
  | tree chunk =>
      rcases bind_error.mp failed with failed | ⟨_, u, checked, failed⟩
      · exact .inl (refused failed)
      obtain ⟨-, rfl⟩ := require_ok.mp checked
      rcases bind_error.mp failed with failed | ⟨_, u, -, impossible⟩
      · exact .inr (inner failed)
      · exact (tail impossible).elim
  | changeTree => exact whole failed
  | minersFeeTree => exact whole failed
  | tokens input =>
      rcases bind_error.mp failed with failed | ⟨_, u, checked, failed⟩
      · exact .inl (refused failed)
      obtain ⟨-, rfl⟩ := require_ok.mp checked
      rw [getCtx_bind] at failed
      rcases bind_error.mp failed with failed | ⟨_, u, -, impossible⟩
      · exact .inr (inner failed)
      · exact (tail impossible).elim
  | registers chunk =>
      rcases bind_error.mp failed with failed | ⟨_, u, checked, failed⟩
      · exact .inl (refused failed)
      obtain ⟨-, rfl⟩ := require_ok.mp checked
      rcases bind_error.mp failed with failed | ⟨_, u, -, impossible⟩
      · exact .inr (inner failed)
      · exact (tail impossible).elim

/-- Every call that fails leaves the error state. -/
theorem marks_run [UnionLayout σ] (call : FullCall σ) : Marks call.run := by
  have plain : ∀ {prog : FullM σ Unit}, Marks prog → Marks (FullCall.plain prog) :=
    fun marks => marks.bind fun _ => .pure
  have startInputs : Marks (startInputs : FullM σ Unit) := .modifyCtx
  have outputFinished : Marks (outputFinished : FullM σ Unit) := .modifyCtx
  cases call with
  | addTokens =>
      refine .bind (marks_checkProperState _) fun _ => .bind .callPart fun res => ?_
      cases res with
      | ok => exact .bind startInputs fun _ => .pure
      | moreData => exact .pure
  | addInput =>
      exact plain (.bind (marks_checkProperState _) fun _ => .bind .getCtx fun _ => .bind .require
        fun _ => .bind .require fun _ => .callPart)
  | addInputTokens =>
      exact .bind (marks_checkProperState _) fun _ => .bind .callPart fun _ => .bind .getCtx fun _ =>
        .ite (.bind marks_inputFinished fun _ => .pure) .pure
  | addInputContextExtension =>
      exact .bind (marks_checkProperState _) fun _ => .bind .callPart fun _ =>
        .ite (.bind marks_inputFinished fun _ => .pure) .pure
  | addDataInputs =>
      refine .bind (marks_checkProperState _) fun _ => .bind (.whileData (fun _ => ?_) _ _) fun _ =>
        .bind .getCtx fun _ => .ite (.bind marks_dataInputsFinished fun _ => .pure) .pure
      exact .bind .getCtx fun _ => .bind .require fun _ => .bind .orFail fun _ => .bind .hashUpdate
        fun _ => .bind .modifyCtx fun _ => .pure
  | addBox =>
      exact plain (.bind (marks_checkProperState _) fun _ => .bind .getCtx fun _ => .bind .require
        fun _ => .callPart)
  | addBoxErgoTree =>
      exact .bind (marks_checkProperState _) fun _ => .bind .callPart fun _ => .bind .getCtx fun _ =>
        .ite (.bind outputFinished fun _ => .pure) .pure
  | addBoxChangeTree =>
      exact plain (.bind (marks_checkProperState _) fun _ => .bind .callPart fun _ => .bind .getCtx
        fun _ => .ite outputFinished .pure)
  | addBoxMinersFeeTree =>
      exact plain (.bind (marks_checkProperState _) fun _ => .bind .callPart fun _ => .bind .getCtx
        fun _ => .ite outputFinished .pure)
  | addBoxTokens =>
      exact .bind (marks_checkProperState _) fun _ => .bind .getCtx fun _ => .bind .callPart fun _ =>
        .bind .getCtx fun _ => .ite (.bind outputFinished fun _ => .pure) .pure
  | addBoxRegisters =>
      exact .bind (marks_checkProperState _) fun _ => .bind .callPart fun _ =>
        .ite (.bind outputFinished fun _ => .pure) .pure
  | setInputCallback => exact plain (.bind (marks_checkProperState _) fun _ => .modifyCtx)
  | setBoxCallbacks => exact plain (.bind (marks_checkProperState _) fun _ => .modifyCtx)

/-- In a state in which no call is expected every call fails, and touches nothing else. -/
theorem run_of_dead [UnionLayout σ] (call : FullCall σ) {s : SerState (FullCtx σ) σ}
    (dead : s.ctx.state = .finished ∨ s.ctx.state = .error) :
    call.run s = .error .badState { s with ctx := Failable.failed s.ctx } := by
  have check : ∀ {α : Type} {state : FullState} {f : Unit → FullM σ α}, state ≠ .finished →
      state ≠ .error → (checkProperState state >>= f) s =
        .error .badState { s with ctx := Failable.failed s.ctx } := by
    intro α state f notFinished notError
    have other : s.ctx.state ≠ state := by
      rcases dead with h | h <;> rw [h]
      · exact Ne.symm notFinished
      · exact Ne.symm notError
    have failed : (checkProperState state : FullM σ Unit) s =
        .error .badState { s with ctx := Failable.failed s.ctx } := by
      simp only [checkProperState, getCtx_bind, require, if_neg other]
      rfl
    exact bind_error.mpr (.inl failed)
  have plain : ∀ {prog : FullM σ Unit},
      prog s = .error .badState { s with ctx := Failable.failed s.ctx } →
      FullCall.plain prog s = .error .badState { s with ctx := Failable.failed s.ctx } := by
    intro prog failed
    exact bind_error.mpr (.inl failed)
  cases call with
  | addTokens | addInputTokens | addInputContextExtension | addDataInputs | addBoxErgoTree
  | addBoxTokens | addBoxRegisters => exact check (by simp) (by simp)
  | addInput | addBox | addBoxChangeTree | addBoxMinersFeeTree | setInputCallback
  | setBoxCallbacks => exact plain (check (by simp) (by simp))

end TxSerFull

end LedgerErgo.Ergo
