import LedgerErgo.HandlerSteps
import LedgerErgo.Lib.Outcomes
import LedgerErgo.SessionIds

/-! # How sessions end

An error of a command that continues a session leaves no session and nothing of its context,
whichever layer finds it. Without a session every such command fails, until one is opened. While
the user is asked, commands fail and nothing changes.
-/

namespace LedgerErgo

open LedgerErgo.Common LedgerErgo.Ergo LedgerErgo.Prog LedgerErgo.Runs

/-- There is no command, and its context is erased. -/
structure App.Cleared (app : App) : Prop where
  command : app.currentCommand = .none
  context : app.commandsCtx = .zero

/-- A status word that is not for a command that has to wait. -/
def NotBusy (err : Sw) : Prop := err ≠ .busy

/-- A response with nothing but a status word is the last one of its session. -/
def LastStatus (reply : Reply) (app : App) : Prop :=
  ∀ sw, reply = .status sw → app.Cleared ∧ NotBusy sw

variable {α : Type} {device : Device}

section Checks

variable {E : Sw → Prop} {P : α → App → Prop} {call : AppM α} {mark : App → App}

theorem ends_orSendError (inner : Ends E P call) : Ends E P (orSendError mark call) := by
  intro s
  have here := inner s
  unfold orSendError
  cases ran : call s with
  | ok a t =>
      rw [ran] at here
      exact here
  | error err t =>
      rw [ran] at here
      exact here

theorem throws_checkReadParam {read : Option α} {err : Sw} (kind : E err) :
    Throws E (checkReadParam read err) := by
  cases read with
  | none => exact .throw kind
  | some a => exact .pure

theorem throws_sdkCall {ε σ : Type} {F : ε → Prop} {err : ε} (kind : F err) :
    Throws F (sdkCall err : EStateM ε (Mem σ) Unit) := by
  intro mem
  unfold sdkCall
  rw [get_bind]
  obtain ⟨faults, table, cb⟩ := mem
  cases faults with
  | nil => exact trivial
  | cons failed rest =>
      cases failed with
      | true => exact kind
      | false => exact trivial

theorem throws_sdkCalls {ε σ : Type} {F : ε → Prop} {err : ε} (kind : F err) (n : Nat) :
    Throws F (sdkCalls err n : EStateM ε (Mem σ) Unit) := by
  induction n with
  | zero => exact .pure
  | succ n ih => exact .bind (throws_sdkCall kind) fun _ => ih

theorem notBusy_full (err : FullErr) : NotBusy (swFromTxFullErr err) := by
  cases err <;> exact Sw.noConfusion

theorem notBusy_box (err : BoxErr) : NotBusy (swFromTxBoxErr err) := by
  cases err <;> exact Sw.noConfusion

end Checks

namespace SignTx

/-! ## The operation -/

section Output

variable {σ : Type} {blake2b256 : List UInt8 → ErgoId} {info : OutputInfo}

theorem throws_maybeFinishedSw :
    Throws NotBusy (maybeFinishedSw blake2b256 info : EStateM Sw (Mem σ) OutputInfo) :=
  .translated notBusy_box

theorem throws_setBip32 {path : Bip32Path} :
    Throws NotBusy (setBip32 blake2b256 info path : EStateM Sw (Mem σ) OutputInfo) :=
  .bind (.ensure Sw.noConfusion) fun _ => throws_maybeFinishedSw

theorem throws_setFee : Throws NotBusy (setFee blake2b256 info : EStateM Sw (Mem σ) OutputInfo) :=
  .bind (.ensure Sw.noConfusion) fun _ => throws_maybeFinishedSw

theorem throws_classifyTree {chunk : List UInt8} {isFinished : Bool} :
    Throws NotBusy (classifyTree info chunk isFinished : EStateM Sw (Mem σ) OutputInfo) := by
  unfold classifyTree
  split
  · exact .pure
  · exact .pure
  · exact .bind (throws_sdkCall Sw.noConfusion) fun _ => .pure

theorem throws_addTreeChunk {chunk : List UInt8} {isFinished : Bool} :
    Throws NotBusy (addTreeChunk blake2b256 info chunk isFinished : EStateM Sw (Mem σ) OutputInfo) := by
  have rest (info : OutputInfo) : Throws NotBusy (if info.type = .script then do
      sdkCall .hasherError
      maybeFinishedSw blake2b256 { info with
        tree := .treeHashCtx (info.absorbed ++ chunk)
        isTreeSet := isFinished }
    else maybeFinishedSw blake2b256 info : EStateM Sw (Mem σ) OutputInfo) :=
    .ite (.bind (throws_sdkCall Sw.noConfusion) fun _ => throws_maybeFinishedSw)
      throws_maybeFinishedSw
  refine .bind (.ensure Sw.noConfusion) fun _ => .bind (.ensure Sw.noConfusion) fun _ => ?_
  exact .ite (.bind throws_classifyTree rest) (.bind .pure rest)

end Output

section Calls

variable {sdk : Sdk} [UnionLayout OpMem]

omit [UnionLayout OpMem] in
theorem throws_orHandlerErr {call : OpM α} (inner : Throws NotBusy call) :
    Throws NotBusy (orHandlerErr call) := by
  intro s
  have here := inner s
  unfold orHandlerErr
  cases ran : call s with
  | ok a t => exact trivial
  | error err t =>
      rw [ran] at here
      exact here

omit [UnionLayout OpMem] in
theorem throws_checkProperState {states : List OpState} : Throws NotBusy (checkProperState states) :=
  .bind (.bind .get fun _ => .pure) fun _ => throws_orHandlerErr (.ensure Sw.noConfusion)

omit [UnionLayout OpMem] in
theorem throws_checkTxCall {call : TxSerFull.FullM OpMem α} : Throws NotBusy (checkTxCall call) :=
  throws_orHandlerErr (.translated notBusy_full)

omit [UnionLayout OpMem] in
theorem throws_checkOutputCall {call : OutputInfo → EStateM Sw (Mem OpMem) OutputInfo}
    (inner : ∀ info, Throws NotBusy (call info)) : Throws NotBusy (checkOutputCall call) :=
  throws_orHandlerErr (.zoom (.bind .get fun _ => .bind (inner _) fun _ => .modify) fun _ kind => kind)

omit [UnionLayout OpMem] in
theorem throws_checkTxFinished : Throws NotBusy checkTxFinished := .modify

theorem throws_addInput {boxId : ErgoId} {ergAmount : UInt64} {framesCount : UInt8}
    {extensionLength : UInt32} :
    Throws NotBusy (addInput boxId ergAmount framesCount extensionLength) := by
  refine .bind throws_checkProperState fun _ => .bind throws_checkTxCall fun _ =>
    .bind throws_checkTxCall fun _ => .bind (.bind .get fun _ => .pure) fun ctx => ?_
  cases ctx.mem.amounts.addInput ergAmount with
  | none => exact .bind .modify fun _ => .throw Sw.noConfusion
  | some amounts => exact .modify

theorem throws_outputCall (call : OutputCall) : Throws NotBusy ((OpCall.output call).handle sdk) := by
  cases call with
  | add =>
      exact .bind throws_checkProperState fun _ => .bind throws_checkTxCall fun _ =>
        .bind throws_checkTxCall fun _ => .modify
  | treeChunk =>
      exact .bind throws_checkProperState fun _ => .bind throws_checkTxCall fun _ =>
        .bind (throws_checkOutputCall fun _ => throws_addTreeChunk) fun _ => throws_checkTxFinished
  | treeFee =>
      exact .bind throws_checkProperState fun _ => .bind (.bind .get fun _ => .pure) fun _ =>
        .bind throws_checkTxCall fun _ =>
        .bind (throws_checkOutputCall fun _ => throws_setFee) fun _ => throws_checkTxFinished
  | treeChange =>
      exact .bind .modify fun _ => .bind throws_checkProperState fun _ =>
        .bind throws_checkTxCall fun _ =>
        .bind (throws_checkOutputCall fun _ => throws_setBip32) fun _ => throws_checkTxFinished
  | tokens | registers =>
      exact .bind throws_checkProperState fun _ => .bind throws_checkTxCall fun _ =>
        throws_checkTxFinished

end Calls

/-! ## The handlers of an open session -/

section Handlers

variable [UnionLayout OpMem]

omit [UnionLayout OpMem] in
theorem throws_opCall {call : OpM Unit} (inner : Throws NotBusy call) : Throws NotBusy (opCall call) :=
  ends_orSendError (Throws.zoom inner fun _ kind => kind)

omit [UnionLayout OpMem] in
theorem throws_checkApproved : Throws NotBusy checkApproved :=
  .bind .get fun _ => .ensure Sw.noConfusion

omit [UnionLayout OpMem] in
theorem throws_publicKey {path : Bip32Path} : Throws NotBusy (bip32PublicKey device path) := by
  have calls : Throws NotBusy (opInit (zoom Op.mem Op.setMem id (sdkCalls .internalCryptoError 3))) :=
    .zoom (.zoom (throws_sdkCalls Sw.noConfusion 3) fun _ kind => kind) fun _ kind => kind
  exact .bind (.ensure Sw.noConfusion) fun _ => .bind calls fun _ => .pure

theorem throws_outputPart {subcommand : Subcommand} {cdata : Buffer} {part : AppM Unit}
    (output : subcommand.outputPart device cdata = some part) : Throws NotBusy part := by
  have called (call : OutputCall) : Throws NotBusy (opCall ((OpCall.output call).handle device.sdk)) :=
    throws_opCall (throws_outputCall call)
  cases subcommand with
  | startTx | tokenIds | inputFrame | inputContextExtension | dataInput | output | confirm =>
      cases output
  | outputTreeChunk =>
      obtain rfl := Option.some.inj output
      exact .bind throws_checkApproved fun _ => called (.treeChunk cdata)
  | outputMinersFeeTree =>
      obtain rfl := Option.some.inj output
      exact .bind throws_checkApproved fun _ => .bind (.ensure Sw.noConfusion) fun _ => called .treeFee
  | outputChangeTree =>
      obtain rfl := Option.some.inj output
      exact .bind throws_checkApproved fun _ => .bind (throws_checkReadParam Sw.noConfusion) fun path =>
        .bind .modify fun _ => .bind throws_publicKey fun pubKey => called (.treeChange path.1 pubKey)
  | outputTokens =>
      obtain rfl := Option.some.inj output
      exact .bind throws_checkApproved fun _ => called (.tokens cdata)
  | outputRegisters =>
      obtain rfl := Option.some.inj output
      exact .bind throws_checkApproved fun _ => called (.registers cdata)

omit [UnionLayout OpMem] in
/-- A response that is not only a status word. -/
theorem lastStatus_data {bytes : List UInt8} {app : App} : LastStatus (.data bytes) app :=
  fun _ status => Reply.noConfusion status

omit [UnionLayout OpMem] in
theorem throws_writePairs {start count i : Nat} {render : Nat → RenderM Unit} :
    Throws NotBusy (writePairs start render i count) := by
  induction count generalizing i with
  | zero => exact .pure
  | succ count ih => exact .bind .modify fun _ => ih

omit [UnionLayout OpMem] in
theorem ends_addOutputScreens : Ends NotBusy LastStatus (addOutputScreens device) := by
  unfold addOutputScreens
  refine .bind .get fun app => .bind (.ensure Sw.noConfusion) fun _ => ?_
  dsimp only
  have stored (info : OutputInfo) : Throws NotBusy (storeLastApproved info) := .modify
  have changed (f : Ui → Ui) : Throws NotBusy (modifyUi f) := .modify
  cases device.build with
  | bagl =>
      exact .bind .modify fun _ => .bind (stored _) fun _ => .bind throws_writePairs fun _ =>
        .bind (changed _) fun _ => .bind (stored _) fun _ => .pure fun _ => lastStatus_data
  | nbgl =>
      exact .bind throws_writePairs fun _ => .bind (changed _) fun _ => .bind (stored _) fun _ =>
        .pure fun _ => lastStatus_data

omit [UnionLayout OpMem] in
theorem ends_displayScreens {prompt : Prompt} : Ends NotBusy LastStatus (displayScreens prompt) :=
  .bind .get fun _ => .bind (.ensure Sw.noConfusion) fun _ => .bind .modify fun _ =>
    .pure fun _ _ status => Reply.noConfusion status

omit [UnionLayout OpMem] in
theorem ends_showOutput : Ends NotBusy LastStatus (showOutputScreenIfNeeded device) := by
  have screen : Throws NotBusy addScreen := .modify
  unfold showOutputScreenIfNeeded
  refine .bind .get fun app => .ite ?_ (.pure fun _ => lastStatus_data)
  unfold showOutputConfirmScreen
  refine .bind .get fun app => .bind (.ensure Sw.noConfusion) fun _ => .ite ?_ ends_addOutputScreens
  refine .bind .modify fun _ => ?_
  cases device.build with
  | nbgl => exact ends_addOutputScreens
  | bagl =>
      refine .ite (.bind screen fun _ => ends_addOutputScreens) ?_
      exact .bind screen fun _ => .bind screen fun _ => .bind screen fun _ => .bind screen fun _ =>
        ends_displayScreens

omit [UnionLayout OpMem] in
/-- The answer of the user is the last response of the session. -/
theorem ends_executeAction {approved : Bool} : Ends NotBusy LastStatus (executeAction device approved) := by
  have replies : Ends NotBusy (fun reply _ => ∀ sw, reply = .status sw → NotBusy sw)
      (sendResponse device) := by
    unfold sendResponse
    refine .bind .get fun app => .ite (.bind .modify fun _ => .pure ?_) ?_
    · intro _ sw status
      obtain rfl := Reply.status.inj status
      exact Sw.noConfusion
    dsimp only
    split
    · refine .bind .modify fun _ => .bind .modify fun _ => .pure ?_
      intro _ sw status
      obtain rfl := Reply.status.inj status
      exact Sw.noConfusion
    · refine .bind .modify fun _ => ?_
      split
      · exact .bind .modify fun _ => .pure fun _ sw status => Reply.noConfusion status
      · refine .bind .modify fun _ => .bind .modify fun _ => .pure ?_
        intro _ sw status
        obtain rfl := Reply.status.inj status
        exact Sw.noConfusion
  have last (reply : Reply) (s : App) (kind : ∀ sw, reply = .status sw → NotBusy sw) :
      LastStatus reply (App.showMenu (s.setCurrentCommand .none)) :=
    fun sw status => ⟨⟨rfl, rfl⟩, kind sw status⟩
  unfold executeAction
  refine .bind .modify fun _ => .ite ?_ ?_
  · exact .bind .modify fun _ => .bindOk replies last
  · refine .bindOk (P := fun reply _ => reply = resDeny) (.pure fun _ => rfl) fun reply s deny => ?_
    subst deny
    exact last resDeny s fun sw status => by
      obtain rfl := Reply.status.inj status
      exact Sw.noConfusion

omit [UnionLayout OpMem] in
theorem ends_addTransactionScreens : Ends NotBusy LastStatus (addTransactionScreens device) := by
  unfold addTransactionScreens
  refine .bind .get fun app => .bind (.ensure Sw.noConfusion) fun _ => ?_
  dsimp only
  have changed (f : Ui → Ui) : Throws NotBusy (modifyUi f) := .modify
  cases device.build with
  | bagl =>
      exact .bind .modify fun _ => .bind throws_writePairs fun _ => .bind (.ensure Sw.noConfusion) fun _ =>
        .bind (changed _) fun _ => ends_displayScreens
  | nbgl =>
      have denied : Throws NotBusy (modify (App.setCurrentCommand .none) : AppM PUnit) := .modify
      refine .ite ?_ (.bind .modify fun _ => .bind throws_writePairs fun _ =>
        .bind (changed _) fun _ => ends_executeAction)
      refine .bindOk (P := fun _ app => App.Cleared app) (fun _ => ⟨rfl, rfl⟩) fun _ s cleared => ?_
      intro sw status
      obtain rfl := Reply.status.inj status
      exact ⟨⟨cleared.command, cleared.context⟩, Sw.noConfusion⟩

theorem ends_plain {subcommand : Subcommand} {sessionKey : Bytes sessionKeyLen} {cdata : Buffer}
    (plain : subcommand.outputPart device cdata = none) (unconfirmed : subcommand ≠ .confirm) :
    Ends NotBusy LastStatus (subcommand.handle device sessionKey cdata) := by
  have last : Ends NotBusy LastStatus (pure resOk) := .pure fun _ => lastStatus_data
  have called {α : Type} {states : List OpState} {call : TxSerFull.FullM OpMem α} : Throws NotBusy (opCall do
      checkProperState states
      let _ ← checkTxCall call) :=
    throws_opCall (.bind throws_checkProperState fun _ => .bind throws_checkTxCall fun _ => .pure)
  cases subcommand with
  | outputTreeChunk | outputMinersFeeTree | outputChangeTree | outputTokens | outputRegisters =>
      cases plain
  | confirm => exact (unconfirmed rfl).elim
  | startTx =>
      have started (inputs dataInputs outputs : UInt16) (tokens : UInt8) :
          Throws NotBusy (opCall (startTx inputs dataInputs outputs tokens)) :=
        throws_opCall (.bind throws_checkProperState fun _ => .bind throws_checkTxCall fun _ => .modify)
      exact .bind throws_checkApproved fun _ => .bind (throws_checkReadParam Sw.noConfusion) fun _ =>
        .bind (throws_checkReadParam Sw.noConfusion) fun _ =>
        .bind (throws_checkReadParam Sw.noConfusion) fun _ =>
        .bind (throws_checkReadParam Sw.noConfusion) fun _ => .bind (.ensure Sw.noConfusion) fun _ =>
        .bind (started _ _ _ _) fun _ => last
  | tokenIds | inputContextExtension | dataInput =>
      exact .bind throws_checkApproved fun _ => .bind called fun _ => last
  | inputFrame =>
      have input (boxId : ErgoId) (value : UInt64) (frames : UInt8) (length : UInt32) :
          Throws NotBusy (opCall (addInput boxId value frames length)) := throws_opCall throws_addInput
      exact .bind throws_checkApproved fun _ => .bind (.ensure Sw.noConfusion) fun _ =>
        .bind (.ensure Sw.noConfusion) fun _ => .bind (throws_checkReadParam Sw.noConfusion) fun _ =>
        .bind (.ensure Sw.noConfusion) fun _ =>
        .bind (.ite (.bind (throws_checkReadParam Sw.noConfusion) fun _ => input _ _ _ _) .pure) fun _ =>
        .bind called fun _ => last
  | output =>
      have output (value : UInt64) (size height : UInt32) (tokens : UInt8) (registers : UInt32) :
          Throws NotBusy (opCall (addOutput device.sdk value size height tokens registers)) :=
        throws_opCall (throws_outputCall (.add value size height tokens registers))
      exact .bind throws_checkApproved fun _ => .bind (throws_checkReadParam Sw.noConfusion) fun _ =>
        .bind (throws_checkReadParam Sw.noConfusion) fun _ =>
        .bind (throws_checkReadParam Sw.noConfusion) fun _ =>
        .bind (throws_checkReadParam Sw.noConfusion) fun _ =>
        .bind (throws_checkReadParam Sw.noConfusion) fun _ => .bind (.ensure Sw.noConfusion) fun _ =>
        .bind (output _ _ _ _ _) fun _ => last

/-- Every subcommand of an open session. -/
theorem ends_subcommand {subcommand : Subcommand} {sessionKey : Bytes sessionKeyLen} {cdata : Buffer} :
    Ends NotBusy LastStatus (subcommand.handle device sessionKey cdata) := by
  cases output : subcommand.outputPart device cdata with
  | some part =>
      rw [Subcommand.handle_outputPart output]
      exact .bind (throws_outputPart output) fun _ => ends_showOutput
  | none =>
      by_cases confirm : subcommand = .confirm
      · subst confirm
        exact .bind throws_checkApproved fun _ => .bind .get fun _ =>
          .bind (.ensure Sw.noConfusion) fun _ => .bind .modify fun _ => ends_addTransactionScreens
      · exact ends_plain output confirm

end Handlers

end SignTx

namespace AttestInput

variable [SharedLayout]

omit [SharedLayout] in
theorem throws_boxCall {call : EStateM BoxErr (SerState (BoxCtx Shared) Shared) α} :
    Throws NotBusy (boxCall call) := .translated notBusy_box

omit [SharedLayout] in
theorem notBusy_bind {β : Type} {x : Except Sw α} {f : α → Except Sw β}
    (first : ∀ err, x = .error err → NotBusy err) (next : ∀ a err, f a = .error err → NotBusy err)
    (err : Sw) (failed : (x >>= f) = .error err) : NotBusy err := by
  cases ran : x with
  | error other =>
      rw [ran] at failed
      obtain rfl := Except.error.inj failed
      exact first _ ran
  | ok a =>
      rw [ran] at failed
      exact next a err failed

omit [SharedLayout] in
theorem notBusy_checkWriteParam {written : Option α} (err : Sw)
    (failed : checkWriteParam written = .error err) : NotBusy err := by
  cases written with
  | none =>
      obtain rfl := Except.error.inj failed
      exact Sw.noConfusion
  | some a => cases failed

theorem notBusy_response {sdk : Sdk} {ctx : AttestInputCtx} {sessionKey : Bytes sessionKeyLen}
    {index : UInt8} (err : Sw)
    (failed : sendResponseAttestedInputFrame sdk ctx sessionKey index = .error err) :
    NotBusy err := by
  have thrown (other : Sw) (kind : NotBusy other) (err : Sw)
      (failed : (throw other : Except Sw (List UInt8 × List UInt8)) = .error err) : NotBusy err := by
    obtain rfl := Except.error.inj failed
    exact kind
  revert err
  unfold sendResponseAttestedInputFrame
  dsimp only
  split
  · exact fun err failed => thrown .badFrameIndex Sw.noConfusion err failed
  refine notBusy_bind notBusy_checkWriteParam fun _ => notBusy_bind notBusy_checkWriteParam fun _ =>
    notBusy_bind notBusy_checkWriteParam fun _ => notBusy_bind notBusy_checkWriteParam fun _ =>
    notBusy_bind notBusy_checkWriteParam fun _ => ?_
  split
  · exact fun err failed => thrown .tooMuchData Sw.noConfusion err failed
  refine notBusy_bind notBusy_checkWriteParam fun _ => ?_
  split
  · exact fun err failed => thrown .bufferError Sw.noConfusion err failed
  · exact notBusy_bind notBusy_checkWriteParam fun _ _ failed => by cases failed

/-- Every subcommand of an open session. -/
theorem ends_subcommand {subcommand : Subcommand} {sessionKey : Bytes sessionKeyLen} {cdata : Buffer} :
    Ends NotBusy LastStatus (subcommand.handle device sessionKey cdata) := by
  have state (state : AttestInputState) : Throws NotBusy (checkState state) :=
    .bind .get fun _ => .ensure Sw.noConfusion
  have finished : Ends NotBusy LastStatus (checkBoxFinished device) :=
    .bind .get fun _ => .ite (.bind throws_boxCall fun _ => .bind .modify fun _ =>
      .pure fun _ _ status => Reply.noConfusion status) (.pure fun _ _ status => Reply.noConfusion status)
  have part (call) : Ends NotBusy LastStatus (checkCallBoxFinished device call) := by
    refine .bind (state _) fun _ => .bind throws_boxCall fun res => ?_
    cases res with
    | ok => exact finished
    | moreData => exact .pure fun _ _ status => Reply.noConfusion status
  cases subcommand with
  | treeChunk => exact part _
  | tokens => exact part _
  | registers => exact part _
  | getResponseFrame =>
      exact .bind (state _) fun _ => .bind (throws_checkReadParam Sw.noConfusion) fun _ =>
        .bind (.ensure Sw.noConfusion) fun _ => .bind .get fun _ =>
        .bind (.ofExcept notBusy_response) fun _ =>
        .bind .modify fun _ => .pure fun _ _ status => Reply.noConfusion status

end AttestInput

/-! ## Commands that continue a session -/

/-- A command that continues a session, if there is one. -/
structure Apdu.ContinuesSession (cmd : Apdu) : Prop where
  cla : cmd.cla = LedgerErgo.cla
  session : cmd.sessionCommand ≠ none
  subcommand : cmd.p1 ≠ 0 ∧ cmd.p1 ≠ 1
  id : cmd.p2 ≠ 0

section Continued

variable [UnionLayout SignTx.OpMem] [AttestInput.SharedLayout] {cmd : Apdu} {command : Command}
  {app t : App} {answer : Bool} {err : Sw}

/-- A command that continues a session waits, or is answered by a program whose errors end it. -/
theorem continued_cases (device : Device) (continues : cmd.ContinuesSession) (app : App)
    (answer : Bool) :
    app.isUiBusy = true ∧ handle device (.apdu cmd answer) app = .error .busy { app with answer } ∨
      app.isUiBusy = false ∧ ∃ mark prog, Ends NotBusy LastStatus prog ∧
        handle device (.apdu cmd answer) app = orSendError mark prog { app with answer } := by
  have dispatched : handle device (.apdu cmd answer) app =
      apduDispatcher device cmd { app with answer } := rfl
  obtain ⟨cla, session, subcommand, id⟩ := continues
  obtain ⟨command, sessions⟩ := Option.ne_none_iff_exists'.mp session
  cases Apdu.sessionCommand_cases sessions with
  | inl attest =>
      rw [apduDispatcher_attestInput attest.1, bind_of_ok (ensure_of cla),
        bind_of_ok (ensure_of ⟨subcommand.1, id⟩), AttestInput.handlerAttestInput, get_bind] at dispatched
      by_cases idle : app.isUiBusy = false
      swap
      · rw [bind_of_error (ensure_of_not (by exact idle))] at dispatched
        exact .inl ⟨Bool.eq_true_of_not_eq_false idle, dispatched⟩
      rw [bind_of_ok (ensure_of (by exact idle)), if_neg subcommand.2] at dispatched
      refine .inr ⟨idle, _, _, ?_, dispatched⟩
      cases AttestInput.Subcommand.ofByte cmd.p1 with
      | none => exact .throw Sw.noConfusion
      | some subcommand =>
          exact .bind (Throws.get.bind fun _ => .ensure Sw.noConfusion) fun _ =>
            .bind (Throws.get.bind fun _ => .ensure Sw.noConfusion) fun _ => .bind .get fun _ =>
            AttestInput.ends_subcommand
  | inr sign =>
      rw [apduDispatcher_signTx sign.1, bind_of_ok (ensure_of cla),
        bind_of_ok (ensure_of ⟨subcommand.1, id⟩), SignTx.handlerSignTransaction, get_bind] at dispatched
      by_cases idle : app.isUiBusy = false
      swap
      · rw [bind_of_error (ensure_of_not (by exact idle))] at dispatched
        exact .inl ⟨Bool.eq_true_of_not_eq_false idle, dispatched⟩
      rw [bind_of_ok (ensure_of (by exact idle)), if_neg subcommand.2] at dispatched
      refine .inr ⟨idle, _, _, ?_, dispatched⟩
      cases SignTx.Subcommand.ofByte cmd.p1 with
      | none => exact .throw Sw.noConfusion
      | some subcommand =>
          exact .bind (Throws.get.bind fun _ => .ensure Sw.noConfusion) fun _ =>
            .bind (Throws.get.bind fun _ => .ensure Sw.noConfusion) fun _ => .bind .get fun _ =>
            SignTx.ends_subcommand

/-- An error of a command with sessions comes before it did anything, or ends the session. -/
theorem error_state (sessions : cmd.sessionCommand = some command)
    (failed : handle device (.apdu cmd answer) app = .error err t) :
    t = { app with answer } ∨ t.Cleared := by
  have cleared {call : AppM Reply} {mark : App → App} {s : App}
      (failed : orSendError mark call s = .error err t) : t.Cleared := by
    obtain ⟨u, -, rfl⟩ := orSendError_error.mp failed
    exact ⟨rfl, rfl⟩
  cases Apdu.sessionCommand_cases sessions with
  | inl attest =>
      change apduDispatcher device cmd { app with answer } = .error err t at failed
      rw [apduDispatcher_attestInput attest.1] at failed
      by_cases cla : cmd.cla = cla
      swap
      · rw [bind_of_error (ensure_of_not cla)] at failed
        cases failed
        exact .inl rfl
      by_cases params : cmd.p1 ≠ 0 ∧ cmd.p2 ≠ 0
      swap
      · rw [bind_of_ok (ensure_of cla), bind_of_error (ensure_of_not params)] at failed
        cases failed
        exact .inl rfl
      rw [bind_of_ok (ensure_of cla), bind_of_ok (ensure_of params), AttestInput.handlerAttestInput,
        get_bind] at failed
      by_cases idle : app.isUiBusy = false
      swap
      · rw [bind_of_error (ensure_of_not (by exact idle))] at failed
        cases failed
        exact .inl rfl
      rw [bind_of_ok (ensure_of (by exact idle)), ite_error, bind_error] at failed
      cases failed with
      | inr goesOn => exact .inr (cleared goesOn.2)
      | inl opens =>
          cases opens.2 with
          | inl token => 
              obtain ⟨u, -, rfl⟩ := orSendError_error.mp token
              exact .inr ⟨rfl, rfl⟩
          | inr inited =>
              obtain ⟨-, s, -, inited⟩ := inited
              exact .inr (cleared inited)
  | inr sign =>
      cases signing_cases device sign.1 app answer with
      | refused err' ran =>
          rw [ran] at failed
          cases failed
          exact .inl rfl
      | stopped err' ran =>
          rw [ran] at failed
          cases failed
          exact .inr ⟨rfl, rfl⟩
      | opens p1 idle ran =>
          rw [ran] at failed
          exact .inr (cleared failed)
      | goesOn subcommand continues =>
          rw [continues.ran] at failed
          exact .inr (cleared failed)

end Continued

/-! ## Without a session -/

section Closed

variable (device : Device) [UnionLayout SignTx.OpMem] [AttestInput.SharedLayout]

/-- The status word of a response that is not a success. -/
def errorStatus : EStateM.Result Sw App Reply → Option Sw
  | .error err _ => some err
  | .ok (.status sw) _ => some sw
  | .ok .. => none

/-- The event opens a session, once the user has approved it if need be. -/
def Starts (app : App) : Event → Prop
  | .apdu cmd answer => cmd.sessionCommand ≠ none ∧ cmd.p1 = 1 ∧
      ∃ id t, handle device (.apdu cmd answer) app = .ok (.data id) t
  | .press approved => approved = true ∧ app.ui.prompt = some .attestInput
  | .toggleBlindSigning => False

/-- A command that continues a session is answered with an error. -/
def Refuses (app : App) : Event → Prop
  | .apdu cmd answer => cmd.ContinuesSession →
      ∃ err, errorStatus (handle device (.apdu cmd answer) app) = some err
  | _ => True

/-- No session is open, though the user may be asked for one. -/
structure App.Closed (app : App) : Prop where
  signing : app.currentCommand ≠ .signTransaction
  attesting : app.currentCommand = .attestInputBox →
    app.isUiBusy = true ∧ app.ui.prompt = some .attestInput

end Closed

section Runs

variable {device : Device} [UnionLayout SignTx.OpMem] [AttestInput.SharedLayout] {app t : App}
  {event : Event} {command : Command} {cmd : Apdu} {answer : Bool} {reply : Reply}

/-- The step does not make this the current command. -/
def NotCurrent (command : Command) (s t : App) : Prop :=
  t.currentCommand = command → s.currentCommand = command

omit [UnionLayout SignTx.OpMem] [AttestInput.SharedLayout] in
theorem approves_notCurrent (other : command ≠ .none) : Approves device (NotCurrent command) where
  refl _ := id
  trans _ _ _ first second := first ∘ second
  clear _ none := absurd none.symm other
  context _ _ := id
  supply _ _ := id
  answer _ _ := id
  setting _ _ := id
  idle _ := id
  menu _ := id
  prompt _ _ _ _ _ := id
  approve _ _ := id
  grant _ _ := id

omit [UnionLayout SignTx.OpMem] [AttestInput.SharedLayout] in
theorem App.Cleared.closed (cleared : app.Cleared) : app.Closed where
  signing := by
    rw [cleared.command]
    exact Command.noConfusion
  attesting attest := by
    rw [cleared.command] at attest
    cases attest

omit [UnionLayout SignTx.OpMem] [AttestInput.SharedLayout] in
/-- A command for signing that opens a session is answered with its id. -/
theorem data_of_signPk {cdata : Buffer} {hasToken : Bool} {s : App}
    (ok : SignTx.handleSignPk device cdata hasToken s = .ok reply t) : ∃ id, reply = .data id := by
  have ends : Ends (fun _ => True) (fun reply _ => ∃ id, reply = .data id)
      (SignTx.handleSignPk device cdata hasToken) := by
    refine .bind .any fun _ => .bind .any fun _ => ends_orSendError ?_
    refine .bind .any fun _ => .bind .any fun _ => .bind .any fun _ => .bind .any fun _ =>
      .bind .any fun _ => .bind .any fun _ => ?_
    unfold SignTx.showTokenAndPath
    have approved (token : UInt32) (isKnown : Bool) : Ends (fun _ => True)
        (fun reply _ => ∃ id, reply = .data id)
        (SignTx.addOperationApproveScreens device token isKnown) :=
      .bind .any fun _ => .bind .any fun _ => .bind .any fun _ => .bind .any fun _ =>
        .bind .any fun _ => .bind .any fun _ => .bind .any fun _ => .bind .any fun _ =>
        .pure fun _ => ⟨_, rfl⟩
    exact .bind .any fun _ => .bind .any fun _ => .bind .any fun _ =>
      .ite (.bind .any fun _ => approved _ _) (approved _ _)
  exact ends.ok ok

omit [UnionLayout SignTx.OpMem] in
/-- A command that opens an attestation is answered with its id, asks the user, or is denied. -/
theorem reply_of_initCommand {cdata : Buffer} {hasToken : Bool} {s : App}
    (ok : AttestInput.handleInitCommand device cdata hasToken s = .ok reply t) :
    (∃ id, reply = .data id) ∨ t.isUiBusy = true ∧ t.ui.prompt = some .attestInput ∨
      t.currentCommand = .none := by
  have ends : Ends (fun _ => True) (fun reply t => (∃ id, reply = .data id) ∨
      t.isUiBusy = true ∧ t.ui.prompt = some .attestInput ∨ t.currentCommand = .none)
      (AttestInput.handleInitCommand device cdata hasToken) := by
    refine .bind .any fun _ => .bind .any fun _ => ends_orSendError ?_
    refine .bind .any fun _ => .bind .any fun _ => .bind .any fun _ => .bind .any fun _ =>
      .bind .any fun _ => .ite ?_ ?_
    · exact .bind .any fun _ => .bind .any fun _ => .pure fun _ => .inl ⟨_, rfl⟩
    · unfold AttestInput.displayAccessToken
      refine .bind .any fun _ => ?_
      cases device.build with
      | bagl => exact fun s => .inr (.inl ⟨rfl, rfl⟩)
      | nbgl =>
          refine .bind .any fun _ => .bind .any fun _ => .bind .any fun _ => .ite ?_ ?_
          · exact .bind .any fun _ => .bind .any fun _ => .bind .any fun _ => .pure fun _ => .inl ⟨_, rfl⟩
          · exact fun s => .inr (.inr rfl)
  exact ends.ok ok

omit [UnionLayout SignTx.OpMem] [AttestInput.SharedLayout] in
theorem App.Closed.current (closed : app.Closed) (idle : app.isUiBusy = false) :
    app.currentCommand ≠ .attestInputBox := fun attest => by
  have busy := (closed.attesting attest).1
  rw [idle] at busy
  cases busy

omit [UnionLayout SignTx.OpMem] [AttestInput.SharedLayout] in
theorem App.Closed.sessionOf (closed : app.Closed) (idle : app.isUiBusy = false) :
    app.sessionOf command = none := by
  unfold App.sessionOf
  split
  · rename_i here
    cases command with
    | signTransaction => exact (closed.signing here).elim
    | attestInputBox => exact (closed.current idle here).elim
    | none | getAppVersion | getAppName | getExtendedPublicKey | deriveAddress => rfl
  · rfl

omit [UnionLayout SignTx.OpMem] [AttestInput.SharedLayout] in
theorem App.Closed.of_notCurrent (signing : NotCurrent .signTransaction app t)
    (attesting : NotCurrent .attestInputBox app t) (closed : app.Closed)
    (current : app.currentCommand ≠ .attestInputBox) : t.Closed where
  signing here := closed.signing (signing here)
  attesting here := (current (attesting here)).elim

omit [UnionLayout SignTx.OpMem] [AttestInput.SharedLayout] in
theorem Apdu.sessionCommand_none (stateless : cmd.sessionCommand = none) :
    cmd.ins.toNat ≠ 0x20 ∧ ¬ cmd.ForSigning := by
  constructor
  · intro ins
    simp only [Apdu.sessionCommand, ins] at stateless
    cases stateless
  · intro ins
    have ins : cmd.ins.toNat = 0x21 := ins
    simp only [Apdu.sessionCommand, ins] at stateless
    cases stateless

/-- Only an event that opens a session leaves one behind. -/
theorem closed_next (closed : app.Closed) (starts : ¬ Starts device app event) :
    (next device app event).Closed := by
  have signing : Approves device (NotCurrent .signTransaction) := approves_notCurrent Command.noConfusion
  have attesting : Approves device (NotCurrent .attestInputBox) := approves_notCurrent Command.noConfusion
  cases event with
  | press approved =>
      refine ⟨fun here => closed.signing (moves_press signing app here), fun here => ?_⟩
      obtain ⟨busy, prompt⟩ := closed.attesting (moves_press attesting app here)
      cases approved with
      | true => exact (starts ⟨rfl, prompt⟩).elim
      | false =>
          have denied : press device false app = AttestInput.actionAttestInput false app := by
            rw [press, get_bind, prompt]
            rfl
          have none : (next device app (.press false)).currentCommand = .none := by
            change (final (press device false app)).currentCommand = .none
            rw [denied]
            rfl
          rw [none] at here
          cases here
  | toggleBlindSigning =>
      refine ⟨fun here => closed.signing (moves_toggle signing app here), fun here => ?_⟩
      obtain ⟨busy, prompt⟩ := closed.attesting (moves_toggle attesting app here)
      have stays : next device app .toggleBlindSigning = app := by
        have shown : ¬ app.ui.prompt = none := by
          rw [prompt]
          exact Option.some_ne_none _
        change final (toggleBlindSigning app) = app
        rw [toggleBlindSigning, get_bind, if_neg shown]
        rfl
      rw [stays]
      exact ⟨busy, prompt⟩
  | apdu cmd answer =>
      by_cases idle : app.isUiBusy = false
      swap
      · rw [next_of_busy (Bool.eq_true_of_not_eq_false idle)]
        exact ⟨closed.signing, closed.attesting⟩
      have current := closed.current idle
      cases sessions : cmd.sessionCommand with
      | none =>
          have other := Apdu.sessionCommand_none sessions
          refine closed.of_notCurrent ?_ ?_ current
          · exact moves_stateless signing (fun _ _ _ other here => (other here).elim) other app
          · exact moves_stateless attesting (fun _ _ other _ here => (other here).elim) other app
      | some command =>
          unfold next
          cases ran : handle device (.apdu cmd answer) app with
          | error err t =>
              cases error_state sessions ran with
              | inl same =>
                  subst same
                  exact ⟨closed.signing, closed.attesting⟩
              | inr cleared => exact cleared.closed
          | ok reply t =>
              have dispatched : apduDispatcher device cmd { app with answer } = .ok reply t := ran
              by_cases opens : cmd.p1 = 1
              swap
              · have session := session_of_continued sessions opens dispatched
                have closed' : App.Closed { app with answer } := ⟨closed.signing, closed.attesting⟩
                rw [closed'.sessionOf (by exact idle)] at session
                cases session
              have notData (id : List UInt8) (data : reply = .data id) : False := by
                subst data
                exact starts ⟨by rw [sessions]; exact Option.some_ne_none _, opens, id, t, ran⟩
              cases Apdu.sessionCommand_cases sessions with
              | inl attest =>
                  rw [apduDispatcher_attestInput attest.1] at dispatched
                  simp only [AttestInput.handlerAttestInput, opens, if_true, bind_ok, exists_unit,
                    ensure_ok, get_ok, orSendError_ok] at dispatched
                  obtain ⟨_, ⟨-, rfl⟩, _, ⟨-, rfl⟩, _, _, ⟨rfl, rfl⟩, _, ⟨-, rfl⟩, _, ⟨-, rfl⟩, inited⟩ :=
                    dispatched
                  have other (s : App) : NotCurrent .signTransaction s
                      (s.setCurrentCommand .attestInputBox) := Command.noConfusion
                  have unsigned := (AttestInput.moves_initCommand signing other).ok inited
                  refine ⟨fun here => closed.signing (unsigned here), fun here => ?_⟩
                  cases reply_of_initCommand inited with
                  | inl data => exact (notData _ data.choose_spec).elim
                  | inr rest =>
                      cases rest with
                      | inl asks => exact asks
                      | inr none => exact Command.noConfusion (none.symm.trans here)
              | inr sign =>
                  rw [apduDispatcher_signTx sign.1] at dispatched
                  simp only [SignTx.handlerSignTransaction, opens, if_true, bind_ok, exists_unit,
                    ensure_ok, get_ok] at dispatched
                  obtain ⟨_, ⟨-, rfl⟩, _, ⟨-, rfl⟩, _, _, ⟨rfl, rfl⟩, _, ⟨-, rfl⟩, _, ⟨-, rfl⟩, signed⟩ :=
                    dispatched
                  exact (notData _ (data_of_signPk signed).choose_spec).elim

theorem refuses_of_closed (closed : app.Closed) : Refuses device app event := by
  cases event with
  | press | toggleBlindSigning => exact trivial
  | apdu cmd answer =>
      intro continues
      cases ran : handle device (.apdu cmd answer) app with
      | error err t => exact ⟨err, rfl⟩
      | ok reply t =>
          cases continued_cases device continues app answer with
          | inl busy =>
              rw [ran] at busy
              cases busy.2
          | inr idle =>
              obtain ⟨command, sessions⟩ := Option.ne_none_iff_exists'.mp continues.session
              have session := session_of_continued sessions continues.subcommand.2 ran
              have closed' : App.Closed { app with answer } := ⟨closed.signing, closed.attesting⟩
              rw [closed'.sessionOf (by exact idle.1)] at session
              cases session

/-- An error of a command that continues a session, before or behind the checks of its layers,
    ends the session: nothing of it is left, and every such command fails until a session is
    opened. While the user is asked, nothing changes. -/
theorem errors_end_session (device : Device) (app : App) (cmd : Apdu) (answer : Bool) (err : Sw)
    (continues : cmd.ContinuesSession)
    (failed : errorStatus (handle device (.apdu cmd answer) app) = some err) :
    (err = .busy → next device app (.apdu cmd answer) = { app with answer }) ∧
      (err ≠ .busy → (next device app (.apdu cmd answer)).Cleared ∧
        ∀ events, EachStep (next device) (fun s event => ¬ Starts device s event)
            (next device app (.apdu cmd answer)) events →
          EachStep (next device) (Refuses device) (next device app (.apdu cmd answer)) events) := by
  have closes (cleared : (next device app (.apdu cmd answer)).Cleared) (events : List Event)
      (each : EachStep (next device) (fun s event => ¬ Starts device s event)
        (next device app (.apdu cmd answer)) events) :
      EachStep (next device) (Refuses device) (next device app (.apdu cmd answer)) events :=
    each.imp (fun _ _ closed _ => refuses_of_closed closed) (fun _ _ closed starts =>
      closed_next closed starts) cleared.closed
  cases continued_cases device continues app answer with
  | inl busy =>
      rw [busy.2] at failed
      obtain rfl := Option.some.inj failed
      exact ⟨fun _ => next_of_busy busy.1 cmd answer, fun other => (other rfl).elim⟩
  | inr ended =>
      obtain ⟨-, mark, prog, ends, ran⟩ := ended
      have last : NotBusy err ∧ (next device app (.apdu cmd answer)).Cleared := by
        unfold next
        rw [ran] at failed ⊢
        cases result : prog { app with answer } with
        | error other t =>
            have thrown := ends.error result
            rw [orSendError, result] at failed
            obtain rfl := Option.some.inj failed
            rw [final_orSendError result]
            exact ⟨thrown, rfl, rfl⟩
        | ok reply t =>
            rw [orSendError_run_ok result] at failed ⊢
            cases reply with
            | data | pending => cases failed
            | status sw =>
                obtain rfl := Option.some.inj failed
                have status := ends.ok result sw rfl
                exact ⟨status.2, status.1⟩
      exact ⟨fun busy => (last.1 busy).elim, fun _ => ⟨last.2, closes last.2⟩⟩

end Runs

local instance sessionEndsUnion : UnionLayout SignTx.OpMem :=
  ⟨fun _ => .zero SignTx.OpMem, fun _ => .zero SignTx.OpMem⟩

local instance sessionEndsShared : AttestInput.SharedLayout := ⟨fun _ => .replicate _ 0, fun _ => 0⟩

/-- The attestation of a box with a tree of one byte is open. -/
def attestingTree : App := next touchDevice (App.init (.zero _) false ⟨[], [7], []⟩) openAttestation

/-- A tree that is longer. -/
def longTree : Apdu := ⟨cla, 0x20, 0x02, 7, [1, 2, 3]⟩

/-- A tree with too many bytes ends the attestation. -/
theorem long_tree_ends_session : (next touchDevice attestingTree (.apdu longTree true)).Cleared ∧
    ∀ events, EachStep (next touchDevice) (fun s event => ¬ Starts touchDevice s event)
        (next touchDevice attestingTree (.apdu longTree true)) events →
      EachStep (next touchDevice) (Refuses touchDevice)
        (next touchDevice attestingTree (.apdu longTree true)) events :=
  (errors_end_session touchDevice attestingTree longTree true .tooMuchData
    ⟨rfl, by decide, by decide, by decide⟩ (by decide +kernel)).2 Sw.noConfusion

end LedgerErgo
