import LedgerErgo.ApduDispatcher

/-! # What the handlers can do

Apart from the review of a transaction, every handler is made of a few kinds of changes. A
relation that all of them keep is kept by the whole handler, whether it succeeds or not.
-/

namespace LedgerErgo

open LedgerErgo.Common LedgerErgo.Ergo LedgerErgo.Prog

/-- A relation that the changes keep of which the handlers are made, up to what the user does and
    the screens of the signing command. -/
structure Steps (device : Device) (R : App → App → Prop) : Prop extends Std.Refl R, IsTrans App R where
  clear : ∀ s : App, R s (s.setCurrentCommand .none)
  context : ∀ (s : App) (commandsCtx : CommandsCtx), R s { s with commandsCtx }
  supply : ∀ (s : App) (supply : Supply), R s { s with supply }
  idle : ∀ s : App, R s { s with isUiBusy := false }
  menu : ∀ s : App, R s s.showMenu
  prompt : ∀ (s : App) (prompt : Prompt), device.build = .bagl → prompt ≠ .signTx →
    prompt ≠ .blindWarning → R s (s.showPrompt prompt)

/-- A relation that the doings of the user keep, too. -/
structure Approves (device : Device) (R : App → App → Prop) : Prop extends Steps device R where
  answer : ∀ (s : App) (answer : Bool), R s { s with answer }
  setting : ∀ (s : App) (blindSigningEnabled : Bool), R s { s with blindSigningEnabled }
  approve : ∀ (s : App) (token : UInt32), R s (s.approveToken token)
  grant : ∀ (s : App) (token : UInt32), R s (s.grant token)

variable {R : App → App → Prop} {device : Device} {α : Type}

section Common

variable {call : AppM α} {mark : App → App}

theorem Steps.orSendError (steps : Steps device R) (marks : ∀ s, R s (mark s)) (moves : Moves R call) :
    Moves R (orSendError mark call) := by
  have := steps.toRefl
  have := steps.toIsTrans
  exact moves_orSendError moves fun s => trans_of R (marks s) (steps.clear _)

theorem Steps.sendError (steps : Steps device R) {err : Sw} : Moves R (sendError err : AppM α) :=
  moves_sendError steps.clear

theorem Steps.withSdk {ε : Type} (steps : Steps device R) {err : ε → Sw} {call : EStateM ε (Mem Unit) α} :
    Moves R (withSdk err call) :=
  .zoom (P := fun _ _ => True) (fun _ => trivial) fun s _ _ => steps.supply s _

theorem Steps.generatePublicKey (steps : Steps device R) {sdk : Sdk} {path : Bip32Path} :
    Moves R (generatePublicKey sdk path) := by
  have := steps.toRefl
  have := steps.toIsTrans
  exact .bind steps.withSdk fun _ => .pure

end Common

namespace ExtPubKey

theorem moves_sendResponse (steps : Steps device R) {publicKey : PublicKey} {chainCode : Bytes 32} :
    Moves R (sendResponseExtendedPubkey publicKey chainCode) := by
  have := steps.toRefl
  have := steps.toIsTrans
  exact .bind (.modify steps.clear) fun _ => .pure

theorem moves_action (approves : Approves device R) {approved : Bool} :
    Moves R (actionGetExtendedPubkey approved) := by
  have steps := approves.toSteps
  have := steps.toRefl
  have := steps.toIsTrans
  have menu : Moves R (modify App.showMenu : AppM PUnit) := .modify steps.menu
  have command : Moves R (modify (App.setCurrentCommand .none) : AppM PUnit) :=
    .modify steps.clear
  unfold actionGetExtendedPubkey
  refine .bind (.modify steps.idle) fun _ => .bind .get fun _ => .ite ?_ ?_
  · exact .bind (.modify fun s => approves.approve s _) fun _ => .bind (moves_sendResponse steps) fun _ =>
      .bind command fun _ => .bind menu fun _ => .pure
  · exact .bind command fun _ => .bind menu fun _ => .pure

theorem moves_displayAccount (approves : Approves device R) {token : UInt32} {path : Bip32Path} :
    Moves R (displayAccount device token path) := by
  have steps := approves.toSteps
  have := steps.toRefl
  have := steps.toIsTrans
  unfold displayAccount
  refine .bind .ensure fun _ => ?_
  cases build : device.build with
  | bagl =>
      refine .ite (.bind steps.sendError fun _ => ?_) ?_ <;>
        exact .bind (.modify fun s => steps.context s _) fun _ =>
          .bind (.modify fun s => steps.prompt s _ build Prompt.noConfusion Prompt.noConfusion) fun _ => .pure
  | nbgl =>
      exact .bind .ensure fun _ => .bind (.modify fun s => steps.context s _) fun _ =>
        .bind .get fun _ => moves_action approves

theorem moves_readRequest (steps : Steps device R) {cdata : Buffer} {hasAccessToken : Bool} :
    Moves R (readRequest device cdata hasAccessToken) := by
  have := steps.toRefl
  have := steps.toIsTrans
  exact .bind moves_checkReadParam fun _ => .bind moves_checkReadParam fun _ =>
    .bind moves_checkParamsFinished fun _ => .bind .ensure fun _ =>
    .bind steps.generatePublicKey fun _ => .bind (.modify fun s => steps.context s _) fun _ => .pure

theorem moves_handler (approves : Approves device R)
    (opens : ∀ s : App, R s (s.setCurrentCommand .getExtendedPublicKey)) {cdata : Buffer}
    {hasAccessToken : Bool} : Moves R (handlerGetExtendedPublicKey device cdata hasAccessToken) := by
  have steps := approves.toSteps
  have := steps.toRefl
  have := steps.toIsTrans
  have request : Moves R (orSendError id (readRequest device cdata hasAccessToken)) :=
    steps.orSendError (fun s => refl_of R s) (moves_readRequest steps)
  unfold handlerGetExtendedPublicKey
  exact .bind .get fun _ => .bind .ensure fun _ => .bind (.modify opens) fun _ =>
    .bind request fun _ => .bind .get fun _ =>
    .ite (moves_sendResponse steps) (moves_displayAccount approves)

end ExtPubKey

namespace DeriveAddress

theorem moves_sendResponse (steps : Steps device R) {address : List UInt8} :
    Moves R (sendResponseAddress address) := by
  have := steps.toRefl
  have := steps.toIsTrans
  exact .bind (.modify steps.clear) fun _ => .pure

theorem moves_action (approves : Approves device R) {approved : Bool} :
    Moves R (actionDeriveAddress approved) := by
  have steps := approves.toSteps
  have := steps.toRefl
  have := steps.toIsTrans
  have menu : Moves R (modify App.showMenu : AppM PUnit) := .modify steps.menu
  have command : Moves R (modify (App.setCurrentCommand .none) : AppM PUnit) :=
    .modify steps.clear
  unfold actionDeriveAddress
  refine .bind (.modify steps.idle) fun _ => .bind .get fun _ => .ite ?_ ?_
  · refine .bind (.modify fun s => approves.approve s _) fun _ => .ite ?_ ?_
    · exact .bind (moves_sendResponse steps) fun _ => .bind menu fun _ => .pure
    · exact .bind command fun _ => .bind .pure fun _ => .bind menu fun _ => .pure
  · exact .bind command fun _ => .bind menu fun _ => .pure

theorem moves_displayAddress (approves : Approves device R) {send : Bool} {token : UInt32}
    {path : Bip32Path} : Moves R (displayAddress device send token path) := by
  have steps := approves.toSteps
  have := steps.toRefl
  have := steps.toIsTrans
  unfold displayAddress
  refine .ite (.bind steps.sendError fun _ => ?_) ?_
  all_goals
    refine .bind (.modify fun s => steps.context s _) fun _ => .bind .get fun _ => ?_
    cases build : device.build with
    | bagl =>
        refine .ite (.bind steps.sendError fun _ => ?_) ?_ <;>
          refine .ite (.bind steps.sendError fun _ => ?_) ?_ <;>
          exact .bind (.modify fun s => steps.prompt s _ build Prompt.noConfusion Prompt.noConfusion)
            fun _ => .pure
    | nbgl =>
        refine .ite (.bind steps.sendError fun _ => ?_) ?_ <;>
          exact .bind .ensure fun _ => moves_action approves

theorem moves_readRequest (steps : Steps device R) {cdata : Buffer} {hasAccessToken : Bool} :
    Moves R (readRequest device cdata hasAccessToken) := by
  have := steps.toRefl
  have := steps.toIsTrans
  exact .bind moves_checkReadParam fun _ => .bind moves_checkReadParam fun _ =>
    .bind moves_checkReadParam fun _ => .bind moves_checkParamsFinished fun _ =>
    .bind .ensure fun _ => .bind steps.generatePublicKey fun _ => .pure

theorem moves_handler (approves : Approves device R)
    (opens : ∀ s : App, R s (s.setCurrentCommand .deriveAddress)) {cdata : Buffer}
    {display hasAccessToken : Bool} :
    Moves R (handlerDeriveAddress device cdata display hasAccessToken) := by
  have steps := approves.toSteps
  have := steps.toRefl
  have := steps.toIsTrans
  have request : Moves R (orSendError id (readRequest device cdata hasAccessToken)) :=
    steps.orSendError (fun s => refl_of R s) (moves_readRequest steps)
  unfold handlerDeriveAddress
  exact .bind .get fun _ => .bind .ensure fun _ => .bind (.modify opens) fun _ =>
    .bind request fun _ => .bind steps.withSdk fun _ =>
    .bind (.modify fun s => steps.context s _) fun _ => .bind .get fun _ =>
    .ite (moves_sendResponse steps) (moves_displayAddress approves)

end DeriveAddress

namespace AttestInput

theorem moves_boxCall (steps : Steps device R) {call : EStateM BoxErr (SerState (BoxCtx Shared) Shared) α} :
    Moves R (boxCall call) := by
  have := steps.toIsTrans
  refine .zoom (P := fun _ _ => True) (fun _ => trivial) fun s v _ => ?_
  exact trans_of R (steps.context s _) (steps.supply _ _)

theorem moves_modifyAttest (steps : Steps device R) {f : AttestInputCtx → AttestInputCtx} :
    Moves R (modify (App.modifyAttest f) : AppM PUnit) := .modify fun s => steps.context s _

variable [SharedLayout]

theorem moves_action (approves : Approves device R) {approved : Bool} :
    Moves R (actionAttestInput approved) := by
  have steps := approves.toSteps
  have := steps.toRefl
  have := steps.toIsTrans
  have menu : Moves R (modify App.showMenu : AppM PUnit) := .modify steps.menu
  unfold actionAttestInput
  refine .bind (.modify steps.idle) fun _ => .bind .get fun _ => .ite ?_ ?_
  · exact .bind (.modify fun s => approves.approve s _) fun _ =>
      .bind (moves_modifyAttest steps) fun _ => .bind menu fun _ => .pure
  · exact .bind (.modify steps.clear) fun _ => .bind menu fun _ => .pure

theorem moves_startBox (steps : Steps device R) {params : InitParams} : Moves R (startBox params) := by
  have := steps.toIsTrans
  exact .bind (moves_modifyAttest steps) fun _ => .bind (moves_boxCall steps) fun _ =>
    .bind (moves_modifyAttest steps) fun _ => .bind (moves_boxCall steps) fun _ =>
    moves_modifyAttest steps

omit [SharedLayout] in
theorem moves_openSession (steps : Steps device R) : Moves R (modify App.openSession : AppM PUnit) := by
  have := steps.toIsTrans
  exact .modify fun s => trans_of R (steps.context s _) (steps.supply _ _)

theorem moves_displayAccessToken (approves : Approves device R) {token : UInt32} :
    Moves R (displayAccessToken device token) := by
  have steps := approves.toSteps
  have := steps.toRefl
  have := steps.toIsTrans
  unfold displayAccessToken
  refine .bind (moves_modifyAttest steps) fun _ => ?_
  cases build : device.build with
  | bagl =>
      exact .bind (.modify fun s => steps.prompt s _ build Prompt.noConfusion Prompt.noConfusion)
        fun _ => .pure
  | nbgl => exact .bind .get fun _ => moves_action approves

theorem moves_initCommand (approves : Approves device R)
    (opens : ∀ s : App, R s (s.setCurrentCommand .attestInputBox)) {cdata : Buffer}
    {hasToken : Bool} : Moves R (handleInitCommand device cdata hasToken) := by
  have steps := approves.toSteps
  have := steps.toRefl
  have := steps.toIsTrans
  have inited (appSessionId : UInt32) : Moves R (handleInit device cdata hasToken appSessionId) :=
    .bind moves_checkReadParam fun _ => .bind moves_checkReadParam fun _ =>
      .bind moves_checkParamsFinished fun _ => .bind (moves_startBox steps) fun _ =>
      .bind (moves_openSession steps) fun _ =>
      .ite (.bind (moves_modifyAttest steps) fun _ => .bind .get fun _ => .pure)
        (moves_displayAccessToken approves)
  unfold handleInitCommand
  exact .bind (.modify opens) fun _ => .bind .get fun _ =>
    steps.orSendError (fun s => steps.context s _) (inited _)

omit [SharedLayout] in
/-- A part of the box. -/
theorem moves_part_of [Std.Refl R] [IsTrans App R]
    (boxCalls : ∀ {α : Type} (call : EStateM BoxErr (SerState (BoxCtx Shared) Shared) α),
      Moves R (boxCall call))
    (changes : ∀ (s : App) (f : AttestInputCtx → AttestInputCtx), R s (App.modifyAttest f s))
    {call : EStateM BoxErr (SerState (BoxCtx Shared) Shared) Progress} :
    Moves R (checkCallBoxFinished device call) := by
  have finished : Moves R (checkBoxFinished device) :=
    .bind .get fun _ => .ite (.bind (boxCalls _) fun _ =>
      .bind (.modify fun s => changes s _) fun _ => .pure) .pure
  refine .bind (.bind .get fun _ => .ensure) fun _ => .bind (boxCalls _) fun res => ?_
  cases res with
  | ok => exact finished
  | moreData => exact .pure

/-- A subcommand is made of calls of the serializer and changes of the context. -/
theorem moves_subcommand_of [Std.Refl R] [IsTrans App R]
    (boxCalls : ∀ {α : Type} (call : EStateM BoxErr (SerState (BoxCtx Shared) Shared) α),
      Moves R (boxCall call))
    (changes : ∀ (s : App) (f : AttestInputCtx → AttestInputCtx), R s (App.modifyAttest f s))
    (signed : ∀ (s : App) bytes, R s (s.logSigned bytes)) {sessionKey : Bytes sessionKeyLen}
    {cdata : Buffer} {subcommand : Subcommand} :
    Moves R (subcommand.handle device sessionKey cdata) := by
  have state (state : AttestInputState) : Moves R (checkState state) := .bind .get fun _ => .ensure
  cases subcommand with
  | treeChunk => exact moves_part_of boxCalls changes
  | tokens => exact moves_part_of boxCalls changes
  | registers => exact moves_part_of boxCalls changes
  | getResponseFrame =>
      exact .bind (state _) fun _ => .bind moves_checkReadParam fun _ =>
        .bind moves_checkParamsFinished fun _ => .bind .get fun _ => .bind .ofExcept fun _ =>
        .bind (.modify fun s => signed s _) fun _ => .pure

theorem moves_subcommand (steps : Steps device R) (signed : ∀ (s : App) bytes, R s (s.logSigned bytes))
    {sessionKey : Bytes sessionKeyLen} {cdata : Buffer} {subcommand : Subcommand} :
    Moves R (subcommand.handle device sessionKey cdata) := by
  have := steps.toRefl
  have := steps.toIsTrans
  exact moves_subcommand_of (fun _ => moves_boxCall steps) (fun s _ => steps.context s _) signed

theorem moves_handler (approves : Approves device R)
    (opens : ∀ s : App, R s (s.setCurrentCommand .attestInputBox))
    (signed : ∀ (s : App) bytes, R s (s.logSigned bytes)) {cdata : Buffer}
    {subcommand sessionOrToken : UInt8} :
    Moves R (handlerAttestInput device cdata subcommand sessionOrToken) := by
  have steps := approves.toSteps
  have := steps.toRefl
  have := steps.toIsTrans
  have mark (s : App) : R s (markError s) := steps.context s _
  have session : Moves R (checkSession sessionOrToken) := .bind .get fun _ => .ensure
  unfold handlerAttestInput
  refine .bind .get fun _ => .bind .ensure fun _ => .ite ?_ ?_
  · exact .bind (steps.orSendError mark .ensure) fun _ => moves_initCommand approves opens
  · apply steps.orSendError mark
    cases Subcommand.ofByte subcommand with
    | none => exact .throw
    | some subcommand =>
        exact .bind moves_checkCommand fun _ => .bind session fun _ => .bind .get fun _ =>
          moves_subcommand steps signed

end AttestInput

namespace SignTx

theorem moves_zoomOp (steps : Steps device R) {call : OpM α} : Moves R (zoom App.op App.setOp id call) := by
  have := steps.toIsTrans
  refine .zoom (P := fun _ _ => True) (fun _ => trivial) fun s v _ => ?_
  exact trans_of R (steps.context s _) (steps.supply _ _)

theorem moves_opCall (steps : Steps device R) {call : OpM Unit} : Moves R (opCall call) := by
  have := steps.toRefl
  exact steps.orSendError (fun s => refl_of R s) (moves_zoomOp steps)

theorem moves_checkApproved (steps : Steps device R) : Moves R checkApproved := by
  have := steps.toRefl
  have := steps.toIsTrans
  exact .bind .get fun _ => .ensure

theorem moves_sendResponse (steps : Steps device R) : Moves R (sendResponse device) := by
  have := steps.toRefl
  have := steps.toIsTrans
  have command : Moves R (modify (App.setCurrentCommand .none) : AppM PUnit) :=
    .modify steps.clear
  have supplied (faults : List Bool) : Moves R (modify fun app =>
      { app with supply := { app.supply with faults } } : AppM PUnit) :=
    .modify fun s => steps.supply s _
  unfold sendResponse
  refine .bind .get fun app => .ite (.bind command fun _ => .pure) ?_
  dsimp only
  split
  · exact .bind (supplied _) fun _ => .bind command fun _ => .pure
  · refine .bind (.modify fun s => steps.context s _) fun _ => ?_
    split
    · exact .bind (supplied _) fun _ => .pure
    · exact .bind (supplied _) fun _ => .bind command fun _ => .pure

theorem moves_executeAction (approves : Approves device R) {approved : Bool} :
    Moves R (executeAction device approved) := by
  have steps := approves.toSteps
  have := steps.toRefl
  have := steps.toIsTrans
  have command : Moves R (modify (App.setCurrentCommand .none) : AppM PUnit) :=
    .modify steps.clear
  have menu : Moves R (modify App.showMenu : AppM PUnit) := .modify steps.menu
  unfold executeAction
  refine .bind (.modify steps.idle) fun _ => .ite ?_ ?_
  · exact .bind (.modify fun s => approves.grant s _) fun _ => .bind (moves_sendResponse steps) fun _ =>
      .bind command fun _ => .bind menu fun _ => .pure
  · exact .bind .pure fun _ => .bind command fun _ => .bind menu fun _ => .pure

/-- The program does not fail. -/
def Answers (prog : AppM α) : Prop := ∀ s, ∃ reply t, prog s = .ok reply t

theorem Answers.pure {a : α} : Answers (Pure.pure a : AppM α) := fun s => ⟨a, s, rfl⟩

theorem Answers.get {rest : App → AppM α} (answers : ∀ app, Answers (rest app)) :
    Answers (MonadState.get >>= rest) := fun s => answers s s

theorem Answers.modify {change : App → App} {rest : AppM α} (answers : Answers rest) :
    Answers (do
      modify change
      rest) := fun s => answers (change s)

/-- The signature is a response, or there is one that says why not. -/
theorem sendResponse_answers (device : Device) : Answers (sendResponse device) := by
  refine .get fun app => ?_
  dsimp only
  split
  · exact .modify .pure
  · split
    · exact .modify (.modify .pure)
    · refine .modify ?_
      split
      · exact .modify .pure
      · exact .modify (.modify .pure)

/-- The answer of the user ends the command. -/
theorem executeAction_answers (device : Device) (approved : Bool) (s : App) :
    ∃ reply t, executeAction device approved s = .ok reply t ∧ t.currentCommand = .none ∧
      t.isUiBusy = false ∧ t.ui.prompt = none ∧ t.commandsCtx = .zero := by
  cases approved with
  | false => exact ⟨_, _, rfl, rfl, rfl, rfl, rfl⟩
  | true =>
      obtain ⟨reply, t, sent⟩ :=
        sendResponse_answers device (App.grantReviewed { s with isUiBusy := false })
      have idle : (modify fun app : App => { app with isUiBusy := false } : AppM PUnit) s =
          .ok () { s with isUiBusy := false } := rfl
      have answered : (do
          modify App.grantReviewed
          sendResponse device : AppM Reply) { s with isUiBusy := false } = .ok reply t := sent
      exact ⟨reply, _, (bind_of_ok idle).trans ((bind_of_ok answered).trans rfl), rfl, rfl, rfl, rfl⟩

variable [UnionLayout OpMem]

omit [UnionLayout OpMem] in
/-- Opening a session keeps what its screens keep. -/
theorem moves_signPk (steps : Steps device R) {cdata : Buffer} {hasToken : Bool}
    (opens : ∀ s : App, R s (s.setCurrentCommand .signTransaction))
    (shown : ∀ token isKnown, Moves R (showTokenAndPath device token isKnown)) :
    Moves R (handleSignPk device cdata hasToken) := by
  have := steps.toRefl
  have := steps.toIsTrans
  have opened (s : App) : R s (App.openSession s) :=
    trans_of R (steps.context s _) (steps.supply _ _)
  have inited (appSessionId : UInt32) : Moves R (handleInitP2pk device cdata hasToken appSessionId) :=
    .bind moves_checkReadParam fun _ => .bind moves_checkReadParam fun _ =>
      .bind moves_checkReadParam fun _ => .bind moves_checkParamsFinished fun _ =>
      .bind (moves_zoomOp steps) fun _ => .bind (.modify opened) fun _ => shown _ _
  unfold handleSignPk
  exact .bind (.modify opens) fun _ => .bind .get fun _ =>
    steps.orSendError (fun s => steps.context s _) (inited _)

omit [UnionLayout OpMem] in
theorem moves_publicKey (steps : Steps device R) {path : Bip32Path} :
    Moves R (bip32PublicKey device path) := by
  have := steps.toRefl
  have := steps.toIsTrans
  have inner : Moves R (opInit (zoom Op.mem Op.setMem id (sdkCalls .internalCryptoError 3))) :=
    moves_zoomOp steps
  exact .bind .ensure fun _ => .bind inner fun _ => .pure

/-- What a subcommand about an output does before the output may be shown. -/
def Subcommand.outputPart (device : Device) (cdata : Buffer) : Subcommand → Option (AppM Unit)
  | .outputTreeChunk => some do
      checkApproved
      opCall (addOutputTreeChunk device.sdk cdata)
  | .outputMinersFeeTree => some do
      checkApproved
      checkParamsFinished cdata
      opCall (addOutputTreeFee device.sdk)
  | .outputChangeTree => some do
      checkApproved
      let (path, _) ← checkReadParam (readBip32Path cdata) .bufferError
      modify (App.modifyOp (writePath path))
      let pubKey ← bip32PublicKey device path
      opCall (handleOutputTreeChange device.sdk path pubKey)
  | .outputTokens => some do
      checkApproved
      opCall (addOutputTokens cdata)
  | .outputRegisters => some do
      checkApproved
      opCall (addOutputRegisters cdata)
  | _ => none

theorem Subcommand.handle_outputPart {subcommand : Subcommand} {sessionKey : Bytes sessionKeyLen}
    {cdata : Buffer} {part : AppM Unit} (output : subcommand.outputPart device cdata = some part) :
    subcommand.handle device sessionKey cdata = (do part; showOutputScreenIfNeeded device) := by
  cases subcommand with
  | startTx | tokenIds | inputFrame | inputContextExtension | dataInput | output | confirm =>
      cases output
  | outputTreeChunk | outputMinersFeeTree | outputChangeTree | outputTokens | outputRegisters =>
      obtain rfl := Option.some.inj output
      simp only [Subcommand.handle, handleOutputTreeChunk, handleOutputTreeFee,
        handleOutputTreeChangePath, handleOutputTokens, handleOutputRegisters, bind_assoc]

omit [UnionLayout OpMem] in
theorem opCall_ok {call : OpM Unit} {s t : App} :
    opCall call s = .ok () t ↔ ∃ v, call (App.op s) = .ok () v ∧ App.setOp v s = t := by
  rw [opCall, orSendError_ok, zoom_ok]

omit [UnionLayout OpMem] in
theorem checkApproved_ok {s t : App} :
    checkApproved s = .ok () t ↔ s.signTxCtx.state = .approved ∧ s = t := by
  rw [checkApproved, get_bind, ensure_ok]

/-- The operation as a subcommand finds it, with the answers of the SDK that are left then. -/
def App.opWith (app : App) (faults : List Bool) : Op :=
  ⟨app.signTxCtx.p2pk, { app.supply with faults }⟩

omit [UnionLayout OpMem] in
/-- The key of a path takes nothing but answers of the SDK. -/
theorem bip32PublicKey_ok {path : Bip32Path} {pubKey : PublicKey} {s t : App}
    (ok : bip32PublicKey device path s = .ok pubKey t) :
    ∃ faults, t = App.setOp (App.opWith s faults) s := by
  simp only [bip32PublicKey, opInit, bind_ok, exists_unit, ensure_ok, zoom_ok, pure_ok] at ok
  obtain ⟨_, ⟨-, rfl⟩, _, ⟨_, ⟨n, calls, rfl⟩, rfl⟩, -, rfl⟩ := ok
  obtain ⟨table, cb⟩ := sdkCalls_frame calls
  refine ⟨n.faults, ?_⟩
  simp only [Op.setMem, App.opWith, table, cb]
  rfl

/-- A subcommand about an output that succeeds is a call of the operation. -/
theorem outputPart_ok {subcommand : Subcommand} {cdata : Buffer} {part : AppM Unit} {s t : App}
    (output : subcommand.outputPart device cdata = some part) (ok : part s = .ok () t) :
    s.signTxCtx.state = .approved ∧ ∃ (call : OutputCall) (faults : List Bool) (op : Op),
      (OpCall.output call).handle device.sdk (App.opWith s faults) = .ok () op ∧
        t = App.setOp op s := by
  cases subcommand with
  | startTx | tokenIds | inputFrame | inputContextExtension | dataInput | output | confirm =>
      cases output
  | outputTreeChunk =>
      obtain rfl := Option.some.inj output
      simp only [bind_ok, exists_unit, checkApproved_ok, opCall_ok] at ok
      obtain ⟨_, ⟨approved, rfl⟩, op, ran, rfl⟩ := ok
      exact ⟨approved, .treeChunk cdata, _, op, ran, rfl⟩
  | outputTokens =>
      obtain rfl := Option.some.inj output
      simp only [bind_ok, exists_unit, checkApproved_ok, opCall_ok] at ok
      obtain ⟨_, ⟨approved, rfl⟩, op, ran, rfl⟩ := ok
      exact ⟨approved, .tokens cdata, _, op, ran, rfl⟩
  | outputRegisters =>
      obtain rfl := Option.some.inj output
      simp only [bind_ok, exists_unit, checkApproved_ok, opCall_ok] at ok
      obtain ⟨_, ⟨approved, rfl⟩, op, ran, rfl⟩ := ok
      exact ⟨approved, .registers cdata, _, op, ran, rfl⟩
  | outputMinersFeeTree =>
      obtain rfl := Option.some.inj output
      simp only [bind_ok, exists_unit, checkApproved_ok, opCall_ok, checkParamsFinished,
        ensure_ok] at ok
      obtain ⟨_, ⟨approved, rfl⟩, _, ⟨-, rfl⟩, op, ran, rfl⟩ := ok
      exact ⟨approved, .treeFee, _, op, ran, rfl⟩
  | outputChangeTree =>
      obtain rfl := Option.some.inj output
      simp only [bind_ok, exists_unit, checkApproved_ok, opCall_ok, checkReadParam_ok,
        modify_ok] at ok
      obtain ⟨_, ⟨approved, rfl⟩, path, _, ⟨-, rfl⟩, _, rfl, pubKey, _, key, op, ran, rfl⟩ := ok
      obtain ⟨faults, rfl⟩ := bip32PublicKey_ok key
      exact ⟨approved, .treeChange path.1 pubKey, faults, op, ran, rfl⟩

/-- A part of an output is a call of the operation, behind the key of a path if it is change. -/
theorem moves_outputPart_of [Std.Refl R] [IsTrans App R]
    (called : ∀ call : OpCall, Moves R (opCall (call.handle device.sdk)))
    (written : ∀ (s : App) (path : Bip32Path), R s (App.modifyOp (writePath path) s))
    (key : ∀ path, Moves R (bip32PublicKey device path)) {subcommand : Subcommand} {cdata : Buffer}
    {part : AppM Unit} (output : subcommand.outputPart device cdata = some part) : Moves R part := by
  have approved : Moves R checkApproved := .bind .get fun _ => .ensure
  cases subcommand with
  | startTx | tokenIds | inputFrame | inputContextExtension | dataInput | output | confirm =>
      cases output
  | outputTreeChunk =>
      obtain rfl := Option.some.inj output
      exact .bind approved fun _ => called (.output (.treeChunk cdata))
  | outputTokens =>
      obtain rfl := Option.some.inj output
      exact .bind approved fun _ => called (.output (.tokens cdata))
  | outputRegisters =>
      obtain rfl := Option.some.inj output
      exact .bind approved fun _ => called (.output (.registers cdata))
  | outputMinersFeeTree =>
      obtain rfl := Option.some.inj output
      exact .bind approved fun _ => .bind moves_checkParamsFinished fun _ =>
        called (.output .treeFee)
  | outputChangeTree =>
      obtain rfl := Option.some.inj output
      exact .bind approved fun _ => .bind moves_checkReadParam fun path =>
        .bind (.modify fun s => written s _) fun _ => .bind (key _) fun pubKey =>
        called (.output (.treeChange path.1 pubKey))

theorem moves_outputPart (steps : Steps device R) {subcommand : Subcommand} {cdata : Buffer}
    {part : AppM Unit} (output : subcommand.outputPart device cdata = some part) : Moves R part := by
  have := steps.toRefl
  have := steps.toIsTrans
  exact moves_outputPart_of (fun _ => moves_opCall steps) (fun s _ => steps.context s _)
    (fun _ => moves_publicKey steps) output

/-- A subcommand that shows nothing is made of calls of the operation. -/
theorem moves_plain_of [Std.Refl R] [IsTrans App R]
    (called : ∀ call : OpCall, Moves R (opCall (call.handle device.sdk)))
    {subcommand : Subcommand} {sessionKey : Bytes sessionKeyLen} {cdata : Buffer}
    (plain : subcommand.outputPart device cdata = none) (unconfirmed : subcommand ≠ .confirm) :
    Moves R (subcommand.handle device sessionKey cdata) := by
  have approved : Moves R checkApproved := .bind .get fun _ => .ensure
  cases subcommand with
  | outputTreeChunk | outputMinersFeeTree | outputChangeTree | outputTokens | outputRegisters =>
      cases plain
  | confirm => exact (unconfirmed rfl).elim
  | startTx =>
      exact .bind approved fun _ => .bind moves_checkReadParam fun inputs =>
        .bind moves_checkReadParam fun dataInputs => .bind moves_checkReadParam fun tokens =>
        .bind moves_checkReadParam fun outputs => .bind moves_checkParamsFinished fun _ =>
        .bind (called (.startTx inputs.1 dataInputs.1 outputs.1 tokens.1)) fun _ => .pure
  | tokenIds => exact .bind approved fun _ => .bind (called (.addTokens cdata)) fun _ => .pure
  | inputContextExtension =>
      exact .bind approved fun _ => .bind (called (.addInputContextExtension cdata)) fun _ => .pure
  | dataInput => exact .bind approved fun _ => .bind (called (.addDataInputs cdata)) fun _ => .pure
  | inputFrame =>
      have start (head : FrameHead) (cdata : Buffer) : Moves R (startInput head cdata) :=
        .ite (.bind moves_checkReadParam fun length =>
          called (.addInput head.boxId head.value head.framesCount length.1)) .pure
      exact .bind approved fun _ => .bind .ensure fun _ => .bind .ensure fun _ =>
        .bind moves_checkReadParam fun head => .bind .ensure fun _ => .bind (start _ _) fun _ =>
        .bind (called (.addInputTokens head.1.boxId head.1.frameIndex _)) fun _ => .pure
  | output =>
      exact .bind approved fun _ => .bind moves_checkReadParam fun value =>
        .bind moves_checkReadParam fun size => .bind moves_checkReadParam fun height =>
        .bind moves_checkReadParam fun tokens => .bind moves_checkReadParam fun registers =>
        .bind moves_checkParamsFinished fun _ =>
        .bind (called (.output (.add value.1 size.1 height.1 tokens.1 registers.1))) fun _ => .pure

theorem moves_plain (steps : Steps device R) {subcommand : Subcommand} {sessionKey : Bytes sessionKeyLen}
    {cdata : Buffer} (plain : subcommand.outputPart device cdata = none)
    (unconfirmed : subcommand ≠ .confirm) :
    Moves R (subcommand.handle device sessionKey cdata) := by
  have := steps.toRefl
  have := steps.toIsTrans
  exact moves_plain_of (fun _ => moves_opCall steps) plain unconfirmed

omit [UnionLayout OpMem] in
/-- A session comes to its first screens, or fails before. -/
theorem handleInitP2pk_comesTo (steps : Steps device R) {cdata : Buffer} {hasToken : Bool}
    {appSessionId : UInt32} :
    ComesTo R (fun prog => ∃ token isKnown, showTokenAndPath device token isKnown = prog)
      (handleInitP2pk device cdata hasToken appSessionId) := by
  have := steps.toRefl
  have := steps.toIsTrans
  have opened : Moves R (modify App.openSession : AppM PUnit) :=
    .modify fun s => trans_of R (steps.context s _) (steps.supply _ _)
  exact .bind moves_checkReadParam fun _ => .bind moves_checkReadParam fun _ =>
    .bind moves_checkReadParam fun _ => .bind moves_checkParamsFinished fun _ =>
    .bind (moves_zoomOp steps) fun _ => .bind opened fun _ => .here ⟨_, _, rfl⟩

/-- A relation that the screens of an output keep, and the answers to them. -/
structure ScreenSteps (R : App → App → Prop) : Prop extends Std.Refl R, IsTrans App R where
  supply : ∀ (s : App) (supply : Supply), R s { s with supply }
  idle : ∀ s : App, R s { s with isUiBusy := false }
  ui : ∀ (s : App) (ui : Ui), ui.prompt = s.ui.prompt → R s { s with ui }
  change : ∀ (s : App) (lastApprovedChange : Bip32Path),
    R s (App.modifyOp (fun op => { op with lastApprovedChange }) s)

omit [UnionLayout OpMem] in
theorem screens_of_steps (steps : Steps device R) (ui : ∀ (s : App) (ui : Ui), R s { s with ui }) :
    ScreenSteps R where
  toRefl := steps.toRefl
  toIsTrans := steps.toIsTrans
  supply := steps.supply
  idle := steps.idle
  ui s changed _ := ui s changed
  change s _ := steps.context s _

section Screens

omit [UnionLayout OpMem]

theorem moves_modifyUi (screens : ScreenSteps R) {f : Ui → Ui} (same : ∀ ui, (f ui).prompt = ui.prompt) :
    Moves R (modifyUi f) := .modify fun s => screens.ui s _ (same s.ui)

theorem moves_addScreen (screens : ScreenSteps R) : Moves R addScreen :=
  moves_modifyUi screens fun ui => by split <;> rfl

/-- The screens of a session that opens. -/
theorem moves_showTokenAndPath (screens : ScreenSteps R)
    (connects : ∀ (s : App) token, R s (s.setConnectedAppId token))
    (approves : ∀ s : App, R s (App.modifySign (fun ctx => { ctx with state := .approved }) s))
    (notes : ∀ (s : App) (appTokenValue : UInt32),
      R s (App.modifyOp (fun op => { op with appTokenValue }) s))
    {token : UInt32} {isKnown : Bool} : Moves R (showTokenAndPath device token isKnown) := by
  have := screens.toRefl
  have := screens.toIsTrans
  have applicationId : Moves R (addApplicationId device token isKnown) := by
    unfold addApplicationId
    cases device.build with
    | bagl => exact .ite (moves_addScreen screens) .pure
    | nbgl => exact .ite (moves_modifyUi screens fun _ => rfl) (moves_modifyUi screens fun _ => rfl)
  have approved : Moves R (operationApproved token) :=
    .bind (.modify screens.idle) fun _ => .bind (.modify fun s => connects s _) fun _ =>
      .bind (.modify approves) fun _ => .bind .get fun _ => .pure
  have added : Moves R (addOperationApproveScreens device token isKnown) :=
    .bind .get fun _ => .bind .ensure fun _ => .bind applicationId fun _ =>
      .bind (.modify fun s => notes s _) fun _ => approved
  unfold showTokenAndPath
  exact .bind (moves_modifyUi screens fun _ => rfl) fun _ => .bind .get fun _ => .bind .ensure fun _ =>
    .ite (.bind (moves_addScreen screens) fun _ => added) added

theorem moves_writePairs (screens : ScreenSteps R) {start count i : Nat}
    {render : Nat → RenderM Unit} : Moves R (writePairs start render i count) := by
  have := screens.toRefl
  have := screens.toIsTrans
  have written (s : App) (index : Nat) (render : RenderM Unit) : R s (App.writePair index render s) := by
    unfold App.writePair
    obtain ⟨status, mem⟩ := rendered render (App.renderMem s)
    exact trans_of R (screens.supply s { s.supply with faults := mem.faults })
      (screens.ui _ { s.ui with writes := s.ui.writes ++ [⟨index, mem.cb, status⟩] } rfl)
  induction count generalizing i with
  | zero => exact .pure
  | succ count ih => exact .bind (.modify fun s => written s _ _) fun _ => ih

theorem moves_addOutputScreens (screens : ScreenSteps R) : Moves R (addOutputScreens device) := by
  have := screens.toRefl
  have := screens.toIsTrans
  have stored (info : OutputInfo) : Moves R (storeLastApproved info) :=
    .modify fun s => screens.change s _
  have pairs {start count i : Nat} {render : Nat → RenderM Unit} :
      Moves R (writePairs start render i count) := moves_writePairs screens
  unfold addOutputScreens
  refine .bind .get fun app => .bind .ensure fun _ => ?_
  dsimp only
  cases device.build with
  | bagl =>
      exact .bind (.modify screens.idle) fun _ => .bind (stored _) fun _ => .bind pairs fun _ =>
        .bind (moves_modifyUi screens fun _ => rfl) fun _ => .bind (stored _) fun _ => .pure
  | nbgl =>
      exact .bind pairs fun _ => .bind (moves_modifyUi screens fun _ => rfl) fun _ =>
        .bind (stored _) fun _ => .pure

theorem moves_displayScreens (steps : Steps device R) {prompt : Prompt}
    (shows : ∀ s : App, R s (s.showPrompt prompt)) : Moves R (displayScreens prompt) := by
  have := steps.toRefl
  have := steps.toIsTrans
  exact .bind .get fun _ => .bind .ensure fun _ => .bind (.modify shows) fun _ => .pure

/-- An output is marked if it is a script, and then it is shown or the user is warned. -/
theorem moves_showOutput_of (screens : ScreenSteps R)
    (marks : ∀ s : App, R s (App.modifyOp (fun op => { op with blindSigningRequired := true }) s))
    (warns : device.build = .bagl → Moves R (displayScreens .blindWarning)) :
    Moves R (showOutputScreenIfNeeded device) := by
  have := screens.toRefl
  have := screens.toIsTrans
  have screen : Moves R addScreen := moves_addScreen screens
  have shown : Moves R (addOutputScreens device) := moves_addOutputScreens screens
  unfold showOutputScreenIfNeeded
  refine .bind .get fun app => .ite ?_ .pure
  unfold showOutputConfirmScreen
  refine .bind .get fun app => .bind .ensure fun _ => .ite ?_ shown
  refine .bind (.modify marks) fun _ => ?_
  cases build : device.build with
  | nbgl => exact shown
  | bagl =>
      refine .ite (.bind screen fun _ => shown) ?_
      exact .bind screen fun _ => .bind screen fun _ => .bind screen fun _ => .bind screen fun _ =>
        warns build

theorem moves_showOutput (steps : Steps device R) (ui : ∀ (s : App) (ui : Ui), R s { s with ui })
    (warns : device.build = .bagl → ∀ s : App, R s (s.showPrompt .blindWarning)) :
    Moves R (showOutputScreenIfNeeded device) :=
  moves_showOutput_of (screens_of_steps steps ui) (fun s => steps.context s _) fun bagl =>
    moves_displayScreens steps (warns bagl)

theorem moves_addTransactionScreens (approves : Approves device R)
    (ui : ∀ (s : App) (ui : Ui), R s { s with ui })
    (reviews : device.build = .bagl → ∀ s : App, R s (s.showPrompt .signTx)) :
    Moves R (addTransactionScreens device) := by
  have steps := approves.toSteps
  have := steps.toRefl
  have := steps.toIsTrans
  have screens := screens_of_steps steps ui
  unfold addTransactionScreens
  refine .bind .get fun app => .bind .ensure fun _ => ?_
  dsimp only
  cases build : device.build with
  | bagl =>
      exact .bind (.modify fun s => steps.context s _) fun _ => .bind (moves_writePairs screens) fun _ =>
        .bind .ensure fun _ => .bind (moves_modifyUi screens fun _ => rfl) fun _ =>
        moves_displayScreens steps (reviews build)
  | nbgl =>
      exact .ite (.bind (.modify steps.clear) fun _ => .bind (.modify steps.menu) fun _ => .pure)
        (.bind (.modify fun s => steps.context s _) fun _ => .bind (moves_writePairs screens) fun _ =>
          .bind (moves_modifyUi screens fun _ => rfl) fun _ => moves_executeAction approves)

end Screens

/-- A subcommand of an open session. -/
theorem moves_subcommand (approves : Approves device R) (ui : ∀ (s : App) (ui : Ui), R s { s with ui })
    (shows : device.build = .bagl → ∀ (s : App) prompt, R s (s.showPrompt prompt))
    {subcommand : Subcommand} {sessionKey : Bytes sessionKeyLen} {cdata : Buffer} :
    Moves R (subcommand.handle device sessionKey cdata) := by
  have steps := approves.toSteps
  have := steps.toRefl
  have := steps.toIsTrans
  cases output : subcommand.outputPart device cdata with
  | some part =>
      rw [Subcommand.handle_outputPart output]
      exact .bind (moves_outputPart steps output) fun _ =>
        moves_showOutput steps ui fun bagl s => shows bagl s _
  | none =>
      by_cases confirm : subcommand = .confirm
      · subst confirm
        exact .bind (moves_checkApproved steps) fun _ => .bind .get fun _ => .bind .ensure fun _ =>
          .bind (.modify fun s => steps.context s _) fun _ =>
          moves_addTransactionScreens approves ui fun bagl s => shows bagl s _
      · exact moves_plain steps output confirm

end SignTx

/-! ## Events -/

/-- A command for signing. -/
def Apdu.ForSigning (cmd : Apdu) : Prop := cmd.ins.toNat = 0x21

instance (cmd : Apdu) : Decidable cmd.ForSigning := inferInstanceAs (Decidable (cmd.ins.toNat = 0x21))

/-- A command that continues the open session of the signing command. -/
structure Continues (app : App) (cmd : Apdu) (subcommand : SignTx.Subcommand) : Prop where
  cla : cmd.cla = LedgerErgo.cla
  ins : cmd.ForSigning
  p2 : cmd.p2 ≠ 0
  idle : app.isUiBusy = false
  subcommand : SignTx.Subcommand.ofByte cmd.p1 = some subcommand
  command : app.currentCommand = .signTransaction
  session : cmd.p2 = app.signTxCtx.session

section Events

variable [UnionLayout SignTx.OpMem] [AttestInput.SharedLayout]

omit [UnionLayout SignTx.OpMem] in
theorem moves_press (approves : Approves device R) {approved : Bool} :
    Moves R (press device approved) := by
  have steps := approves.toSteps
  have := steps.toRefl
  have := steps.toIsTrans
  refine .bind .get fun app => ?_
  cases app.ui.prompt with
  | none => exact .pure
  | some prompt =>
      cases prompt with
      | attestInput => exact AttestInput.moves_action approves
      | address => exact DeriveAddress.moves_action approves
      | extPubKey => exact ExtPubKey.moves_action approves
      | signTx => exact SignTx.moves_executeAction approves
      | blindWarning => exact .bind (.modify steps.menu) fun _ => .pure

omit [UnionLayout SignTx.OpMem] [AttestInput.SharedLayout] in
theorem moves_toggle (approves : Approves device R) : Moves R toggleBlindSigning := by
  have := approves.toRefl
  have := approves.toIsTrans
  intro app
  by_cases menu : app.ui.prompt = none
  · have ran : toggleBlindSigning app =
        .ok .pending (App.showMenu { app with blindSigningEnabled := !app.blindSigningEnabled }) := by
      rw [toggleBlindSigning, get_bind, if_pos menu]
      rfl
    rw [ran]
    exact trans_of R (approves.setting app _) (approves.menu _)
  · have ran : toggleBlindSigning app = .ok .pending app := by
      rw [toggleBlindSigning, get_bind, if_neg menu]
      rfl
    rw [ran]
    exact refl_of R app

/-- A command without sessions. -/
theorem moves_stateless (approves : Approves device R)
    (opens : ∀ (s : App) (command : Command), command ≠ .attestInputBox →
      command ≠ .signTransaction → R s (s.setCurrentCommand command))
    {cmd : Apdu} (other : cmd.ins.toNat ≠ 0x20 ∧ ¬ cmd.ForSigning) {answer : Bool} :
    Moves R (handle device (.apdu cmd answer)) := by
  have := approves.toRefl
  have := approves.toIsTrans
  refine .bind (.modify fun s => approves.answer s _) fun _ => ?_
  unfold apduDispatcher
  refine .bind .ensure fun _ => ?_
  split
  · exact .bind .ensure fun _ => .pure
  · exact .bind .ensure fun _ => .pure
  · exact .bind .ensure fun _ => ExtPubKey.moves_handler approves fun s =>
      opens s _ Command.noConfusion Command.noConfusion
  · exact .bind .ensure fun _ => DeriveAddress.moves_handler approves fun s =>
      opens s _ Command.noConfusion Command.noConfusion
  · exact (other.1 (by assumption)).elim
  · exact (other.2 (by assumption)).elim
  · exact .throw

/-- A command that is not for signing. -/
theorem moves_other (approves : Approves device R)
    (opens : ∀ (s : App) (command : Command), command ≠ .signTransaction →
      R s (s.setCurrentCommand command))
    (signed : ∀ (s : App) bytes, R s (s.logSigned bytes))
    {cmd : Apdu} (other : ¬ cmd.ForSigning) {answer : Bool} :
    Moves R (handle device (.apdu cmd answer)) := by
  have := approves.toRefl
  have := approves.toIsTrans
  by_cases attest : cmd.ins.toNat = 0x20
  · refine .bind (.modify fun s => approves.answer s _) fun _ => ?_
    rw [apduDispatcher_attestInput attest]
    exact .bind .ensure fun _ => .bind .ensure fun _ =>
      AttestInput.moves_handler approves (fun s => opens s _ Command.noConfusion) signed
  · exact moves_stateless approves (fun s command _ => opens s command) ⟨attest, other⟩

/-- The program leaves this state as it is. -/
def Stays (app : App) (prog : AppM α) : Prop := final (prog app) = app

omit [UnionLayout SignTx.OpMem] [AttestInput.SharedLayout] in
theorem Stays.ensure {p : Prop} [Decidable p] {err : Sw} {prog : AppM α} {app : App}
    (rest : Stays app prog) : Stays app (do
      ensure p err
      prog) := by
  unfold Stays
  by_cases holds : p
  · rw [bind_of_ok (ensure_of holds)]
    exact rest
  · rw [bind_of_error (ensure_of_not holds)]
    rfl

omit [UnionLayout SignTx.OpMem] [AttestInput.SharedLayout] in
theorem Stays.busy {rest : AppM α} {app : App} (busy : app.isUiBusy = true) : Stays app (do
    let app ← get
    Prog.ensure (app.isUiBusy = false) .busy
    rest) := by
  unfold Stays
  rw [get_bind, bind_of_error (ensure_of_not (by rw [busy]; exact Bool.noConfusion))]
  rfl

/-- While the user is asked, commands change nothing. -/
theorem next_of_busy {app : App} (busy : app.isUiBusy = true) (cmd : Apdu) (answer : Bool) :
    next device app (.apdu cmd answer) = { app with answer } := by
  have waits : Stays { app with answer } (apduDispatcher device cmd) := by
    unfold apduDispatcher
    refine .ensure ?_
    split
    · exact .ensure rfl
    · exact .ensure rfl
    · exact .ensure (.busy busy)
    · exact .ensure (.busy busy)
    · exact .ensure (.busy busy)
    · exact .ensure (.busy busy)
    · rfl
  exact waits

omit [AttestInput.SharedLayout] in
/-- A subcommand checks the command and the session. -/
theorem handleSubcommand_eq {subcommand : SignTx.Subcommand} {session : UInt8} {cdata : Buffer}
    (app : App) :
    SignTx.handleSubcommand device subcommand session cdata app = (do
      ensure (app.currentCommand = .signTransaction) .badState
      ensure (session = app.signTxCtx.session) .badSessionId
      subcommand.handle device app.sessionKey cdata : AppM Reply) app := by
  have unfolded : SignTx.handleSubcommand device subcommand session cdata = (do
      let app ← get
      ensure (app.currentCommand = .signTransaction) .badState
      let app ← get
      ensure (session = app.signTxCtx.session) .badSessionId
      let app ← get
      subcommand.handle device app.sessionKey cdata) := by
    simp only [SignTx.handleSubcommand, checkCommand, SignTx.checkSession, bind_assoc]
  rw [unfolded, get_bind]
  by_cases command : app.currentCommand = .signTransaction
  swap
  · rw [bind_of_error (ensure_of_not command), bind_of_error (ensure_of_not command)]
  rw [bind_of_ok (ensure_of command), bind_of_ok (ensure_of command), get_bind]
  by_cases session : session = app.signTxCtx.session
  swap
  · rw [bind_of_error (ensure_of_not session), bind_of_error (ensure_of_not session)]
  rw [bind_of_ok (ensure_of session), bind_of_ok (ensure_of session), get_bind]

/-- What a command for signing can do. -/
inductive SigningCase (device : Device) (app : App) (cmd : Apdu) (answer : Bool) : Prop where
  | refused (err : Sw)
      (ran : handle device (.apdu cmd answer) app = .error err { app with answer })
  | opens (p1 : cmd.p1 = 0x01) (idle : app.isUiBusy = false)
      (ran : handle device (.apdu cmd answer) app =
        SignTx.handleSignPk device cmd.data (cmd.p2 = 0x02) { app with answer })
  | stopped (err : Sw)
      (ran : handle device (.apdu cmd answer) app =
        .error err ((SignTx.markError { app with answer }).setCurrentCommand .none))
  | goesOn (subcommand : SignTx.Subcommand) (continues : Continues app cmd subcommand)

theorem signing_cases (device : Device) {cmd : Apdu} (ins : cmd.ForSigning) (app : App) (answer : Bool) :
    SigningCase device app cmd answer := by
  have dispatched : handle device (.apdu cmd answer) app =
      apduDispatcher device cmd { app with answer } := rfl
  rw [apduDispatcher_signTx ins] at dispatched
  by_cases clas : cmd.cla = cla
  swap
  · exact .refused _ (dispatched.trans (bind_of_error (ensure_of_not clas)))
  rw [bind_of_ok (ensure_of clas)] at dispatched
  by_cases params : cmd.p1 ≠ 0 ∧ cmd.p2 ≠ 0
  swap
  · exact .refused _ (dispatched.trans (bind_of_error (ensure_of_not params)))
  rw [bind_of_ok (ensure_of params), SignTx.handlerSignTransaction, get_bind] at dispatched
  by_cases idle : app.isUiBusy = false
  swap
  · exact .refused _ (dispatched.trans (bind_of_error (ensure_of_not idle)))
  rw [bind_of_ok (ensure_of (by exact idle))] at dispatched
  by_cases first : cmd.p1 = 0x01
  · rw [if_pos first] at dispatched
    by_cases token : cmd.p2 = 0x01 ∨ cmd.p2 = 0x02
    · rw [bind_of_ok (ensure_of token)] at dispatched
      exact .opens first idle dispatched
    · exact .refused _ (dispatched.trans (bind_of_error (ensure_of_not token)))
  rw [if_neg first] at dispatched
  cases read : SignTx.Subcommand.ofByte cmd.p1 with
  | none =>
      rw [read] at dispatched
      exact .stopped _ dispatched
  | some subcommand =>
      rw [read] at dispatched
      have checked : SignTx.handleSubcommand device subcommand cmd.p2 cmd.data { app with answer } =
          _ := handleSubcommand_eq _
      by_cases command : app.currentCommand = .signTransaction
      swap
      · rw [bind_of_error (ensure_of_not (by exact command))] at checked
        exact .stopped _ (dispatched.trans (orSendError_error.mpr ⟨_, checked, rfl⟩))
      by_cases session : cmd.p2 = app.signTxCtx.session
      swap
      · rw [bind_of_ok (ensure_of (by exact command)),
          bind_of_error (ensure_of_not (by exact session))] at checked
        exact .stopped _ (dispatched.trans (orSendError_error.mpr ⟨_, checked, rfl⟩))
      exact .goesOn subcommand ⟨clas, ins, params.2, idle, read, command, session⟩

/-- What a subcommand of the open session does. -/
theorem Continues.ran {app : App} {cmd : Apdu} {subcommand : SignTx.Subcommand}
    (continues : Continues app cmd subcommand) (answer : Bool) :
    handle device (.apdu cmd answer) app =
      orSendError SignTx.markError (subcommand.handle device app.sessionKey cmd.data)
        { app with answer } := by
  obtain ⟨clas, ins, p2, idle, read, command, session⟩ := continues
  have p1 : cmd.p1 ≠ 0x01 ∧ cmd.p1 ≠ 0 := by
    constructor <;>
    · intro other
      rw [other] at read
      cases read
  have checked : SignTx.handleSubcommand device subcommand cmd.p2 cmd.data { app with answer } =
      _ := handleSubcommand_eq _
  rw [bind_of_ok (ensure_of (by exact command)), bind_of_ok (ensure_of (by exact session))] at checked
  change apduDispatcher device cmd { app with answer } = _
  rw [apduDispatcher_signTx ins, bind_of_ok (ensure_of clas), bind_of_ok (ensure_of ⟨p1.2, p2⟩),
    SignTx.handlerSignTransaction, get_bind, bind_of_ok (ensure_of (by exact idle)), if_neg p1.1, read]
  simp only [orSendError, checked]

end Events

end LedgerErgo
