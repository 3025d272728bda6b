import LedgerErgo.Ergo.SchnorrVerify
import LedgerErgo.Prompts
import LedgerErgo.ReviewSteps
import LedgerErgo.SessionEnds

/-! # Runs of the signing command

A session for signing is a run of the operation, whatever else happens to the application between
its subcommands. So a signature is that of the transaction which the session has sent, and of
nothing else, and a session has one signature at most.
-/

namespace LedgerErgo

open LedgerErgo.Common LedgerErgo.Ergo LedgerErgo.Prog LedgerErgo.Runs SignTx

/-! ## Sessions and what they have sent -/

/-- The calls that an event makes of the operation if it is accepted. -/
def Event.calls (sdk : Sdk) : Event → List OpCall
  | .apdu cmd _ =>
      if cmd.ForSigning then
        match Subcommand.ofByte cmd.p1 with
        | some subcommand => subcommand.calls sdk cmd.data
        | none => []
      else []
  | .press _ | .toggleBlindSigning => []

/-- The application, and what its last session for signing has done. -/
structure Signing where
  app : App
  /-- The operation when the session was opened. -/
  opened : OpCtx
  /-- The calls of the subcommands that were accepted. -/
  calls : List OpCall
  /-- No output was started before the last one was complete. -/
  orderly : Prop
  /-- The session was answered with a signature. -/
  signed : Prop

section Machine

variable (device : Device) [UnionLayout OpMem] [AttestInput.SharedLayout]

/-- The event is answered with a signature: of the confirmation, if that waits for the user, or of
    the answer to the review. -/
inductive Signs (app : App) : Event → List UInt8 → Prop where
  | confirmed {cmd : Apdu} {answer : Bool} {signature : List UInt8} {t : App}
      (continues : Continues app cmd .confirm)
      (ran : handle device (.apdu cmd answer) app = .ok (.data signature) t) :
      Signs app (.apdu cmd answer) signature
  | pressed {approved : Bool} {signature : List UInt8} {t : App}
      (prompt : app.ui.prompt = some .signTx)
      (ran : handle device (.press approved) app = .ok (.data signature) t) :
      Signs app (.press approved) signature

/-- The state after an event. -/
def Signing.next (s : Signing) (event : Event) : Signing :=
  let app := LedgerErgo.next device s.app event
  if succeeds (handle device event s.app) then
    if event.opens = some .signTransaction then ⟨app, app.signTxCtx.p2pk, [], True, False⟩
    else
      let calls := event.calls device.sdk
      ⟨app, s.opened, s.calls ++ calls,
        s.orderly ∧ Guarded OpCall.Orderly (OpCall.handle device.sdk) calls (App.op s.app),
        s.signed ∨ ∃ signature, Signs device s.app event signature⟩
  else { s with app }

end Machine

/-- The confirmation changes the state of the operation, and nothing that was sent. -/
def SignTx.Op.unconfirmed (op : Op) : Op :=
  if op.ctx.state = .finalized then { op with ctx := { op.ctx with state := .txFinished } } else op

/-- A transaction stays complete when it is confirmed. -/
theorem SignTx.Transmitted.confirmed {sdk : Sdk} {base : List UInt8} {calls : List OpCall} {orderly : Prop}
    {op : Op} (sent : Transmitted sdk base calls orderly op.unconfirmed) :
    Transmitted sdk base calls orderly op := by
  have same : op.unconfirmed = op ∨
      op.unconfirmed = { op with ctx := { op.ctx with state := .txFinished } } := by
    unfold SignTx.Op.unconfirmed
    split
    · exact .inr rfl
    · exact .inl rfl
  cases same with
  | inl same => rwa [same] at sent
  | inr same =>
      rw [same] at sent
      have amounts : AmountsExact (Ledger.ofCalls calls) op :=
        ⟨sent.amounts.fee, sent.amounts.value, sent.amounts.tokens, sent.amounts.others⟩
      exact ⟨sent.first, sent.header, sent.hashed, sent.outputs, amounts⟩

/-- What the session's hash began with. -/
def App.commitment (device : Device) (app : App) : List UInt8 :=
  let op := app.signTxCtx.p2pk
  Schnorr.commitment device.sdk (device.sdk.deriveBip32 op.bip32).1 op.schnorrKey

/-- What was sent, as the session finds it, for the key that was drawn. -/
structure Carries (device : Device) (calls : List OpCall) (orderly : Prop) (app : App) : Prop where
  drawn : Schnorr.Drawn (device.sdk.deriveBip32 app.signTxCtx.p2pk.bip32).1 app.signTxCtx.p2pk.schnorrKey
  sent : Uploads device.sdk (app.commitment device) calls orderly (App.op app).unconfirmed

/-- The operations sign with the same keys, for the same network. -/
structure SameKeys (s t : OpCtx) : Prop where
  schnorrKey : t.schnorrKey = s.schnorrKey
  bip32 : t.bip32 = s.bip32
  networkId : t.networkId = s.networkId

instance : Std.Refl SameKeys := ⟨fun _ => ⟨rfl, rfl, rfl⟩⟩

instance : IsTrans OpCtx SameKeys where
  trans _ _ _ first second := ⟨second.schnorrKey.trans first.schnorrKey,
    second.bip32.trans first.bip32, second.networkId.trans first.networkId⟩

theorem SignTx.SameTx.sameKeys {s t : OpCtx} (same : SameTx s t) : SameKeys s t :=
  ⟨same.schnorrKey, same.bip32, same.networkId⟩

theorem SignTx.Kept.sameKeys {s t : OpCtx} (kept : Kept s t) : SameKeys s t :=
  ⟨kept.schnorrKey, kept.bip32, kept.networkId⟩

/-- What is known of an open session. -/
structure OpenSession (device : Device) (s : Signing) : Prop where
  keys : SameKeys s.opened s.app.signTxCtx.p2pk
  unsigned : ¬ s.signed
  carries : Carries device s.calls s.orderly s.app

/-! ## Steps that send nothing -/

/-- The command goes on, and its operation differs in notes only. -/
def SameUpload (s t : App) : Prop :=
  t.currentCommand = s.currentCommand ∧ SameTx s.signTxCtx.p2pk t.signTxCtx.p2pk

instance : Std.Refl SameUpload := ⟨fun s => ⟨rfl, refl_of SameTx s.signTxCtx.p2pk⟩⟩

instance : IsTrans App SameUpload :=
  ⟨fun _ _ _ first second => ⟨second.1.trans first.1, trans_of SameTx first.2 second.2⟩⟩

/-- Notes in the context. -/
theorem sameUpload_modifyOp {s : App} {f : OpCtx → OpCtx} (notes : ∀ op, SameTx op (f op)) :
    SameUpload s (App.modifyOp f s) := ⟨rfl, notes s.signTxCtx.p2pk⟩

theorem sameUpload_modifySign {s : App} {f : SignTxCtx → SignTxCtx} (notes : ∀ ctx, (f ctx).p2pk = ctx.p2pk) :
    SameUpload s (App.modifySign f s) := by
  refine ⟨rfl, ?_⟩
  have same : (App.modifySign f s).signTxCtx.p2pk = s.signTxCtx.p2pk := notes s.signTxCtx
  rw [same]
  exact refl_of SameTx _

/-- Nothing that the session depends on changes. -/
theorem sameUpload_of_eq {s t : App} (current : t.currentCommand = s.currentCommand)
    (context : t.commandsCtx = s.commandsCtx) : SameUpload s t := by
  refine ⟨current, ?_⟩
  have same : t.signTxCtx = s.signTxCtx := by
    simp only [App.signTxCtx, context]
  rw [same]
  exact refl_of SameTx _

theorem screens_sameUpload : ScreenSteps SameUpload where
  toRefl := inferInstance
  toIsTrans := inferInstance
  supply _ _ := sameUpload_of_eq rfl rfl
  idle _ := sameUpload_of_eq rfl rfl
  ui _ _ _ := sameUpload_of_eq rfl rfl
  change _ _ := sameUpload_modifyOp fun _ => ⟨rfl, rfl, rfl, rfl, rfl, rfl, rfl, rfl⟩

section Notes

variable {device : Device}

theorem sameUpload_displayScreens {prompt : Prompt} : Moves SameUpload (displayScreens prompt) :=
  .bind .get fun _ => .bind .ensure fun _ =>
    .bind (.modify fun _ => sameUpload_of_eq rfl rfl) fun _ => .pure

theorem sameUpload_showOutput : Moves SameUpload (showOutputScreenIfNeeded device) :=
  moves_showOutput_of screens_sameUpload
    (fun _ => sameUpload_modifyOp fun _ => ⟨rfl, rfl, rfl, rfl, rfl, rfl, rfl, rfl⟩)
    fun _ => sameUpload_displayScreens

theorem sameUpload_showTokenAndPath {token : UInt32} {isKnown : Bool} :
    Moves SameUpload (showTokenAndPath device token isKnown) :=
  moves_showTokenAndPath screens_sameUpload (fun _ _ => sameUpload_of_eq rfl rfl)
    (fun _ => sameUpload_modifySign fun _ => rfl)
    fun _ _ => sameUpload_modifyOp fun _ => ⟨rfl, rfl, rfl, rfl, rfl, rfl, rfl, rfl⟩

end Notes

/-! ## The ways of a session -/

section Sessions

variable {device : Device} {calls : List OpCall} {orderly : Prop} {s t : App}

theorem Carries.same (carries : Carries device calls orderly s) (same : SameUpload s t) :
    Carries device calls orderly t := by
  have tx : SameTx s.signTxCtx.p2pk t.signTxCtx.p2pk := same.2
  have base : t.commitment device = s.commitment device := by
    simp only [App.commitment, tx.bip32, tx.schnorrKey]
  refine ⟨by rw [tx.bip32, tx.schnorrKey]; exact carries.drawn, ?_⟩
  rw [base]
  apply carries.sent.congr
  have state : (App.op t).ctx.state = (App.op s).ctx.state := tx.state
  unfold SignTx.Op.unconfirmed
  rw [state]
  split
  · exact ⟨rfl, tx.schnorrKey, tx.bip32, tx.txHash, tx.networkId, tx.tokensTable, tx.mem, tx.tx⟩
  · exact tx

theorem Carries.imp {orderly' : Prop} (carries : Carries device calls orderly s)
    (implies : orderly' → orderly) : Carries device calls orderly' s :=
  ⟨carries.drawn, carries.sent.imp implies⟩

/-- An operation that was not confirmed has got the calls itself. -/
theorem Carries.sending (carries : Carries device calls orderly s)
    (unconfirmed : s.signTxCtx.p2pk.state ≠ .finalized) :
    Uploads device.sdk (s.commitment device) calls orderly (App.op s) := by
  have same : (App.op s).unconfirmed = App.op s := if_neg unconfirmed
  have sent := carries.sent
  rwa [same] at sent

/-- Calls take the session on. -/
theorem Carries.run [UnionLayout OpMem] {more : List OpCall} {op : Op} {faults : List Bool} {u : Unit}
    (carries : Carries device calls orderly s)
    (ran : runAll (OpCall.handle device.sdk) more (App.opWith s faults) = .ok u op) :
    Carries device (calls ++ more)
      (orderly ∧ Guarded OpCall.Orderly (OpCall.handle device.sdk) more (App.opWith s faults))
      (App.setOp op s) := by
  cases more with
  | nil =>
      obtain rfl := runAll_nil_ok.mp ran
      rw [List.append_nil]
      have same : SameUpload s (App.setOp (App.opWith s faults) s) := ⟨rfl, refl_of SameTx _⟩
      exact (carries.same same).imp And.left
  | cons call more =>
      have unconfirmed : s.signTxCtx.p2pk.state ≠ .finalized := by
        obtain ⟨_, m, first, -⟩ := runAll_cons_ok.mp ran
        exact OpCall.unconfirmed first
      have begun : Uploads device.sdk (s.commitment device) calls orderly (App.opWith s faults) :=
        (carries.sending unconfirmed).congr (refl_of SameTx s.signTxCtx.p2pk)
      have kept := OpCall.runAll_kept ran
      have key : op.ctx.schnorrKey = s.signTxCtx.p2pk.schnorrKey := kept.schnorrKey
      have path : op.ctx.bip32 = s.signTxCtx.p2pk.bip32 := kept.bip32
      have base : (App.setOp op s).commitment device = s.commitment device := by
        change Schnorr.commitment device.sdk (device.sdk.deriveBip32 op.ctx.bip32).1 op.ctx.schnorrKey = _
        rw [key, path]
        rfl
      have same : (App.op (App.setOp op s)).unconfirmed = op :=
        if_neg (OpCall.runAll_unconfirmed (s := App.opWith s faults) unconfirmed ran)
      constructor
      · change Schnorr.Drawn (device.sdk.deriveBip32 op.ctx.bip32).1 op.ctx.schnorrKey
        rw [key, path]
        exact carries.drawn
      · rw [base, same]
        exact begun.run ran

/-- A session begins with nothing sent. -/
theorem carries_signPk {cdata : Buffer} {hasToken : Bool} {reply : Reply}
    (ok : handleSignPk device cdata hasToken s = .ok reply t) : Carries device [] True t := by
  simp only [handleSignPk, bind_ok, exists_unit, modify_ok, get_ok, orSendError_ok] at ok
  obtain ⟨_, rfl, _, _, ⟨rfl, rfl⟩, ok⟩ := ok
  simp only [handleInitP2pk, bind_ok, exists_unit, checkReadParam_ok, checkParamsFinished, ensure_ok,
    modify_ok, opInit, zoom_ok, Prod.exists] at ok
  obtain ⟨network, _, _, ⟨-, rfl⟩, path, _, _, ⟨-, rfl⟩, token, _, _, ⟨-, rfl⟩, _, ⟨-, rfl⟩, _,
    ⟨op, inited, rfl⟩, _, rfl, shown⟩ := ok
  have opened : SameUpload (App.setOp op (s.setCurrentCommand .signTransaction))
      (App.openSession (App.setOp op (s.setCurrentCommand .signTransaction))) :=
    ⟨rfl, refl_of SameTx op.ctx⟩
  have begun : Carries device [] True (App.setOp op (s.setCurrentCommand .signTransaction)) := by
    have state := (init_frame inited).1
    have unconfirmed : op.ctx.state ≠ .finalized := by simp [state]
    have same : (App.op (App.setOp op (s.setCurrentCommand .signTransaction))).unconfirmed = op :=
      if_neg unconfirmed
    refine ⟨Uploads.init_drawn inited, ?_⟩
    rw [same]
    exact Uploads.begin inited
  exact (begun.same opened).same (sameUpload_showTokenAndPath.ok shown)

/-- The signature of what the operation has hashed. -/
def SignTx.OpCtx.signature (sdk : Sdk) (op : OpCtx) : List UInt8 :=
  Schnorr.challenge sdk op.txHash ++ Schnorr.response (Schnorr.challenge sdk op.txHash)
    (sdk.deriveBip32 op.bip32).1 op.schnorrKey

/-- Only a confirmed transaction is answered with data, which is its signature. -/
theorem sendResponse_data {signature : List UInt8}
    (ok : sendResponse device s = .ok (.data signature) t) :
    s.signTxCtx.p2pk.state = .finalized ∧ signature = s.signTxCtx.p2pk.signature device.sdk := by
  rw [sendResponse, get_bind] at ok
  by_cases state : s.signTxCtx.p2pk.state ≠ .finalized
  · rw [if_pos state] at ok
    cases ok
  rw [if_neg state] at ok
  refine ⟨not_not.mp state, ?_⟩
  dsimp only at ok
  cases called : (sdkCalls () 2 : EStateM Unit (Mem Unit) Unit)
      ⟨s.supply.faults, s.signTxCtx.p2pk.tokensTable, ()⟩ with
  | error _ m =>
      simp only [called] at ok
      cases ok
  | ok _ m =>
      simp only [called] at ok
      rw [bind_of_ok modifyApp_run] at ok
      cases signed : Schnorr.signFinish device.sdk s.signTxCtx.p2pk.txHash
          (device.sdk.deriveBip32 s.signTxCtx.p2pk.bip32).1 s.signTxCtx.p2pk.schnorrKey m with
      | error _ n =>
          rw [signed] at ok
          cases ok
      | ok value n =>
          rw [signed] at ok
          cases ok
          exact (Schnorr.signFinish_ok.mp signed).2.2.symm

/-- Only an approval is answered with data, and it ends the session. -/
theorem executeAction_data {approved : Bool} {signature : List UInt8}
    (ok : executeAction device approved s = .ok (.data signature) t) :
    approved = true ∧ s.signTxCtx.p2pk.state = .finalized ∧
      signature = s.signTxCtx.p2pk.signature device.sdk ∧
      t.currentCommand = .none ∧ t.commandsCtx = .zero := by
  obtain ⟨reply, u, ran, current, -, -, erased⟩ := executeAction_answers device approved s
  have ended : u = t := by
    rw [ran] at ok
    cases ok
    rfl
  subst ended
  cases approved with
  | false => cases ok
  | true =>
      rw [executeAction, bind_of_ok modifyApp_run, if_pos rfl, bind_of_ok modifyApp_run] at ok
      obtain ⟨reply', m, sent, rest⟩ := bind_ok.mp ok
      obtain rfl : reply' = .data signature := by
        cases rest
        rfl
      obtain ⟨state, signed⟩ := sendResponse_data sent
      exact ⟨rfl, state, signed, current, erased⟩

/-- The operation is confirmed. -/
def App.finalized (app : App) : App := App.modifyOp (fun op => { op with state := .finalized }) app

/-- A confirmation sends nothing. -/
theorem Carries.finalized (carries : Carries device calls orderly s)
    (state : s.signTxCtx.p2pk.state = .txFinished) : Carries device calls orderly s.finalized := by
  have unconfirmed : s.signTxCtx.p2pk.state ≠ .finalized := by simp [state]
  have same : (App.op s.finalized).unconfirmed = App.op s := by
    have confirmed : (App.op s.finalized).ctx.state = .finalized := rfl
    rw [SignTx.Op.unconfirmed, if_pos confirmed, ← state]
    rfl
  refine ⟨carries.drawn, ?_⟩
  rw [same]
  exact carries.sending unconfirmed

/-- What a confirmation leaves: with buttons, the session that waits for the answer to its review;
    with a touch screen, no session, and what the answer was about. -/
inductive Confirmed (device : Device) (s : App) : Reply → App → Prop where
  | asks {t : App} (build : device.build = .bagl) (same : SameUpload s.finalized t) :
      Confirmed device s .pending t
  | denied {t : App} (ended : t.currentCommand = .none) : Confirmed device s resDeny t
  | answered {reply : Reply} {m t : App}
      (allowed : s.signTxCtx.p2pk.blindSigningRequired = true → s.blindSigningEnabled = true)
      (same : SameUpload s.finalized m) (ran : executeAction device s.answer m = .ok reply t) :
      Confirmed device s reply t

theorem confirm_ok {reply : Reply} (ok : handleSignConfirm device s = .ok reply t) :
    s.signTxCtx.p2pk.state = .txFinished ∧ Confirmed device s reply t := by
  simp only [handleSignConfirm, showConfirmScreen, bind_ok, exists_unit, checkApproved_ok, get_ok,
    ensure_ok, modify_ok] at ok
  obtain ⟨_, ⟨-, rfl⟩, _, _, ⟨rfl, rfl⟩, _, ⟨state, rfl⟩, _, rfl, added⟩ := ok
  refine ⟨state, ?_⟩
  rw [addTransactionScreens, get_bind] at added
  simp only [bind_ok, exists_unit, ensure_ok] at added
  obtain ⟨_, ⟨-, rfl⟩, added⟩ := added
  have confirmed : SameUpload s.finalized (App.modifyOp (fun op => { op with confirmSet := true })
      s.finalized) := sameUpload_modifyOp fun _ => ⟨rfl, rfl, rfl, rfl, rfl, rfl, rfl, rfl⟩
  cases build : device.build with
  | bagl =>
      simp only [build, bind_ok, exists_unit, modify_ok, modifyUi, ensure_ok, displayScreens, get_ok,
        pure_ok] at added
      obtain ⟨_, rfl, m, pairs, _, ⟨-, rfl⟩, _, rfl, _, _, ⟨rfl, rfl⟩, _, ⟨-, rfl⟩, _, rfl, rfl, rfl⟩ :=
        added
      refine .asks build (trans_of SameUpload (trans_of SameUpload confirmed
        ((moves_writePairs screens_sameUpload).ok pairs)) ?_)
      exact sameUpload_of_eq rfl rfl
  | nbgl =>
      simp only [build] at added
      rw [ite_ok] at added
      cases added with
      | inl denied =>
          obtain ⟨-, denied⟩ := denied
          cases denied
          exact .denied rfl
      | inr answered =>
          obtain ⟨allowed, answered⟩ := answered
          simp only [bind_ok, exists_unit, modify_ok, modifyUi] at answered
          obtain ⟨_, rfl, m, pairs, _, rfl, ran⟩ := answered
          refine .answered ?_ ?_ ran
          · intro required
            by_contra disabled
            exact allowed ⟨required, disabled⟩
          · refine trans_of SameUpload (trans_of SameUpload confirmed
              ((moves_writePairs screens_sameUpload).ok pairs)) ?_
            exact sameUpload_of_eq rfl rfl

end Sessions

/-! ## Other commands -/

section Others

variable {device : Device} {app : App} {cmd : Apdu} {answer : Bool}

theorem handler_extPubKey_cleared {cdata : Buffer} {hasAccessToken : Bool}
    (idle : app.isUiBusy = false) :
    ExtPubKey.handlerGetExtendedPublicKey device cdata hasAccessToken app =
      ExtPubKey.handlerGetExtendedPublicKey device cdata hasAccessToken (app.setCurrentCommand .none) := by
  have cleared : (app.setCurrentCommand .none).isUiBusy = false := rfl
  rw [ExtPubKey.handlerGetExtendedPublicKey, get_bind, get_bind, bind_of_ok (ensure_of idle),
    bind_of_ok (ensure_of cleared)]
  rfl

theorem handler_deriveAddress_cleared {cdata : Buffer} {display hasAccessToken : Bool}
    (idle : app.isUiBusy = false) :
    DeriveAddress.handlerDeriveAddress device cdata display hasAccessToken app =
      DeriveAddress.handlerDeriveAddress device cdata display hasAccessToken
        (app.setCurrentCommand .none) := by
  have cleared : (app.setCurrentCommand .none).isUiBusy = false := rfl
  rw [DeriveAddress.handlerDeriveAddress, get_bind, get_bind, bind_of_ok (ensure_of idle),
    bind_of_ok (ensure_of cleared)]
  rfl

/-- The program leaves this state as it is, or no session of the command. -/
def StaysOrLeaves (command : Command) (app : App) (prog : AppM Reply) : Prop :=
  final (prog app) = app ∨ (final (prog app)).currentCommand ≠ command

theorem StaysOrLeaves.ensure {command : Command} {p : Prop} [Decidable p] {err : Sw}
    {prog : AppM Reply} (rest : StaysOrLeaves command app prog) : StaysOrLeaves command app (do
      ensure p err
      prog) := by
  unfold StaysOrLeaves
  by_cases holds : p
  · rw [bind_of_ok (ensure_of holds)]
    exact rest
  · rw [bind_of_error (ensure_of_not holds)]
    exact .inl rfl

variable [UnionLayout OpMem] [AttestInput.SharedLayout]

/-- A command without sessions erases the context before it does anything. -/
theorem dispatcher_stateless {command : Command}
    (sessions : command = .attestInputBox ∨ command = .signTransaction)
    (stateless : cmd.ins.toNat ≠ 0x20 ∧ ¬ cmd.ForSigning) (idle : app.isUiBusy = false) :
    StaysOrLeaves command app (apduDispatcher device cmd) := by
  have other (command' : Command) (differs : command' ≠ .attestInputBox ∧ command' ≠ .signTransaction) :
      command' ≠ command := by
    rcases sessions with rfl | rfl
    · exact differs.1
    · exact differs.2
  have approves : Approves device (NotCurrent command) :=
    approves_notCurrent (other .none ⟨Command.noConfusion, Command.noConfusion⟩).symm
  unfold apduDispatcher
  apply StaysOrLeaves.ensure
  split
  · exact .ensure (.inl rfl)
  · exact .ensure (.inl rfl)
  · refine .ensure (.inr fun here => ?_)
    rw [handler_extPubKey_cleared idle] at here
    have differs := other .getExtendedPublicKey ⟨Command.noConfusion, Command.noConfusion⟩
    have before : (app.setCurrentCommand .none).currentCommand = command :=
      ExtPubKey.moves_handler approves (fun _ same => (differs same).elim) _ here
    exact other .none ⟨Command.noConfusion, Command.noConfusion⟩ before
  · refine .ensure (.inr fun here => ?_)
    rw [handler_deriveAddress_cleared idle] at here
    have differs := other .deriveAddress ⟨Command.noConfusion, Command.noConfusion⟩
    have before : (app.setCurrentCommand .none).currentCommand = command :=
      DeriveAddress.moves_handler approves (fun _ same => (differs same).elim) _ here
    exact other .none ⟨Command.noConfusion, Command.noConfusion⟩ before
  · exact (stateless.1 (by assumption)).elim
  · exact (stateless.2 (by assumption)).elim
  · exact .inl rfl

/-- A command that is not for signing leaves the application as it was, or no session for signing. -/
theorem next_other (device : Device) (app : App) (answer : Bool) (other : ¬ cmd.ForSigning) :
    next device app (.apdu cmd answer) = { app with answer } ∨
      (next device app (.apdu cmd answer)).currentCommand ≠ .signTransaction := by
  have signing : Approves device (NotCurrent .signTransaction) :=
    approves_notCurrent Command.noConfusion
  cases sessions : cmd.sessionCommand with
  | some command =>
      obtain ⟨attest, rfl⟩ : cmd.ins.toNat = 0x20 ∧ command = .attestInputBox := by
        cases Apdu.sessionCommand_cases sessions with
        | inl attest => exact attest
        | inr sign => exact (other sign.1).elim
      unfold next
      cases ran : handle device (.apdu cmd answer) app with
      | error err t =>
          cases error_state sessions ran with
          | inl same => exact .inl same
          | inr cleared =>
              right
              change t.currentCommand ≠ .signTransaction
              rw [cleared.command]
              exact Command.noConfusion
      | ok reply t =>
          right
          have dispatched : apduDispatcher device cmd { app with answer } = .ok reply t := ran
          by_cases opens : cmd.p1 = 1
          · rw [apduDispatcher_attestInput attest] at dispatched
            simp only [AttestInput.handlerAttestInput, opens, if_true, bind_ok, exists_unit,
              ensure_ok, get_ok, orSendError_ok] at dispatched
            obtain ⟨_, ⟨-, rfl⟩, _, ⟨-, rfl⟩, _, _, ⟨rfl, rfl⟩, _, ⟨-, rfl⟩, _, ⟨-, rfl⟩, inited⟩ :=
              dispatched
            -- the context is erased first, so it could have been erased before
            have cleared : AttestInput.handleInitCommand device cmd.data (cmd.p2 = 0x02)
                (App.setCurrentCommand .none { app with answer }) = .ok reply t := inited
            have moved := (AttestInput.moves_initCommand signing fun _ => Command.noConfusion).ok cleared
            exact fun here => Command.noConfusion (moved here)
          · have session := session_of_continued sessions opens dispatched
            have moved := (moves_other signing (fun _ _ different here => absurd here different)
              (fun _ _ => id) other).ok ran
            intro here
            have current : app.currentCommand = .signTransaction := moved here
            rw [App.sessionOf, if_neg (by simp [current])] at session
            cases session
  | none =>
      by_cases idle : app.isUiBusy = false
      · exact dispatcher_stateless (.inr rfl) (Apdu.sessionCommand_none sessions) idle
      · exact .inl (next_of_busy (Bool.eq_true_of_not_eq_false idle) cmd answer)

/-- An answer leaves no session for signing, unless nobody was asked or the user was warned. -/
theorem next_press (coherent : app.Coherent device) (approved : Bool) :
    app.ui.prompt = none ∧ next device app (.press approved) = app ∨
      app.ui.prompt = some .blindWarning ∧ next device app (.press approved) = app.showMenu ∨
      (next device app (.press approved)).currentCommand ≠ .signTransaction := by
  obtain ⟨command, working⟩ | ⟨prompt, asking⟩ := coherent
  · exact .inl ⟨working.prompt, next_press_none working.prompt⟩
  right
  have pressed : handle device (.press approved) app = prompt.action device approved app := by
    rw [handle, press, get_bind, asking.prompt]
  cases prompt with
  | signTx =>
      right
      obtain ⟨reply, t, ran, current, -⟩ := executeAction_answers device approved app
      rw [next, pressed, Prompt.action, ran]
      change t.currentCommand ≠ .signTransaction
      rw [current]
      exact Command.noConfusion
  | blindWarning =>
      left
      refine ⟨asking.prompt, ?_⟩
      rw [next, pressed]
      rfl
  | attestInput | address | extPubKey =>
      right
      have signing : Approves device (NotCurrent .signTransaction) :=
        approves_notCurrent Command.noConfusion
      intro here
      have before : app.currentCommand = .signTransaction := moves_press signing app here
      rw [asking.current] at before
      cases before

end Others

/-! ## Runs -/

section Runs

variable {device : Device} [UnionLayout OpMem] [AttestInput.SharedLayout] {s : Signing} {event : Event}
  {cmd : Apdu} {answer : Bool}

theorem Signing.next_app : (s.next device event).app = LedgerErgo.next device s.app event := by
  unfold Signing.next
  dsimp only
  split
  · split <;> rfl
  · rfl

/-- An event that sends nothing and is not answered with a signature. -/
structure Silent (device : Device) (app : App) (event : Event) : Prop where
  opens : event.opens ≠ some .signTransaction
  calls : event.calls device.sdk = []
  signs : ∀ signature, ¬ Signs device app event signature

theorem OpenSession.silent (opened : OpenSession device s)
    (same : SameUpload s.app (next device s.app event))
    (silent : succeeds (handle device event s.app) = true → Silent device s.app event) :
    OpenSession device (s.next device event) := by
  have keys : SameKeys s.opened (next device s.app event).signTxCtx.p2pk :=
    trans_of SameKeys opened.keys same.2.sameKeys
  have carries := opened.carries.same same
  unfold Signing.next
  dsimp only
  cases succeeded : succeeds (handle device event s.app) with
  | false => exact ⟨keys, opened.unsigned, carries⟩
  | true =>
      obtain ⟨other, none, unsigned⟩ := silent succeeded
      rw [if_pos rfl, if_neg other, none]
      refine ⟨keys, ?_, ?_⟩
      · intro signed
        rcases signed with before | ⟨signature, now⟩
        · exact opened.unsigned before
        · exact unsigned signature now
      · change Carries device (s.calls ++ []) _ _
        rw [List.append_nil]
        exact carries.imp And.left

/-- A subcommand that is accepted makes its calls. -/
theorem OpenSession.accepts {subcommand : Subcommand} {reply : Reply} {t : App}
    (opened : OpenSession device s) (continues : Continues s.app cmd subcommand)
    (ran : handle device (.apdu cmd answer) s.app = .ok reply t)
    (keys : SameKeys s.app.signTxCtx.p2pk t.signTxCtx.p2pk)
    (unsigned : subcommand = .confirm → ∀ signature, reply ≠ .data signature)
    (sent : Carries device (s.calls ++ subcommand.calls device.sdk cmd.data)
      (s.orderly ∧ Guarded OpCall.Orderly (OpCall.handle device.sdk)
        (subcommand.calls device.sdk cmd.data) (App.op s.app)) t) :
    OpenSession device (s.next device (.apdu cmd answer)) := by
  have succeeded : succeeds (handle device (.apdu cmd answer) s.app) = true := by rw [ran]; rfl
  have goesOn : Event.opens (.apdu cmd answer) ≠ some .signTransaction := by
    have later : cmd.p1 ≠ 1 := by
      intro first
      have read := continues.subcommand
      rw [first] at read
      cases read
    simp [Event.opens, later]
  have calls : Event.calls device.sdk (.apdu cmd answer) = subcommand.calls device.sdk cmd.data := by
    simp only [Event.calls, if_pos continues.ins, continues.subcommand]
  have after : next device s.app (.apdu cmd answer) = t := by rw [next, ran]; rfl
  unfold Signing.next
  dsimp only
  rw [if_pos succeeded, if_neg goesOn, calls, after]
  refine ⟨trans_of SameKeys opened.keys keys, ?_, sent⟩
  intro signed
  rcases signed with before | ⟨signature, now⟩
  · exact opened.unsigned before
  · cases now with
    | confirmed confirms answered =>
        have same : some subcommand = some .confirm := continues.subcommand.symm.trans confirms.subcommand
        rw [ran] at answered
        cases answered
        exact unsigned (Option.some.inj same) signature rfl

/-- The signing command is not open, or its session is a run of the operation. -/
structure SigningInv (device : Device) (s : Signing) : Prop where
  coherent : s.app.Coherent device
  opened : s.app.currentCommand = .signTransaction → OpenSession device s

/-- The application has just started. -/
def Signing.start (key : Bytes sessionKeyLen) (blindSigning : Bool) (supply : Supply) : Signing :=
  ⟨App.init key blindSigning supply, .zero, [], True, False⟩

omit [UnionLayout OpMem] [AttestInput.SharedLayout] in
theorem SigningInv.start {key : Bytes sessionKeyLen} {blindSigning : Bool} {supply : Supply} :
    SigningInv device (.start key blindSigning supply) :=
  ⟨coherent_init, fun here => (by cases here)⟩

/-- Without a session nothing is to be known. -/
theorem SigningInv.left (coherent : s.app.Coherent device)
    (left : (LedgerErgo.next device s.app event).currentCommand ≠ .signTransaction) :
    SigningInv device (s.next device event) := by
  constructor
  · rw [Signing.next_app]
    exact coherent_next coherent
  · rw [Signing.next_app]
    exact fun here => (left here).elim

/-- An event without a session for signing before it, or which sends nothing. -/
theorem SigningInv.stays (inv : SigningInv device s)
    (same : SameUpload s.app (LedgerErgo.next device s.app event))
    (silent : succeeds (handle device event s.app) = true → Silent device s.app event) :
    SigningInv device (s.next device event) := by
  constructor
  · rw [Signing.next_app]
    exact coherent_next inv.coherent
  · intro here
    rw [Signing.next_app, same.1] at here
    exact (inv.opened here).silent same silent

theorem SigningInv.next_toggle (inv : SigningInv device s) :
    SigningInv device (s.next device .toggleBlindSigning) := by
  have same : SameUpload s.app (LedgerErgo.next device s.app .toggleBlindSigning) := by
    change SameUpload s.app (final (toggleBlindSigning s.app))
    rcases final_toggle s.app with same | ⟨-, shown⟩
    · rw [same]
      exact refl_of SameUpload s.app
    · rw [shown]
      exact sameUpload_of_eq rfl rfl
  refine inv.stays same fun _ => ⟨?_, rfl, ?_⟩
  · simp [Event.opens]
  · intro signature signs
    cases signs

theorem SigningInv.next_press (inv : SigningInv device s) {approved : Bool} :
    SigningInv device (s.next device (.press approved)) := by
  have silent (other : s.app.ui.prompt ≠ some .signTx) : Silent device s.app (.press approved) := by
    refine ⟨by simp [Event.opens], rfl, ?_⟩
    intro signature signs
    cases signs with
    | pressed prompt ran => exact other prompt
  rcases LedgerErgo.next_press inv.coherent approved with ⟨unasked, same⟩ | ⟨warned, shown⟩ | left
  · apply inv.stays
    · rw [same]
      exact refl_of SameUpload s.app
    · exact fun _ => silent (by simp [unasked])
  · apply inv.stays
    · rw [shown]
      exact sameUpload_of_eq rfl rfl
    · exact fun _ => silent (by simp [warned])
  · exact .left inv.coherent left

omit [AttestInput.SharedLayout] in
/-- A part of an output is orderly wherever it comes. -/
theorem orderly_part {subcommand : Subcommand} {cdata : Buffer} {part : AppM Unit} {op : Op}
    (output : subcommand.outputPart device cdata = some part) :
    Guarded OpCall.Orderly (OpCall.handle device.sdk) (subcommand.calls device.sdk cdata) op := by
  have single (call : OutputCall) (ordered : ∀ op, call.Orderly op) :
      Guarded OpCall.Orderly (OpCall.handle device.sdk) [.output call] op := by
    refine ⟨ordered op, ?_⟩
    split <;> trivial
  cases subcommand with
  | startTx | tokenIds | inputFrame | inputContextExtension | dataInput | output | confirm =>
      cases output
  | outputTreeChunk | outputMinersFeeTree | outputTokens | outputRegisters =>
      exact single _ fun _ => trivial
  | outputChangeTree =>
      cases read : readBip32Path cdata with
      | none => simp [Subcommand.calls, read, Guarded]
      | some path =>
          simp only [Subcommand.calls, read, Option.bind_eq_bind, Option.bind_some, Option.pure_def,
            Option.getD_some]
          exact single _ fun _ => trivial

/-- A part of an output that is accepted goes on with the session. -/
theorem OpenSession.next_part {subcommand : Subcommand} {part : AppM Unit} {reply : Reply} {m t : App}
    (opened : OpenSession device s) (continues : Continues s.app cmd subcommand)
    (output : subcommand.outputPart device cmd.data = some part)
    (called : part { s.app with answer } = .ok () m)
    (shown : showOutputScreenIfNeeded device m = .ok reply t)
    (ran : handle device (.apdu cmd answer) s.app = .ok reply t) :
    OpenSession device (s.next device (.apdu cmd answer)) := by
  obtain ⟨-, call, faults, op, calls, done, rfl⟩ := outputPart_call output called
  have answered : Carries device s.calls s.orderly { s.app with answer } :=
    opened.carries.same (sameUpload_of_eq rfl rfl)
  have sent : Carries device (s.calls ++ [.output call]) _ _ :=
    answered.run (u := ()) (runAll_cons_ok.mpr ⟨(), op, done, runAll_nil_ok.mpr rfl⟩)
  have same := sameUpload_showOutput.ok shown
  have kept : Kept s.app.signTxCtx.p2pk op.ctx := (OpCall.handle_proceeds done).kept
  refine opened.accepts continues ran ?_ ?_ ?_
  · exact trans_of SameKeys kept.sameKeys same.2.sameKeys
  · rintro rfl
    cases output
  · rw [calls]
    refine (sent.same same).imp fun ordered => ⟨ordered.1, ?_⟩
    rw [← calls]
    exact orderly_part output

/-- A subcommand that shows nothing goes on with the session. -/
theorem OpenSession.next_plain {subcommand : Subcommand} {reply : Reply} {t : App}
    (opened : OpenSession device s) (continues : Continues s.app cmd subcommand)
    (plain : subcommand.outputPart device cmd.data = none) (unconfirmed : subcommand ≠ .confirm)
    (called : subcommand.handle device s.app.sessionKey cmd.data { s.app with answer } = .ok reply t)
    (ran : handle device (.apdu cmd answer) s.app = .ok reply t) :
    OpenSession device (s.next device (.apdu cmd answer)) := by
  obtain ⟨rfl, -, op, done, rfl⟩ := plain_ok plain unconfirmed called
  have answered : Carries device s.calls s.orderly { s.app with answer } :=
    opened.carries.same (sameUpload_of_eq rfl rfl)
  have sent : Carries device (s.calls ++ subcommand.calls device.sdk cmd.data) _ _ := answered.run done
  have kept : Kept s.app.signTxCtx.p2pk op.ctx := OpCall.runAll_kept done
  exact opened.accepts continues ran kept.sameKeys (fun confirms => absurd confirms unconfirmed) sent

/-- A confirmation ends the session, or asks for the answer to its review. -/
theorem OpenSession.next_confirm {reply : Reply} {t : App} (opened : OpenSession device s)
    (continues : Continues s.app cmd .confirm)
    (called : handleSignConfirm device { s.app with answer } = .ok reply t)
    (ran : handle device (.apdu cmd answer) s.app = .ok reply t) :
    t.currentCommand = .none ∨ OpenSession device (s.next device (.apdu cmd answer)) := by
  obtain ⟨state, confirmed⟩ := confirm_ok called
  cases confirmed with
  | denied ended => exact .inl ended
  | answered allowed same done =>
      obtain ⟨_, _, ran', current, -⟩ := executeAction_answers device answer _
      rw [ran'] at done
      cases done
      exact .inl current
  | asks build same =>
      have answered : Carries device s.calls s.orderly { s.app with answer } :=
        opened.carries.same (sameUpload_of_eq rfl rfl)
      have finalized : Carries device s.calls s.orderly (App.finalized { s.app with answer }) :=
        answered.finalized state
      have keys : SameKeys s.app.signTxCtx.p2pk t.signTxCtx.p2pk :=
        ⟨same.2.schnorrKey, same.2.bip32, same.2.networkId⟩
      refine .inr (opened.accepts continues ran keys (fun _ _ => Reply.noConfusion) ?_)
      rw [Subcommand.calls, List.append_nil]
      exact (finalized.same same).imp And.left

/-- The subcommands that go on with the session. -/
theorem OpenSession.next_subcommand {subcommand : Subcommand} (opened : OpenSession device s)
    (continues : Continues s.app cmd subcommand) :
    (LedgerErgo.next device s.app (.apdu cmd answer)).currentCommand ≠ .signTransaction ∨
      OpenSession device (s.next device (.apdu cmd answer)) := by
  have handled : handle device (.apdu cmd answer) s.app = _ := continues.ran answer
  cases called : subcommand.handle device s.app.sessionKey cmd.data { s.app with answer } with
  | error err t =>
      left
      rw [LedgerErgo.next, handled, final_orSendError called]
      exact Command.noConfusion
  | ok reply t =>
      rw [orSendError_run_ok called] at handled
      cases output : subcommand.outputPart device cmd.data with
      | some part =>
          rw [Subcommand.handle_outputPart output] at called
          obtain ⟨u, m, called, shown⟩ := bind_ok.mp called
          exact .inr (opened.next_part continues output called shown handled)
      | none =>
          by_cases confirms : subcommand = .confirm
          · subst confirms
            apply (opened.next_confirm continues called handled).imp_left
            intro ended here
            rw [LedgerErgo.next, handled, final, ended] at here
            cases here
          · exact .inr (opened.next_plain continues output confirms called handled)

omit [UnionLayout OpMem] [AttestInput.SharedLayout] in
/-- A session that cannot be opened leaves no command. -/
theorem none_of_signPk {cdata : Buffer} {hasToken : Bool} {err : Sw} {app t : App}
    (failed : handleSignPk device cdata hasToken app = .error err t) : t.currentCommand = .none := by
  rw [handleSignPk, bind_of_ok modifyApp_run, get_bind, orSendError_error] at failed
  obtain ⟨m, -, rfl⟩ := failed
  rfl

omit [UnionLayout OpMem] [AttestInput.SharedLayout] in
theorem opens_signing (opens : cmd.p1 = 0x01) (ins : cmd.ForSigning) :
    Event.opens (.apdu cmd answer) = some .signTransaction := by
  have sign : cmd.ins.toNat = 0x21 := ins
  simp [Event.opens, opens, Apdu.sessionCommand, sign]

theorem carries_opening {cdata : Buffer} {hasToken : Bool} (opens : cmd.p1 = 0x01)
    (ins : cmd.ForSigning) (handled : handle device (.apdu cmd answer) s.app =
      handleSignPk device cdata hasToken { s.app with answer }) :
    (LedgerErgo.next device s.app (.apdu cmd answer)).currentCommand ≠ .signTransaction ∨
      OpenSession device (s.next device (.apdu cmd answer)) := by
  cases ran : handleSignPk device cdata hasToken { s.app with answer } with
  | error err t =>
      left
      rw [LedgerErgo.next, handled, ran, final, none_of_signPk ran]
      exact Command.noConfusion
  | ok reply t =>
      right
      have succeeded : succeeds (handle device (.apdu cmd answer) s.app) = true := by
        rw [handled, ran]
        rfl
      have after : LedgerErgo.next device s.app (.apdu cmd answer) = t := by
        rw [LedgerErgo.next, handled, ran]
        rfl
      unfold Signing.next
      dsimp only
      rw [if_pos succeeded, if_pos (opens_signing opens ins), after]
      exact ⟨refl_of SameKeys _, id, carries_signPk ran⟩

/-- Every event leaves no session, or a run of the operation. -/
theorem SigningInv.step (inv : SigningInv device s) (event : Event) :
    SigningInv device (s.next device event) := by
  cases event with
  | toggleBlindSigning => exact inv.next_toggle
  | press approved => exact inv.next_press
  | apdu cmd answer =>
      have leaves (cases : (LedgerErgo.next device s.app (.apdu cmd answer)).currentCommand ≠
            .signTransaction ∨ OpenSession device (s.next device (.apdu cmd answer))) :
          SigningInv device (s.next device (.apdu cmd answer)) := by
        rcases cases with left | opened
        · exact .left inv.coherent left
        · constructor
          · rw [Signing.next_app]
            exact coherent_next inv.coherent
          · exact fun _ => opened
      by_cases ins : cmd.ForSigning
      swap
      · rcases next_other device s.app answer ins with same | left
        · have other : Event.opens (.apdu cmd answer) ≠ some .signTransaction := by
            intro opens
            have sessions : cmd.sessionCommand = some .signTransaction := by
              simp only [Event.opens] at opens
              split at opens
              · exact opens
              · cases opens
            cases Apdu.sessionCommand_cases sessions with
            | inl attest => cases attest.2
            | inr sign => exact ins sign.1
          apply inv.stays
          · rw [same]
            exact sameUpload_of_eq rfl rfl
          · refine fun _ => ⟨other, ?_, ?_⟩
            · simp only [Event.calls, if_neg ins]
            · intro signature signs
              cases signs with
              | confirmed continues ran => exact ins continues.ins
        · exact .left inv.coherent left
      cases signing_cases device ins s.app answer with
      | refused err ran =>
          apply inv.stays
          · rw [LedgerErgo.next, ran]
            exact sameUpload_of_eq rfl rfl
          · rw [ran]
            exact Bool.noConfusion
      | stopped err ran =>
          apply SigningInv.left inv.coherent
          rw [LedgerErgo.next, ran]
          exact Command.noConfusion
      | opens p1 idle ran => exact leaves (carries_opening p1 ins ran)
      | goesOn subcommand continues =>
          exact leaves ((inv.opened continues.command).next_subcommand continues)

/-! ## Signatures -/

/-- The user agrees. -/
def Event.Approves : Event → Prop
  | .apdu _ answer => answer = true
  | .press approved => approved = true
  | .toggleBlindSigning => False

/-- What a signature stands for. -/
structure SignsSession (device : Device) (s : Signing) (event : Event) (signature : List UInt8) :
    Prop where
  approved : event.Approves
  unsigned : ¬ s.signed
  keys : SameKeys s.opened s.app.signTxCtx.p2pk
  signed : signature = s.app.signTxCtx.p2pk.signature device.sdk
  sent : Transmitted device.sdk (s.app.commitment device) s.calls s.orderly (App.op s.app)
  /-- Whoever knows the public key and the transaction accepts the signature. -/
  verifies : s.orderly → BigEndian.value s.opened.schnorrKey.val < Schnorr.secp256k1N →
    ∀ {E : Type} [AddCommGroup E] (curve : Schnorr.Curve device.sdk E),
      curve.Accepts (curve.publicKey (device.sdk.deriveBip32 s.opened.bip32).1)
        (OpCall.bytes device.sdk s.opened.networkId s.calls) signature
  ended : (LedgerErgo.next device s.app event).currentCommand = .none
  erased : (LedgerErgo.next device s.app event).commandsCtx = .zero

omit [UnionLayout OpMem] [AttestInput.SharedLayout] in
/-- A signature of what the session has sent is accepted. -/
theorem accepts_of_sent (opened : OpenSession device s)
    (sent : Transmitted device.sdk (s.app.commitment device) s.calls s.orderly (App.op s.app))
    (orderly : s.orderly) (small : BigEndian.value s.opened.schnorrKey.val < Schnorr.secp256k1N)
    {E : Type} [AddCommGroup E] (curve : Schnorr.Curve device.sdk E) :
    curve.Accepts (curve.publicKey (device.sdk.deriveBip32 s.opened.bip32).1)
      (OpCall.bytes device.sdk s.opened.networkId s.calls)
      (s.app.signTxCtx.p2pk.signature device.sdk) := by
  obtain ⟨-, -, hashed⟩ := sent.outputs orderly
  have hash : s.app.signTxCtx.p2pk.txHash = s.app.commitment device ++
      OpCall.bytes device.sdk s.app.signTxCtx.p2pk.networkId s.calls := hashed
  obtain ⟨key, path, network⟩ := opened.keys
  rw [OpCtx.signature, hash, ← path, ← network]
  rw [← key] at small
  exact curve.accepts opened.carries.drawn small _

/-- The answer to a review with buttons is that of the session. -/
theorem pressed_of_inv (inv : SigningInv device s) {approved : Bool} {signature : List UInt8} {t : App}
    (prompt : s.app.ui.prompt = some .signTx)
    (ran : handle device (.press approved) s.app = .ok (.data signature) t) :
    OpenSession device s ∧ executeAction device approved s.app = .ok (.data signature) t := by
  have asking : s.app.Asking device .signTx := by
    obtain ⟨command, working⟩ | ⟨other, asking⟩ := inv.coherent
    · rw [working.prompt] at prompt
      cases prompt
    · obtain rfl := Option.some.inj (asking.prompt.symm.trans prompt)
      exact asking
  refine ⟨inv.opened asking.current, ?_⟩
  rw [← ran, handle, press, get_bind, prompt]
  rfl

/-- A confirmation that is answered with a signature was allowed by the user. -/
theorem confirmed_of_inv (inv : SigningInv device s) {signature : List UInt8} {t : App}
    (continues : Continues s.app cmd .confirm)
    (ran : handle device (.apdu cmd answer) s.app = .ok (.data signature) t) :
    OpenSession device s ∧ s.app.signTxCtx.p2pk.state = .txFinished ∧ ∃ u,
      SameUpload (App.finalized { s.app with answer }) u ∧
        executeAction device answer u = .ok (.data signature) t := by
  have handled : handle device (.apdu cmd answer) s.app = _ := continues.ran answer
  rw [ran] at handled
  have called := orSendError_ok.mp handled.symm
  obtain ⟨state, confirmed⟩ := confirm_ok called
  cases confirmed with
  | answered allowed same done => exact ⟨inv.opened continues.command, state, _, same, done⟩

/-- A session is signed when its transaction is complete. -/
theorem complete_of_signs (inv : SigningInv device s) {signature : List UInt8}
    (signs : Signs device s.app event signature) :
    OpenSession device s ∧ (App.op s.app).unconfirmed.ctx.state = .txFinished := by
  cases signs with
  | pressed prompt ran =>
      obtain ⟨opened, answered⟩ := pressed_of_inv inv prompt ran
      obtain ⟨-, state, -⟩ := executeAction_data answered
      have final : (App.op s.app).ctx.state = .finalized := state
      rw [SignTx.Op.unconfirmed, if_pos final]
      exact ⟨opened, rfl⟩
  | confirmed continues ran =>
      obtain ⟨opened, state, -⟩ := confirmed_of_inv inv continues ran
      have finished : (App.op s.app).ctx.state = .txFinished := state
      have unconfirmed : (App.op s.app).ctx.state ≠ .finalized := by simp [finished]
      rw [SignTx.Op.unconfirmed, if_neg unconfirmed]
      exact ⟨opened, finished⟩

theorem signs_of_inv (inv : SigningInv device s) {signature : List UInt8}
    (signs : Signs device s.app event signature) : SignsSession device s event signature := by
  obtain ⟨opened, state⟩ := complete_of_signs inv signs
  have sent := (opened.carries.sent.transmitted state).confirmed
  have verifies (signed : signature = s.app.signTxCtx.p2pk.signature device.sdk) (orderly : s.orderly)
      (small : BigEndian.value s.opened.schnorrKey.val < Schnorr.secp256k1N) {E : Type} [AddCommGroup E]
      (curve : Schnorr.Curve device.sdk E) :
      curve.Accepts (curve.publicKey (device.sdk.deriveBip32 s.opened.bip32).1)
        (OpCall.bytes device.sdk s.opened.networkId s.calls) signature := by
    rw [signed]
    exact accepts_of_sent opened sent orderly small curve
  cases signs with
  | @pressed approved signature t prompt ran =>
      obtain ⟨-, answered⟩ := pressed_of_inv inv prompt ran
      obtain ⟨yes, -, signed, current, erased⟩ := executeAction_data answered
      have after : LedgerErgo.next device s.app (.press approved) = t := by rw [LedgerErgo.next, ran]; rfl
      exact ⟨yes, opened.unsigned, opened.keys, signed, sent, verifies signed, after ▸ current,
        after ▸ erased⟩
  | @confirmed cmd answer signature t continues ran =>
      obtain ⟨-, -, u, same, done⟩ := confirmed_of_inv inv continues ran
      obtain ⟨yes, -, signed, current, erased⟩ := executeAction_data done
      have after : LedgerErgo.next device s.app (.apdu cmd answer) = t := by
        rw [LedgerErgo.next, ran]
        rfl
      have signed : signature = s.app.signTxCtx.p2pk.signature device.sdk := by
        rw [signed, OpCtx.signature, OpCtx.signature, same.2.txHash, same.2.bip32,
          same.2.schnorrKey]
        rfl
      exact ⟨yes, opened.unsigned, opened.keys, signed, sent, verifies signed, after ▸ current,
        after ▸ erased⟩

/-- Every signature is the first of its session, and is that of the transaction which the session
    has sent. -/
def SignsSessions (device : Device) (s : Signing) (event : Event) : Prop :=
  ∀ signature, Signs device s.app event signature → SignsSession device s event signature

/-- In every run, an event that is answered with a signature was approved by the user, and the
    signature is the first of its session: with the key that was drawn for the session, of the
    transaction that its subcommands have sent. The session ends with it. -/
theorem signatures_of_sessions (device : Device) (key : Bytes sessionKeyLen) (blindSigning : Bool)
    (supply : Supply) (events : List Event) :
    EachStep (Signing.next device) (SignsSessions device) (Signing.start key blindSigning supply)
      events := by
  have start : SigningInv device (Signing.start key blindSigning supply) := .start
  have keep (s : Signing) (event : Event) (inv : SigningInv device s) :
      SigningInv device (s.next device event) := inv.step event
  have holds (s : Signing) (event : Event) (inv : SigningInv device s) :
      SignsSessions device s event := fun _ => signs_of_inv inv
  exact eachStep_of_invariant keep holds start events

end Runs

end LedgerErgo
