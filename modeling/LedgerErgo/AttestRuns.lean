import LedgerErgo.Commands.AttestInput.Frames
import LedgerErgo.SigningRuns

/-! # Runs of the attestation

A session for an attestation has the box which its subcommands have sent, whatever else happens to
the application in between. So the frames that the application signs are those of boxes that were
sent completely, under the ids which the chain knows them by.
-/

namespace LedgerErgo

open LedgerErgo.Common LedgerErgo.Ergo LedgerErgo.Prog LedgerErgo.Runs AttestInput

/-- A command for attestations. -/
def Apdu.ForAttestation (cmd : Apdu) : Prop := cmd.ins.toNat = 0x20

instance (cmd : Apdu) : Decidable cmd.ForAttestation :=
  inferInstanceAs (Decidable (cmd.ins.toNat = 0x20))

/-! ## What a command for attestations does -/

/-- A command that continues the open session. -/
structure AttestInput.Continues (app : App) (cmd : Apdu) (subcommand : Subcommand) : Prop where
  cla : cmd.cla = LedgerErgo.cla
  ins : cmd.ForAttestation
  p2 : cmd.p2 ≠ 0
  idle : app.isUiBusy = false
  subcommand : Subcommand.ofByte cmd.p1 = some subcommand
  command : app.currentCommand = .attestInputBox
  session : cmd.p2 = app.attestInputCtx.session

section Commands

variable [UnionLayout SignTx.OpMem] [SharedLayout]

/-- What a command for attestations can do. -/
inductive AttestCase (device : Device) (app : App) (cmd : Apdu) (answer : Bool) : Prop where
  | refused (err : Sw)
      (ran : handle device (.apdu cmd answer) app = .error err { app with answer })
  | opens (p1 : cmd.p1 = 0x01) (idle : app.isUiBusy = false)
      (ran : handle device (.apdu cmd answer) app =
        handleInitCommand device cmd.data (cmd.p2 = 0x02) { app with answer })
  | stopped (err : Sw)
      (ran : handle device (.apdu cmd answer) app =
        .error err ((markError { app with answer }).setCurrentCommand .none))
  | goesOn (subcommand : Subcommand) (continues : AttestInput.Continues app cmd subcommand)

omit [UnionLayout SignTx.OpMem] in
/-- A subcommand checks the command and the session. -/
theorem AttestInput.handleSubcommand_eq {device : Device} {subcommand : Subcommand} {session : UInt8}
    {cdata : Buffer} (app : App) :
    handleSubcommand device subcommand session cdata app = (do
      ensure (app.currentCommand = .attestInputBox) .badState
      ensure (session = app.attestInputCtx.session) .badSessionId
      subcommand.handle device app.sessionKey cdata : AppM Reply) app := by
  have unfolded : handleSubcommand device subcommand session cdata = (do
      let app ← get
      ensure (app.currentCommand = .attestInputBox) .badState
      let app ← get
      ensure (session = app.attestInputCtx.session) .badSessionId
      let app ← get
      subcommand.handle device app.sessionKey cdata) := by
    simp only [handleSubcommand, checkCommand, checkSession, bind_assoc]
  rw [unfolded, get_bind]
  by_cases command : app.currentCommand = .attestInputBox
  swap
  · rw [bind_of_error (ensure_of_not command), bind_of_error (ensure_of_not command)]
  rw [bind_of_ok (ensure_of command), bind_of_ok (ensure_of command), get_bind]
  by_cases session : session = app.attestInputCtx.session
  swap
  · rw [bind_of_error (ensure_of_not session), bind_of_error (ensure_of_not session)]
  rw [bind_of_ok (ensure_of session), bind_of_ok (ensure_of session), get_bind]

theorem attest_cases (device : Device) {cmd : Apdu} (ins : cmd.ForAttestation) (app : App)
    (answer : Bool) : AttestCase device app cmd answer := by
  have dispatched : handle device (.apdu cmd answer) app =
      apduDispatcher device cmd { app with answer } := rfl
  rw [apduDispatcher_attestInput ins] at dispatched
  by_cases clas : cmd.cla = cla
  swap
  · exact .refused _ (dispatched.trans (bind_of_error (ensure_of_not clas)))
  rw [bind_of_ok (ensure_of clas)] at dispatched
  by_cases params : cmd.p1 ≠ 0 ∧ cmd.p2 ≠ 0
  swap
  · exact .refused _ (dispatched.trans (bind_of_error (ensure_of_not params)))
  rw [bind_of_ok (ensure_of params), handlerAttestInput, get_bind] at dispatched
  by_cases idle : app.isUiBusy = false
  swap
  · exact .refused _ (dispatched.trans (bind_of_error (ensure_of_not idle)))
  rw [bind_of_ok (ensure_of (by exact idle))] at dispatched
  by_cases first : cmd.p1 = 0x01
  · rw [if_pos first] at dispatched
    by_cases token : cmd.p2 = 0x01 ∨ cmd.p2 = 0x02
    · have checked : orSendError markError (ensure (cmd.p2 = 0x01 ∨ cmd.p2 = 0x02) .wrongP1P2)
          { app with answer } = .ok () { app with answer } :=
        orSendError_run_ok (ensure_of token)
      rw [bind_of_ok checked] at dispatched
      exact .opens first idle dispatched
    · have checked : orSendError markError (ensure (cmd.p2 = 0x01 ∨ cmd.p2 = 0x02) .wrongP1P2)
          { app with answer } = .error .wrongP1P2 ((markError { app with answer }).setCurrentCommand .none) :=
        orSendError_error.mpr ⟨_, ensure_of_not token, rfl⟩
      rw [bind_of_error checked] at dispatched
      exact .stopped _ dispatched
  rw [if_neg first] at dispatched
  cases read : Subcommand.ofByte cmd.p1 with
  | none =>
      rw [read] at dispatched
      exact .stopped _ dispatched
  | some subcommand =>
      rw [read] at dispatched
      have checked : handleSubcommand device subcommand cmd.p2 cmd.data { app with answer } = _ :=
        AttestInput.handleSubcommand_eq _
      by_cases command : app.currentCommand = .attestInputBox
      swap
      · rw [bind_of_error (ensure_of_not (by exact command))] at checked
        exact .stopped _ (dispatched.trans (orSendError_error.mpr ⟨_, checked, rfl⟩))
      by_cases session : cmd.p2 = app.attestInputCtx.session
      swap
      · rw [bind_of_ok (ensure_of (by exact command)),
          bind_of_error (ensure_of_not (by exact session))] at checked
        exact .stopped _ (dispatched.trans (orSendError_error.mpr ⟨_, checked, rfl⟩))
      exact .goesOn subcommand ⟨clas, ins, params.2, idle, read, command, session⟩

omit [UnionLayout SignTx.OpMem] [SharedLayout] in
theorem AttestInput.Continues.later {app : App} {cmd : Apdu} {subcommand : Subcommand}
    (continues : AttestInput.Continues app cmd subcommand) : cmd.p1 ≠ 0x01 ∧ cmd.p1 ≠ 0 := by
  have read := continues.subcommand
  constructor <;>
  · intro other
    rw [other] at read
    cases read

/-- What a subcommand of the open session does. -/
theorem AttestInput.Continues.ran {device : Device} {app : App} {cmd : Apdu} {subcommand : Subcommand}
    (continues : AttestInput.Continues app cmd subcommand) (answer : Bool) :
    handle device (.apdu cmd answer) app =
      orSendError markError (subcommand.handle device app.sessionKey cmd.data) { app with answer } := by
  have p1 := continues.later
  obtain ⟨clas, ins, p2, idle, read, command, session⟩ := continues
  have checked : handleSubcommand device subcommand cmd.p2 cmd.data { app with answer } = _ :=
    AttestInput.handleSubcommand_eq _
  rw [bind_of_ok (ensure_of (by exact command)), bind_of_ok (ensure_of (by exact session))] at checked
  change apduDispatcher device cmd { app with answer } = _
  rw [apduDispatcher_attestInput ins, bind_of_ok (ensure_of clas), bind_of_ok (ensure_of ⟨p1.2, p2⟩),
    handlerAttestInput, get_bind, bind_of_ok (ensure_of (by exact idle)), if_neg p1.1, read]
  simp only [orSendError, checked]

/-- A command for signing leaves the application as it was, or no session of the attestation. -/
theorem next_signing {device : Device} {cmd : Apdu} (ins : cmd.ForSigning) (app : App) (answer : Bool) :
    next device app (.apdu cmd answer) = { app with answer } ∨
      (next device app (.apdu cmd answer)).currentCommand ≠ .attestInputBox := by
  have approves : Approves device (NotCurrent .attestInputBox) :=
    approves_notCurrent Command.noConfusion
  unfold next
  cases signing_cases device ins app answer with
  | refused err ran =>
      rw [ran]
      exact .inl rfl
  | stopped err ran =>
      rw [ran]
      exact .inr Command.noConfusion
  | opens p1 idle ran =>
      right
      rw [ran]
      have shown (token isKnown) :
          Moves (NotCurrent .attestInputBox) (SignTx.showTokenAndPath device token isKnown) :=
        sameUpload_showTokenAndPath.mono fun _ _ same here => same.1.symm.trans here
      have moved : Moves (NotCurrent .attestInputBox)
          (SignTx.handleSignPk device cmd.data (cmd.p2 = 0x02)) :=
        SignTx.moves_signPk approves.toSteps (fun _ => Command.noConfusion) shown
      -- the context is erased first, so it could have been erased before
      exact fun here => Command.noConfusion
        (moved (App.setCurrentCommand .none { app with answer }) here)
  | goesOn subcommand continues =>
      right
      rw [continues.ran]
      have moved : Moves (NotCurrent .attestInputBox)
          (orSendError SignTx.markError (subcommand.handle device app.sessionKey cmd.data)) :=
        approves.toSteps.orSendError (fun _ => id)
          (SignTx.moves_subcommand approves (fun _ _ => id) fun _ _ _ => id)
      intro here
      have before : app.currentCommand = .attestInputBox := moved { app with answer } here
      rw [continues.command] at before
      cases before

/-- A command that is not for attestations leaves the application as it was, or no session of
them. -/
theorem next_unattested (device : Device) {cmd : Apdu} (other : ¬ cmd.ForAttestation) (app : App)
    (answer : Bool) :
    next device app (.apdu cmd answer) = { app with answer } ∨
      (next device app (.apdu cmd answer)).currentCommand ≠ .attestInputBox := by
  by_cases ins : cmd.ForSigning
  · exact next_signing ins app answer
  by_cases idle : app.isUiBusy = false
  · exact dispatcher_stateless (.inl rfl) ⟨other, ins⟩ idle
  · exact .inl (next_of_busy (Bool.eq_true_of_not_eq_false idle) cmd answer)

end Commands

/-! ## What is signed as a frame -/

/-- No frame is signed. -/
def SameSigned (s t : App) : Prop := t.history.signed = s.history.signed

instance : Std.Refl SameSigned := ⟨fun _ => rfl⟩

instance : IsTrans App SameSigned := ⟨fun _ _ _ first second => Eq.trans second first⟩

theorem approves_sameSigned {device : Device} : Approves device SameSigned where
  toRefl := inferInstance
  toIsTrans := inferInstance
  clear _ := rfl
  context _ _ := rfl
  supply _ _ := rfl
  idle _ := rfl
  menu _ := rfl
  prompt _ _ _ _ _ := rfl
  answer _ _ := rfl
  setting _ _ := rfl
  approve _ _ := rfl
  grant _ _ := rfl

section Signed

variable [UnionLayout SignTx.OpMem] [SharedLayout] {device : Device}

/-- Commands that are not for attestations sign no frame. -/
theorem sameSigned_unattested {cmd : Apdu} (other : ¬ cmd.ForAttestation) (app : App) (answer : Bool) :
    SameSigned app (next device app (.apdu cmd answer)) := by
  have approves : Approves device SameSigned := approves_sameSigned
  by_cases ins : cmd.ForSigning
  swap
  · exact moves_stateless approves (fun _ _ _ _ => rfl) ⟨other, ins⟩ app
  unfold next
  cases signing_cases device ins app answer with
  | refused err ran => exact (congrArg (fun r => SameSigned app (final r)) ran).mpr rfl
  | stopped err ran => exact (congrArg (fun r => SameSigned app (final r)) ran).mpr rfl
  | goesOn subcommand continues =>
      rw [continues.ran]
      have moved : Moves SameSigned
          (orSendError SignTx.markError (subcommand.handle device app.sessionKey cmd.data)) :=
        approves.toSteps.orSendError (fun _ => rfl)
          (SignTx.moves_subcommand approves (fun _ _ => rfl) fun _ _ _ => rfl)
      exact moved { app with answer }
  | opens p1 idle ran =>
      rw [ran]
      have screens : SignTx.ScreenSteps SameSigned :=
        SignTx.screens_of_steps approves.toSteps fun _ _ => rfl
      have shown (token isKnown) : Moves SameSigned (SignTx.showTokenAndPath device token isKnown) :=
        SignTx.moves_showTokenAndPath screens (fun _ _ => rfl) (fun _ => rfl) fun _ _ => rfl
      have moved : Moves SameSigned (SignTx.handleSignPk device cmd.data (cmd.p2 = 0x02)) :=
        SignTx.moves_signPk approves.toSteps (fun _ => rfl) shown
      exact moved { app with answer }

omit [UnionLayout SignTx.OpMem] [SharedLayout] in
theorem sameSigned_part {call : EStateM BoxErr (SerState (BoxCtx Shared) Shared) Ergo.Progress} :
    Moves SameSigned (checkCallBoxFinished device call) := by
  have steps : Steps device SameSigned := approves_sameSigned.toSteps
  exact moves_part_of (fun _ => moves_boxCall steps) fun s _ => steps.context s _

omit [UnionLayout SignTx.OpMem] [SharedLayout] in
/-- A part of the box does not change the screen. -/
theorem unasked_part {call : EStateM BoxErr (SerState (BoxCtx Shared) Shared) Ergo.Progress} :
    Moves SignTx.StaysUnasked (checkCallBoxFinished device call) :=
  moves_part_of (fun _ => .zoom (P := fun _ _ => True) (fun _ => trivial) fun _ _ _ => id) fun _ _ => id

omit [UnionLayout SignTx.OpMem] in
/-- A frame is one of the box that is complete. -/
theorem frame_ok {sessionKey : Bytes sessionKeyLen} {cdata : Buffer} {app t : App} {reply : Reply}
    (ok : handleGetFrame device sessionKey cdata app = .ok reply t) :
    app.attestInputCtx.state = .finished ∧ ∃ index, cdata = [index] ∧
      index < app.attestInputCtx.framesCount ∧
      t = app.logSigned (app.attestInputCtx.frame index).data ∧
      reply = .data ((app.attestInputCtx.frame index).data ++
        frameSignature device.sdk sessionKey (app.attestInputCtx.frame index).data) := by
  simp only [handleGetFrame, checkState, checkParamsFinished, bind_ok, exists_unit, get_ok, ensure_ok,
    checkReadParam_ok, ofExcept_ok, modify_ok, pure_ok, Prod.exists] at ok
  obtain ⟨_, ⟨_, _, ⟨rfl, rfl⟩, state, rfl⟩, index, rest, _, ⟨read, rfl⟩, _, ⟨empty, rfl⟩, _, _, ⟨rfl, rfl⟩,
    signed, response, _, ⟨sent, rfl⟩, _, rfl, rfl, rfl⟩ := ok
  refine ⟨state, index, ?_, ?_⟩
  · cases cdata with
    | nil => cases read
    | cons byte cdata =>
        cases read
        cases rest with
        | nil => rfl
        | cons => simp [bufferCanRead] at empty
  · by_cases within : index < app.attestInputCtx.framesCount
    · rw [sendResponse_ok within] at sent
      cases sent
      exact ⟨within, rfl, rfl⟩
    · rw [sendResponse_refuses within] at sent
      cases sent

omit [UnionLayout SignTx.OpMem] in
/-- A frame that is refused is not signed. -/
theorem sameSigned_of_frame_error {sessionKey : Bytes sessionKeyLen} {cdata : Buffer} {app t : App}
    {err : Sw} (failed : handleGetFrame device sessionKey cdata app = .error err t) :
    SameSigned app t := by
  have state : Moves SameSigned (checkState .finished) := .bind .get fun _ => .ensure
  rcases bind_error.mp failed with here | ⟨_, m, checked, failed⟩
  · exact state.error here
  have checked : SameSigned app m := state.ok checked
  rcases bind_error.mp failed with here | ⟨index, n, read, failed⟩
  · exact trans_of SameSigned checked (moves_checkReadParam.error here)
  have read : SameSigned m n := moves_checkReadParam.ok read
  rcases bind_error.mp failed with here | ⟨_, k, finished, failed⟩
  · exact trans_of SameSigned (trans_of SameSigned checked read) (moves_checkParamsFinished.error here)
  have finished : SameSigned n k := moves_checkParamsFinished.ok finished
  rw [get_bind] at failed
  rcases bind_error.mp failed with here | ⟨_, _, _, logged⟩
  · have sent : Moves SameSigned (ofExcept (sendResponseAttestedInputFrame device.sdk k.attestInputCtx
        sessionKey index.1) : AppM (List UInt8 × List UInt8)) := .ofExcept
    exact trans_of SameSigned (trans_of SameSigned checked (trans_of SameSigned read finished))
      (sent.error here)
  · cases logged

end Signed

/-! ## The machine -/

/-- What an event asks of the attestation. -/
inductive AttestCall where
  | opens (params : InitParams)
  | part (kind : Subcommand) (data : Buffer)
  | frame

/-- A subcommand of an open session. -/
def AttestInput.Subcommand.asks (data : Buffer) : Subcommand → AttestCall
  | .getResponseFrame => .frame
  | kind => .part kind data

/-- What a command asks of the attestation. -/
def Apdu.attests (cmd : Apdu) : Option AttestCall :=
  if cmd.ForAttestation then
    if cmd.p1 = 0x01 then (readInitParams cmd.data).map fun read => .opens read.1
    else (Subcommand.ofByte cmd.p1).map (Subcommand.asks cmd.data)
  else none

/-- What an event asks of the attestation. -/
def Event.attests : Event → Option AttestCall
  | .apdu cmd _ => cmd.attests
  | .press _ | .toggleBlindSigning => none

/-- The application, and what its attestations have got and handed out. -/
structure Attesting where
  app : App
  /-- What the last session was sent. -/
  delivery : Delivery
  /-- What the sessions were sent whose frames were handed out. -/
  shown : List Delivery

/-- The application has just started; there is no session yet. -/
def Attesting.start (key : Bytes sessionKeyLen) (blindSigning : Bool) (supply : Supply) : Attesting :=
  ⟨App.init key blindSigning supply, .start ⟨Bytes.zero 32, 0, 0, 0, 0, 0, 0⟩, []⟩

/-- A call that is accepted. -/
def Attesting.take (s : Attesting) : AttestCall → Attesting
  | .opens params => { s with delivery := .start params }
  | .part kind data => { s with delivery := s.delivery.add kind data }
  | .frame => { s with shown := s.delivery :: s.shown }

section Machine

variable (device : Device) [UnionLayout SignTx.OpMem] [SharedLayout]

/-- What an event that was accepted has asked for. -/
def accepted (app : App) (event : Event) : Option AttestCall :=
  if succeeds (handle device event app) then event.attests else none

/-- The state after an event. -/
def Attesting.next (s : Attesting) (event : Event) : Attesting :=
  { (accepted device s.app event).elim s s.take with app := LedgerErgo.next device s.app event }

end Machine

/-- The session has the box that it was sent, complete or not. -/
inductive InSession [SharedLayout] (sdk : Sdk) (d : Delivery) (app : App) : Prop where
  | sending (sending : Sending d app)
  | delivered (delivered : Delivered sdk d app) (unasked : app.ui.prompt = none)

/-- The bytes of a frame of a box that was sent. -/
def AttestInput.Delivery.Shows (sdk : Sdk) (d : Delivery) (bytes : List UInt8) : Prop :=
  ∃ tokens frame, d.HasFrame sdk tokens frame ∧ bytes = frame.data

section Runs

variable [UnionLayout SignTx.OpMem] [SharedLayout] {device : Device} {s : Attesting} {event : Event}
  {cmd : Apdu} {answer : Bool}

/-- The session is that of the box that was sent, and only frames of such boxes were signed. -/
structure AttestInv (device : Device) (s : Attesting) : Prop where
  coherent : s.app.Coherent device
  session : s.app.currentCommand = .attestInputBox → InSession device.sdk s.delivery s.app
  signed : ∀ bytes ∈ s.app.history.signed, ∃ d ∈ s.shown, d.Shows device.sdk bytes

omit [UnionLayout SignTx.OpMem] in
theorem AttestInv.start {key : Bytes sessionKeyLen} {blindSigning : Bool} {supply : Supply} :
    AttestInv device (.start key blindSigning supply) :=
  ⟨coherent_init, fun here => (by cases here), fun _ here => (by cases here)⟩

omit [UnionLayout SignTx.OpMem] in
theorem InSession.congr {sdk : Sdk} {d : Delivery} {s t : App} (session : InSession sdk d s)
    (context : t.commandsCtx = s.commandsCtx) (prompt : t.ui.prompt = s.ui.prompt) :
    InSession sdk d t := by
  have same : t.attestInputCtx = s.attestInputCtx := by
    simp only [App.attestInputCtx, context]
  cases session with
  | sending sending =>
      apply InSession.sending
      constructor
      · apply sending.toOpened.congr _ (.inl (by rw [same]))
        rw [same]
        exact ⟨rfl, rfl, rfl, rfl, rfl⟩
      · rw [same, prompt]
        exact sending.state
      · exact sending.missing
      · rw [same]
        exact sending.session
  | delivered delivered unasked =>
      refine .delivered ?_ (prompt.trans unasked)
      obtain ⟨state, done, carries, boxId, value⟩ := delivered
      constructor
      · rwa [same]
      · exact done
      · rwa [same]
      · rwa [same]
      · rwa [same]

/-- An event that asks for nothing and signs nothing leaves no session, or the one that was there. -/
theorem AttestInv.silent (inv : AttestInv device s) (silent : accepted device s.app event = none)
    (signed : SameSigned s.app (next device s.app event))
    (session : (next device s.app event).currentCommand = .attestInputBox →
      InSession device.sdk s.delivery (next device s.app event)) :
    AttestInv device (s.next device event) := by
  unfold Attesting.next
  rw [silent]
  refine ⟨coherent_next inv.coherent, session, ?_⟩
  intro bytes here
  exact inv.signed bytes (signed ▸ here)

theorem accepted_none (none : event.attests = none) (app : App) : accepted device app event = .none := by
  unfold accepted
  rw [none, ite_self]

theorem AttestInv.next_toggle (inv : AttestInv device s) :
    AttestInv device (s.next device .toggleBlindSigning) := by
  have approves : Approves device SameSigned := approves_sameSigned
  apply inv.silent
  · exact accepted_none rfl s.app
  · exact moves_toggle approves s.app
  · change (final (toggleBlindSigning s.app)).currentCommand = .attestInputBox →
      InSession device.sdk s.delivery (final (toggleBlindSigning s.app))
    rcases final_toggle s.app with same | ⟨menu, shown⟩
    · rw [same]
      exact inv.session
    · rw [shown]
      exact fun here => (inv.session here).congr rfl menu.symm

theorem AttestInv.next_press (inv : AttestInv device s) {approved : Bool} :
    AttestInv device (s.next device (.press approved)) := by
  have approves : Approves device SameSigned := approves_sameSigned
  apply inv.silent
  · exact accepted_none rfl s.app
  · exact moves_press approves s.app
  · change (final (press device approved s.app)).currentCommand = .attestInputBox →
      InSession device.sdk s.delivery (final (press device approved s.app))
    obtain ⟨command, working⟩ | ⟨prompt, asking⟩ := inv.coherent
    · rw [next_press_none working.prompt]
      exact inv.session
    · intro here
      have before : s.app.currentCommand = .attestInputBox := by
        have attesting : Approves device (NotCurrent .attestInputBox) :=
          approves_notCurrent Command.noConfusion
        exact moves_press attesting s.app here
      have pressed : press device approved s.app = prompt.action device approved s.app := by
        rw [press, get_bind, asking.prompt]
      have command := asking.current
      rw [before] at command
      cases prompt with
      | address | extPubKey | signTx | blindWarning => cases command
      | attestInput =>
          obtain ⟨reply, t, ran⟩ : ∃ reply t, actionAttestInput approved s.app = .ok reply t := by
            cases approved <;> exact ⟨_, _, rfl⟩
          have after : final (press device approved s.app) = t := by
            rw [pressed, Prompt.action, ran]
            rfl
          rw [after] at here ⊢
          cases action_ok ran with
          | inl denied =>
              rw [denied] at here
              cases here
          | inr approved =>
              obtain ⟨same, amounts, state, named⟩ := approved
              cases inv.session before with
              | delivered _ unasked => cases unasked.symm.trans asking.prompt
              | sending sending =>
                  exact .sending ⟨sending.toOpened.congr same (.inl amounts), .inl state,
                    sending.missing, named ▸ sending.session⟩

/-- A command that is not for attestations. -/
theorem AttestInv.next_unattested (inv : AttestInv device s) (other : ¬ cmd.ForAttestation) :
    AttestInv device (s.next device (.apdu cmd answer)) := by
  apply inv.silent
  · have none : Event.attests (.apdu cmd answer) = none := if_neg other
    exact accepted_none none s.app
  · exact sameSigned_unattested other s.app answer
  · intro here
    rcases LedgerErgo.next_unattested device other s.app answer with same | left
    · rw [same] at here ⊢
      exact (inv.session here).congr rfl rfl
    · exact (left here).elim

/-- A command that is refused. -/
theorem AttestInv.refused (inv : AttestInv device s)
    (failed : succeeds (handle device event s.app) = false)
    (signed : SameSigned s.app (next device s.app event))
    (session : (next device s.app event).currentCommand = .attestInputBox →
      InSession device.sdk s.delivery (next device s.app event)) :
    AttestInv device (s.next device event) := by
  apply inv.silent _ signed session
  rw [accepted, failed, if_neg Bool.false_ne_true]

/-- A command that is accepted. -/
theorem AttestInv.accepts {call : AttestCall} {reply : Reply} {t : App} (inv : AttestInv device s)
    (ran : handle device event s.app = .ok reply t) (asks : event.attests = some call)
    (session : t.currentCommand = .attestInputBox → InSession device.sdk (s.take call).delivery t)
    (signed : ∀ bytes ∈ t.history.signed, ∃ d ∈ (s.take call).shown, d.Shows device.sdk bytes) :
    AttestInv device (s.next device event) := by
  have after : next device s.app event = t := by
    rw [next, ran]
    rfl
  have took : accepted device s.app event = some call := by
    rw [accepted, ran, asks]
    rfl
  have coherent : (next device s.app event).Coherent device := coherent_next inv.coherent
  unfold Attesting.next
  rw [took, after]
  rw [after] at coherent
  exact ⟨coherent, session, signed⟩

/-- A command that opens a session. -/
theorem AttestInv.next_opens (inv : AttestInv device s) (ins : cmd.ForAttestation) (p1 : cmd.p1 = 0x01)
    (ran : handle device (.apdu cmd answer) s.app =
      handleInitCommand device cmd.data (cmd.p2 = 0x02) { s.app with answer }) :
    AttestInv device (s.next device (.apdu cmd answer)) := by
  have approves : Approves device SameSigned := approves_sameSigned
  have signed : SameSigned s.app (next device s.app (.apdu cmd answer)) := by
    unfold next
    rw [ran]
    exact moves_initCommand approves (fun _ => rfl) { s.app with answer }
  cases inited : handleInitCommand device cmd.data (cmd.p2 = 0x02) { s.app with answer } with
  | error err t =>
      have failed : succeeds (handle device (.apdu cmd answer) s.app) = false := by
        rw [ran, inited]
        rfl
      apply inv.refused failed signed
      intro here
      obtain ⟨_, -, rfl⟩ : ∃ u, _ = _ ∧ (markError u).setCurrentCommand .none = t :=
        orSendError_error.mp inited
      rw [next, ran, inited] at here
      cases here
  | ok reply t =>
      have called : handleInit device cmd.data (cmd.p2 = 0x02) s.app.connectedAppId
          (App.setCurrentCommand .attestInputBox { s.app with answer }) = .ok reply t :=
        orSendError_ok.mp inited
      obtain ⟨params, rest, read, session⟩ := sending_init called
      have asks : Event.attests (.apdu cmd answer) = some (.opens params) := by
        simp only [Event.attests, Apdu.attests, if_pos ins, if_pos p1, read, Option.map_some]
      apply inv.accepts (ran.trans inited) asks
      · intro here
        cases session with
        | inl denied =>
            rw [denied] at here
            cases here
        | inr sending => exact .sending sending
      · intro bytes here
        have same : t.history.signed = s.app.history.signed := by
          have after : next device s.app (.apdu cmd answer) = t := by
            rw [next, ran, inited]
            rfl
          rwa [after] at signed
        rw [same] at here
        exact inv.signed bytes here

omit [UnionLayout SignTx.OpMem] [SharedLayout] in
theorem AttestInput.Continues.asks {app : App} {subcommand : Subcommand}
    (continues : AttestInput.Continues app cmd subcommand) :
    cmd.attests = some (subcommand.asks cmd.data) := by
  rw [Apdu.attests, if_pos continues.ins, if_neg continues.later.1, continues.subcommand, Option.map_some]

/-- A subcommand of the open session. -/
theorem AttestInv.next_goesOn {subcommand : Subcommand} (inv : AttestInv device s)
    (continues : AttestInput.Continues s.app cmd subcommand) :
    AttestInv device (s.next device (.apdu cmd answer)) := by
  have ran : handle device (.apdu cmd answer) s.app = _ := continues.ran answer
  have unasked : s.app.ui.prompt = none := inv.coherent.unasked continues.idle
  have asks : Event.attests (.apdu cmd answer) = some (subcommand.asks cmd.data) := continues.asks
  have session : InSession device.sdk s.delivery { s.app with answer } :=
    (inv.session continues.command).congr rfl rfl
  cases called : subcommand.handle device s.app.sessionKey cmd.data { s.app with answer } with
  | error err t =>
      have stopped : orSendError markError (subcommand.handle device s.app.sessionKey cmd.data)
          { s.app with answer } = .error err ((markError t).setCurrentCommand .none) :=
        orSendError_error.mpr ⟨t, called, rfl⟩
      apply inv.refused
      · rw [ran, stopped]
        rfl
      · rw [next, ran, stopped]
        have same : SameSigned { s.app with answer } t := by
          cases part : subcommand.streamCall cmd.data with
          | some call =>
              rw [Subcommand.handle_stream part] at called
              exact sameSigned_part.error called
          | none =>
              cases subcommand with
              | treeChunk | tokens | registers => cases part
              | getResponseFrame => exact sameSigned_of_frame_error called
        exact same
      · rw [next, ran, stopped]
        exact Command.noConfusion
  | ok reply t =>
      have done := ran.trans (orSendError_run_ok called)
      cases part : subcommand.streamCall cmd.data with
      | none =>
          cases subcommand with
          | treeChunk | tokens | registers => cases part
          | getResponseFrame =>
              obtain ⟨state, index, -, within, rfl, -⟩ := frame_ok called
              have delivered : Delivered device.sdk s.delivery { s.app with answer } := by
                cases session with
                | sending sending => exact (sending.unfinished state).elim
                | delivered delivered => exact delivered
              apply inv.accepts done asks
              · exact fun _ => session.congr rfl rfl
              · intro bytes here
                cases here with
                | head => exact ⟨s.delivery, .head _, _, _, delivered.hasFrame within, rfl⟩
                | tail _ here =>
                    obtain ⟨d, known, shows⟩ := inv.signed bytes here
                    exact ⟨d, .tail _ known, shows⟩
      | some call =>
          rw [Subcommand.handle_stream part] at called
          have kind : subcommand.asks cmd.data = .part subcommand cmd.data := by
            cases subcommand with
            | treeChunk | tokens | registers => rfl
            | getResponseFrame => cases part
          rw [kind] at asks
          apply inv.accepts done asks
          · intro here
            cases session with
            | delivered delivered => exact (delivered.refuses called).elim
            | sending sending =>
                cases sending_part sending part called with
                | inl goesOn => exact .sending goesOn.2
                | inr complete => exact .delivered complete.2 (unasked_part.ok called unasked)
          · have same : SameSigned { s.app with answer } t := sameSigned_part.ok called
            intro bytes here
            have same : t.history.signed = s.app.history.signed := same
            exact inv.signed bytes (same ▸ here)

theorem AttestInv.step (inv : AttestInv device s) (event : Event) :
    AttestInv device (s.next device event) := by
  cases event with
  | toggleBlindSigning => exact inv.next_toggle
  | press approved => exact inv.next_press
  | apdu cmd answer =>
      by_cases ins : cmd.ForAttestation
      swap
      · exact inv.next_unattested ins
      cases attest_cases device ins s.app answer with
      | refused err ran =>
          apply inv.refused
          · rw [ran]
            rfl
          · rw [next, ran]
            rfl
          · rw [next, ran]
            exact fun here => (inv.session here).congr rfl rfl
      | stopped err ran =>
          apply inv.refused
          · rw [ran]
            rfl
          · rw [next, ran]
            rfl
          · rw [next, ran]
            exact Command.noConfusion
      | opens p1 idle ran => exact inv.next_opens ins p1 ran
      | goesOn subcommand continues => exact inv.next_goesOn continues

/-! ## What is handed out -/

/-- A box that is complete is answered with the number of its frames, any other one with nothing. -/
def AttestInput.Delivery.Counts (d : Delivery) (reply : Reply) : Prop :=
  reply = resOk ∧ ¬ d.Done ∨
    d.Done ∧ ∃ tokens count, d.Carries tokens ∧ reply = .data [count] ∧
      count.toNat = max 1 ((tokens.length + 3) / frameMaxTokensCount)

/-- What an attestation answers at an event, and what was signed before. -/
structure HandsOut (device : Device) (s : Attesting) (event : Event) : Prop where
  /-- A part that completes the box is answered with the number of its frames, any other one that
  is accepted with nothing. -/
  counted : ∀ kind data reply t, event.attests = some (.part kind data) →
    handle device event s.app = .ok reply t → (s.delivery.add kind data).Counts reply
  /-- A frame that is handed out is the one asked for, signed under the key of the application. -/
  framed : ∀ cmd answer reply t, event = .apdu cmd answer → cmd.attests = some .frame →
    handle device event s.app = .ok reply t →
    ∃ tokens frame, s.delivery.HasFrame device.sdk tokens frame ∧ cmd.data = [frame.frameIndex] ∧
      reply = .data (frame.data ++ frameSignature device.sdk s.app.sessionKey frame.data)
  /-- Of a box that is complete every frame is handed out. -/
  available : ∀ cmd answer index tokens, event = .apdu cmd answer →
    AttestInput.Continues s.app cmd .getResponseFrame → s.app.attestInputCtx.state = .finished →
    s.delivery.Carries tokens → cmd.data = [index] →
    (succeeds (handle device event s.app) = true ↔
      index.toNat < max 1 ((tokens.length + 3) / frameMaxTokensCount))
  /-- All that was signed as a frame is one of a box that was sent. -/
  signed : ∀ bytes ∈ s.app.history.signed, ∃ d ∈ s.shown, d.Shows device.sdk bytes

/-- A subcommand that is accepted goes on with the session. -/
theorem continues_of_ok {call : AttestCall} {app t : App} {reply : Reply}
    (asks : cmd.attests = some call) (goesOn : ∀ params, call ≠ .opens params)
    (ok : handle device (.apdu cmd answer) app = .ok reply t) :
    ∃ subcommand : Subcommand, subcommand.asks cmd.data = call ∧
      AttestInput.Continues app cmd subcommand ∧
      subcommand.handle device app.sessionKey cmd.data { app with answer } = .ok reply t := by
  unfold Apdu.attests at asks
  by_cases ins : cmd.ForAttestation
  swap
  · rw [if_neg ins] at asks
    cases asks
  rw [if_pos ins] at asks
  cases attest_cases device ins app answer with
  | refused err ran | stopped err ran =>
      rw [ran] at ok
      cases ok
  | opens p1 idle ran =>
      rw [if_pos p1] at asks
      obtain ⟨read, -, opens⟩ := Option.map_eq_some_iff.mp asks
      exact (goesOn _ opens.symm).elim
  | goesOn subcommand continues =>
      rw [continues.ran] at ok
      rw [if_neg continues.later.1, continues.subcommand] at asks
      exact ⟨subcommand, Option.some.inj asks, continues, orSendError_ok.mp ok⟩

/-- A part that completes the box is answered with the number of its frames. -/
theorem counted_of_inv (inv : AttestInv device s) {kind : Subcommand} {data : Buffer} {reply : Reply}
    {t : App} (asks : event.attests = some (.part kind data))
    (ok : handle device event s.app = .ok reply t) : (s.delivery.add kind data).Counts reply := by
  cases event with
  | press | toggleBlindSigning => cases asks
  | apdu cmd answer =>
      obtain ⟨subcommand, same, continues, called⟩ :=
        continues_of_ok asks (fun _ => AttestCall.noConfusion) ok
      have session : InSession device.sdk s.delivery { s.app with answer } :=
        (inv.session continues.command).congr rfl rfl
      cases part : subcommand.streamCall cmd.data with
      | none =>
          cases subcommand with
          | treeChunk | tokens | registers => cases part
          | getResponseFrame => cases same
      | some call =>
          rw [Subcommand.handle_stream part] at called
          obtain ⟨rfl, rfl⟩ : kind = subcommand ∧ data = cmd.data := by
            cases subcommand with
            | treeChunk | tokens | registers =>
                cases same
                exact ⟨rfl, rfl⟩
            | getResponseFrame => cases part
          cases session with
          | delivered delivered => exact (delivered.refuses called).elim
          | sending sending =>
              cases sending_part sending part called with
              | inl goesOn => exact .inl ⟨goesOn.1, goesOn.2.missing⟩
              | inr complete =>
                  obtain ⟨answered, delivered⟩ := complete
                  refine .inr ⟨delivered.done, _, _, delivered.carries, answered, ?_⟩
                  rw [length_attested]
                  exact framesCount_toNat t.attestInputCtx.tokensTable.bounded

theorem framed_of_inv (inv : AttestInv device s) {reply : Reply} {t : App}
    (asks : cmd.attests = some .frame)
    (ok : handle device (.apdu cmd answer) s.app = .ok reply t) :
    ∃ tokens frame, s.delivery.HasFrame device.sdk tokens frame ∧ cmd.data = [frame.frameIndex] ∧
      reply = .data (frame.data ++ frameSignature device.sdk s.app.sessionKey frame.data) := by
  obtain ⟨subcommand, same, continues, called⟩ :=
    continues_of_ok asks (fun _ => AttestCall.noConfusion) ok
  cases subcommand with
  | treeChunk | tokens | registers => cases same
  | getResponseFrame =>
      obtain ⟨state, index, data, within, -, sent⟩ := frame_ok called
      have session : InSession device.sdk s.delivery { s.app with answer } :=
        (inv.session continues.command).congr rfl rfl
      cases session with
      | sending sending => exact (sending.unfinished state).elim
      | delivered delivered => exact ⟨_, _, delivered.hasFrame within, data, sent⟩

theorem available_of_inv (inv : AttestInv device s) {index : UInt8} {tokens : List InputToken}
    (continues : AttestInput.Continues s.app cmd .getResponseFrame)
    (state : s.app.attestInputCtx.state = .finished) (carries : s.delivery.Carries tokens)
    (data : cmd.data = [index]) :
    succeeds (handle device (.apdu cmd answer) s.app) = true ↔
      index.toNat < max 1 ((tokens.length + 3) / frameMaxTokensCount) := by
  have delivered : Delivered device.sdk s.delivery s.app := by
    cases inv.session continues.command with
    | sending sending => exact (sending.unfinished state).elim
    | delivered delivered => exact delivered
  have count : s.app.attestInputCtx.framesCount.toNat =
      max 1 ((tokens.length + 3) / frameMaxTokensCount) := by
    rw [carries.unique delivered.carries, length_attested]
    exact toNat_framesCount
  have state' : ({ s.app with answer } : App).attestInputCtx.state = .finished := state
  have read : bufferReadU8 cmd.data = some (index, []) := by
    rw [data]
    rfl
  have called : handleGetFrame device s.app.sessionKey cmd.data { s.app with answer } =
      (do
        let sent ← ofExcept
          (sendResponseAttestedInputFrame device.sdk s.app.attestInputCtx s.app.sessionKey index)
        modify (App.logSigned sent.1)
        return .data sent.2 : AppM Reply) { s.app with answer } := by
    simp only [handleGetFrame, checkState, bind_assoc, read]
    rw [get_bind, bind_of_ok (ensure_of state')]
    rfl
  have within : index.toNat < s.app.attestInputCtx.framesCount.toNat ↔
      index < s.app.attestInputCtx.framesCount := Iff.rfl
  rw [← count, within, continues.ran, Subcommand.handle, orSendError, called]
  constructor
  · intro succeeded
    by_contra behind
    rw [sendResponse_refuses behind] at succeeded
    cases succeeded
  · intro inside
    rw [sendResponse_ok inside]
    rfl

/-- Whatever happens in between, the frames that are handed out and signed are those of boxes that
were sent completely, each under the hash of the box. -/
theorem attested_boxes (device : Device) (key : Bytes sessionKeyLen) (blindSigning : Bool)
    (supply : Supply) (events : List Event) :
    EachStep (Attesting.next device) (HandsOut device) (Attesting.start key blindSigning supply)
      events := by
  have start : AttestInv device (Attesting.start key blindSigning supply) := .start
  have keep (s : Attesting) (event : Event) (inv : AttestInv device s) :
      AttestInv device (s.next device event) := inv.step event
  have holds (s : Attesting) (event : Event) (inv : AttestInv device s) : HandsOut device s event := by
    constructor
    · exact fun _ _ _ _ => counted_of_inv inv
    · rintro cmd answer reply t rfl
      exact framed_of_inv inv
    · rintro cmd answer index tokens rfl
      exact available_of_inv inv
    · exact inv.signed
  exact eachStep_of_invariant keep holds start events

end Runs

end LedgerErgo
