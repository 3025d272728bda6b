import LedgerErgo.ReviewRuns

/-! # Consent to access tokens

The application trusts the token of the application that was connected last. The commands for
keys, addresses and attestations set it after an approval; the command that opens a session for
signing sets it at once, although the user is only asked at the end of the session.
-/

namespace LedgerErgo

open LedgerErgo.Common LedgerErgo.Ergo LedgerErgo.Prog LedgerErgo.Runs

/-- The trusted token was on a screen that the user approved. -/
def App.Consented (app : App) : Prop :=
  app.connectedAppId = 0 ∨ app.connectedAppId ∈ app.history.granted

/-! ## The tokens in the commands -/

/-- The token behind the path of a key. -/
def ExtPubKey.presented (hasToken : Bool) (cdata : Buffer) : Option UInt32 := do
  let (_, cdata) ← readBip32Path cdata
  let (token, _) ← readToken hasToken cdata
  return token

/-- The token behind the network and the path of an address. -/
def DeriveAddress.presented (hasToken : Bool) (cdata : Buffer) : Option UInt32 := do
  let (_, cdata) ← bufferReadU8 cdata
  let (_, cdata) ← readBip32Path cdata
  let (token, _) ← readToken hasToken cdata
  return token

/-- The token behind the parameters of an attestation. -/
def AttestInput.presented (hasToken : Bool) (cdata : Buffer) : Option UInt32 := do
  let (_, cdata) ← AttestInput.readInitParams cdata
  let (token, _) ← readToken hasToken cdata
  return token

/-- The token that a command with results for an application presents. -/
def Apdu.presentedToken (cmd : Apdu) : Option UInt32 :=
  match cmd.ins.toNat with
  | 0x10 => ExtPubKey.presented (cmd.p1 = 2) cmd.data
  | 0x11 => DeriveAddress.presented (cmd.p2 = 2) cmd.data
  | 0x20 => AttestInput.presented (cmd.p2 = 2) cmd.data
  | _ => none

/-- A key or an address is sent, or an attestation is opened. -/
def Apdu.Releasing (cmd : Apdu) : Prop :=
  cmd.ins.toNat = 0x10 ∨ cmd.ins.toNat = 0x11 ∧ cmd.p1 = 1 ∨ cmd.ins.toNat = 0x20 ∧ cmd.p1 = 1

/-- The token that a command for signing opens a session with; it stands where the one of an
    address does. -/
def Event.signToken : Event → Option UInt32
  | .apdu cmd _ =>
      if cmd.ForSigning ∧ cmd.p1 = 1 then DeriveAddress.presented (cmd.p2 = 2) cmd.data else none
  | _ => none

/-- The token that a prompt asks for. -/
def Prompt.token [AttestInput.SharedLayout] (app : App) : Prompt → UInt32
  | .attestInput => app.attestInputCtx.shared.appTokenValue
  | .address => app.deriveAddressCtx.appTokenValue
  | .extPubKey => app.extPubKeyCtx.appTokenValue
  | .signTx => app.signTxCtx.p2pk.appTokenValue
  | .blindWarning => 0

section Consent

variable (device : Device) [UnionLayout SignTx.OpMem] [AttestInput.SharedLayout]

/-- Nothing is released unless the user approves it now, or has approved the token before. -/
def Releases (app : App) (event : Event) : Prop :=
  match event with
  | .apdu cmd answer => cmd.Releasing → ∀ bytes t,
      handle device (.apdu cmd answer) app = .ok (.data bytes) t →
        ∃ token, cmd.presentedToken = some token ∧
          (token ≠ 0 ∧ token ∈ app.history.granted ∨
            answer = true ∧ t.history.granted = token :: app.history.granted)
  | .press approved => ∀ bytes t, handle device (.press approved) app = .ok (.data bytes) t →
      ∃ prompt, app.ui.prompt = some prompt ∧ approved = true ∧
        t.history.granted = prompt.token app :: app.history.granted
  | .toggleBlindSigning => True

/-- After the event the trusted token is one the user approved, and nothing was released without. -/
def Consents (app : App) (event : Event) : Prop :=
  (next device app event).Consented ∧ Releases device app event

/-- A session for signing is only opened with a token that the user has approved, or without. -/
def SignsKnown (app : App) (event : Event) : Prop :=
  ∀ token, event.signToken = some token → succeeds (handle device event app) = true →
    token = 0 ∨ token ∈ app.history.granted

end Consent

/-! ## What leaves the tokens alone -/

/-- The trusted token and the approvals stay. -/
structure SameTokens (s t : App) : Prop where
  connected : t.connectedAppId = s.connectedAppId
  granted : t.history.granted = s.history.granted
  answer : t.answer = s.answer

instance : Std.Refl SameTokens := ⟨fun _ => ⟨rfl, rfl, rfl⟩⟩

instance : IsTrans App SameTokens :=
  ⟨fun _ _ _ first second => ⟨second.connected.trans first.connected,
    second.granted.trans first.granted, second.answer.trans first.answer⟩⟩

theorem steps_sameTokens {device : Device} : Steps device SameTokens where
  toRefl := inferInstance
  toIsTrans := inferInstance
  clear _ := ⟨rfl, rfl, rfl⟩
  context _ _ := ⟨rfl, rfl, rfl⟩
  supply _ _ := ⟨rfl, rfl, rfl⟩
  idle _ := ⟨rfl, rfl, rfl⟩
  menu _ := ⟨rfl, rfl, rfl⟩
  prompt _ _ _ _ _ := ⟨rfl, rfl, rfl⟩

/-- A step that keeps the consent of the user. -/
def KeepsConsent (s t : App) : Prop := s.Consented → t.Consented

theorem approves_keepsConsent {device : Device} : Approves device KeepsConsent where
  refl _ := id
  trans _ _ _ first second := second ∘ first
  clear _ := id
  context _ _ := id
  supply _ _ := id
  answer _ _ := id
  setting _ _ := id
  idle _ := id
  menu _ := id
  prompt _ _ _ _ _ := id
  approve _ _ _ := .inr List.mem_cons_self
  grant _ _ consented := consented.imp id (List.mem_cons_of_mem _)

variable {device : Device} {app s t : App} {bytes : List UInt8} {token : UInt32}

theorem SameTokens.consented (same : SameTokens s t) (consented : s.Consented) : t.Consented := by
  rw [App.Consented, same.connected, same.granted]
  exact consented

theorem isKnownApplication_comm (saved appId : UInt32) :
    isKnownApplication saved appId = isKnownApplication appId saved := by
  simp only [isKnownApplication, decide_eq_decide]
  constructor
  · exact fun known => ⟨known.2.1, known.1, known.2.2.symm⟩
  · exact fun known => ⟨known.2.1, known.1, known.2.2.symm⟩

/-- A token that is trusted is one the user approved. -/
theorem App.Consented.of_known (consented : app.Consented)
    (known : isKnownApplication token app.connectedAppId = true) :
    token ≠ 0 ∧ token ∈ app.history.granted := by
  simp only [isKnownApplication, decide_eq_true_eq] at known
  obtain ⟨some, connected, same⟩ := known
  rw [← same]
  exact ⟨connected, consented.resolve_left connected⟩

/-- The token is known from before, or the user approves it now. -/
def Allowed (token : UInt32) (s t : App) : Prop :=
  token ≠ 0 ∧ token ∈ s.history.granted ∨
    s.answer = true ∧ t.history.granted = token :: s.history.granted

/-- A known token is allowed, whatever happens. -/
theorem allowed_of_known (consented : s.Consented) {u : App} (same : SameTokens s u)
    (known : isKnownApplication token u.connectedAppId = true) : Allowed token s t := by
  rw [same.connected] at known
  exact .inl (consented.of_known known)

theorem allowed_of_granted {u : App} (same : SameTokens s u) (answer : u.answer = true)
    (granted : t.history.granted = token :: u.history.granted) : Allowed token s t := by
  rw [same.granted] at granted
  rw [same.answer] at answer
  exact .inr ⟨answer, granted⟩

namespace ExtPubKey

theorem presented_of_readRequest {cdata : Buffer} {hasAccessToken : Bool} {path : Bip32Path}
    (ok : readRequest device cdata hasAccessToken s = .ok (path, token) t) :
    presented hasAccessToken cdata = some token := by
  simp only [readRequest, bind_ok, Prod.exists, checkReadParam_ok, pure_ok, Prod.mk.injEq] at ok
  obtain ⟨_, _, _, ⟨path, -⟩, _, _, _, ⟨read, -⟩, _, _, -, _, _, -, _, _, _, -, _, _, -,
    ⟨-, rfl⟩, -⟩ := ok
  simp [presented, path, read]

theorem granted_of_action {approved : Bool}
    (ok : actionGetExtendedPubkey approved s = .ok (.data bytes) t) :
    approved = true ∧ t.history.granted = s.extPubKeyCtx.appTokenValue :: s.history.granted := by
  cases approved with
  | false => cases ok
  | true =>
      cases ok
      exact ⟨rfl, rfl⟩

theorem allowed_of_data {cdata : Buffer} {hasAccessToken : Bool} (consented : s.Consented)
    (ok : handlerGetExtendedPublicKey device cdata hasAccessToken s = .ok (.data bytes) t) :
    ∃ token, presented hasAccessToken cdata = some token ∧ Allowed token s t := by
  simp only [handlerGetExtendedPublicKey, bind_ok, exists_unit, get_ok, ensure_ok, modify_ok,
    orSendError_ok, Prod.exists] at ok
  obtain ⟨_, _, ⟨rfl, rfl⟩, _, ⟨-, rfl⟩, _, rfl, path, token, u, request, _, _, ⟨rfl, rfl⟩, ok⟩ := ok
  have opened : SameTokens s (s.setCurrentCommand .getExtendedPublicKey) := ⟨rfl, rfl, rfl⟩
  have same : SameTokens s u :=
    trans_of SameTokens opened ((moves_readRequest steps_sameTokens).ok request)
  refine ⟨token, presented_of_readRequest request, ?_⟩
  cases (ite_ok.mp ok) with
  | inl known => exact allowed_of_known consented same known.1
  | inr shown =>
      obtain ⟨-, shown⟩ := shown
      simp only [displayAccount, bind_ok, exists_unit, ensure_ok] at shown
      obtain ⟨_, ⟨-, rfl⟩, shown⟩ := shown
      cases build : device.build with
      | bagl =>
          rw [build] at shown
          simp only [bind_ok, ite_ok, sendError_ok, and_false, false_and, exists_false, false_or,
            exists_unit, modify_ok, pure_ok] at shown
          obtain ⟨-, _, -, _, -, pending, -⟩ := shown
          cases pending
      | nbgl =>
          rw [build] at shown
          simp only [bind_ok, exists_unit, ensure_ok, modify_ok, get_ok] at shown
          obtain ⟨_, ⟨-, rfl⟩, _, rfl, _, _, ⟨rfl, rfl⟩, acted⟩ := shown
          obtain ⟨answer, granted⟩ := granted_of_action acted
          exact allowed_of_granted same answer granted

end ExtPubKey

namespace DeriveAddress

theorem presented_of_readRequest {cdata : Buffer} {hasAccessToken : Bool} {networkType : UInt8}
    {path : Bip32Path} {publicKey : PublicKey}
    (ok : readRequest device cdata hasAccessToken s = .ok (networkType, path, token, publicKey) t) :
    presented hasAccessToken cdata = some token := by
  simp only [readRequest, bind_ok, Prod.exists, checkReadParam_ok, pure_ok, Prod.mk.injEq] at ok
  obtain ⟨_, _, _, ⟨network, -⟩, _, _, _, ⟨path, -⟩, _, _, _, ⟨read, -⟩, _, _, -, _, _, -, _, _, _, -,
    ⟨-, -, rfl, -⟩, -⟩ := ok
  simp [presented, network, path, read]

theorem granted_of_action {approved : Bool}
    (ok : actionDeriveAddress approved s = .ok (.data bytes) t) :
    approved = true ∧ t.history.granted = s.deriveAddressCtx.appTokenValue :: s.history.granted := by
  cases approved with
  | false => cases ok
  | true =>
      simp only [actionDeriveAddress, bind_ok, modify_ok, exists_unit, get_ok, if_true] at ok
      obtain ⟨_, rfl, _, _, ⟨rfl, rfl⟩, _, rfl, ok⟩ := ok
      have menu : Moves SameTokens (modify App.showMenu : AppM PUnit) := .modify fun _ => ⟨rfl, rfl, rfl⟩
      have clear : Moves SameTokens (modify (App.setCurrentCommand .none) : AppM PUnit) :=
        .modify fun _ => ⟨rfl, rfl, rfl⟩
      have kept := Moves.ok (Moves.ite (.bind (.bind clear fun _ => .pure) fun _ =>
        .bind menu fun _ => .pure) (.bind clear fun _ => .bind .pure fun _ => .bind menu fun _ => .pure)) ok
      exact ⟨rfl, kept.granted⟩

theorem allowed_of_data {cdata : Buffer} {hasAccessToken : Bool} (consented : s.Consented)
    (ok : handlerDeriveAddress device cdata false hasAccessToken s = .ok (.data bytes) t) :
    ∃ token, presented hasAccessToken cdata = some token ∧ Allowed token s t := by
  simp only [handlerDeriveAddress, bind_ok, exists_unit, get_ok, ensure_ok, modify_ok,
    orSendError_ok, Prod.exists] at ok
  obtain ⟨_, _, ⟨rfl, rfl⟩, _, ⟨-, rfl⟩, _, rfl, network, path, token, key, u, request, address, v,
    generated, _, rfl, _, _, ⟨rfl, rfl⟩, ok⟩ := ok
  have opened : SameTokens s (s.setCurrentCommand .deriveAddress) := ⟨rfl, rfl, rfl⟩
  have read : SameTokens s u :=
    trans_of SameTokens opened ((moves_readRequest steps_sameTokens).ok request)
  have same : SameTokens s v :=
    trans_of SameTokens read ((@steps_sameTokens device).withSdk.ok generated)
  refine ⟨token, presented_of_readRequest request, ?_⟩
  cases (ite_ok.mp ok) with
  | inl known => exact allowed_of_known consented same known.1.2
  | inr shown =>
      obtain ⟨-, shown⟩ := shown
      simp only [displayAddress, bind_ok, ite_ok, sendError_ok, and_false, false_and, exists_false,
        false_or, exists_unit, modify_ok, get_ok] at shown
      obtain ⟨-, _, rfl, _, _, ⟨rfl, rfl⟩, shown⟩ := shown
      cases build : device.build with
      | bagl =>
          rw [build] at shown
          simp only [bind_ok, ite_ok, sendError_ok, and_false, false_and, exists_false, false_or,
            exists_unit, modify_ok, pure_ok] at shown
          obtain ⟨-, -, _, -, pending, -⟩ := shown
          cases pending
      | nbgl =>
          rw [build] at shown
          simp only [bind_ok, ite_ok, sendError_ok, and_false, false_and, exists_false, false_or,
            exists_unit, ensure_ok] at shown
          obtain ⟨-, _, ⟨-, rfl⟩, acted⟩ := shown
          obtain ⟨answer, granted⟩ := granted_of_action acted
          exact allowed_of_granted same answer granted

end DeriveAddress

namespace AttestInput

variable [SharedLayout]

theorem granted_of_action {approved : Bool} (ok : actionAttestInput approved s = .ok (.data bytes) t) :
    approved = true ∧
      t.history.granted = s.attestInputCtx.shared.appTokenValue :: s.history.granted := by
  cases approved with
  | false => cases ok
  | true =>
      cases ok
      exact ⟨rfl, rfl⟩

theorem allowed_of_data {cdata : Buffer} {hasToken : Bool} (consented : s.Consented)
    (ok : handleInitCommand device cdata hasToken s = .ok (.data bytes) t) :
    ∃ token, presented hasToken cdata = some token ∧ Allowed token s t := by
  simp only [handleInitCommand, handleInit, bind_ok, exists_unit, get_ok, modify_ok, orSendError_ok,
    Prod.exists, checkReadParam_ok] at ok
  obtain ⟨_, rfl, _, _, ⟨rfl, rfl⟩, params, _, _, ⟨head, rfl⟩, token, _, _, ⟨read, rfl⟩, _, finished,
    u, started, _, rfl, ok⟩ := ok
  have opened : SameTokens s (s.setCurrentCommand .attestInputBox) := ⟨rfl, rfl, rfl⟩
  have checked := (moves_checkParamsFinished (R := SameTokens)).ok finished
  have ran := (moves_startBox (@steps_sameTokens device)).ok started
  have drawn : SameTokens u (App.openSession u) := (moves_openSession (@steps_sameTokens device)) u
  have same : SameTokens s (App.openSession u) :=
    trans_of SameTokens opened (trans_of SameTokens checked (trans_of SameTokens ran drawn))
  refine ⟨token, by simp [presented, head, read], ?_⟩
  cases (ite_ok.mp ok) with
  | inl known =>
      refine .inl (consented.of_known ?_)
      rw [isKnownApplication_comm]
      exact known.1
  | inr shown =>
      obtain ⟨-, shown⟩ := shown
      simp only [displayAccessToken, bind_ok, exists_unit, modify_ok] at shown
      obtain ⟨_, rfl, shown⟩ := shown
      cases build : device.build with
      | bagl =>
          rw [build] at shown
          simp only [bind_ok, exists_unit, modify_ok, pure_ok] at shown
          obtain ⟨_, -, pending, -⟩ := shown
          cases pending
      | nbgl =>
          rw [build] at shown
          simp only [bind_ok, get_ok] at shown
          obtain ⟨_, _, ⟨rfl, rfl⟩, acted⟩ := shown
          obtain ⟨answer, granted⟩ := granted_of_action acted
          exact allowed_of_granted same answer granted

end AttestInput

namespace SignTx

theorem granted_of_action {approved : Bool} (ok : executeAction device approved s = .ok (.data bytes) t) :
    approved = true ∧ t.history.granted = s.signTxCtx.p2pk.appTokenValue :: s.history.granted := by
  cases approved with
  | false => cases ok
  | true =>
      simp only [executeAction, bind_ok, modify_ok, exists_unit, if_true] at ok
      obtain ⟨_, rfl, _, rfl, reply, u, sent, _, rfl, _, rfl, done⟩ := ok
      obtain ⟨-, rfl⟩ := pure_ok.mp done
      have kept := (moves_sendResponse (@steps_sameTokens device)).ok sent
      exact ⟨rfl, kept.granted⟩

/-- A session for signing is approved at once, if its screens fit. -/
theorem showTokenAndPath_comesTo {isKnown : Bool} :
    ComesTo SameTokens (· = operationApproved token) (showTokenAndPath device token isKnown) := by
  have changed (f : Ui → Ui) : Moves SameTokens (modifyUi f) := .modify fun _ => ⟨rfl, rfl, rfl⟩
  have shown : Moves SameTokens (addApplicationId device token isKnown) := by
    unfold addApplicationId
    cases device.build with
    | bagl => exact .ite (changed _) .pure
    | nbgl => exact .ite (changed _) (changed _)
  have approves : ComesTo SameTokens (· = operationApproved token)
      (addOperationApproveScreens device token isKnown) :=
    .bind .get fun _ => .bind .ensure fun _ => .bind shown fun _ =>
      .bind (.modify fun _ => ⟨rfl, rfl, rfl⟩) fun _ => .here rfl
  unfold showTokenAndPath
  refine .bind (changed _) fun _ => .bind .get fun _ => .bind .ensure fun _ => ?_
  split
  · exact .bind (changed _) fun _ => approves
  · exact approves

theorem operationApproved_run : ∃ reply t, operationApproved token s = .ok reply t ∧
    t.connectedAppId = token ∧ t.history.granted = s.history.granted := ⟨_, _, rfl, rfl, rfl⟩

/-- A session for signing that is not opened leaves the tokens alone. -/
theorem sameTokens_of_error {cdata : Buffer} {hasToken : Bool} {err : Sw}
    (failed : handleSignPk device cdata hasToken s = .error err t) : SameTokens s t := by
  obtain ⟨u, ended, rfl⟩ : ∃ u, handleInitP2pk device cdata hasToken s.connectedAppId
      (s.setCurrentCommand .signTransaction) = .error err u ∧
        (markError u).setCurrentCommand .none = t := orSendError_error.mp failed
  have comes : ComesTo SameTokens _ (handleInitP2pk device cdata hasToken s.connectedAppId) :=
    handleInitP2pk_comesTo (@steps_sameTokens device)
  cases comes (s.setCurrentCommand .signTransaction) with
  | inl stopped =>
      obtain ⟨err', v, stopped, same⟩ := stopped
      obtain ⟨rfl, rfl⟩ := EStateM.Result.error.inj (stopped.symm.trans ended)
      exact ⟨same.connected, same.granted, same.answer⟩
  | inr came =>
      obtain ⟨_, m, ⟨token, isKnown, rfl⟩, came, same⟩ := came
      have shown : ComesTo SameTokens _ (showTokenAndPath device token isKnown) :=
        showTokenAndPath_comesTo
      cases shown m with
      | inl stopped =>
          obtain ⟨err', v, stopped, later⟩ := stopped
          obtain ⟨rfl, rfl⟩ := EStateM.Result.error.inj ((came.trans stopped).symm.trans ended)
          have both := trans_of SameTokens same later
          exact ⟨both.connected, both.granted, both.answer⟩
      | inr approved =>
          obtain ⟨_, v, rfl, approved, -⟩ := approved
          obtain ⟨reply, w, ran, -⟩ := @operationApproved_run v token
          rw [came, approved, ran] at ended
          cases ended

/-- A session for signing that is opened trusts its token. -/
theorem connected_of_ok {cdata : Buffer} {hasToken : Bool} {reply : Reply}
    (ok : handleSignPk device cdata hasToken s = .ok reply t) :
    DeriveAddress.presented hasToken cdata = some t.connectedAppId ∧
      t.history.granted = s.history.granted := by
  simp only [handleSignPk, handleInitP2pk, bind_ok, exists_unit, get_ok, modify_ok, orSendError_ok,
    Prod.exists, checkReadParam_ok] at ok
  obtain ⟨_, rfl, _, _, ⟨rfl, rfl⟩, network, _, _, ⟨first, rfl⟩, path, _, _, ⟨second, rfl⟩, token, _,
    _, ⟨third, rfl⟩, _, finished, u, inited, _, rfl, shown⟩ := ok
  have opened : SameTokens s (s.setCurrentCommand .signTransaction) := ⟨rfl, rfl, rfl⟩
  have checked := (moves_checkParamsFinished (R := SameTokens)).ok finished
  have ran := (moves_zoomOp (@steps_sameTokens device)).ok inited
  have same := trans_of SameTokens opened (trans_of SameTokens checked ran)
  have presented : DeriveAddress.presented hasToken cdata = some token := by
    simp [DeriveAddress.presented, first, second, third]
  cases showTokenAndPath_comesTo (App.openSession u) with
  | inl stopped =>
      obtain ⟨err, v, stopped, -⟩ := stopped
      rw [shown] at stopped
      cases stopped
  | inr approved =>
      obtain ⟨_, v, rfl, approved, later⟩ := approved
      obtain ⟨reply', w, last, connected, granted⟩ := @operationApproved_run v token
      rw [shown, last] at approved
      obtain ⟨rfl, rfl⟩ := EStateM.Result.ok.inj approved
      rw [connected, granted]
      exact ⟨presented, later.granted.trans same.granted⟩

end SignTx

/-! ## Events -/

section Events

variable [UnionLayout SignTx.OpMem] [AttestInput.SharedLayout] {event : Event}

/-- Only a session for signing can break the consent. -/
theorem consented_next (consented : app.Consented) (known : SignsKnown device app event) :
    (next device app event).Consented := by
  cases event with
  | press approved => exact moves_press approves_keepsConsent app consented
  | toggleBlindSigning => exact moves_toggle (@approves_keepsConsent device) app consented
  | apdu cmd answer =>
      by_cases ins : cmd.ForSigning
      swap
      · exact moves_other approves_keepsConsent (fun _ _ _ => id) (fun _ _ => id) ins app consented
      unfold next
      cases signing_cases device ins app answer with
      | refused err ran =>
          rw [ran]
          exact consented
      | stopped err ran =>
          rw [ran]
          exact consented
      | goesOn subcommand continues =>
          rw [continues.ran]
          have moved : Moves KeepsConsent (orSendError SignTx.markError
              (subcommand.handle device app.sessionKey cmd.data)) :=
            (@approves_keepsConsent device).toSteps.orSendError (fun _ => id)
              (SignTx.moves_subcommand approves_keepsConsent (fun _ _ => id) fun _ _ _ => id)
          exact moved { app with answer } consented
      | opens p1 idle ran =>
          rw [ran]
          cases opened : SignTx.handleSignPk device cmd.data (cmd.p2 = 0x02) { app with answer } with
          | error err t =>
              have same := SignTx.sameTokens_of_error opened
              exact same.consented consented
          | ok reply t =>
              obtain ⟨presented, granted⟩ := SignTx.connected_of_ok opened
              have token : (Event.apdu cmd answer).signToken = some t.connectedAppId := by
                rw [Event.signToken, if_pos ⟨ins, p1⟩]
                exact presented
              have accepted : succeeds (handle device (.apdu cmd answer) app) = true := by
                rw [ran, opened]
                rfl
              rw [final, App.Consented, granted]
              exact known _ token accepted

theorem releases_of_consented (consented : app.Consented) : Releases device app event := by
  cases event with
  | toggleBlindSigning => exact trivial
  | press approved =>
      intro bytes t ok
      have pressed : press device approved app = .ok (.data bytes) t := ok
      rw [press, get_bind] at pressed
      cases shown : app.ui.prompt with
      | none =>
          rw [shown] at pressed
          cases pressed
      | some prompt =>
          rw [shown] at pressed
          refine ⟨prompt, rfl, ?_⟩
          cases prompt with
          | attestInput => exact AttestInput.granted_of_action pressed
          | address => exact DeriveAddress.granted_of_action pressed
          | extPubKey => exact ExtPubKey.granted_of_action pressed
          | signTx => exact SignTx.granted_of_action pressed
          | blindWarning => cases pressed
  | apdu cmd answer =>
      intro releasing bytes t ok
      have dispatched : apduDispatcher device cmd { app with answer } = .ok (.data bytes) t := ok
      have consented' : App.Consented { app with answer } := consented
      unfold Apdu.presentedToken
      cases releasing with
      | inl key =>
          simp only [apduDispatcher, key, bind_ok, exists_unit, ensure_ok] at dispatched
          obtain ⟨_, ⟨-, rfl⟩, _, ⟨-, rfl⟩, sent⟩ := dispatched
          rw [key]
          exact ExtPubKey.allowed_of_data consented' sent
      | inr other =>
          cases other with
          | inl address =>
              obtain ⟨ins, p1⟩ := address
              simp only [apduDispatcher, ins, bind_ok, exists_unit, ensure_ok] at dispatched
              obtain ⟨_, ⟨-, rfl⟩, _, ⟨-, rfl⟩, sent⟩ := dispatched
              have silent : decide (cmd.p1 = 2) = false := by
                rw [p1]
                rfl
              rw [silent] at sent
              rw [ins]
              exact DeriveAddress.allowed_of_data consented' sent
          | inr attest =>
              obtain ⟨ins, p1⟩ := attest
              rw [apduDispatcher_attestInput ins] at dispatched
              simp only [AttestInput.handlerAttestInput, p1, if_true, bind_ok, exists_unit, ensure_ok,
                get_ok, orSendError_ok] at dispatched
              obtain ⟨_, ⟨-, rfl⟩, _, ⟨-, rfl⟩, _, _, ⟨rfl, rfl⟩, _, ⟨-, rfl⟩, _, ⟨-, rfl⟩, sent⟩ :=
                dispatched
              rw [ins]
              exact AttestInput.allowed_of_data consented' sent

theorem consents_iff (consented : app.Consented) :
    Consents device app event ↔ SignsKnown device app event := by
  constructor
  swap
  · exact fun known => ⟨consented_next consented known, releases_of_consented consented⟩
  intro consents token signs accepted
  cases event with
  | press | toggleBlindSigning => cases signs
  | apdu cmd answer =>
      rw [Event.signToken] at signs
      by_cases opens : cmd.ForSigning ∧ cmd.p1 = 1
      swap
      · rw [if_neg opens] at signs
        cases signs
      rw [if_pos opens] at signs
      have after := consents.1
      unfold next at after
      cases signing_cases device opens.1 app answer with
      | refused err ran | stopped err ran =>
          rw [ran] at accepted
          cases accepted
      | goesOn subcommand continues =>
          have read := continues.subcommand
          rw [opens.2] at read
          cases read
      | opens p1 idle ran =>
          rw [ran] at accepted after
          cases opened : SignTx.handleSignPk device cmd.data (cmd.p2 = 0x02) { app with answer } with
          | error err t =>
              rw [opened] at accepted
              cases accepted
          | ok reply t =>
              obtain ⟨presented, granted⟩ := SignTx.connected_of_ok opened
              obtain rfl := Option.some.inj (presented.symm.trans signs)
              rw [opened, final, App.Consented, granted] at after
              exact after

/-- In a run from the start every trusted token is one the user approved, and nothing is released
    without an approval, exactly if every session for signing is opened with a token the user has
    approved, or without one. -/
theorem tokens_consented_iff (device : Device) (key : Bytes sessionKeyLen) (blindSigning : Bool)
    (supply : Supply) (events : List Event) :
    EachStep (next device) (Consents device) (App.init key blindSigning supply) events ↔
      EachStep (next device) (SignsKnown device) (App.init key blindSigning supply) events :=
  eachStep_iff (fun _ _ => consents_iff) (fun _ _ _ consents => consents.1) (.inl rfl)

end Events

local instance consentUnion : UnionLayout SignTx.OpMem :=
  ⟨fun _ => .zero SignTx.OpMem, fun _ => .zero SignTx.OpMem⟩

local instance consentShared : AttestInput.SharedLayout := ⟨fun _ => .replicate _ 0, fun _ => 0⟩

/-- A session for signing, opened with a token. -/
def signWithToken : Event :=
  .apdu ⟨cla, 0x21, 0x01, 0x02,
    0 :: OneInput.pathBytes SignTx.OneToken.path.path ++ [0, 0, 0, 5]⟩ false

/-- A session for signing is enough for its token to be trusted: the user is not asked. -/
theorem unasked_token_trusted :
    ¬ EachStep (next OneInput.device) (Consents OneInput.device) OneInput.start [signWithToken] := by
  intro each
  obtain ⟨⟨consented, -⟩, -⟩ := each
  have connected : (next OneInput.device OneInput.start signWithToken).connectedAppId = 5 := by
    decide +kernel
  have granted : (next OneInput.device OneInput.start signWithToken).history.granted = [] := by
    decide +kernel
  rw [App.Consented, connected, granted] at consented
  cases consented with
  | inl zero => cases zero
  | inr granted => cases granted

end LedgerErgo
