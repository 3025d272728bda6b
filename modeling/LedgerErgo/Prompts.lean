import LedgerErgo.Lib.Triples
import LedgerErgo.SigningSteps

/-! # The prompt and the storage of the commands

The commands share one storage, and the callback of a prompt finds there what its command has left
for it. No command gets at the storage while a prompt is on the screen: the application is busy
exactly as long, and the storage is that of the command that asks.
-/

namespace LedgerErgo

open LedgerErgo.Common LedgerErgo.Ergo LedgerErgo.Prog

/-- The command that shows the prompt. -/
def Prompt.command : Prompt → Command
  | .attestInput => .attestInputBox
  | .address => .deriveAddress
  | .extPubKey => .getExtendedPublicKey
  | .signTx | .blindWarning => .signTransaction

/-- The command that the member belongs to which was written last. -/
def CommandsCtx.command : CommandsCtx → Option Command
  | .zero => none
  | .attestInput _ => some .attestInputBox
  | .signTx _ => some .signTransaction
  | .deriveAddress _ => some .deriveAddress
  | .extPubKey _ => some .getExtendedPublicKey

/-- Nobody is asked, and nothing but the command has written into the storage. -/
structure App.Working (command : Command) (app : App) : Prop where
  current : app.currentCommand = command
  storage : ∀ other, app.commandsCtx.command = some other → other = command
  prompt : app.ui.prompt = none
  idle : app.isUiBusy = false

/-- The user is asked, and the storage is that of the command that asks. -/
structure App.Asking (device : Device) (prompt : Prompt) (app : App) : Prop where
  build : device.build = .bagl
  current : app.currentCommand = prompt.command
  storage : app.commandsCtx.command = some prompt.command
  prompt : app.ui.prompt = some prompt
  busy : app.isUiBusy = true

/-- Nobody is asked. -/
def App.Quiet (app : App) : Prop := ∃ command, app.Working command

/-- Nobody is asked, or one prompt is on the screen. -/
def App.Coherent (device : Device) (app : App) : Prop :=
  app.Quiet ∨ ∃ prompt, app.Asking device prompt

variable {device : Device} {command : Command} {α : Type}

/-! ## Steps of a command -/

section Steps

variable {s : App}

theorem App.Coherent.unasked (coherent : s.Coherent device) (idle : s.isUiBusy = false) :
    s.ui.prompt = none := by
  obtain ⟨command, working⟩ | ⟨prompt, asking⟩ := coherent
  · exact working.prompt
  · cases idle.symm.trans asking.busy

theorem App.Working.quiet (working : s.Working command) : s.Quiet := ⟨command, working⟩

/-- When the command changes, its storage is erased. -/
theorem working_set (prompt : s.ui.prompt = none) (command : Command) :
    (s.setCurrentCommand command).Working command where
  current := rfl
  storage _ none := by cases none
  prompt := prompt
  idle := rfl

theorem App.Working.write (working : s.Working command) {commandsCtx : CommandsCtx}
    (own : commandsCtx.command = some command) : App.Working command { s with commandsCtx } where
  current := working.current
  storage _ written := Option.some.inj (written.symm.trans own)
  prompt := working.prompt
  idle := working.idle

theorem App.Working.supplied (working : s.Working command) (supply : Supply) :
    App.Working command { s with supply } :=
  ⟨working.current, working.storage, working.prompt, working.idle⟩

theorem App.Working.cleared (working : s.Working command) : App.Quiet (s.setCurrentCommand .none) :=
  ⟨_, working_set working.prompt _⟩

/-- A prompt is shown by the command that has written the storage. -/
theorem App.Working.asks {prompt : Prompt} (working : s.Working prompt.command)
    (own : s.commandsCtx.command = some prompt.command) (build : device.build = .bagl) :
    (s.showPrompt prompt).Asking device prompt where
  build := build
  current := working.current
  storage := own
  prompt := rfl
  busy := rfl

/-- The command has written the storage. -/
def App.Written (command : Command) (app : App) : Prop :=
  app.Working command ∧ app.commandsCtx.command = some command

theorem coherent_prompt {prompt : Prompt} {E : Sw → App → Prop} (build : device.build = .bagl) :
    Triple (App.Written prompt.command) (do
      modify (App.showPrompt prompt)
      return .pending : AppM Reply) (fun _ => App.Coherent device) E :=
  fun _ written => .inr ⟨prompt, written.1.asks written.2 build⟩

/-- An error erases the storage, whatever was in it. -/
theorem erases_orSendError {P : App → Prop} {Q : α → App → Prop} {call : AppM α} {mark : App → App}
    (marks : ∀ s, (mark s).ui = s.ui) (inner : Triple P call Q fun _ s => s.ui.prompt = none) :
    Triple P (orSendError mark call) Q fun _ => App.Quiet := by
  intro s start
  have after := inner s start
  cases ran : call s with
  | ok a t =>
      rw [ran] at after
      rw [orSendError_run_ok ran]
      exact after
  | error err t =>
      rw [ran] at after
      have stopped : orSendError mark call s = .error err ((mark t).setCurrentCommand .none) :=
        orSendError_error.mpr ⟨t, ran, rfl⟩
      rw [stopped]
      exact ⟨_, working_set ((congrArg Ui.prompt (marks t)).trans after) _⟩

theorem keeps_sendError {err : Sw} :
    Keeps (App.Working command) (sendError err : AppM α) fun _ => App.Quiet :=
  fun _ working => working.cleared

theorem keeps_checkReadParam {read : Option α} {err : Sw} {P : App → Prop} {E : Sw → App → Prop}
    (fails : ∀ s, P s → E err s) : Keeps P (checkReadParam read err) E := by
  cases read with
  | none => exact .throw fails
  | some a => exact .pure fun _ => id

/-- The command that is checked works on its storage. -/
theorem checks_command :
    Triple App.Quiet (checkCommand command) (fun _ => App.Working command) fun _ => App.Quiet := by
  refine .get fun s quiet => ?_
  rintro _ rfl
  by_cases current : s.currentCommand = command
  · rw [ensure_of current]
    obtain ⟨other, working⟩ := quiet
    obtain rfl := working.current.symm.trans current
    exact working
  · rw [ensure_of_not current]
    exact quiet

theorem keeps_withSdk {ε : Type} {err : ε → Sw} {call : EStateM ε (Mem Unit) α} :
    Keeps (App.Working command) (withSdk err call) fun _ => App.Working command :=
  .zoom (fun _ _ working => working.supplied _) fun _ _ => id

theorem keeps_generatePublicKey {sdk : Sdk} {path : Bip32Path} :
    Keeps (App.Working command) (generatePublicKey sdk path) fun _ => App.Working command :=
  .bind keeps_withSdk fun _ => .pure fun _ => id

end Steps

/-! ## Keys and addresses -/

namespace ExtPubKey

theorem quiet_sendResponse {publicKey : PublicKey} {chainCode : Bytes 32} {E : Sw → App → Prop} :
    Triple (App.Working command) (sendResponseExtendedPubkey publicKey chainCode)
      (fun _ => App.Coherent device) E :=
  .bind (.modify App.Quiet fun _ working => working.cleared) fun _ => .pure fun _ => .inl

theorem quiet_action {approved : Bool} {P : App → Prop} {E : Sw → App → Prop} :
    Triple P (actionGetExtendedPubkey approved) (fun _ => App.Quiet) E := by
  intro s _
  cases approved with
  | false | true => exact ⟨.none, rfl, fun _ none => (nomatch none), rfl, rfl⟩

theorem coherent_displayAccount {token : UInt32} {path : Bip32Path} :
    Triple (App.Working .getExtendedPublicKey) (displayAccount device token path)
      (fun _ => App.Coherent device) fun _ => App.Quiet := by
  unfold displayAccount
  refine .bind (.ensure fun _ working => working.quiet) fun _ => ?_
  cases build : device.build with
  | bagl =>
      have asks : Triple _ _ _ fun _ => App.Quiet := @coherent_prompt device .extPubKey _ build
      refine .ite (fun _ => .bind keeps_sendError fun _ => ?_) fun _ => ?_
      all_goals exact .bind (.modify _ fun _ working => ⟨working.write rfl, rfl⟩) fun _ => asks
  | nbgl =>
      refine .bind (.ensure fun _ working => working.quiet) fun _ =>
        .bind (.change fun _ working => working.write rfl) fun _ =>
        .read fun app => ?_
      exact quiet_action.imp (fun _ => id) (fun _ _ => .inl) fun _ _ => id

theorem coherent_handler {cdata : Buffer} {hasAccessToken : Bool} :
    Triple App.Quiet (handlerGetExtendedPublicKey device cdata hasAccessToken)
      (fun _ => App.Coherent device) fun _ => App.Quiet := by
  have fails (s : App) (working : s.Working .getExtendedPublicKey) :
      s.ui.prompt = none := working.prompt
  have request : Keeps (App.Working .getExtendedPublicKey)
      (readRequest device cdata hasAccessToken) fun _ s => s.ui.prompt = none := by
    refine .bind (keeps_checkReadParam fails) fun _ => .bind (keeps_checkReadParam fails) fun _ =>
      .bind (.ensure fails) fun _ => .bind (.ensure fails) fun _ => ?_
    refine .bind (keeps_generatePublicKey.imp (fun _ => id) (fun _ _ => id) fun _ => fails) fun _ => ?_
    exact .bind (.change fun _ working => working.write rfl) fun _ => .pure fun _ => id
  unfold handlerGetExtendedPublicKey
  refine .read fun _ => .bind (.ensure fun _ => id) fun _ =>
    .bind (.modify _ fun s ⟨_, working⟩ => working_set working.prompt _) fun _ => ?_
  exact .bind (erases_orSendError (fun _ => rfl) request) fun _ => .read fun _ =>
    .ite (fun _ => quiet_sendResponse) fun _ => coherent_displayAccount

end ExtPubKey

namespace DeriveAddress

theorem quiet_sendResponse {address : List UInt8} {E : Sw → App → Prop} :
    Triple (App.Working command) (sendResponseAddress address) (fun _ => App.Coherent device) E :=
  .bind (.modify App.Quiet fun _ working => working.cleared) fun _ => .pure fun _ => .inl

theorem quiet_action {approved : Bool} {P : App → Prop} {E : Sw → App → Prop} :
    Triple P (actionDeriveAddress approved) (fun _ => App.Quiet) E := by
  have erased (s : App) (none : (s.setCurrentCommand .none) = s) : s.showMenu.Quiet :=
    ⟨.none, by rw [← none]; exact ⟨rfl, fun _ none => (nomatch none), rfl, rfl⟩⟩
  have clears : Triple (fun _ => True) (modify (App.setCurrentCommand .none) : AppM PUnit)
      (fun _ s => s.setCurrentCommand .none = s) E := .modify _ fun _ _ => rfl
  have menu {reply : Reply} : Triple (fun s : App => s.setCurrentCommand .none = s) (do
      modify App.showMenu
      return reply : AppM Reply) (fun _ => App.Quiet) E :=
    .bind (.modify App.Quiet erased) fun _ => .pure fun _ => id
  unfold actionDeriveAddress
  refine .bind (.modify (fun _ => True) fun _ _ => trivial) fun _ => .read fun app =>
    .ite (fun _ => ?_) fun _ => ?_
  · refine .bind (.modify (fun _ => True) fun _ _ => trivial) fun _ => .ite (fun _ => ?_) fun _ => ?_
    · exact .bind (.bind clears fun _ => .pure fun _ => id) fun _ => menu
    · exact .bind clears fun _ => .bind (.pure fun _ => id) fun _ => menu
  · exact .bind clears fun _ => menu

theorem coherent_displayAddress {send : Bool} {token : UInt32} {path : Bip32Path} :
    Triple (App.Working .deriveAddress) (displayAddress device send token path)
      (fun _ => App.Coherent device) fun _ => App.Quiet := by
  have acted {approved : Bool} : Triple (App.Written .deriveAddress) (actionDeriveAddress approved)
      (fun _ => App.Coherent device) fun _ => App.Quiet :=
    quiet_action.imp (fun _ => id) (fun _ _ => .inl) fun _ _ => id
  have stops {err : Sw} : Keeps (App.Written .deriveAddress) (sendError err : AppM PUnit)
      fun _ => App.Quiet := fun _ written => written.1.cleared
  unfold displayAddress
  refine .ite (fun _ => .bind keeps_sendError fun _ => ?_) fun _ => ?_
  all_goals
    refine .bind (.modify (App.Written _) fun _ working => ⟨working.write rfl, rfl⟩) fun _ =>
      .read fun app => ?_
    cases build : device.build with
    | bagl =>
        have asks : Triple _ _ _ fun _ => App.Quiet := @coherent_prompt device .address _ build
        refine .ite (fun _ => .bind stops fun _ => ?_) fun _ => ?_
        all_goals exact .ite (fun _ => .bind stops fun _ => asks) fun _ => asks
    | nbgl =>
        have ensured {p : Prop} [Decidable p] : Keeps (App.Written .deriveAddress)
            (ensure p .bip32BadPath : AppM Unit) fun _ => App.Quiet :=
          .ensure fun _ written => written.1.quiet
        exact .ite (fun _ => .bind stops fun _ => .bind ensured fun _ => acted) fun _ =>
          .bind ensured fun _ => acted

theorem coherent_handler {cdata : Buffer} {display hasAccessToken : Bool} :
    Triple App.Quiet (handlerDeriveAddress device cdata display hasAccessToken)
      (fun _ => App.Coherent device) fun _ => App.Quiet := by
  have fails (s : App) (working : s.Working .deriveAddress) : s.ui.prompt = none := working.prompt
  have request : Keeps (App.Working .deriveAddress)
      (readRequest device cdata hasAccessToken) fun _ s => s.ui.prompt = none := by
    refine .bind (keeps_checkReadParam fails) fun _ => .bind (keeps_checkReadParam fails) fun _ =>
      .bind (keeps_checkReadParam fails) fun _ => .bind (.ensure fails) fun _ =>
      .bind (.ensure fails) fun _ => ?_
    exact .bind (keeps_generatePublicKey.imp (fun _ => id) (fun _ _ => id) fun _ => fails) fun _ =>
      .pure fun _ => id
  have generated {ε : Type} {err : ε → Sw} {call : EStateM ε (Mem Unit) (List UInt8)} :
      Keeps (App.Working .deriveAddress) (withSdk err call) fun _ => App.Quiet :=
    keeps_withSdk.imp (fun _ => id) (fun _ _ => id) fun _ _ working => working.quiet
  unfold handlerDeriveAddress
  refine .read fun _ => .bind (.ensure fun _ => id) fun _ =>
    .bind (.modify _ fun s ⟨_, working⟩ => working_set working.prompt _) fun _ => ?_
  exact .bind (erases_orSendError (fun _ => rfl) request) fun _ => .bind generated fun _ =>
    .bind (.change fun _ working => working.write rfl) fun _ => .read fun _ =>
    .ite (fun _ => quiet_sendResponse) fun _ => coherent_displayAddress

end DeriveAddress

namespace AttestInput

theorem working_modify {s : App} (working : s.Working .attestInputBox)
    (f : AttestInputCtx → AttestInputCtx) : App.Written .attestInputBox (App.modifyAttest f s) :=
  ⟨working.write rfl, rfl⟩

/-- What happens to the context of the attestation and the supply. -/
theorem keeps_boxCall {call : EStateM BoxErr (SerState (BoxCtx Shared) Shared) α} :
    Keeps (App.Working .attestInputBox) (boxCall call) fun _ => App.Working .attestInputBox :=
  .zoom (fun _ _ working => (working_modify working _).1.supplied _) fun _ _ => id

variable [SharedLayout]

theorem quiet_action {approved : Bool} {E : Sw → App → Prop} {P : App → Prop}
    (current : ∀ s, P s → s.currentCommand = .attestInputBox) :
    Triple P (actionAttestInput approved) (fun _ => App.Quiet) E := by
  intro s start
  cases approved with
  | false => exact ⟨.none, rfl, fun _ none => (nomatch none), rfl, rfl⟩
  | true =>
      exact ⟨.attestInputBox, current s start, fun _ own => (Option.some.inj own).symm, rfl, rfl⟩

theorem coherent_displayAccessToken {token : UInt32} :
    Triple (App.Working .attestInputBox) (displayAccessToken device token)
      (fun _ => App.Coherent device) fun _ s => s.ui.prompt = none := by
  unfold displayAccessToken
  refine .bind (.modify (App.Written _) fun _ working => working_modify working _) fun _ => ?_
  cases build : device.build with
  | bagl => exact @coherent_prompt device .attestInput _ build
  | nbgl =>
      exact .read fun _ => (quiet_action fun _ written => written.1.current).imp (fun _ => id)
        (fun _ _ => .inl) fun _ _ => id

theorem keeps_startBox {params : InitParams} :
    Keeps (App.Working .attestInputBox) (startBox params) fun _ s => s.ui.prompt = none := by
  have change {f : AttestInputCtx → AttestInputCtx} : Keeps (App.Working .attestInputBox)
      (modify (App.modifyAttest f) : AppM PUnit) fun _ s => s.ui.prompt = none :=
    .change fun _ working => (working_modify working f).1
  have called {β : Type} {call : EStateM BoxErr (SerState (BoxCtx Shared) Shared) β} :
      Keeps (App.Working .attestInputBox) (boxCall call) fun _ s => s.ui.prompt = none :=
    keeps_boxCall.imp (fun _ => id) (fun _ _ => id) fun _ _ working => working.prompt
  exact .bind change fun _ => .bind called fun _ => .bind change fun _ => .bind called fun _ => change

theorem coherent_initCommand {cdata : Buffer} {hasToken : Bool} :
    Triple App.Quiet (handleInitCommand device cdata hasToken) (fun _ => App.Coherent device)
      fun _ => App.Quiet := by
  have fails (s : App) (working : s.Working .attestInputBox) : s.ui.prompt = none := working.prompt
  have opened (s : App) (working : s.Working .attestInputBox) :
      (App.openSession s).Working .attestInputBox := (working_modify working _).1.supplied _
  have inited (appSessionId : UInt32) : Triple (App.Working .attestInputBox)
      (handleInit device cdata hasToken appSessionId) (fun _ => App.Coherent device)
      fun _ s => s.ui.prompt = none := by
    refine .bind (keeps_checkReadParam fails) fun _ => .bind (keeps_checkReadParam fails) fun _ =>
      .bind (.ensure fails) fun _ => .bind keeps_startBox fun _ => .bind (.change opened) fun _ => ?_
    exact .ite (fun _ => .bind (.change fun _ working => (working_modify working _).1) fun _ =>
      .read fun _ => .pure fun _ working => .inl working.quiet) fun _ => coherent_displayAccessToken
  exact .bind (.modify _ fun s ⟨_, working⟩ => working_set working.prompt _) fun _ => .read fun _ =>
    erases_orSendError (fun _ => rfl) (inited _)

/-- A subcommand works on its own storage, also if it fails. -/
theorem keeps_subcommand {sessionKey : Bytes sessionKeyLen} {cdata : Buffer} {subcommand : Subcommand} :
    Keeps (App.Working .attestInputBox) (subcommand.handle device sessionKey cdata)
      fun _ => App.Working .attestInputBox := by
  let R (s t : App) : Prop := s.Working .attestInputBox → t.Working .attestInputBox
  have : Std.Refl R := ⟨fun _ working => working⟩
  have : IsTrans App R := ⟨fun _ _ _ first second working => second (first working)⟩
  have moves : Moves R (subcommand.handle device sessionKey cdata) := by
    apply moves_subcommand_of
    · intro β call s
      have kept := @keeps_boxCall β call s
      cases ran : boxCall call s with
      | ok a t | error e t =>
          rw [ran] at kept
          exact kept
    · exact fun s f working => (working_modify working f).1
    · exact fun s bytes working => ⟨working.current, working.storage, working.prompt, working.idle⟩
  exact .of_moves moves fun s t moved => moved

theorem coherent_handler {cdata : Buffer} {subcommand sessionOrToken : UInt8} :
    Triple App.Quiet (handlerAttestInput device cdata subcommand sessionOrToken)
      (fun _ => App.Coherent device) fun _ => App.Quiet := by
  have prompt (s : App) (quiet : s.Quiet) : s.ui.prompt = none := quiet.choose_spec.prompt
  unfold handlerAttestInput
  refine .read fun _ => .bind (.ensure fun _ => id) fun _ => .ite (fun _ => ?_) fun _ => ?_
  · exact .bind (erases_orSendError (fun _ => rfl) (.ensure prompt)) fun _ => coherent_initCommand
  apply erases_orSendError fun _ => rfl
  cases Subcommand.ofByte subcommand with
  | none => exact .throw prompt
  | some subcommand =>
      have session : Keeps (App.Working .attestInputBox) (checkSession sessionOrToken)
          fun _ s => s.ui.prompt = none := .read fun _ => .ensure fun _ working => working.prompt
      refine .bind (checks_command.imp (fun _ => id) (fun _ _ => id) fun _ => prompt) fun _ =>
        .bind session fun _ => .read fun _ => ?_
      exact keeps_subcommand.imp (fun _ => id) (fun _ _ working => .inl working.quiet)
        fun _ _ working => working.prompt

end AttestInput

namespace SignTx

theorem working_modifySign {s : App} (working : s.Working .signTransaction)
    (f : SignTxCtx → SignTxCtx) : App.Written .signTransaction (App.modifySign f s) :=
  ⟨working.write rfl, rfl⟩

theorem working_setOp {s : App} (working : s.Working .signTransaction) (op : Op) :
    App.Written .signTransaction (App.setOp op s) :=
  have written := working_modifySign working fun ctx => { ctx with p2pk := op.ctx }
  ⟨written.1.supplied _, rfl⟩

theorem quiet_executeAction {approved : Bool} {P : App → Prop} {E : Sw → App → Prop} :
    Triple P (executeAction device approved) (fun _ => App.Quiet) E := by
  intro s _
  obtain ⟨reply, t, ran, current, idle, prompt, erased⟩ := executeAction_answers device approved s
  rw [ran]
  refine ⟨.none, current, fun other written => ?_, prompt, idle⟩
  rw [erased] at written
  cases written

/-- The screens of an output leave the storage to the command. -/
theorem screens_written : ScreenSteps fun s t =>
    s.Written .signTransaction → t.Written .signTransaction where
  refl _ written := written
  trans _ _ _ first second written := second (first written)
  supply _ supply written := ⟨written.1.supplied supply, written.2⟩
  idle _ written := ⟨⟨written.1.current, written.1.storage, written.1.prompt, rfl⟩, written.2⟩
  ui _ _ same written := ⟨⟨written.1.current, written.1.storage, same.trans written.1.prompt,
    written.1.idle⟩, written.2⟩
  change _ _ written := working_modifySign written.1 _

theorem coherent_displayScreens {prompt : Prompt} (build : device.build = .bagl) :
    Triple (App.Written prompt.command) (displayScreens prompt) (fun _ => App.Coherent device)
      fun _ s => s.ui.prompt = none :=
  .read fun _ => .bind (.ensure fun _ written => written.1.prompt) fun _ => coherent_prompt build

/-- An output is shown, or the user is warned. -/
theorem coherent_showOutput : Triple (App.Written .signTransaction) (showOutputScreenIfNeeded device)
    (fun _ => App.Coherent device) fun _ s => s.ui.prompt = none := by
  have shown : Triple (App.Written .signTransaction) (addOutputScreens device)
      (fun _ => App.Coherent device) fun _ s => s.ui.prompt = none := by
    have moves : Keeps (App.Written .signTransaction) (addOutputScreens device)
        fun _ => App.Written .signTransaction :=
      .of_moves (moves_addOutputScreens screens_written) fun _ _ kept => kept
    exact moves.imp (fun _ => id) (fun _ _ written => .inl written.1.quiet)
      fun _ _ written => written.1.prompt
  have screen {E : Sw → App → Prop} : Keeps (App.Written .signTransaction) addScreen E := by
    refine .change fun s written => screens_written.ui s _ ?_ written
    dsimp only
    split
    · rfl
    · rfl
  unfold showOutputScreenIfNeeded
  refine .read fun _ => .ite (fun _ => ?_) fun _ => .pure fun _ written => .inl written.1.quiet
  unfold showOutputConfirmScreen
  refine .read fun _ => .bind (.ensure fun _ written => written.1.prompt) fun _ =>
    .ite (fun _ => ?_) fun _ => shown
  refine .bind (.change fun _ written => working_modifySign written.1 _) fun _ => ?_
  cases build : device.build with
  | nbgl => exact shown
  | bagl =>
      refine .ite (fun _ => .bind screen fun _ => shown) fun _ => ?_
      exact .bind screen fun _ => .bind screen fun _ => .bind screen fun _ => .bind screen fun _ =>
        @coherent_displayScreens device .blindWarning build

theorem coherent_confirm : Triple (App.Working .signTransaction) (handleSignConfirm device)
    (fun _ => App.Coherent device) fun _ s => s.ui.prompt = none := by
  have fails (s : App) (written : s.Written .signTransaction) : s.ui.prompt = none := written.1.prompt
  have pairs {start i count : Nat} {render : Nat → RenderM Unit} :
      Keeps (App.Written .signTransaction) (writePairs start render i count)
        fun _ s => s.ui.prompt = none :=
    (Triple.of_moves (moves_writePairs screens_written) fun _ _ kept => kept).imp (fun _ => id)
      (fun _ _ => id) fun _ => fails
  have ui {f : Ui → Ui} (same : ∀ ui, (f ui).prompt = ui.prompt) {E : Sw → App → Prop} :
      Keeps (App.Written .signTransaction) (modifyUi f) E :=
    .change fun s written => screens_written.ui s _ (same s.ui) written
  have confirmed {E : Sw → App → Prop} {f : OpCtx → OpCtx} :
      Keeps (App.Written .signTransaction) (modify (App.modifyOp f) : AppM PUnit) E :=
    .change fun s written => working_modifySign written.1 _
  have review : Triple (App.Written .signTransaction) (addTransactionScreens device)
      (fun _ => App.Coherent device) fun _ s => s.ui.prompt = none := by
    unfold addTransactionScreens
    refine .read fun _ => .bind (.ensure fails) fun _ => ?_
    dsimp only
    cases build : device.build with
    | bagl =>
        refine .bind confirmed fun _ => .bind pairs fun _ => .bind (.ensure fails) fun _ =>
          .bind (ui ?_) fun _ => @coherent_displayScreens device .signTx build
        exact fun _ => rfl
    | nbgl =>
        refine .ite (fun _ => ?_) fun _ => ?_
        · refine .bind (.modify App.Quiet fun _ written => written.1.cleared) fun _ =>
            .bind (.change fun _ ⟨_, working⟩ => ?_) fun _ => .pure fun _ => .inl
          exact ⟨_, working.current, working.storage, rfl, rfl⟩
        · refine .bind confirmed fun _ => .bind pairs fun _ => .bind (ui ?_) fun _ => ?_
          · exact fun _ => rfl
          · exact quiet_executeAction.imp (fun _ => id) (fun _ _ => .inl) fun _ _ => id
  refine .bind (.read fun _ => .ensure fun _ working => working.prompt) fun _ =>
    .read fun _ => .bind (.ensure fun _ working => working.prompt) fun _ => ?_
  exact .bind (.modify _ fun _ working => working_modifySign working _) fun _ => review

/-- Nobody is asked after the step if nobody was before. -/
def StaysUnasked (s t : App) : Prop := s.ui.prompt = none → t.ui.prompt = none

instance : Std.Refl StaysUnasked := ⟨fun _ => id⟩

instance : IsTrans App StaysUnasked := ⟨fun _ _ _ first second unasked => second (first unasked)⟩

theorem unasked_zoomOp {call : OpM α} : Moves StaysUnasked (zoom App.op App.setOp id call) :=
  .zoom (P := fun _ _ => True) (fun _ => trivial) fun _ _ _ unasked => unasked

theorem unasked_opCall {call : OpM Unit} : Moves StaysUnasked (opCall call) :=
  moves_orSendError unasked_zoomOp fun _ unasked => unasked

theorem unasked_publicKey {path : Bip32Path} : Moves StaysUnasked (bip32PublicKey device path) :=
  .bind .ensure fun _ => .bind unasked_zoomOp fun _ => .pure

/-- What a program leaves if it succeeds, and nobody is asked if it does not. -/
theorem triple_unasked {P : App → Prop} {Q : α → App → Prop} {call : AppM α}
    (moves : Moves StaysUnasked call) (unasked : ∀ s, P s → s.ui.prompt = none)
    (succeeds : ∀ s a t, P s → call s = .ok a t → Q a t) :
    Triple P call Q fun _ s => s.ui.prompt = none := by
  intro s start
  have moved := moves s
  cases ran : call s with
  | ok a t => exact succeeds s a t start ran
  | error err t =>
      rw [ran] at moved
      exact moved (unasked s start)

section Commands

variable [UnionLayout OpMem]

theorem coherent_subcommand {sessionKey : Bytes sessionKeyLen} {cdata : Buffer}
    {subcommand : Subcommand} :
    Triple (App.Working .signTransaction) (subcommand.handle device sessionKey cdata)
      (fun _ => App.Coherent device) fun _ s => s.ui.prompt = none := by
  cases output : subcommand.outputPart device cdata with
  | some part =>
      rw [Subcommand.handle_outputPart output]
      have moves : Moves StaysUnasked part := moves_outputPart_of (fun _ => unasked_opCall)
        (fun _ _ unasked => unasked) (fun _ => unasked_publicKey) output
      refine .bind (triple_unasked moves (fun _ working => working.prompt) ?_) fun _ =>
        coherent_showOutput
      intro s _ t working ok
      obtain ⟨-, call, faults, op, -, -, rfl⟩ := outputPart_call output ok
      exact working_setOp working op
  | none =>
      by_cases confirm : subcommand = .confirm
      · subst confirm
        exact coherent_confirm
      · refine triple_unasked (moves_plain_of (fun _ => unasked_opCall) output confirm)
          (fun _ working => working.prompt) ?_
        intro s _ t working ok
        obtain ⟨-, -, op, -, rfl⟩ := plain_ok output confirm ok
        exact .inl (working_setOp working op).1.quiet

omit [UnionLayout OpMem] in
theorem coherent_showTokenAndPath {token : UInt32} {isKnown : Bool} :
    Triple (App.Written .signTransaction) (showTokenAndPath device token isKnown)
      (fun _ => App.Coherent device) fun _ s => s.ui.prompt = none := by
  have fails (s : App) (written : s.Written .signTransaction) : s.ui.prompt = none := written.1.prompt
  have ui {f : Ui → Ui} (same : ∀ ui, (f ui).prompt = ui.prompt) :
      Keeps (App.Written .signTransaction) (modifyUi f) fun _ s => s.ui.prompt = none :=
    .change fun s written => screens_written.ui s _ (same s.ui) written
  have screen : Keeps (App.Written .signTransaction) addScreen fun _ s => s.ui.prompt = none := by
    apply ui
    intro shown
    split
    · rfl
    · rfl
  have applicationId : Keeps (App.Written .signTransaction) (addApplicationId device token isKnown)
      fun _ s => s.ui.prompt = none := by
    unfold addApplicationId
    cases device.build with
    | bagl => exact .ite (fun _ => screen) fun _ => .pure fun _ => id
    | nbgl => exact .ite (fun _ => ui fun _ => rfl) fun _ => ui fun _ => rfl
  have approved : Triple (App.Written .signTransaction) (operationApproved token)
      (fun _ => App.Coherent device) fun _ s => s.ui.prompt = none := by
    refine .bind (.change screens_written.idle) fun _ => .bind (.change fun s written => ?_) fun _ =>
      .bind (.change fun _ written => working_modifySign written.1 _) fun _ =>
      .read fun _ => .pure fun _ written => .inl written.1.quiet
    exact ⟨⟨written.1.current, written.1.storage, written.1.prompt, written.1.idle⟩, written.2⟩
  have screens : Triple (App.Written .signTransaction)
      (addOperationApproveScreens device token isKnown) (fun _ => App.Coherent device)
      fun _ s => s.ui.prompt = none :=
    .read fun _ => .bind (.ensure fails) fun _ => .bind applicationId fun _ =>
      .bind (.change fun _ written => working_modifySign written.1 _) fun _ => approved
  unfold showTokenAndPath
  refine .bind (ui ?_) fun _ => .read fun _ => .bind (.ensure fails) fun _ => ?_
  · exact fun _ => rfl
  · exact .ite (fun _ => .bind screen fun _ => screens) fun _ => screens

omit [UnionLayout OpMem] in
theorem coherent_signPk {cdata : Buffer} {hasToken : Bool} :
    Triple App.Quiet (handleSignPk device cdata hasToken) (fun _ => App.Coherent device)
      fun _ => App.Quiet := by
  have fails (s : App) (working : s.Working .signTransaction) : s.ui.prompt = none := working.prompt
  have inits {call : OpM Unit} : Keeps (App.Working .signTransaction) (opInit call)
      fun _ s => s.ui.prompt = none :=
    .zoom (fun _ op working => (working_setOp working op).1) fun _ => fails
  have opened (s : App) (working : s.Working .signTransaction) :
      (App.openSession s).Written .signTransaction :=
    have written := working_modifySign working _
    ⟨written.1.supplied _, rfl⟩
  have inited (appSessionId : UInt32) : Triple (App.Working .signTransaction)
      (handleInitP2pk device cdata hasToken appSessionId) (fun _ => App.Coherent device)
      fun _ s => s.ui.prompt = none :=
    .bind (keeps_checkReadParam fails) fun _ => .bind (keeps_checkReadParam fails) fun _ =>
      .bind (keeps_checkReadParam fails) fun _ => .bind (.ensure fails) fun _ =>
      .bind inits fun _ => .bind (.modify _ opened) fun _ => coherent_showTokenAndPath
  exact .bind (.modify _ fun s ⟨_, working⟩ => working_set working.prompt _) fun _ => .read fun _ =>
    erases_orSendError (fun _ => rfl) (inited _)

theorem coherent_handler {cdata : Buffer} {subcommand sessionOrToken : UInt8} :
    Triple App.Quiet (handlerSignTransaction device cdata subcommand sessionOrToken)
      (fun _ => App.Coherent device) fun _ => App.Quiet := by
  have prompt (s : App) (quiet : s.Quiet) : s.ui.prompt = none := quiet.choose_spec.prompt
  unfold handlerSignTransaction
  refine .read fun _ => .bind (.ensure fun _ => id) fun _ => .ite (fun _ => ?_) fun _ => ?_
  · exact .bind (.ensure fun _ => id) fun _ => coherent_signPk
  apply erases_orSendError fun _ => rfl
  cases Subcommand.ofByte subcommand with
  | none => exact .throw prompt
  | some subcommand =>
      have session : Keeps (App.Working .signTransaction) (checkSession sessionOrToken)
          fun _ s => s.ui.prompt = none := .read fun _ => .ensure fun _ working => working.prompt
      refine .bind (checks_command.imp (fun _ => id) (fun _ _ => id) fun _ => prompt) fun _ =>
        .bind session fun _ => .read fun _ => ?_
      exact coherent_subcommand

end Commands

end SignTx

/-! ## Events -/

section Events

variable [AttestInput.SharedLayout]

/-- An answer takes the prompt from the screen, whatever it leads to. -/
theorem quiet_press {prompt : Prompt} {approved : Bool} {s : App} (asking : s.Asking device prompt) :
    (final (press device approved s)).Quiet := by
  rw [press, get_bind, asking.prompt]
  have answered : Triple (App.Asking device prompt) (prompt.action device approved)
      (fun _ => App.Quiet) fun _ => App.Quiet := by
    cases prompt with
    | attestInput => exact AttestInput.quiet_action fun _ asking => asking.current
    | address => exact DeriveAddress.quiet_action
    | extPubKey => exact ExtPubKey.quiet_action
    | signTx => exact SignTx.quiet_executeAction
    | blindWarning =>
        refine .bind (.modify App.Quiet fun s asking => ?_) fun _ => .pure fun _ => id
        exact ⟨.signTransaction, asking.current,
          fun _ own => Option.some.inj (own.symm.trans asking.storage), rfl, rfl⟩
  exact answered.final asking

/-- Without a prompt there is nothing to choose. -/
theorem next_press_none {approved : Bool} {s : App} (unasked : s.ui.prompt = none) :
    final (press device approved s) = s := by
  rw [press, get_bind, unasked]
  rfl

omit [AttestInput.SharedLayout] in
/-- The setting changes in the menu only. -/
theorem final_toggle (s : App) :
    final (toggleBlindSigning s) = s ∨ s.ui.prompt = none ∧ final (toggleBlindSigning s) =
      App.showMenu { s with blindSigningEnabled := !s.blindSigningEnabled } := by
  rw [toggleBlindSigning, get_bind]
  by_cases menu : s.ui.prompt = none
  · rw [if_pos menu]
    exact .inr ⟨menu, rfl⟩
  · rw [if_neg menu]
    exact .inl rfl

omit [AttestInput.SharedLayout] in
theorem coherent_toggle {s : App} (coherent : s.Coherent device) :
    (final (toggleBlindSigning s)).Coherent device := by
  rcases final_toggle s with same | ⟨menu, shown⟩
  · rw [same]
    exact coherent
  · rw [shown]
    obtain ⟨command, working⟩ | ⟨prompt, asking⟩ := coherent
    · exact .inl ⟨command, working.current, working.storage, rfl, rfl⟩
    · rw [asking.prompt] at menu
      cases menu

variable [UnionLayout SignTx.OpMem]

theorem coherent_dispatcher {cmd : Apdu} :
    Triple App.Quiet (apduDispatcher device cmd) (fun _ => App.Coherent device)
      fun _ => App.Quiet := by
  unfold apduDispatcher
  refine .bind (.ensure fun _ => id) fun _ => ?_
  split
  · exact .bind (.ensure fun _ => id) fun _ => .pure fun _ => .inl
  · exact .bind (.ensure fun _ => id) fun _ => .pure fun _ => .inl
  · exact .bind (.ensure fun _ => id) fun _ => ExtPubKey.coherent_handler
  · exact .bind (.ensure fun _ => id) fun _ => DeriveAddress.coherent_handler
  · exact .bind (.ensure fun _ => id) fun _ => AttestInput.coherent_handler
  · exact .bind (.ensure fun _ => id) fun _ => SignTx.coherent_handler
  · exact .throw fun _ => id

theorem coherent_next {s : App} {event : Event} (coherent : s.Coherent device) :
    (next device s event).Coherent device := by
  cases event with
  | toggleBlindSigning => exact coherent_toggle coherent
  | press approved =>
      obtain ⟨command, working⟩ | ⟨prompt, asking⟩ := coherent
      · change (final (press device approved s)).Coherent device
        rw [next_press_none working.prompt]
        exact .inl working.quiet
      · exact .inl (quiet_press asking)
  | apdu cmd answer =>
      obtain ⟨command, working⟩ | ⟨prompt, asking⟩ := coherent
      · have quiet : App.Quiet { s with answer } :=
          ⟨command, working.current, working.storage, working.prompt, working.idle⟩
        exact (coherent_dispatcher.imp (fun _ => id) (fun _ _ => id) fun _ _ => .inl).final quiet
      · rw [next_of_busy asking.busy]
        exact .inr ⟨prompt, asking.build, asking.current, asking.storage, asking.prompt, asking.busy⟩

omit [AttestInput.SharedLayout] [UnionLayout SignTx.OpMem] in
theorem coherent_init {key : Bytes sessionKeyLen} {enabled : Bool} {supply : Supply} :
    (App.init key enabled supply).Coherent device :=
  .inl ⟨.none, rfl, fun _ none => (nomatch none), rfl, rfl⟩

end Events

end LedgerErgo
