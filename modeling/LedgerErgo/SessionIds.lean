import LedgerErgo.ApduDispatcher
import LedgerErgo.Ergo.SchnorrNonce

/-! # The ids of sessions

A command that opens a session erases the context first, so the id of the session that it
replaces is not there any more when the new id is drawn. The new id is the first answer of the
random generator that is not zero, whatever the old id was.
-/

namespace LedgerErgo

open LedgerErgo.Ergo LedgerErgo.Prog LedgerErgo.Runs

/-- The id of the open session of a command. -/
def App.sessionOf (command : Command) (app : App) : Option UInt8 :=
  if app.currentCommand = command then
    match command with
    | .signTransaction => some app.signTxCtx.session
    | .attestInputBox => some app.attestInputCtx.session
    | _ => none
  else none

/-- The instruction of a command with sessions. -/
def Apdu.sessionCommand (cmd : Apdu) : Option Command :=
  match cmd.ins.toNat with
  | 0x20 => some .attestInputBox
  | 0x21 => some .signTransaction
  | _ => none

/-- The command whose session the event opens. -/
def Event.opens : Event → Option Command
  | .apdu cmd _ => if cmd.p1 = 1 then cmd.sessionCommand else none
  | _ => none

/-- The session and the random bytes are left alone, unless the session ends. -/
structure SameSession (command : Command) (s t : App) : Prop where
  session : ∀ id, t.sessionOf command = some id → s.sessionOf command = some id
  bytes : t.supply.bytes = s.supply.bytes

namespace SameSession

variable {command : Command} {s t : App}

instance : Std.Refl (SameSession command) := ⟨fun _ => ⟨fun _ here => here, rfl⟩⟩

instance : IsTrans App (SameSession command) :=
  ⟨fun _ _ _ first second =>
    ⟨fun id here => first.session id (second.session id here), second.bytes.trans first.bytes⟩⟩

/-- Nothing that the session depends on changes. -/
theorem of_eq (current : t.currentCommand = s.currentCommand)
    (context : t.commandsCtx = s.commandsCtx) (bytes : t.supply.bytes = s.supply.bytes) :
    SameSession command s t := by
  refine ⟨fun id here => ?_, bytes⟩
  rw [← here]
  simp only [App.sessionOf, App.signTxCtx, App.attestInputCtx, current, context]

theorem modify {change : App → App} (current : ∀ s, (change s).currentCommand = s.currentCommand)
    (context : ∀ s, (change s).commandsCtx = s.commandsCtx)
    (bytes : ∀ s, (change s).supply.bytes = s.supply.bytes) :
    Moves (SameSession command) (modify change : AppM PUnit) :=
  Moves.modify fun s => of_eq (current s) (context s) (bytes s)

theorem cleared_attest {s : App} : SameSession .attestInputBox s (s.setCurrentCommand .none) :=
  ⟨fun _ here => (by cases here), rfl⟩

end SameSession

/-- The first answer of the random generator that is not zero. -/
def firstNonzero (bytes : List UInt8) : UInt8 := (bytes.find? (· ≠ 0)).getD 1

theorem sessionIdNewRandom_zero (bytes : List UInt8) :
    (sessionIdNewRandom 0 bytes).1 = firstNonzero bytes := by
  induction bytes with
  | nil => rfl
  | cons id rest ih =>
      rw [sessionIdNewRandom, firstNonzero, List.find?_cons]
      by_cases zero : id = 0
      · simp only [zero, or_self, if_true, ne_eq, not_true, decide_false]
        exact ih
      · simp [zero]

/-- A step that gives the session an id which was drawn with the id before it in view. -/
def Draws (command : Command) (draw : App → App) : Prop :=
  ∀ s id, (draw s).sessionOf command = some id →
    ∃ old, s.sessionOf command = some old ∧ (sessionIdNewRandom old s.supply.bytes).1 = id

/-- If the context was erased before the id is drawn, the old id is not in view. -/
theorem drawn_of_erased {command : Command} {draw : App → App} {s m t : App} {id : UInt8}
    (draws : Draws command draw) (erased : ∀ old, s.sessionOf command = some old → old = 0)
    (before : SameSession command s m) (after : SameSession command (draw m) t)
    (here : t.sessionOf command = some id) : firstNonzero s.supply.bytes = id := by
  obtain ⟨old, session, rfl⟩ := draws m id (after.session id here)
  rw [erased old (before.session old session), before.bytes, sessionIdNewRandom_zero]

/-! ## The signing command -/

namespace SignTx

variable {device : Device} {s t : App}

theorem sameSession_modifySign {f : SignTxCtx → SignTxCtx}
    (keeps : ∀ ctx, (f ctx).session = ctx.session) :
    SameSession .signTransaction s (App.modifySign f s) := by
  refine ⟨fun id here => ?_, rfl⟩
  rw [← here]
  simp only [App.sessionOf]
  congr 1
  exact congrArg some (keeps s.signTxCtx).symm

theorem sameSession_modifyOp {f : OpCtx → OpCtx} :
    SameSession .signTransaction s (App.modifyOp f s) :=
  sameSession_modifySign fun _ => rfl

theorem sameSession_modifyUi {f : Ui → Ui} : Moves (SameSession .signTransaction) (modifyUi f) :=
  SameSession.modify (fun _ => rfl) (fun _ => rfl) (fun _ => rfl)

/-- Random bytes for sessions are drawn by `session_id_new_random` only. -/
def SameBytes (s t : Op) : Prop := t.supply.bytes = s.supply.bytes

instance : Std.Refl SameBytes := ⟨fun _ => rfl⟩

instance : IsTrans Op SameBytes := ⟨fun _ _ _ first second => Eq.trans second first⟩

theorem sameBytes_init {sdk : Sdk} {path : Common.Bip32Path} {networkId : UInt8} :
    Moves SameBytes (init sdk path networkId) := by
  have zoomed {ε τ α : Type} {part : Op → τ} {setPart : τ → Op → Op} {mapErr : ε → Sw}
      {prog : EStateM ε τ α} (same : ∀ s v, SameBytes s (setPart v s)) :
      Moves SameBytes (zoom part setPart mapErr prog) :=
    .zoom (P := fun _ _ => True) (fun _ => trivial) fun s v _ => same s v
  unfold init
  refine .bind .ensure fun _ => .bind .ensure fun _ => .bind ?_ fun _ => .bind ?_ fun _ =>
    .bind .ensure fun _ => .modify fun _ => rfl
  · exact zoomed fun _ _ => rfl
  · exact zoomed fun _ _ => rfl

theorem sameSession_init {path : Common.Bip32Path} {networkId : UInt8} :
    Moves (SameSession .signTransaction) (opInit (init device.sdk path networkId)) := by
  unfold opInit
  refine .zoom sameBytes_init fun s v bytes => ?_
  have op : SameSession .signTransaction s (App.modifyOp (fun _ => v.ctx) s) := sameSession_modifyOp
  exact ⟨op.session, bytes⟩

theorem sameSession_showTokenAndPath {token : UInt32} {isKnown : Bool} :
    Moves (SameSession .signTransaction) (showTokenAndPath device token isKnown) := by
  have added : Moves (SameSession .signTransaction) addScreen := sameSession_modifyUi
  have applicationId : Moves (SameSession .signTransaction)
      (addApplicationId device token isKnown) := by
    unfold addApplicationId
    split
    · exact .ite added .pure
    · exact .ite sameSession_modifyUi sameSession_modifyUi
  have approved : Moves (SameSession .signTransaction) (operationApproved token) :=
    .bind (SameSession.modify (fun _ => rfl) (fun _ => rfl) fun _ => rfl) fun _ =>
      .bind (SameSession.modify (fun _ => rfl) (fun _ => rfl) fun _ => rfl) fun _ =>
      .bind (Moves.modify fun _ => sameSession_modifySign fun _ => rfl) fun _ =>
      .bind .get fun _ => .pure
  have approve : Moves (SameSession .signTransaction)
      (addOperationApproveScreens device token isKnown) :=
    .bind .get fun _ => .bind .ensure fun _ => .bind applicationId fun _ =>
      .bind (Moves.modify fun _ => sameSession_modifyOp) fun _ => approved
  unfold showTokenAndPath
  refine .bind sameSession_modifyUi fun _ => .bind .get fun _ => .bind .ensure fun _ => ?_
  exact .ite (.bind added fun _ => approve) approve

theorem draws_openSession : Draws .signTransaction App.openSession := by
  intro s id here
  have current : s.currentCommand = .signTransaction := by
    by_contra other
    rw [App.sessionOf, if_neg (by exact other)] at here
    cases here
  rw [App.sessionOf, if_pos (by exact current)] at here
  refine ⟨s.signTxCtx.session, ?_, Option.some.inj here⟩
  rw [App.sessionOf, if_pos current]

/-- A session that is opened gets the first random byte that is not zero. -/
theorem session_of_signPk {cdata : Common.Buffer} {hasToken : Bool} {reply : Reply} {id : UInt8}
    (ok : handleSignPk device cdata hasToken s = .ok reply t)
    (here : t.sessionOf .signTransaction = some id) : firstNonzero s.supply.bytes = id := by
  simp only [handleSignPk, bind_ok, exists_unit, modify_ok, get_ok, orSendError_ok] at ok
  obtain ⟨_, rfl, _, _, ⟨rfl, rfl⟩, ok⟩ := ok
  simp only [handleInitP2pk] at ok
  obtain ⟨_, m₁, network, ok⟩ := bind_ok.mp ok
  obtain ⟨_, m₂, path, ok⟩ := bind_ok.mp ok
  obtain ⟨_, m₃, token, ok⟩ := bind_ok.mp ok
  obtain ⟨_, m₄, finished, ok⟩ := bind_ok.mp ok
  obtain ⟨_, m₅, inited, ok⟩ := bind_ok.mp ok
  obtain ⟨_, m₆, opened, ok⟩ := bind_ok.mp ok
  obtain rfl := modify_ok.mp opened
  have reads : SameSession .signTransaction (s.setCurrentCommand .signTransaction) m₄ :=
    trans_of _ (moves_checkReadParam.ok network) (trans_of _ (moves_checkReadParam.ok path)
      (trans_of _ (moves_checkReadParam.ok token) (moves_checkParamsFinished.ok finished)))
  apply drawn_of_erased draws_openSession _ (trans_of _ reads (sameSession_init.ok inited))
    (sameSession_showTokenAndPath.ok ok) here
  intro old erased
  exact (Option.some.inj erased).symm

end SignTx

/-! ## The attestation -/

namespace AttestInput

variable {device : Device} {s t : App}

theorem sameSession_modifyAttest {f : AttestInputCtx → AttestInputCtx}
    (keeps : ∀ ctx, (f ctx).session = ctx.session) :
    SameSession .attestInputBox s (App.modifyAttest f s) := by
  refine ⟨fun id here => ?_, rfl⟩
  rw [← here]
  simp only [App.sessionOf]
  congr 1
  exact congrArg some (keeps s.attestInputCtx).symm

theorem sameSession_boxCall {α : Type} {call : EStateM BoxErr (SerState (BoxCtx Shared) Shared) α} :
    Moves (SameSession .attestInputBox) (boxCall call) := by
  refine .zoom (P := fun _ _ => True) (fun _ => trivial) fun s v _ => ?_
  have context : SameSession .attestInputBox s (App.modifyAttest (fun ctx => { ctx with
      box := v.ctx
      hash := v.hash
      tokensTable := v.mem.table
      shared := v.mem.cb }) s) := sameSession_modifyAttest fun _ => rfl
  exact ⟨context.session, rfl⟩

theorem sameSession_startBox [SharedLayout] {params : InitParams} :
    Moves (SameSession .attestInputBox) (startBox params) := by
  have changes {f : AttestInputCtx → AttestInputCtx} (keeps : ∀ ctx, (f ctx).session = ctx.session) :
      Moves (SameSession .attestInputBox) (modify (App.modifyAttest f) : AppM PUnit) :=
    Moves.modify fun _ => sameSession_modifyAttest keeps
  unfold startBox
  exact .bind (changes fun _ => rfl) fun _ => .bind sameSession_boxCall fun _ =>
    .bind (changes fun _ => rfl) fun _ => .bind sameSession_boxCall fun _ => changes fun _ => rfl

variable [SharedLayout]

theorem sameSession_actionAttestInput {approved : Bool} :
    Moves (SameSession .attestInputBox) (actionAttestInput approved) := by
  have menu : Moves (SameSession .attestInputBox) (modify App.showMenu : AppM PUnit) :=
    SameSession.modify (fun _ => rfl) (fun _ => rfl) fun _ => rfl
  unfold actionAttestInput
  refine .bind (SameSession.modify (fun _ => rfl) (fun _ => rfl) fun _ => rfl) fun _ =>
    .bind .get fun _ => .ite ?_ ?_
  · exact .bind (SameSession.modify (fun _ => rfl) (fun _ => rfl) fun _ => rfl) fun _ =>
      .bind (Moves.modify fun _ => sameSession_modifyAttest fun _ => rfl) fun _ =>
      .bind menu fun _ => .pure
  · exact .bind (Moves.modify fun _ => SameSession.cleared_attest) fun _ =>
      .bind menu fun _ => .pure

theorem sameSession_displayAccessToken {token : UInt32} :
    Moves (SameSession .attestInputBox) (displayAccessToken device token) := by
  unfold displayAccessToken
  refine .bind (Moves.modify fun _ => sameSession_modifyAttest fun _ => rfl) fun _ => ?_
  cases device.build with
  | bagl =>
      exact .bind (SameSession.modify (fun _ => rfl) (fun _ => rfl) fun _ => rfl) fun _ => .pure
  | nbgl => exact .bind .get fun _ => sameSession_actionAttestInput

omit [SharedLayout] in
theorem draws_openSession : Draws .attestInputBox App.openSession := by
  intro s id here
  have current : s.currentCommand = .attestInputBox := by
    by_contra other
    rw [App.sessionOf, if_neg (by exact other)] at here
    cases here
  rw [App.sessionOf, if_pos (by exact current)] at here
  refine ⟨s.attestInputCtx.session, ?_, Option.some.inj here⟩
  rw [App.sessionOf, if_pos current]

/-- A session that is opened gets the first random byte that is not zero. -/
theorem session_of_initCommand {cdata : Common.Buffer} {hasToken : Bool} {reply : Reply}
    {id : UInt8} (ok : handleInitCommand device cdata hasToken s = .ok reply t)
    (here : t.sessionOf .attestInputBox = some id) : firstNonzero s.supply.bytes = id := by
  simp only [handleInitCommand, bind_ok, exists_unit, modify_ok, get_ok, orSendError_ok] at ok
  obtain ⟨_, rfl, _, _, ⟨rfl, rfl⟩, ok⟩ := ok
  simp only [handleInit] at ok
  obtain ⟨_, m₁, params, ok⟩ := bind_ok.mp ok
  obtain ⟨_, m₂, token, ok⟩ := bind_ok.mp ok
  obtain ⟨_, m₃, finished, ok⟩ := bind_ok.mp ok
  obtain ⟨_, m₄, started, ok⟩ := bind_ok.mp ok
  obtain ⟨_, m₅, opened, ok⟩ := bind_ok.mp ok
  obtain rfl := modify_ok.mp opened
  have reads : SameSession .attestInputBox (s.setCurrentCommand .attestInputBox) m₃ :=
    trans_of _ (moves_checkReadParam.ok params)
      (trans_of _ (moves_checkReadParam.ok token) (moves_checkParamsFinished.ok finished))
  have answered : SameSession .attestInputBox (App.openSession m₄) t := by
    apply Moves.ok _ ok
    exact .ite (.bind (Moves.modify fun _ => sameSession_modifyAttest fun _ => rfl) fun _ =>
      .bind .get fun _ => .pure) sameSession_displayAccessToken
  apply drawn_of_erased draws_openSession _ (trans_of _ reads (sameSession_startBox.ok started))
    answered here
  intro old erased
  exact (Option.some.inj erased).symm

end AttestInput

/-! ## The dispatcher -/

section Dispatcher

variable {device : Device} [UnionLayout SignTx.OpMem] [AttestInput.SharedLayout] {app t : App}
  {command : Command} {cmd : Apdu} {reply : Reply} {id : UInt8}

omit [UnionLayout SignTx.OpMem] [AttestInput.SharedLayout] in
/-- The two instructions with sessions. -/
theorem Apdu.sessionCommand_cases (sessions : cmd.sessionCommand = some command) :
    cmd.ins.toNat = 0x20 ∧ command = .attestInputBox ∨
      cmd.ins.toNat = 0x21 ∧ command = .signTransaction := by
  unfold Apdu.sessionCommand at sessions
  split at sessions
  · exact .inl ⟨by assumption, (Option.some.inj sessions).symm⟩
  · exact .inr ⟨by assumption, (Option.some.inj sessions).symm⟩
  · cases sessions

/-- The id of a session that a command has opened. -/
theorem session_of_apdu (sessions : cmd.sessionCommand = some command) (opens : cmd.p1 = 1)
    (ok : apduDispatcher device cmd app = .ok reply t) (here : t.sessionOf command = some id) :
    firstNonzero app.supply.bytes = id := by
  cases Apdu.sessionCommand_cases sessions with
  | inl attest =>
      obtain ⟨ins, rfl⟩ := attest
      rw [apduDispatcher_attestInput ins] at ok
      simp only [AttestInput.handlerAttestInput, opens, if_true, bind_ok, exists_unit, ensure_ok,
        get_ok, orSendError_ok] at ok
      obtain ⟨_, ⟨-, rfl⟩, _, ⟨-, rfl⟩, _, _, ⟨rfl, rfl⟩, _, ⟨-, rfl⟩, _, ⟨-, rfl⟩, ok⟩ := ok
      exact AttestInput.session_of_initCommand ok here
  | inr sign =>
      obtain ⟨ins, rfl⟩ := sign
      rw [apduDispatcher_signTx ins] at ok
      simp only [SignTx.handlerSignTransaction, opens, if_true, bind_ok, exists_unit, ensure_ok,
        get_ok] at ok
      obtain ⟨_, ⟨-, rfl⟩, _, ⟨-, rfl⟩, _, _, ⟨rfl, rfl⟩, _, ⟨-, rfl⟩, _, ⟨-, rfl⟩, ok⟩ := ok
      exact SignTx.session_of_signPk ok here

/-- A command that continues a session and is accepted carries its id. -/
theorem session_of_continued (sessions : cmd.sessionCommand = some command) (goesOn : cmd.p1 ≠ 1)
    (ok : apduDispatcher device cmd app = .ok reply t) : app.sessionOf command = some cmd.p2 := by
  cases Apdu.sessionCommand_cases sessions with
  | inl attest =>
      obtain ⟨ins, rfl⟩ := attest
      rw [apduDispatcher_attestInput ins] at ok
      simp only [AttestInput.handlerAttestInput, goesOn, if_false, bind_ok, exists_unit, ensure_ok,
        get_ok, orSendError_ok] at ok
      obtain ⟨_, ⟨-, rfl⟩, _, ⟨-, rfl⟩, _, _, ⟨rfl, rfl⟩, _, ⟨-, rfl⟩, ok⟩ := ok
      cases read : AttestInput.Subcommand.ofByte cmd.p1 with
      | none =>
          rw [read] at ok
          cases ok
      | some subcommand =>
          simp only [read, AttestInput.handleSubcommand, checkCommand, AttestInput.checkSession,
            bind_ok, exists_unit, ensure_ok, get_ok] at ok
          obtain ⟨_, ⟨_, _, ⟨rfl, rfl⟩, current, rfl⟩, _, ⟨_, _, ⟨rfl, rfl⟩, session, rfl⟩, -⟩ := ok
          rw [App.sessionOf, if_pos current, session]
  | inr sign =>
      obtain ⟨ins, rfl⟩ := sign
      rw [apduDispatcher_signTx ins] at ok
      simp only [SignTx.handlerSignTransaction, goesOn, if_false, bind_ok, exists_unit, ensure_ok,
        get_ok, orSendError_ok] at ok
      obtain ⟨_, ⟨-, rfl⟩, _, ⟨-, rfl⟩, _, _, ⟨rfl, rfl⟩, _, ⟨-, rfl⟩, ok⟩ := ok
      cases read : SignTx.Subcommand.ofByte cmd.p1 with
      | none =>
          rw [read] at ok
          cases ok
      | some subcommand =>
          simp only [read, SignTx.handleSubcommand, checkCommand, SignTx.checkSession,
            bind_ok, exists_unit, ensure_ok, get_ok] at ok
          obtain ⟨_, ⟨_, _, ⟨rfl, rfl⟩, current, rfl⟩, _, ⟨_, _, ⟨rfl, rfl⟩, session, rfl⟩, -⟩ := ok
          rw [App.sessionOf, if_pos current, session]

end Dispatcher

/-! ## Sessions that replace a session -/

section Replaced

variable (device : Device) [UnionLayout SignTx.OpMem] [AttestInput.SharedLayout]

/-- The event opens a session of a command whose session is still open, and is accepted. -/
structure Replaces (app : App) (event : Event) (command : Command) (old new : UInt8) : Prop where
  opens : event.opens = some command
  before : app.sessionOf command = some old
  idle : app.isUiBusy = false
  accepted : succeeds (handle device event app) = true
  after : (next device app event).sessionOf command = some new

/-- The commands of a session with this id are rejected. -/
def Rejected (app : App) (command : Command) (old : UInt8) : Prop :=
  ∀ cmd answer, cmd.sessionCommand = some command → cmd.p1 ≠ 1 → cmd.p2 = old →
    succeeds (handle device (.apdu cmd answer) app) = false

/-- A session that replaces another one gets an id of its own; as long as it lasts, whatever happens
in between, the commands of the replaced session are rejected. -/
def FreshId (app : App) (event : Event) : Prop :=
  ∀ command old new, Replaces device app event command old new →
    new ≠ 0 ∧ new ≠ old ∧ ∀ later : List Event,
      (later.foldl (next device) (next device app event)).sessionOf command = some new →
        Rejected device (later.foldl (next device) (next device app event)) command old

/-- When a session is replaced, the next random byte that is not zero is not its id. -/
def NewByte (app : App) (event : Event) : Prop :=
  ∀ command old new, Replaces device app event command old new →
    firstNonzero app.supply.bytes ≠ old

end Replaced

section Fresh

variable {device : Device} [UnionLayout SignTx.OpMem] [AttestInput.SharedLayout] {app : App}
  {event : Event} {command : Command} {old new : UInt8}

/-- The new id is the next random byte that is not zero. -/
theorem Replaces.drawn (replaces : Replaces device app event command old new) :
    firstNonzero app.supply.bytes = new := by
  have opens := replaces.opens
  have accepted := replaces.accepted
  have after := replaces.after
  cases event with
  | press => cases opens
  | toggleBlindSigning => cases opens
  | apdu cmd answer =>
      by_cases first : cmd.p1 = 1
      · rw [Event.opens, if_pos first] at opens
        unfold next at after
        cases ran : handle device (.apdu cmd answer) app with
        | error err t =>
            rw [ran] at accepted
            cases accepted
        | ok reply t =>
            rw [ran] at after
            have dispatched : apduDispatcher device cmd { app with answer } = .ok reply t := ran
            have drawn := session_of_apdu opens first dispatched after
            exact drawn
      · rw [Event.opens, if_neg first] at opens
        cases opens

omit [UnionLayout SignTx.OpMem] [AttestInput.SharedLayout] in
theorem firstNonzero_ne_zero (bytes : List UInt8) : firstNonzero bytes ≠ 0 := by
  unfold firstNonzero
  cases found : bytes.find? (· ≠ 0) with
  | none => decide
  | some id => simpa using List.find?_some found

theorem rejected_of_ne {id : UInt8} (session : app.sessionOf command = some id) (other : id ≠ old) :
    Rejected device app command old := by
  intro cmd answer sessions goesOn carried
  cases ran : handle device (.apdu cmd answer) app with
  | error err t => rfl
  | ok reply t =>
      have dispatched : apduDispatcher device cmd { app with answer } = .ok reply t := ran
      have carries := session_of_continued sessions goesOn dispatched
      have same : app.sessionOf command = some cmd.p2 := carries
      rw [session, carried] at same
      exact absurd (Option.some.inj same) other

theorem freshId_iff : FreshId device app event ↔ NewByte device app event := by
  constructor
  · intro fresh command old new replaces
    rw [replaces.drawn]
    exact (fresh command old new replaces).2.1
  · intro newByte command old new replaces
    have drawn := replaces.drawn
    have other : new ≠ old := drawn ▸ newByte command old new replaces
    exact ⟨drawn ▸ firstNonzero_ne_zero _, other, fun _ lasts => rejected_of_ne lasts other⟩

/-- In a run from the start every session that replaces another one has a fresh id exactly if the
    random byte that it gets, the next one that is not zero, is never the id it replaces. -/
theorem session_ids_fresh_iff (device : Device) (key : Bytes sessionKeyLen) (blindSigning : Bool)
    (supply : Supply) (events : List Event) :
    EachStep (next device) (FreshId device) (App.init key blindSigning supply) events ↔
      EachStep (next device) (NewByte device) (App.init key blindSigning supply) events :=
  eachStep_iff (fun _ _ (_ : True) => freshId_iff) (fun _ _ _ _ => trivial) trivial

end Fresh

local instance sessionIdsUnion : UnionLayout SignTx.OpMem :=
  ⟨fun _ => .zero SignTx.OpMem, fun _ => .zero SignTx.OpMem⟩

local instance sessionIdsShared : AttestInput.SharedLayout := ⟨fun _ => .replicate _ 0, fun _ => 0⟩

/-- A device with a touch screen. -/
def touchDevice : Device where
  build := .nbgl
  sdk := Schnorr.zeroSdk
  formats := .blank
  appName := []
  appVersion := []

/-- The attestation of a box with a tree of one byte. -/
def openAttestation : Event :=
  .apdu ⟨cla, 0x20, 0x01, 0x01, List.replicate 32 0 ++ [0, 0] ++ List.replicate 8 0 ++
    [0, 0, 0, 1] ++ [0, 0, 0, 0] ++ [0] ++ [0, 0, 0, 0]⟩ true

/-- If the random generator repeats itself, a session gets the id of the session it replaces. -/
theorem session_id_repeated :
    ¬ EachStep (next touchDevice) (FreshId touchDevice) (App.init (.zero _) false ⟨[], [7, 7], []⟩)
      [openAttestation, openAttestation] := by
  intro each
  obtain ⟨-, second, -⟩ := each
  refine (second .attestInputBox 7 7 ⟨?_, ?_, ?_, ?_, ?_⟩).2.1 rfl
  · rfl
  · decide +kernel
  · decide +kernel
  · decide +kernel
  · decide +kernel

end LedgerErgo
