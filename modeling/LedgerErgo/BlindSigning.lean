import LedgerErgo.SigningRuns

/-! # The gate of blind signing

A script as the destination of an output cannot be shown. With a touch screen the confirmation is
denied for a session with such an output, as long as the setting does not allow to sign it blindly.
With buttons a warning is shown when the output is complete, and only its answer lets the session
go on.
-/

namespace LedgerErgo

open LedgerErgo.Common LedgerErgo.Ergo LedgerErgo.Prog LedgerErgo.Runs SignTx

/-- The output is complete and goes to a script. -/
structure SignTx.OutputInfo.GoesToScript (info : OutputInfo) : Prop where
  finished : info.isFinished = true
  script : info.type = .script ∨ info.type = .scriptHash

/-- The event completes an output that goes to a script. -/
inductive CompletesScript (device : Device) [UnionLayout OpMem] (app : App) : Event → Prop where
  | intro {cmd : Apdu} {answer : Bool} {subcommand : Subcommand} {part : AppM Unit} {k : App}
      (continues : Continues app cmd subcommand)
      (output : subcommand.outputPart device cmd.data = some part)
      (ran : part { app with answer } = .ok () k) (script : k.signTxCtx.p2pk.mem.output.GoesToScript) :
      CompletesScript device app (.apdu cmd answer)

/-- The application, and what its last session for signing has to do with scripts. -/
structure Blind where
  app : App
  /-- The session has completed an output that goes to a script. -/
  script : Prop
  /-- It has done so while the setting was off. -/
  blind : Prop
  /-- The user has answered a warning. -/
  dismissed : Prop

section Machine

variable (device : Device) [UnionLayout OpMem] [AttestInput.SharedLayout]

/-- The state after an event. -/
def Blind.next (s : Blind) (event : Event) : Blind :=
  let app := LedgerErgo.next device s.app event
  if succeeds (handle device event s.app) ∧ event.opens = some .signTransaction then
    ⟨app, False, False, False⟩
  else
    ⟨app, s.script ∨ CompletesScript device s.app event,
      s.blind ∨ CompletesScript device s.app event ∧ s.app.blindSigningEnabled = false,
      s.dismissed ∨ s.app.ui.prompt = some .blindWarning ∧ ∃ approved, event = .press approved⟩

end Machine

/-! ## Marks -/

/-- The command stays, and a mark is not removed. -/
structure KeepsMark (s t : App) : Prop where
  current : t.currentCommand = s.currentCommand
  required : s.signTxCtx.p2pk.blindSigningRequired = true → t.signTxCtx.p2pk.blindSigningRequired = true

instance : Std.Refl KeepsMark := ⟨fun _ => ⟨rfl, id⟩⟩

instance : IsTrans App KeepsMark where
  trans _ _ _ first second := ⟨second.current.trans first.current, second.required ∘ first.required⟩

theorem screens_keepsMark : ScreenSteps KeepsMark where
  toRefl := inferInstance
  toIsTrans := inferInstance
  supply _ _ := ⟨rfl, id⟩
  idle _ := ⟨rfl, id⟩
  ui _ _ _ := ⟨rfl, id⟩
  change _ _ := ⟨rfl, id⟩

section Screens

variable {device : Device} {app t : App} {reply : Reply}

theorem keepsMark_addOutputScreens : Moves KeepsMark (addOutputScreens device) :=
  moves_addOutputScreens screens_keepsMark

theorem keepsMark_showOutput : Moves KeepsMark (showOutputScreenIfNeeded device) :=
  moves_showOutput_of screens_keepsMark (fun _ => ⟨rfl, fun _ => rfl⟩) fun _ =>
    .bind .get fun _ => .bind .ensure fun _ => .bind (.modify fun _ => ⟨rfl, id⟩) fun _ => .pure

/-- What is left when an output that goes to a script was shown. -/
structure Warned (device : Device) (app t : App) : Prop where
  current : t.currentCommand = app.currentCommand
  marked : device.build = .nbgl → t.signTxCtx.p2pk.blindSigningRequired = true
  warning : device.build = .bagl → app.blindSigningEnabled = false → t.ui.prompt = some .blindWarning

theorem warned_of_shown (script : app.signTxCtx.p2pk.mem.output.GoesToScript)
    (state : app.signTxCtx.p2pk.state = .outputsStarted ∨ app.signTxCtx.p2pk.state = .txFinished)
    (shown : showOutputScreenIfNeeded device app = .ok reply t) : Warned device app t := by
  have blind : isBlindSigningTx app.signTxCtx.p2pk.mem.output = true := by
    rcases script.script with type | type <;> simp [isBlindSigningTx, type]
  have needed : shouldShowOutputConfirmScreen app.signTxCtx.p2pk = true := by
    have inside : ¬ (app.signTxCtx.p2pk.state ≠ .outputsStarted ∧
        app.signTxCtx.p2pk.state ≠ .txFinished) := not_and_or.mpr (by simpa using state)
    rcases script.script with type | type <;>
      simp [shouldShowOutputConfirmScreen, inside, script.finished, type]
  have current := (keepsMark_showOutput.ok shown).current
  rw [showOutputScreenIfNeeded, get_bind, if_pos needed, showOutputConfirmScreen, get_bind,
    bind_of_ok (ensure_of state), if_pos blind, bind_of_ok modifyApp_run] at shown
  refine ⟨current, ?_, ?_⟩
  · intro build
    simp only [build] at shown
    exact (keepsMark_addOutputScreens.ok shown).required rfl
  · intro build disabled
    simp only [build, disabled, Bool.false_eq_true, if_false, bind_ok, exists_unit, displayScreens,
      get_ok, ensure_ok, modify_ok, pure_ok] at shown
    obtain ⟨_, -, _, -, _, -, _, -, _, _, ⟨rfl, rfl⟩, _, ⟨-, rfl⟩, _, rfl, -, rfl⟩ := shown
    rfl

end Screens

/-! ## Runs -/

section Runs

variable {device : Device} [UnionLayout OpMem] [AttestInput.SharedLayout] {s : Blind} {app : App}
  {event : Event} {cmd : Apdu} {answer : Bool}

/-- A session that is open has passed the gate so far. -/
structure BlindInv (device : Device) (s : Blind) : Prop where
  coherent : s.app.Coherent device
  required : device.build = .nbgl → s.app.currentCommand = .signTransaction → s.script →
    s.app.signTxCtx.p2pk.blindSigningRequired = true
  answered : device.build = .bagl → s.app.currentCommand = .signTransaction → s.blind →
    s.dismissed ∨ s.app.ui.prompt = some .blindWarning

theorem Blind.next_app : (s.next device event).app = LedgerErgo.next device s.app event := by
  unfold Blind.next
  dsimp only
  split <;> rfl

/-- An opened session has sent nothing. -/
theorem BlindInv.opened (coherent : s.app.Coherent device)
    (opens : succeeds (handle device event s.app) ∧ event.opens = some .signTransaction) :
    BlindInv device (s.next device event) := by
  have after : (LedgerErgo.next device s.app event).Coherent device := coherent_next coherent
  unfold Blind.next
  dsimp only
  rw [if_pos opens]
  exact ⟨after, fun _ _ => False.elim, fun _ _ => False.elim⟩

/-- Without a session nothing is to be known. -/
theorem BlindInv.left (coherent : s.app.Coherent device)
    (left : (LedgerErgo.next device s.app event).currentCommand ≠ .signTransaction) :
    BlindInv device (s.next device event) := by
  constructor
  all_goals rw [Blind.next_app]
  · exact coherent_next coherent
  · exact fun _ here => (left here).elim
  · exact fun _ here => (left here).elim

/-- An event that completes no output that goes to a script. -/
theorem BlindInv.stays (inv : BlindInv device s)
    (keeps : KeepsMark s.app (LedgerErgo.next device s.app event))
    (incomplete : ¬ CompletesScript device s.app event)
    (prompt : s.app.ui.prompt = some .blindWarning →
      (LedgerErgo.next device s.app event).ui.prompt = some .blindWarning ∨
        ∃ approved, event = .press approved) : BlindInv device (s.next device event) := by
  by_cases opens : succeeds (handle device event s.app) ∧ event.opens = some .signTransaction
  · exact .opened inv.coherent opens
  have after : (LedgerErgo.next device s.app event).Coherent device := coherent_next inv.coherent
  unfold Blind.next
  dsimp only
  rw [if_neg opens]
  refine ⟨after, ?_, ?_⟩
  · intro build here script
    rw [keeps.current] at here
    exact keeps.required (inv.required build here (script.resolve_right incomplete))
  · intro build here blind
    rw [keeps.current] at here
    have before := blind.resolve_right fun completes => incomplete completes.1
    rcases inv.answered build here before with dismissed | warning
    · exact .inl (.inl dismissed)
    · rcases prompt warning with stays | pressed
      · exact .inr stays
      · exact .inl (.inr ⟨warning, pressed⟩)

theorem BlindInv.next_toggle (inv : BlindInv device s) :
    BlindInv device (s.next device .toggleBlindSigning) := by
  have incomplete : ¬ CompletesScript device s.app .toggleBlindSigning := by
    intro completes
    cases completes
  have toggled : LedgerErgo.next device s.app .toggleBlindSigning =
      final (toggleBlindSigning s.app) := rfl
  rcases final_toggle s.app with same | ⟨menu, shown⟩
  · rw [same] at toggled
    refine inv.stays ?_ incomplete ?_
    all_goals rw [toggled]
    · exact refl_of KeepsMark s.app
    · exact .inl
  · rw [shown] at toggled
    refine inv.stays ?_ incomplete ?_
    · rw [toggled]
      exact ⟨rfl, id⟩
    · rw [menu]
      exact fun none => nomatch none

theorem BlindInv.next_press (inv : BlindInv device s) {approved : Bool} :
    BlindInv device (s.next device (.press approved)) := by
  have incomplete : ¬ CompletesScript device s.app (.press approved) := by
    intro completes
    cases completes
  rcases LedgerErgo.next_press inv.coherent approved with ⟨unasked, same⟩ | ⟨warned, shown⟩ | left
  · refine inv.stays ?_ incomplete ?_
    all_goals rw [same]
    · exact refl_of KeepsMark s.app
    · exact .inl
  · refine inv.stays ?_ incomplete ?_
    · rw [shown]
      exact ⟨rfl, id⟩
    · exact fun _ => .inr ⟨approved, rfl⟩
  · exact .left inv.coherent left

/-- What is left of a part that was accepted depends on what is shown after it. -/
theorem handle_part (device : Device) {subcommand : Subcommand} {part : AppM Unit} {k : App}
    (continues : Continues app cmd subcommand)
    (output : subcommand.outputPart device cmd.data = some part)
    (called : part { app with answer } = .ok () k) :
    (LedgerErgo.next device app (.apdu cmd answer)).currentCommand = .none ∨
      ∃ reply, showOutputScreenIfNeeded device k =
        .ok reply (LedgerErgo.next device app (.apdu cmd answer)) := by
  have handled : handle device (.apdu cmd answer) app = _ := continues.ran answer
  rw [Subcommand.handle_outputPart output] at handled
  unfold LedgerErgo.next
  rw [handled]
  cases shown : showOutputScreenIfNeeded device k with
  | error err t =>
      left
      rw [final_orSendError ((bind_of_ok called).trans shown)]
      rfl
  | ok reply t =>
      right
      rw [orSendError_run_ok ((bind_of_ok called).trans shown)]
      exact ⟨reply, rfl⟩

omit [AttestInput.SharedLayout] in
theorem completesScript_iff {subcommand : Subcommand} {part : AppM Unit} {k : App}
    (continues : Continues app cmd subcommand)
    (output : subcommand.outputPart device cmd.data = some part)
    (called : part { app with answer } = .ok () k) :
    CompletesScript device app (.apdu cmd answer) ↔ k.signTxCtx.p2pk.mem.output.GoesToScript := by
  constructor
  swap
  · exact .intro continues output called
  intro completes
  cases completes with
  | intro continues' output' called' script =>
      obtain rfl := Option.some.inj (continues.subcommand.symm.trans continues'.subcommand)
      obtain rfl := Option.some.inj (output.symm.trans output')
      rw [called] at called'
      cases called'
      exact script

/-- A part of an output that is accepted leaves a session that has passed the gate, or none. -/
theorem BlindInv.next_part {subcommand : Subcommand} {part : AppM Unit} {k : App}
    (inv : BlindInv device s) (continues : Continues s.app cmd subcommand)
    (output : subcommand.outputPart device cmd.data = some part)
    (called : part { s.app with answer } = .ok () k) :
    BlindInv device (s.next device (.apdu cmd answer)) := by
  rcases handle_part device continues output called with ended | ⟨reply, shown⟩
  · apply BlindInv.left inv.coherent
    rw [ended]
    exact Command.noConfusion
  by_cases opens : succeeds (handle device (.apdu cmd answer) s.app) ∧
      Event.opens (.apdu cmd answer) = some .signTransaction
  · exact .opened inv.coherent opens
  have unasked := inv.coherent.unasked continues.idle
  have completes := completesScript_iff continues output called
  obtain ⟨-, call, faults, op, calls, done, rfl⟩ := outputPart_call output called
  have proceeds := OpCall.handle_proceeds done
  have kept : KeepsMark s.app (App.setOp op { s.app with answer }) :=
    ⟨rfl, fun required => proceeds.kept.blindSigningRequired.trans required⟩
  have keeps := trans_of KeepsMark kept (keepsMark_showOutput.ok shown)
  have warned (script : op.ctx.mem.output.GoesToScript) :
      Warned device (App.setOp op { s.app with answer }) _ :=
    warned_of_shown script proceeds.output shown
  have coherent : (LedgerErgo.next device s.app (.apdu cmd answer)).Coherent device :=
    coherent_next inv.coherent
  unfold Blind.next
  dsimp only
  rw [if_neg opens]
  refine ⟨coherent, ?_, ?_⟩
  · intro build _ script
    rcases script with before | now
    · exact keeps.required (inv.required build continues.command before)
    · exact (warned (completes.mp now)).marked build
  · intro build _ blind
    rcases blind with before | ⟨now, disabled⟩
    · rcases inv.answered build continues.command before with dismissed | warning
      · exact .inl (.inl dismissed)
      · cases unasked.symm.trans warning
    · exact .inr ((warned (completes.mp now)).warning build disabled)

/-- A subcommand that shows nothing leaves the gate as it was. -/
theorem BlindInv.next_plain {subcommand : Subcommand} {reply : Reply} {t : App}
    (inv : BlindInv device s) (continues : Continues s.app cmd subcommand)
    (plain : subcommand.outputPart device cmd.data = none) (unconfirmed : subcommand ≠ .confirm)
    (called : subcommand.handle device s.app.sessionKey cmd.data { s.app with answer } = .ok reply t)
    (ran : handle device (.apdu cmd answer) s.app = .ok reply t) :
    BlindInv device (s.next device (.apdu cmd answer)) := by
  obtain ⟨rfl, -, op, done, rfl⟩ := plain_ok plain unconfirmed called
  have kept : Kept s.app.signTxCtx.p2pk op.ctx := OpCall.runAll_kept done
  have after : LedgerErgo.next device s.app (.apdu cmd answer) =
      App.setOp op { s.app with answer } := by
    rw [LedgerErgo.next, ran]
    rfl
  have unasked := inv.coherent.unasked continues.idle
  refine inv.stays ?_ ?_ fun warning => ?_
  · rw [after]
    exact ⟨rfl, fun required => kept.blindSigningRequired.trans required⟩
  · intro completes
    cases completes with
    | intro continues' output =>
        obtain rfl := Option.some.inj (continues.subcommand.symm.trans continues'.subcommand)
        cases plain.symm.trans output
  · cases unasked.symm.trans warning

/-- A confirmation leaves no session, or with buttons one that waits for the answer. -/
theorem BlindInv.next_confirm {reply : Reply} {t : App} (inv : BlindInv device s)
    (continues : Continues s.app cmd .confirm)
    (called : handleSignConfirm device { s.app with answer } = .ok reply t)
    (ran : handle device (.apdu cmd answer) s.app = .ok reply t) :
    BlindInv device (s.next device (.apdu cmd answer)) := by
  have after : LedgerErgo.next device s.app (.apdu cmd answer) = t := by
    rw [LedgerErgo.next, ran]
    rfl
  have left (ended : t.currentCommand = .none) : BlindInv device (s.next device (.apdu cmd answer)) := by
    apply BlindInv.left inv.coherent
    rw [after, ended]
    exact Command.noConfusion
  obtain ⟨-, confirmed⟩ := confirm_ok called
  cases confirmed with
  | denied ended => exact left ended
  | answered allowed same done =>
      obtain ⟨_, _, ran', current, -⟩ := executeAction_answers device answer _
      rw [ran'] at done
      cases done
      exact left current
  | asks build same =>
      by_cases opens : succeeds (handle device (.apdu cmd answer) s.app) ∧
          Event.opens (.apdu cmd answer) = some .signTransaction
      · exact .opened inv.coherent opens
      have unasked := inv.coherent.unasked continues.idle
      have incomplete : ¬ CompletesScript device s.app (.apdu cmd answer) := by
        intro completes
        cases completes with
        | intro continues' output =>
            obtain rfl := Option.some.inj (continues.subcommand.symm.trans continues'.subcommand)
            cases output
      have coherent : (LedgerErgo.next device s.app (.apdu cmd answer)).Coherent device :=
        coherent_next inv.coherent
      unfold Blind.next
      dsimp only
      rw [if_neg opens]
      refine ⟨coherent, fun build' => ?_, fun _ _ blind => ?_⟩
      · cases build.symm.trans build'
      · have before := blind.resolve_right fun now => incomplete now.1
        rcases inv.answered build continues.command before with dismissed | warning
        · exact .inl (.inl dismissed)
        · cases unasked.symm.trans warning

theorem BlindInv.next_subcommand {subcommand : Subcommand} (inv : BlindInv device s)
    (continues : Continues s.app cmd subcommand) : BlindInv device (s.next device (.apdu cmd answer)) := by
  have handled : handle device (.apdu cmd answer) s.app = _ := continues.ran answer
  cases output : subcommand.outputPart device cmd.data with
  | some part =>
      cases called : part { s.app with answer } with
      | ok u k => exact inv.next_part continues output called
      | error err k =>
          apply BlindInv.left inv.coherent
          rw [Subcommand.handle_outputPart output] at handled
          rw [LedgerErgo.next, handled, final_orSendError (bind_of_error called)]
          exact Command.noConfusion
  | none =>
      cases called : subcommand.handle device s.app.sessionKey cmd.data { s.app with answer } with
      | error err t =>
          apply BlindInv.left inv.coherent
          rw [LedgerErgo.next, handled, final_orSendError called]
          exact Command.noConfusion
      | ok reply t =>
          rw [orSendError_run_ok called] at handled
          by_cases confirms : subcommand = .confirm
          · subst confirms
            exact inv.next_confirm continues called handled
          · exact inv.next_plain continues output confirms called handled

/-- Every event leaves a session that has passed the gate, or none. -/
theorem BlindInv.step (inv : BlindInv device s) (event : Event) :
    BlindInv device (s.next device event) := by
  cases event with
  | toggleBlindSigning => exact inv.next_toggle
  | press approved => exact inv.next_press
  | apdu cmd answer =>
      by_cases continues : ∃ subcommand, Continues s.app cmd subcommand
      · exact inv.next_subcommand continues.choose_spec
      have stays (same : LedgerErgo.next device s.app (.apdu cmd answer) = { s.app with answer }) :
          BlindInv device (s.next device (.apdu cmd answer)) := by
        refine inv.stays ?_ ?_ fun warning => .inl ?_
        · rw [same]
          exact ⟨rfl, id⟩
        · intro completes
          cases completes with
          | intro here => exact continues ⟨_, here⟩
        · rw [same]
          exact warning
      by_cases ins : cmd.ForSigning
      swap
      · rcases next_other device s.app answer ins with same | left
        · exact stays same
        · exact .left inv.coherent left
      cases signing_cases device ins s.app answer with
      | goesOn subcommand here => exact (continues ⟨subcommand, here⟩).elim
      | refused err ran =>
          apply stays
          rw [LedgerErgo.next, ran]
          rfl
      | stopped err ran =>
          apply BlindInv.left inv.coherent
          rw [LedgerErgo.next, ran]
          exact Command.noConfusion
      | opens p1 idle ran =>
          cases opened : handleSignPk device cmd.data (cmd.p2 = 0x02) { s.app with answer } with
          | error err t =>
              apply BlindInv.left inv.coherent
              rw [LedgerErgo.next, ran, opened, final, none_of_signPk opened]
              exact Command.noConfusion
          | ok reply t =>
              apply BlindInv.opened inv.coherent
              constructor
              · rw [ran, opened]
                rfl
              · exact opens_signing p1 ins

end Runs

end LedgerErgo
