import LedgerErgo.Commands.SignTx.Rendering
import LedgerErgo.HandlerSteps

/-! # What happens to the review

The review is reset when a session is opened. It grows when a subcommand completes an output that
is shown, by the pairs of the output, and when the transaction is confirmed. Nothing else changes
it.
-/

namespace LedgerErgo

open LedgerErgo.Common LedgerErgo.Ergo LedgerErgo.Prog SignTx

/-- The pairs that are written one behind the other, and the failures of the SDK that are left. -/
def writtenPairs (table : TokenTable) (start : Nat) (render : Nat → RenderM Unit) :
    Nat → Nat → List Bool → List PairWrite × List Bool
  | _, 0, faults => ([], faults)
  | i, count + 1, faults =>
      let answer := rendered (render i) ⟨faults, table, ⟨[], []⟩⟩
      let later := writtenPairs table start render (i + 1) count answer.2.faults
      (⟨start + i, answer.2.cb, answer.1⟩ :: later.1, later.2)

section Written

variable {table : TokenTable} {start i count : Nat} {render : Nat → RenderM Unit}
  {faults : List Bool}

/-- The pairs go to the places behind each other. -/
theorem index_writtenPairs :
    (writtenPairs table start render i count faults).1.map PairWrite.index =
      List.range' (start + i) count := by
  induction count generalizing i faults with
  | zero => rfl
  | succ count ih =>
      rw [writtenPairs, List.range'_succ, List.map_cons, ih]
      rfl

/-- If every rendering succeeds, whatever the SDK answers, then every pair was rendered. -/
theorem writtenPairs_ok
    (ok : ∀ j, i ≤ j → j < i + count → ∀ mem, (rendered (render j) mem).1 = .ok) :
    ∀ write ∈ (writtenPairs table start render i count faults).1, write.status = .ok := by
  induction count generalizing i faults with
  | zero => exact fun _ here => absurd here List.not_mem_nil
  | succ count ih =>
      intro write here
      rw [writtenPairs, List.mem_cons] at here
      cases here with
      | inl first =>
          rw [first]
          exact ok i (Nat.le_refl i) (by omega) _
      | inr later => exact ih (fun j low high => ok j (by omega) (by omega)) write later

/-- The loop that writes the pairs. -/
theorem writePairs_run {app : App} :
    writePairs start render i count app =
      .ok () { app with
        supply := { app.supply with
          faults := (writtenPairs app.signTxCtx.p2pk.tokensTable start render i count
            app.supply.faults).2 }
        ui := { app.ui with
          writes := app.ui.writes ++ (writtenPairs app.signTxCtx.p2pk.tokensTable start render i
            count app.supply.faults).1 } } := by
  induction count generalizing i app with
  | zero =>
      simp only [writtenPairs, List.append_nil]
      rfl
  | succ count ih =>
      have first : (modify (App.writePair (start + i) (render i)) : AppM PUnit) app =
          .ok () (App.writePair (start + i) (render i) app) := rfl
      rw [writePairs, bind_of_ok first, ih]
      simp only [writtenPairs, App.writePair, App.renderMem, App.signTxCtx, List.append_assoc,
        List.singleton_append]

end Written

/-! ## Adding pairs -/

/-- The count of the pairs, as the build keeps it. -/
def App.pairCounter (device : Device) (app : App) : UInt8 :=
  match device.build with
  | .bagl => app.ui.signtxOutputsScreen
  | .nbgl => app.ui.nbPairs

/-- The review is not put on the screen. -/
def StaysHidden (s t : App) : Prop := t.ui.prompt = some .signTx → s.ui.prompt = some .signTx

instance : Std.Refl StaysHidden := ⟨fun _ => id⟩

instance : IsTrans App StaysHidden := ⟨fun _ _ _ first second => first ∘ second⟩

/-- The review stays as it is; it is not put on the screen, and no session for signing is opened. -/
structure SameReview (s t : App) : Prop where
  writes : t.ui.writes = s.ui.writes
  outputsScreen : t.ui.signtxOutputsScreen = s.ui.signtxOutputsScreen
  nbPairs : t.ui.nbPairs = s.ui.nbPairs
  dynamicScreenCount : t.ui.dynamicScreenCount = s.ui.dynamicScreenCount
  hidden : StaysHidden s t
  signing : t.currentCommand = .signTransaction → s.currentCommand = .signTransaction

instance : Std.Refl SameReview := ⟨fun _ => ⟨rfl, rfl, rfl, rfl, id, id⟩⟩

instance : IsTrans App SameReview :=
  ⟨fun _ _ _ first second => ⟨second.writes.trans first.writes,
    second.outputsScreen.trans first.outputsScreen, second.nbPairs.trans first.nbPairs,
    second.dynamicScreenCount.trans first.dynamicScreenCount, first.hidden ∘ second.hidden,
    first.signing ∘ second.signing⟩⟩

/-- A step that keeps the interface, and opens no session. -/
theorem SameReview.of_ui {s t : App} (ui : t.ui = s.ui)
    (signing : t.currentCommand = .signTransaction → s.currentCommand = .signTransaction) :
    SameReview s t := by
  constructor
  · rw [ui]
  · rw [ui]
  · rw [ui]
  · rw [ui]
  · exact fun shown => ui ▸ shown
  · exact signing

theorem SameReview.answered (app : App) (answer : Bool) : SameReview app { app with answer } :=
  .of_ui rfl id

/-- An error ends the session, which does not matter to the review. -/
theorem SameReview.ended {s t u : App} (same : SameReview s t) (ui : u.ui = t.ui)
    (ended : u.currentCommand = .none) : SameReview s u :=
  trans_of SameReview same (.of_ui ui fun signing => by rw [ended] at signing; cases signing)

theorem approves_sameReview {device : Device} : Approves device SameReview where
  toRefl := inferInstance
  toIsTrans := inferInstance
  clear _ := .of_ui rfl Command.noConfusion
  context _ _ := .of_ui rfl id
  supply _ _ := .of_ui rfl id
  answer _ _ := .of_ui rfl id
  setting _ _ := .of_ui rfl id
  idle _ := .of_ui rfl id
  menu _ := ⟨rfl, rfl, rfl, rfl, (fun none => by cases none), id⟩
  prompt _ _ _ other _ := ⟨rfl, rfl, rfl, rfl, fun shown => absurd (Option.some.inj shown) other, id⟩
  approve _ _ := .of_ui rfl id
  grant _ _ := .of_ui rfl id

theorem steps_sameReview {device : Device} : Steps device SameReview := approves_sameReview.toSteps

theorem SameReview.pairCounter {device : Device} {s t : App} (same : SameReview s t) :
    t.pairCounter device = s.pairCounter device := by
  unfold App.pairCounter
  cases device.build with
  | bagl => exact same.outputsScreen
  | nbgl => exact same.nbPairs

/-- The pairs that a rendering adds to the review. -/
def addedPairs (device : Device) (render : Nat → RenderM Unit) (count : Nat) (app : App) :
    List PairWrite :=
  (writtenPairs app.signTxCtx.p2pk.tokensTable (app.pairCounter device).toNat render 0 count
    app.supply.faults).1

variable {device : Device}

/-- The rendering of the output of an operation. -/
def renderOutput (device : Device) (op : OpCtx) : Nat → RenderM Unit :=
  displayOutputState device op.mem.output op.networkId

/-- The rendering of the transaction. -/
def renderTx (device : Device) (op : OpCtx) : Nat → RenderM Unit :=
  displayTxState device op.bip32 op.mem.amounts

/-- The pairs of the output of an operation. -/
def outputPairs (device : Device) (app : App) : List PairWrite :=
  addedPairs device (renderOutput device app.signTxCtx.p2pk)
    (infoScreenCount app.signTxCtx.p2pk.mem.output) app

/-- The pairs of the transaction of an operation. -/
def txPairs (device : Device) (app : App) : List PairWrite :=
  addedPairs device (renderTx device app.signTxCtx.p2pk)
    (pairsCount app.signTxCtx.p2pk.mem.amounts) app

theorem addOutputScreens_run {app : App} (room : screensLeft 6 app) :
    ∃ t, addOutputScreens device app = .ok resOk t ∧ t.currentCommand = app.currentCommand ∧
      t.ui.prompt = app.ui.prompt ∧ t.ui.writes = app.ui.writes ++ outputPairs device app ∧
      t.pairCounter device = UInt8.ofNat ((app.pairCounter device).toNat +
        infoScreenCount app.signTxCtx.p2pk.mem.output) := by
  rw [addOutputScreens, get_bind, bind_of_ok (ensure_of room)]
  unfold outputPairs addedPairs App.pairCounter
  cases device.build with
  | bagl =>
      exact ⟨_, (bind_of_ok rfl).trans ((bind_of_ok rfl).trans ((bind_of_ok writePairs_run).trans
        ((bind_of_ok rfl).trans ((bind_of_ok rfl).trans rfl)))), rfl, rfl, rfl, rfl⟩
  | nbgl =>
      have sum : app.ui.nbPairs + UInt8.ofNat (infoScreenCount app.signTxCtx.p2pk.mem.output) =
          UInt8.ofNat (app.ui.nbPairs.toNat + infoScreenCount app.signTxCtx.p2pk.mem.output) := by
        simp
      exact ⟨_, (bind_of_ok writePairs_run).trans ((bind_of_ok rfl).trans
        ((bind_of_ok rfl).trans rfl)), rfl, rfl, rfl, sum⟩

/-- The pairs stay as they are. -/
def SameWrites (s t : App) : Prop := t.ui.writes = s.ui.writes

instance : Std.Refl SameWrites := ⟨fun _ => rfl⟩

instance : IsTrans App SameWrites := ⟨fun _ _ _ first second => Eq.trans second first⟩

theorem modifyUi_run {f : Ui → Ui} {app : App} :
    modifyUi f app = .ok () { app with ui := f app.ui } := rfl

theorem modifyApp_run {f : App → App} {app : App} : (modify f : AppM PUnit) app = .ok () (f app) := rfl

/-- The transaction is confirmed: its pairs are added, and it is shown. -/
theorem addTransactionScreens_writes {app : App} (room : screensLeft 6 app)
    (allowed : device.build = .nbgl → app.signTxCtx.p2pk.blindSigningRequired = true →
      app.blindSigningEnabled = true) :
    (final (addTransactionScreens device app)).ui.writes = app.ui.writes ++ txPairs device app := by
  rw [addTransactionScreens, get_bind, bind_of_ok (ensure_of room)]
  unfold txPairs addedPairs App.pairCounter
  cases build : device.build with
  | bagl =>
      simp only
      rw [bind_of_ok modifyApp_run, bind_of_ok writePairs_run]
      have display : Moves SameWrites (displayScreens .signTx) :=
        .bind .get fun _ => .bind .ensure fun _ => .bind (.modify fun _ => rfl) fun _ => .pure
      apply Moves.bind (R := SameWrites) .ensure
      intro _
      exact .bind (.modify fun _ => rfl) fun _ => display
  | nbgl =>
      rw [build] at allowed
      have shown : ¬ (app.signTxCtx.p2pk.blindSigningRequired = true ∧
          ¬ app.blindSigningEnabled = true) := fun blocked => blocked.2 (allowed rfl blocked.1)
      simp only [if_neg shown]
      rw [bind_of_ok modifyApp_run, bind_of_ok writePairs_run, bind_of_ok modifyUi_run]
      exact (moves_executeAction approves_sameReview _).writes

/-! ## Showing an output -/

/-- The screens in use before those of the output are added. -/
def screensBefore (device : Device) (app : App) : Nat :=
  app.ui.signtxScreen.toNat +
    if isBlindSigningTx app.signTxCtx.p2pk.mem.output = true ∧ device.build = .bagl then 1 else 0

/-- The pairs of the output are added, unless the user is warned instead. -/
structure OutputShown (device : Device) (app : App) : Prop where
  shown : shouldShowOutputConfirmScreen app.signTxCtx.p2pk = true
  clear : isBlindSigningTx app.signTxCtx.p2pk.mem.output = true → device.build = .bagl →
    app.blindSigningEnabled = true
  room : screensBefore device app + 6 ≤ maxNumberOfScreens

theorem state_of_shown {op : OpCtx} (shown : shouldShowOutputConfirmScreen op = true) :
    op.state = .outputsStarted ∨ op.state = .txFinished := by
  unfold shouldShowOutputConfirmScreen at shown
  by_contra other
  rw [if_pos (not_or.mp other)] at shown
  cases shown

/-- What happens before the pairs of an output are added. -/
def App.beforeOutput (device : Device) (app : App) : App :=
  if isBlindSigningTx app.signTxCtx.p2pk.mem.output then
    let app := App.modifyOp (fun op => { op with blindSigningRequired := true }) app
    match device.build with
    | .nbgl => app
    | .bagl => final ((addScreen : AppM Unit) app)
  else app

theorem sameReview_addScreen : Moves SameReview addScreen := by
  intro app
  simp only [addScreen, modifyUi_run, final]
  split <;> exact ⟨rfl, rfl, rfl, rfl, id, id⟩

theorem showOutput_eq {app : App} (shown : shouldShowOutputConfirmScreen app.signTxCtx.p2pk = true)
    (clear : isBlindSigningTx app.signTxCtx.p2pk.mem.output = true → device.build = .bagl →
      app.blindSigningEnabled = true) :
    showOutputScreenIfNeeded device app = addOutputScreens device (app.beforeOutput device) := by
  rw [showOutputScreenIfNeeded, get_bind, if_pos shown, showOutputConfirmScreen, get_bind,
    bind_of_ok (ensure_of (state_of_shown shown)), App.beforeOutput]
  by_cases blind : isBlindSigningTx app.signTxCtx.p2pk.mem.output = true
  · rw [if_pos blind, if_pos blind, bind_of_ok modifyApp_run]
    cases build : device.build with
    | nbgl => rfl
    | bagl =>
        simp only [clear blind build, if_true]
        rfl
  · rw [if_neg blind, if_neg blind]

/-- Before the pairs are added, only a mark is set and a screen is used. -/
structure Prepared (s t : App) : Prop where
  review : SameReview s t
  supply : t.supply = s.supply
  command : t.currentCommand = s.currentCommand
  operation : ∃ blindSigningRequired,
    t.signTxCtx.p2pk = { s.signTxCtx.p2pk with blindSigningRequired }

theorem prepared_beforeOutput {app : App} : Prepared app (app.beforeOutput device) := by
  unfold App.beforeOutput
  split
  swap
  · exact ⟨refl_of _ app, rfl, rfl, _, rfl⟩
  cases device.build with
  | nbgl => exact ⟨.of_ui rfl id, rfl, rfl, _, rfl⟩
  | bagl =>
      have marked : SameReview app (App.modifyOp (fun op => { op with blindSigningRequired := true }) app) :=
        .of_ui rfl id
      exact ⟨trans_of SameReview marked (sameReview_addScreen _), rfl, rfl, _, rfl⟩

theorem Prepared.outputPairs {s t : App} (prepared : Prepared s t) :
    outputPairs device t = outputPairs device s := by
  obtain ⟨required, operation⟩ := prepared.operation
  simp only [LedgerErgo.outputPairs, addedPairs, renderOutput, operation, prepared.supply,
    prepared.review.pairCounter]

/-- The screens that are left do not depend on when the mark and the screen are set. -/
theorem screensLeft_before {app : App} :
    screensLeft 6 (app.beforeOutput device) = true ↔
      screensBefore device app + 6 ≤ maxNumberOfScreens := by
  have limit : maxNumberOfScreens = 16 := rfl
  rw [screensLeft, decide_eq_true_iff]
  unfold App.beforeOutput screensBefore
  by_cases blind : isBlindSigningTx app.signTxCtx.p2pk.mem.output = true
  · rw [if_pos blind]
    cases device.build with
    | nbgl =>
        simp only [reduceCtorEq, and_false, if_false]
        rfl
    | bagl =>
        simp only [blind, and_self, if_true, addScreen, modifyUi_run, final]
        change (if app.ui.signtxScreen.toNat < maxNumberOfScreens then
          { app.ui with signtxScreen := app.ui.signtxScreen + 1 } else app.ui).signtxScreen.toNat +
            6 ≤ maxNumberOfScreens ↔ _
        split
        · have sum : (app.ui.signtxScreen + 1).toNat = app.ui.signtxScreen.toNat + 1 := by
            rw [UInt8.toNat_add]
            simp only [UInt8.toNat_one]
            omega
          rw [sum]
        · omega
  · rw [if_neg blind]
    simp [blind]

/-- A shown output adds its pairs to the review. -/
theorem OutputShown.run {app : App} (shown : OutputShown device app) :
    ∃ t, showOutputScreenIfNeeded device app = .ok resOk t ∧ t.currentCommand = app.currentCommand ∧
      StaysHidden app t ∧
      t.ui.writes = app.ui.writes ++ LedgerErgo.outputPairs device app ∧
      t.pairCounter device = UInt8.ofNat ((app.pairCounter device).toNat +
        infoScreenCount app.signTxCtx.p2pk.mem.output) := by
  have prepared : Prepared app (app.beforeOutput device) := prepared_beforeOutput
  obtain ⟨required, operation⟩ := prepared.operation
  obtain ⟨t, ran, command, prompt, writes, counter⟩ :=
    addOutputScreens_run (screensLeft_before.mpr shown.room)
  rw [prepared.outputPairs, prepared.review.writes] at writes
  rw [prepared.review.pairCounter, operation] at counter
  exact ⟨t, (showOutput_eq shown.shown shown.clear ▸ ran), command.trans prepared.command,
    fun asks => prepared.review.hidden (prompt.symm.trans asks), writes, counter⟩

/-- An output that is not shown leaves the review alone. -/
theorem sameReview_of_hidden {app : App} (hidden : ¬ OutputShown device app) :
    SameReview app (final (showOutputScreenIfNeeded device app)) := by
  by_cases shown : shouldShowOutputConfirmScreen app.signTxCtx.p2pk = true
  swap
  · rw [showOutputScreenIfNeeded, get_bind, if_neg shown]
    exact refl_of _ app
  by_cases clear : isBlindSigningTx app.signTxCtx.p2pk.mem.output = true → device.build = .bagl →
      app.blindSigningEnabled = true
  · have full : ¬ screensLeft 6 (app.beforeOutput device) = true := fun room =>
      hidden ⟨shown, clear, screensLeft_before.mp room⟩
    rw [showOutput_eq shown clear, addOutputScreens, get_bind, bind_of_error (ensure_of_not full)]
    exact prepared_beforeOutput.review
  · push Not at clear
    obtain ⟨blind, build, disabled⟩ := clear
    rw [showOutputScreenIfNeeded, get_bind, if_pos shown, showOutputConfirmScreen, get_bind,
      bind_of_ok (ensure_of (state_of_shown shown)), if_pos blind, bind_of_ok modifyApp_run]
    have warning : Moves SameReview (displayScreens .blindWarning) :=
      .bind .get fun _ => .bind .ensure fun _ =>
        .bind (.modify fun _ => ⟨rfl, rfl, rfl, rfl, (fun shown => by cases shown), id⟩) fun _ => .pure
    have screens : Moves SameReview (do
        addScreen
        addScreen
        addScreen
        addScreen
        displayScreens .blindWarning) :=
      .bind sameReview_addScreen fun _ => .bind sameReview_addScreen fun _ =>
        .bind sameReview_addScreen fun _ => .bind sameReview_addScreen fun _ => warning
    simp only [build, disabled]
    have marked : SameReview app (App.modifyOp (fun op => { op with blindSigningRequired := true }) app) :=
      .of_ui rfl id
    exact trans_of SameReview marked (screens _)

/-! ## Opening a session -/

/-- The pairs at the start of a session: the application that asks for it. -/
def openingPairs (device : Device) (token : UInt32) (isKnown : Bool) : List PairWrite :=
  match device.build with
  | .bagl => []
  | .nbgl =>
      if ¬ isKnown ∧ token ≠ 0 then [⟨0, ⟨"Application".toList, applicationIdText token⟩, .ok⟩]
      else []

theorem addApplicationId_run (device : Device) (app : App) (token : UInt32) (isKnown : Bool) :
    ∃ t, addApplicationId device token isKnown app = .ok () t ∧
      t.ui.writes = app.ui.writes ++ openingPairs device token isKnown ∧
      t.pairCounter device = match device.build with
        | .bagl => app.ui.signtxOutputsScreen
        | .nbgl => UInt8.ofNat (openingPairs device token isKnown).length := by
  unfold addApplicationId openingPairs App.pairCounter
  cases device.build with
  | bagl =>
      by_cases asks : ¬ isKnown = true ∧ token ≠ 0
      · have added := sameReview_addScreen app
        exact ⟨final (addScreen app), by rw [if_pos asks]; rfl,
          added.writes.trans (List.append_nil _).symm, added.outputsScreen⟩
      · exact ⟨app, by rw [if_neg asks]; rfl, (List.append_nil _).symm, rfl⟩
  | nbgl =>
      by_cases asks : ¬ isKnown = true ∧ token ≠ 0
      · simp only [if_pos asks]
        exact ⟨_, modifyUi_run, rfl, rfl⟩
      · simp only [if_neg asks]
        exact ⟨_, modifyUi_run, (List.append_nil _).symm, rfl⟩

/-- The first screens of a session reset the review. -/
theorem showTokenAndPath_run (device : Device) (app : App) (token : UInt32) (isKnown : Bool) :
    (∃ t, showTokenAndPath device token isKnown app = .error .bip32FormattingFailed t ∧
      t.ui.writes = []) ∨
    ∃ reply t, showTokenAndPath device token isKnown app = .ok reply t ∧
      t.ui.writes = openingPairs device token isKnown ∧
      t.pairCounter device = UInt8.ofNat (openingPairs device token isKnown).length := by
  rw [showTokenAndPath, bind_of_ok modifyUi_run, get_bind]
  by_cases formatted : bip32PathFormat app.signTxCtx.p2pk.bip32 maxBip32StringLen ≠ none
  swap
  · exact .inl ⟨_, bind_of_error (ensure_of_not formatted), rfl⟩
  right
  rw [bind_of_ok (ensure_of (by exact formatted))]
  have approve (s : App) (room : screensLeft 3 s = true) (empty : s.ui.writes = [])
      (zero : s.ui.signtxOutputsScreen = 0) :
      ∃ reply t, addOperationApproveScreens device token isKnown s = .ok reply t ∧
        t.ui.writes = openingPairs device token isKnown ∧
        t.pairCounter device = UInt8.ofNat (openingPairs device token isKnown).length := by
    obtain ⟨m, added, writes, counter⟩ := addApplicationId_run device s token isKnown
    refine ⟨_, _, get_bind.trans ((bind_of_ok (ensure_of room)).trans ((bind_of_ok added).trans
      ((bind_of_ok modifyApp_run).trans rfl))), ?_, ?_⟩
    · exact writes.trans (by rw [empty, List.nil_append])
    · refine Eq.trans counter ?_
      unfold openingPairs
      cases device.build with
      | bagl => exact zero
      | nbgl => rfl
  cases device.build with
  | bagl =>
      obtain ⟨reply, t, ran, reset⟩ := approve (final ((addScreen : AppM Unit) { app with
        ui := { app.ui with signtxScreen := 0, signtxOutputsScreen := 0, writes := [] } })) rfl rfl rfl
      exact ⟨reply, t, (bind_of_ok rfl).trans ran, reset⟩
  | nbgl => exact approve _ rfl rfl rfl

/-- The review of a session that was just opened, or of one that failed to open. -/
structure Reset (device : Device) (app : App) : Prop where
  rendered : ∀ write ∈ app.ui.writes, write.index = 0 ∧ write.status = .ok
  few : app.ui.writes.length ≤ 1
  counter : app.currentCommand ≠ .none →
    app.pairCounter device = UInt8.ofNat app.ui.writes.length

theorem steps_staysHidden : Steps device StaysHidden where
  toRefl := inferInstance
  toIsTrans := inferInstance
  clear _ := id
  context _ _ := id
  supply _ _ := id
  idle _ := id
  menu _ none := by cases none
  prompt _ _ _ other _ shown := absurd (Option.some.inj shown) other

theorem screens_staysHidden : ScreenSteps StaysHidden where
  toRefl := inferInstance
  toIsTrans := inferInstance
  supply _ _ := id
  idle _ := id
  ui _ _ same shown := same ▸ shown
  change _ _ := id

/-- Opening a session does not put the review on the screen. -/
theorem staysHidden_signPk {cdata : Buffer} {hasToken : Bool} :
    Moves StaysHidden (handleSignPk device cdata hasToken) :=
  moves_signPk steps_staysHidden (fun _ => id) fun _ _ =>
    moves_showTokenAndPath screens_staysHidden (fun _ _ => id) (fun _ => id) fun _ _ => id

theorem rendered_openingPairs {token : UInt32} {isKnown : Bool} :
    (∀ write ∈ openingPairs device token isKnown, write.index = 0 ∧ write.status = .ok) ∧
      (openingPairs device token isKnown).length ≤ 1 := by
  unfold openingPairs
  cases device.build with
  | bagl => simp
  | nbgl =>
      dsimp only
      split <;> simp

variable [UnionLayout OpMem]

omit [UnionLayout OpMem] in
/-- Opening a session resets the review, or fails before it comes to that. -/
theorem handleSignPk_review {app : App} {cdata : Buffer} {hasToken : Bool} :
    SameReview app (final (handleSignPk device cdata hasToken app)) ∨
      Reset device (final (handleSignPk device cdata hasToken app)) := by
  rw [handleSignPk, bind_of_ok modifyApp_run, get_bind]
  have comes : ComesTo SameReview _
      (handleInitP2pk device cdata hasToken
        (app.setCurrentCommand .signTransaction).connectedAppId) :=
    handleInitP2pk_comesTo steps_sameReview
  cases comes (app.setCurrentCommand .signTransaction) with
  | inl failed =>
      obtain ⟨err, t, failed, same⟩ := failed
      rw [final_orSendError failed]
      exact .inl ⟨same.writes, same.outputsScreen, same.nbPairs, same.dynamicScreenCount, same.hidden,
        fun none => by cases none⟩
  | inr came =>
      obtain ⟨_, m, ⟨token, isKnown, rfl⟩, came, -⟩ := came
      have opening : (∀ write ∈ openingPairs device token isKnown, write.index = 0 ∧
          write.status = .ok) ∧ (openingPairs device token isKnown).length ≤ 1 := rendered_openingPairs
      right
      rcases showTokenAndPath_run device m token isKnown with
        ⟨t, ran, writes⟩ | ⟨reply, t, ran, writes, counter⟩
      · rw [final_orSendError (came.trans ran)]
        have empty : ((markError t).setCurrentCommand .none).ui.writes = [] := writes
        exact ⟨by simp [empty], by simp [empty], fun open_ => absurd rfl open_⟩
      · rw [orSendError_run_ok (came.trans ran)]
        exact ⟨by simpa only [final, writes] using opening.1,
          by simpa only [final, writes] using opening.2, fun _ => by simpa only [final, writes] using counter⟩

/-! ## Events -/

/-- The event completes an output of which the pairs are added, in the state `k` of the
    operation. -/
inductive ShowsOutput (device : Device) (app : App) : Event → App → Prop where
  | intro {cmd : Apdu} {answer : Bool} {subcommand : Subcommand} {part : AppM Unit} {k : App}
      (continues : Continues app cmd subcommand)
      (output : subcommand.outputPart device cmd.data = some part)
      (ran : part { app with answer } = .ok () k) (shown : OutputShown device k) :
      ShowsOutput device app (.apdu cmd answer) k

/-- The event confirms the transaction, and its pairs are added. -/
inductive ShowsSummary (device : Device) (app : App) : Event → Prop where
  | intro {cmd : Apdu} {answer : Bool} (continues : Continues app cmd .confirm)
      (approved : app.signTxCtx.state = .approved)
      (finished : app.signTxCtx.p2pk.state = .txFinished)
      (room : screensLeft 6 app = true)
      (allowed : device.build = .nbgl → app.signTxCtx.p2pk.blindSigningRequired = true →
        app.blindSigningEnabled = true) :
      ShowsSummary device app (.apdu cmd answer)

section Events

variable [AttestInput.SharedLayout] {app k : App} {event : Event}

omit [UnionLayout OpMem] [AttestInput.SharedLayout] in
/-- An error erases the context, which leaves the review alone. -/
theorem sameReview_orSendError {call : AppM Reply} {s t : App} (same : SameReview t (final (call s))) :
    SameReview t (final (orSendError markError call s)) := by
  cases ran : call s with
  | ok reply u =>
      rw [ran] at same
      rw [orSendError_run_ok ran]
      exact same
  | error err u =>
      rw [ran] at same
      rw [final_orSendError ran]
      exact same.ended rfl rfl

omit [UnionLayout OpMem] [AttestInput.SharedLayout] in
theorem writes_orSendError {call : AppM Reply} {s : App} :
    (final (orSendError markError call s)).ui.writes = (final (call s)).ui.writes :=
  (sameReview_orSendError (refl_of _ _)).writes

theorem next_of_ok {reply : Reply} {t : App} (ran : handle device event app = .ok reply t) :
    next device app event = t := by
  rw [next, ran]
  rfl

omit [AttestInput.SharedLayout] in
/-- A subcommand about an output leaves the command and the review alone before it shows. -/
theorem part_frame {cmd : Apdu} {answer : Bool} {subcommand : Subcommand} {part : AppM Unit}
    (output : subcommand.outputPart device cmd.data = some part)
    (ran : part { app with answer } = .ok () k) :
    SameReview app k ∧ k.currentCommand = app.currentCommand := by
  have same : SameReview { app with answer } k :=
    (moves_outputPart steps_sameReview output).ok ran
  obtain ⟨-, call, faults, op, -, rfl⟩ := outputPart_ok output ran
  exact ⟨trans_of SameReview (.answered app answer) same, rfl⟩

/-- The pairs of an output are added, and the session goes on. -/
theorem ShowsOutput.next (shows : ShowsOutput device app event k) :
    handle device event app = .ok resOk (next device app event) ∧
      (next device app event).currentCommand = .signTransaction ∧
      StaysHidden app (next device app event) ∧
      (next device app event).ui.writes = app.ui.writes ++ outputPairs device k ∧
      (next device app event).pairCounter device = UInt8.ofNat ((app.pairCounter device).toNat +
        infoScreenCount k.signTxCtx.p2pk.mem.output) := by
  obtain ⟨continues, output, ran, shown⟩ := shows
  obtain ⟨same, command⟩ := part_frame output ran
  obtain ⟨t, answered, current, hidden, writes, counter⟩ := shown.run
  rw [same.writes] at writes
  rw [same.pairCounter] at counter
  rename_i cmd answer subcommand part
  have handled : handle device (.apdu cmd answer) app = .ok resOk t := by
    rw [continues.ran, Subcommand.handle_outputPart output]
    exact orSendError_run_ok ((bind_of_ok ran).trans answered)
  rw [next_of_ok handled]
  exact ⟨handled, current.trans (command.trans continues.command), same.hidden ∘ hidden, writes,
    counter⟩

/-- The pairs of the transaction are added. -/
theorem ShowsSummary.writes (shows : ShowsSummary device app event) :
    (next device app event).ui.writes = app.ui.writes ++ txPairs device app := by
  obtain ⟨continues, approved, finished, room, allowed⟩ := shows
  rename_i cmd answer
  have confirmed : Subcommand.confirm.handle device app.sessionKey cmd.data { app with answer } =
      addTransactionScreens device (App.modifyOp (fun op => { op with state := .finalized })
        { app with answer }) := by
    change handleSignConfirm device { app with answer } = _
    have checked : checkApproved { app with answer } = .ok () { app with answer } :=
      checkApproved_ok.mpr ⟨approved, rfl⟩
    rw [handleSignConfirm, bind_of_ok checked, showConfirmScreen, get_bind,
      bind_of_ok (ensure_of (by exact finished)), bind_of_ok modifyApp_run]
  unfold next
  rw [continues.ran, writes_orSendError, confirmed]
  exact addTransactionScreens_writes room allowed

omit [UnionLayout OpMem] [AttestInput.SharedLayout] in
/-- A confirmation that adds no pairs leaves the review alone. -/
theorem sameReview_of_unconfirmed (hidden : ¬ (app.signTxCtx.state = .approved ∧
    app.signTxCtx.p2pk.state = .txFinished ∧ screensLeft 6 app = true ∧
      (device.build = .nbgl → app.signTxCtx.p2pk.blindSigningRequired = true →
        app.blindSigningEnabled = true))) :
    SameReview app (final (handleSignConfirm device app)) := by
  by_cases approved : app.signTxCtx.state = .approved
  swap
  · have failed : checkApproved app = .error .badState app := by
      rw [checkApproved, get_bind, ensure_of_not approved]
    rw [handleSignConfirm, bind_of_error failed]
    exact refl_of _ app
  rw [handleSignConfirm, bind_of_ok (checkApproved_ok.mpr ⟨approved, rfl⟩), showConfirmScreen,
    get_bind]
  by_cases finished : app.signTxCtx.p2pk.state = .txFinished
  swap
  · rw [bind_of_error (ensure_of_not finished)]
    exact refl_of _ app
  rw [bind_of_ok (ensure_of finished), bind_of_ok modifyApp_run, addTransactionScreens, get_bind]
  by_cases room : screensLeft 6 app = true
  swap
  · rw [bind_of_error (ensure_of_not (by exact room))]
    exact .of_ui rfl id
  rw [bind_of_ok (ensure_of (by exact room))]
  have blocked : ¬ (device.build = .nbgl → app.signTxCtx.p2pk.blindSigningRequired = true →
      app.blindSigningEnabled = true) := fun allowed => hidden ⟨approved, finished, room, allowed⟩
  push Not at blocked
  obtain ⟨build, required, disabled⟩ := blocked
  simp only [build]
  rw [if_pos (by exact ⟨required, disabled⟩)]
  exact ⟨rfl, rfl, rfl, rfl, (fun none => by cases none), fun none => by cases none⟩

/-- What an event does to the review. -/
theorem review_cases (device : Device) (app : App) (event : Event) :
    SameReview app (next device app event) ∨
      (Reset device (next device app event) ∧ StaysHidden app (next device app event)) ∨
      (∃ k, ShowsOutput device app event k) ∨ ShowsSummary device app event := by
  cases event with
  | press approved => exact .inl (moves_press approves_sameReview app)
  | toggleBlindSigning => exact .inl (moves_toggle (@approves_sameReview device) app)
  | apdu cmd answer =>
      by_cases ins : cmd.ForSigning
      swap
      · have opens (s : App) (command : Command) (other : command ≠ .signTransaction) :
            SameReview s (s.setCurrentCommand command) :=
          .of_ui rfl fun signing => absurd signing other
        exact .inl (moves_other approves_sameReview opens (fun _ _ => .of_ui rfl id) ins app)
      unfold next
      cases signing_cases device ins app answer with
      | refused err ran =>
          rw [ran]
          exact .inl (.answered app answer)
      | stopped err ran =>
          rw [ran]
          exact .inl (.of_ui rfl fun none => by cases none)
      | opens p1 idle ran =>
          rw [ran]
          cases handleSignPk_review with
          | inl same => exact .inl (trans_of SameReview (.answered app answer) same)
          | inr reset =>
              exact .inr (.inl ⟨reset, staysHidden_signPk { app with answer }⟩)
      | goesOn subcommand continues =>
          rw [continues.ran]
          cases output : subcommand.outputPart device cmd.data with
          | some part =>
              cases ran : part { app with answer } with
              | error err k =>
                  have same := (moves_outputPart steps_sameReview output).error ran
                  rw [Subcommand.handle_outputPart output]
                  refine .inl (sameReview_orSendError ?_)
                  rw [bind_of_error ran]
                  exact trans_of SameReview (.answered app answer) same
              | ok u k =>
                  by_cases shown : OutputShown device k
                  · exact .inr (.inr (.inl ⟨k, continues, output, ran, shown⟩))
                  · rw [Subcommand.handle_outputPart output]
                    refine .inl (sameReview_orSendError ?_)
                    rw [bind_of_ok ran]
                    exact trans_of _ (part_frame output ran).1 (sameReview_of_hidden shown)
          | none =>
              by_cases confirm : subcommand = .confirm
              swap
              · have moved : Moves SameReview
                    (subcommand.handle device app.sessionKey cmd.data) :=
                  moves_plain steps_sameReview output confirm
                have same := moved { app with answer }
                exact .inl (sameReview_orSendError (trans_of SameReview (.answered app answer) same))
              subst confirm
              by_cases hidden : app.signTxCtx.state = .approved ∧
                  app.signTxCtx.p2pk.state = .txFinished ∧ screensLeft 6 app = true ∧
                  (device.build = .nbgl → app.signTxCtx.p2pk.blindSigningRequired = true →
                    app.blindSigningEnabled = true)
              · obtain ⟨approved, finished, room, allowed⟩ := hidden
                exact .inr (.inr (.inr ⟨continues, approved, finished, room, allowed⟩))
              · have same : SameReview { app with answer } _ := sameReview_of_unconfirmed hidden
                exact .inl (sameReview_orSendError (trans_of SameReview (.answered app answer) same))

end Events

end LedgerErgo
