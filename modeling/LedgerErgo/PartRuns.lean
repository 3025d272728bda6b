import LedgerErgo.AttestRuns
import LedgerErgo.Commands.AttestInput.Completeness

/-! # The parts of a box in a run

Whatever happens in between, an open session takes the parts that go on with the box it was sent so
far, and no others, as long as no SDK call fails. It answers with the number of the frames when the
box is complete.
-/

namespace LedgerErgo

open LedgerErgo.Common LedgerErgo.Ergo LedgerErgo.Prog LedgerErgo.Runs AttestInput

section Runs

variable [UnionLayout SignTx.OpMem] [SharedLayout] {device : Device} {s : Attesting}

/-- A part comes for the open session. -/
structure AttestInput.Sends (app : App) (event : Event) (kind : Subcommand) (data : Buffer) :
    Prop where
  command : ∃ cmd answer, event = .apdu cmd answer ∧ AttestInput.Continues app cmd kind ∧ cmd.data = data
  part : kind ≠ .getResponseFrame

/-- What the session makes of a part. -/
structure Judges (device : Device) (s : Attesting) (event : Event) : Prop where
  /-- While no SDK call fails, the parts that go on with the box are accepted, and no others. -/
  accepts : ∀ kind data, AttestInput.Sends s.app event kind data → App.Reliable s.app →
    (succeeds (handle device event s.app) = true ↔ s.delivery.Takes kind data)
  /-- A part that is accepted goes on with the box, and completes it if frames are announced. -/
  answers : ∀ kind data reply t, AttestInput.Sends s.app event kind data →
    handle device event s.app = .ok reply t →
    s.delivery.Takes kind data ∧ (s.delivery.add kind data).Counts reply

omit [UnionLayout SignTx.OpMem] [SharedLayout] in
theorem AttestInput.Sends.call {app : App} {event : Event} {kind : Subcommand} {data : Buffer}
    (sends : AttestInput.Sends app event kind data) : ∃ call, kind.streamCall data = some call := by
  cases kind with
  | treeChunk | tokens | registers => exact ⟨_, rfl⟩
  | getResponseFrame => exact (sends.part rfl).elim

/-- What a part does to the open session. -/
theorem AttestInput.Sends.ran (device : Device) {app : App} {event : Event} {kind : Subcommand}
    {data : Buffer} {call : EStateM BoxErr (SerState (BoxCtx Shared) Shared) Ergo.Progress}
    (sends : AttestInput.Sends app event kind data) (part : kind.streamCall data = some call) :
    ∃ answer, handle device event app =
      orSendError markError (checkCallBoxFinished device call) { app with answer } := by
  obtain ⟨⟨cmd, answer, rfl, continues, rfl⟩, -⟩ := sends
  exact ⟨answer, by rw [continues.ran, Subcommand.handle_stream part]⟩

omit [UnionLayout SignTx.OpMem] in
/-- The box of a session that is not busy is open to its parts, or it is complete. -/
theorem AttestInv.awaits {event : Event} {kind : Subcommand} {data : Buffer} (inv : AttestInv device s)
    (sends : AttestInput.Sends s.app event kind data) (answer : Bool) :
    Sending s.delivery { s.app with answer } ∧ s.app.attestInputCtx.state = .approved ∨
      Delivered device.sdk s.delivery { s.app with answer } := by
  obtain ⟨⟨cmd, _, -, continues, -⟩, -⟩ := sends
  have unasked : s.app.ui.prompt = none := inv.coherent.unasked continues.idle
  have session : InSession device.sdk s.delivery { s.app with answer } :=
    (inv.session continues.command).congr rfl rfl
  cases session with
  | delivered delivered => exact .inr delivered
  | sending sending =>
      rcases sending.state with approved | ⟨-, asked⟩
      · exact .inl ⟨sending, approved⟩
      · exact (asked unasked).elim

omit [UnionLayout SignTx.OpMem] [SharedLayout] in
theorem AttestInput.Sends.asks {app : App} {event : Event} {kind : Subcommand} {data : Buffer}
    (sends : AttestInput.Sends app event kind data) : event.attests = some (.part kind data) := by
  obtain ⟨⟨cmd, answer, rfl, continues, rfl⟩, part⟩ := sends
  have asks : cmd.attests = some (kind.asks cmd.data) := continues.asks
  cases kind with
  | treeChunk | tokens | registers => exact asks
  | getResponseFrame => exact (part rfl).elim

theorem answers_of_inv {event : Event} {kind : Subcommand} {data : Buffer} {reply : Reply} {t : App}
    (inv : AttestInv device s) (sends : AttestInput.Sends s.app event kind data)
    (ok : handle device event s.app = .ok reply t) :
    s.delivery.Takes kind data ∧ (s.delivery.add kind data).Counts reply := by
  refine ⟨?_, counted_of_inv inv sends.asks ok⟩
  obtain ⟨call, part⟩ := sends.call
  obtain ⟨answer, ran⟩ := sends.ran device part
  rw [ran] at ok
  have called := orSendError_ok.mp ok
  rcases inv.awaits sends answer with ⟨sending, -⟩ | delivered
  · exact sending.takes_of_ok part called
  · exact (delivered.refuses called).elim

theorem accepts_of_inv {event : Event} {kind : Subcommand} {data : Buffer} (inv : AttestInv device s)
    (sends : AttestInput.Sends s.app event kind data) (reliable : App.Reliable s.app) :
    succeeds (handle device event s.app) = true ↔ s.delivery.Takes kind data := by
  constructor
  · intro succeeded
    cases ran : handle device event s.app with
    | ok reply t => exact (answers_of_inv inv sends ran).1
    | error err t =>
        rw [ran] at succeeded
        cases succeeded
  · intro takes
    obtain ⟨call, part⟩ := sends.call
    obtain ⟨answer, ran⟩ := sends.ran device part
    rcases inv.awaits sends answer with ⟨sending, approved⟩ | delivered
    swap
    · exact (delivered.done.takes_nothing takes).elim
    obtain ⟨reply, next, called, -⟩ := sending.ok_of_takes approved reliable part takes
    rw [ran, orSendError_run_ok called]
    rfl

/-- In every run, an open session takes exactly the parts that go on with the box it was sent. -/
theorem attestation_takes_parts (device : Device) (key : Bytes sessionKeyLen) (blindSigning : Bool)
    (supply : Supply) (events : List Event) :
    EachStep (Attesting.next device) (Judges device) (Attesting.start key blindSigning supply)
      events := by
  have start : AttestInv device (Attesting.start key blindSigning supply) := .start
  have keep (s : Attesting) (event : Event) (inv : AttestInv device s) :
      AttestInv device (s.next device event) := inv.step event
  have holds (s : Attesting) (event : Event) (inv : AttestInv device s) : Judges device s event := by
    constructor
    · exact fun _ _ => accepts_of_inv inv
    · exact fun _ _ _ _ => answers_of_inv inv
  exact eachStep_of_invariant keep holds start events

/-! ## Boxes that are sent whole -/

/-- The byte of a subcommand. -/
def AttestInput.Subcommand.toByte : Subcommand → UInt8
  | .treeChunk => 0x02
  | .tokens => 0x03
  | .registers => 0x04
  | .getResponseFrame => 0x05

omit [UnionLayout SignTx.OpMem] [SharedLayout] in
theorem AttestInput.ofByte_toByte (kind : Subcommand) : Subcommand.ofByte kind.toByte = some kind := by
  cases kind <;> rfl

/-- The command that sends a part to a session. -/
def AttestInput.partEvent (session : UInt8) (answer : Bool) (part : Part) : Event :=
  .apdu ⟨LedgerErgo.cla, 0x20, part.1.toByte, session, part.2⟩ answer

/-- A session is open and not busy, and no SDK call will fail. -/
structure Attesting.Waits (s : Attesting) : Prop where
  command : s.app.currentCommand = .attestInputBox
  idle : s.app.isUiBusy = false
  reliable : App.Reliable s.app

variable {kind : Subcommand} {data : Buffer} {parts : List Part} {params : InitParams}

omit [UnionLayout SignTx.OpMem] in
theorem sends_partEvent (inv : AttestInv device s) (waits : s.Waits)
    (takes : s.delivery.Takes kind data) (answer : Bool) :
    AttestInput.Sends s.app (partEvent s.app.attestInputCtx.session answer (kind, data)) kind data := by
  have named : s.app.attestInputCtx.session ≠ 0 := by
    cases inv.session waits.command with
    | sending sending => exact sending.session
    | delivered delivered => exact (delivered.done.takes_nothing takes).elim
  have continues : AttestInput.Continues s.app
      ⟨LedgerErgo.cla, 0x20, kind.toByte, s.app.attestInputCtx.session, data⟩ kind :=
    ⟨rfl, rfl, named, waits.idle, ofByte_toByte kind, waits.command, rfl⟩
  refine ⟨⟨_, answer, rfl, continues, rfl⟩, ?_⟩
  cases takes <;> exact Subcommand.noConfusion

/-- A part that goes on with the box is accepted, and the session waits for the next one. -/
theorem next_partEvent (inv : AttestInv device s) (waits : s.Waits)
    (takes : s.delivery.Takes kind data) (answer : Bool) {event : Event}
    (sent : event = partEvent s.app.attestInputCtx.session answer (kind, data)) :
    succeeds (handle device event s.app) = true ∧ (s.next device event).Waits ∧
      (s.next device event).delivery = s.delivery.add kind data ∧
      (s.next device event).app.attestInputCtx.session = s.app.attestInputCtx.session := by
  subst sent
  have sends := sends_partEvent inv waits takes answer
  have asks : Event.attests (partEvent s.app.attestInputCtx.session answer (kind, data)) =
      some (.part kind data) := by
    cases takes <;> rfl
  obtain ⟨call, part⟩ := sends.call
  obtain ⟨answer', ran⟩ := sends.ran device part
  rcases inv.awaits sends answer' with ⟨sending, approved⟩ | delivered
  swap
  · exact (delivered.done.takes_nothing takes).elim
  obtain ⟨reply, t, called, reliable, kept⟩ :=
    sending.ok_of_takes approved waits.reliable part takes
  have done := ran.trans (orSendError_run_ok called)
  have succeeded : succeeds (handle device (partEvent s.app.attestInputCtx.session answer (kind, data))
      s.app) = true := by
    rw [done]
    rfl
  have after : s.next device (partEvent s.app.attestInputCtx.session answer (kind, data)) =
      ⟨t, s.delivery.add kind data, s.shown⟩ := by
    unfold Attesting.next accepted LedgerErgo.next
    rw [if_pos succeeded, asks, done]
    rfl
  rw [after]
  exact ⟨succeeded, ⟨kept.command.trans waits.command, kept.busy.trans waits.idle, reliable⟩, rfl,
    kept.session⟩

/-- Parts that go on with the box, one after the other, are all accepted. -/
theorem run_parts {d : Delivery} (all : d.TakesAll parts) (answer : Bool) {session : UInt8}
    (inv : AttestInv device s) (waits : s.Waits) (same : s.delivery = d)
    (named : s.app.attestInputCtx.session = session) :
    EachStep (Attesting.next device) (fun s event => succeeds (handle device event s.app) = true) s
        (parts.map (partEvent session answer)) ∧
      ((parts.map (partEvent session answer)).foldl (Attesting.next device) s).Waits ∧
      ((parts.map (partEvent session answer)).foldl (Attesting.next device) s).delivery =
        d.addAll parts := by
  induction all generalizing s with
  | nil => exact ⟨trivial, waits, same.trans Delivery.addAll_nil.symm⟩
  | @cons d kind data parts takes rest ih =>
      subst same named
      obtain ⟨accepted, waits', same', named'⟩ := next_partEvent inv waits takes answer rfl
      obtain ⟨others, waits'', same''⟩ := ih (inv.step _) waits' same' named'
      exact ⟨⟨accepted, others⟩, waits'', same''.trans Delivery.addAll_cons.symm⟩

/-- The commands send the box, and the session has it then. -/
structure SendsBox (device : Device) (s : Attesting) (params : InitParams) (cut : Delivery.Cut)
    (commands : List Event) : Prop where
  accepted : EachStep (Attesting.next device)
    (fun s event => succeeds (handle device event s.app) = true) s commands
  delivered : Delivered device.sdk (commands.foldl (Attesting.next device) s).delivery
    (commands.foldl (Attesting.next device) s).app
  tokens : (commands.foldl (Attesting.next device) s).app.attestInputCtx.attested = cut.tokens
  box : (commands.foldl (Attesting.next device) s).delivery.box cut.tokens =
    ⟨params.value, cut.tree, params.creationHeight, cut.tokens.map entry, cut.registers⟩

/-- A session that waits for a box that was declared accepts every box that fits, however it is
    cut. -/
def TakesBoxes (device : Device) (s : Attesting) : Prop :=
  s.Waits → ∀ params cut answer, s.delivery = .start params → Delivery.Cut.Fits cut params →
    SendsBox device s params cut (cut.allParts.map (partEvent s.app.attestInputCtx.session answer))

theorem takesBoxes_of_inv (inv : AttestInv device s) : TakesBoxes device s := by
  intro waits params cut answer declared fits
  obtain ⟨all, done⟩ := Delivery.Cut.takesAll fits
  obtain ⟨accepted, waits', same⟩ := run_parts all answer inv waits declared rfl
  have inv' : AttestInv device
      ((cut.allParts.map (partEvent s.app.attestInputCtx.session answer)).foldl
        (Attesting.next device) s) := by
    have keep (s : Attesting) (event : Event) (inv : AttestInv device s) :
        AttestInv device (s.next device event) := inv.step event
    exact invariant_foldl keep inv _
  have delivered : Delivered device.sdk
      ((cut.allParts.map (partEvent s.app.attestInputCtx.session answer)).foldl
        (Attesting.next device) s).delivery
      ((cut.allParts.map (partEvent s.app.attestInputCtx.session answer)).foldl
        (Attesting.next device) s).app := by
    cases inv'.session waits'.command with
    | delivered delivered => exact delivered
    | sending sending =>
        have missing := sending.missing
        rw [same] at missing
        exact (missing done).elim
  have sent := delivered.carries.sent
  rw [same, (Delivery.Cut.sent_parts fits).2.1] at sent
  refine ⟨accepted, delivered, (tokens_of_bytes sent).symm, ?_⟩
  rw [same]
  exact Delivery.Cut.box_parts fits

/-- In every state of every run, a box that was declared can be sent in any pieces. -/
theorem declared_boxes_taken (device : Device) (key : Bytes sessionKeyLen) (blindSigning : Bool)
    (supply : Supply) (events : List Event) :
    TakesBoxes device (events.foldl (Attesting.next device) (Attesting.start key blindSigning supply)) := by
  have start : AttestInv device (Attesting.start key blindSigning supply) := .start
  have keep (s : Attesting) (event : Event) (inv : AttestInv device s) :
      AttestInv device (s.next device event) := inv.step event
  exact takesBoxes_of_inv (invariant_foldl keep start events)

end Runs

end LedgerErgo
