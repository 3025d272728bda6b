import LedgerErgo.Commands.AttestInput.Handler
import LedgerErgo.Commands.DeriveAddress.Handler
import LedgerErgo.Commands.ExtPubKey.Handler
import LedgerErgo.Commands.SignTx.Handler
import LedgerErgo.Lib.Runs

/-! # The dispatcher

The application takes one event after the other: a command of a client, an answer of the user to
the prompt on the screen, or a change of the setting in the menu. With a touch screen the answer
comes while the command is handled.
-/

namespace LedgerErgo

open LedgerErgo.Ergo LedgerErgo.Prog LedgerErgo.Runs

/-- `CLA` -/
def cla : UInt8 := 0xE0

/-- `command_t` -/
structure Apdu where
  cla : UInt8
  ins : UInt8
  p1 : UInt8
  p2 : UInt8
  data : List UInt8

/-- What happens to the application. -/
inductive Event where
  /-- A command, and what the user answers if the command waits for it. -/
  | apdu (cmd : Apdu) (answer : Bool)
  /-- The user chooses one of the two entries of the prompt. -/
  | press (approved : Bool)
  /-- `toggle_blind_signing`, from the menu -/
  | toggleBlindSigning

section

variable (device : Device) [UnionLayout SignTx.OpMem] [AttestInput.SharedLayout]

/-- `apdu_dispatcher` -/
def apduDispatcher (cmd : Apdu) : AppM Reply := do
  ensure (cmd.cla = cla) .claNotSupported
  match cmd.ins.toNat with
  | 0x01 => do
      ensure (cmd.p1 = 0 ∧ cmd.p2 = 0) .wrongP1P2
      return .data device.appVersion
  | 0x02 => do
      ensure (cmd.p1 = 0 ∧ cmd.p2 = 0) .wrongP1P2
      return .data device.appName
  | 0x10 => do
      ensure (cmd.p1 ≠ 0 ∧ cmd.p1 ≤ 2 ∧ cmd.p2 = 0) .wrongP1P2
      ExtPubKey.handlerGetExtendedPublicKey device cmd.data (cmd.p1 = 2)
  | 0x11 => do
      ensure (cmd.p1 ≠ 0 ∧ cmd.p1 ≤ 2 ∧ cmd.p2 ≠ 0 ∧ cmd.p2 ≤ 2) .wrongP1P2
      DeriveAddress.handlerDeriveAddress device cmd.data (cmd.p1 = 2) (cmd.p2 = 2)
  | 0x20 => do
      ensure (cmd.p1 ≠ 0 ∧ cmd.p2 ≠ 0) .wrongP1P2
      AttestInput.handlerAttestInput device cmd.data cmd.p1 cmd.p2
  | 0x21 => do
      ensure (cmd.p1 ≠ 0 ∧ cmd.p2 ≠ 0) .wrongP1P2
      SignTx.handlerSignTransaction device cmd.data cmd.p1 cmd.p2
  | _ => throw .insNotSupported

/-- `blind_signing_callback`: the two entries differ in the menu they show. -/
def blindSigningCallback : AppM Reply := do
  modify App.showMenu
  return resDeny

/-- The callback of the prompt on the screen. -/
def Prompt.action (approved : Bool) : Prompt → AppM Reply
  | .attestInput => AttestInput.actionAttestInput approved
  | .address => DeriveAddress.actionDeriveAddress approved
  | .extPubKey => ExtPubKey.actionGetExtendedPubkey approved
  | .signTx => SignTx.executeAction device approved
  | .blindWarning => blindSigningCallback

/-- The user chooses; without a prompt there is nothing to choose. -/
def press (approved : Bool) : AppM Reply := do
  let app ← get
  match app.ui.prompt with
  | some prompt => prompt.action device approved
  | none => return .pending

/-- The setting is in the menu, which is not on the screen while a prompt is. -/
def toggleBlindSigning : AppM Reply := do
  let app ← get
  if app.ui.prompt = none then
    set (App.showMenu { app with blindSigningEnabled := !app.blindSigningEnabled })
  return .pending

/-- What the application does with an event. -/
def handle : Event → AppM Reply
  | .apdu cmd answer => do
      modify fun app => { app with answer }
      apduDispatcher device cmd
  | .press approved => press device approved
  | .toggleBlindSigning => toggleBlindSigning

/-- The application after an event, whatever it answers. -/
def next (app : App) (event : Event) : App := final (handle device event app)

variable {device} {cmd : Apdu}

theorem apduDispatcher_attestInput (ins : cmd.ins.toNat = 0x20) :
    apduDispatcher device cmd = (do
      ensure (cmd.cla = cla) .claNotSupported
      ensure (cmd.p1 ≠ 0 ∧ cmd.p2 ≠ 0) .wrongP1P2
      AttestInput.handlerAttestInput device cmd.data cmd.p1 cmd.p2) := by
  simp only [apduDispatcher, ins]

theorem apduDispatcher_signTx (ins : cmd.ins.toNat = 0x21) :
    apduDispatcher device cmd = (do
      ensure (cmd.cla = cla) .claNotSupported
      ensure (cmd.p1 ≠ 0 ∧ cmd.p2 ≠ 0) .wrongP1P2
      SignTx.handlerSignTransaction device cmd.data cmd.p1 cmd.p2) := by
  simp only [apduDispatcher, ins]

end

end LedgerErgo
