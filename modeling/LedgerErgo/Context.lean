import LedgerErgo.Commands.AttestInput.Context
import LedgerErgo.Commands.SignTx.OpP2pk
import LedgerErgo.Common.Text
import LedgerErgo.Ergo.Address

/-! # The context of the application

One context serves all commands: the storage of the commands is shared and erased whenever the
current command is set. The access token of the application that was approved last and the key
of the frames outlive the commands.
-/

namespace LedgerErgo

open LedgerErgo.Common LedgerErgo.Ergo LedgerErgo.Prog

/-- The two builds: with buttons, where the handler returns while a prompt is shown, and with a
    touch screen, where the handler waits for the answer. -/
inductive Build where
  | bagl | nbgl
deriving DecidableEq

/-- What the application is built for and runs on. -/
structure Device where
  build : Build
  sdk : Sdk
  formats : Formats
  /-- `APPNAME` -/
  appName : List UInt8
  /-- The bytes of `APPVERSION`. -/
  appVersion : List UInt8

/-- `command_e` -/
inductive Command where
  | none | getAppVersion | getAppName | getExtendedPublicKey | deriveAddress | attestInputBox
  | signTransaction
deriving DecidableEq

/-- `sign_transaction_state_e` -/
inductive SignTxState where
  | initialized | approved | error
deriving DecidableEq

/-- `sign_transaction_ctx_t` -/
structure SignTxCtx where
  state : SignTxState
  session : UInt8
  p2pk : SignTx.OpCtx

/-- A zeroed context. -/
def SignTxCtx.zero : SignTxCtx := ⟨.initialized, 0, .zero⟩

/-- `derive_address_ctx_t`, without its texts -/
structure DeriveAddressCtx where
  appTokenValue : UInt32
  /-- `P2PK_ADDRESS_LEN` bytes -/
  rawAddress : List UInt8
  send : Bool

/-- A zeroed context. -/
def DeriveAddressCtx.zero : DeriveAddressCtx :=
  ⟨0, List.replicate Address.p2pkAddressLen 0, false⟩

/-- `extended_public_key_ctx_t`, without its texts -/
structure ExtPubKeyCtx where
  appTokenValue : UInt32
  chainCode : Bytes 32
  rawPublicKey : PublicKey

/-- A zeroed context. -/
def ExtPubKeyCtx.zero : ExtPubKeyCtx := ⟨0, Bytes.zero _, Bytes.zero _⟩

/-- The union `commands_ctx`, with the member written last since it was erased. -/
inductive CommandsCtx where
  | zero
  | attestInput (ctx : AttestInput.AttestInputCtx)
  | signTx (ctx : SignTxCtx)
  | deriveAddress (ctx : DeriveAddressCtx)
  | extPubKey (ctx : ExtPubKeyCtx)

/-- The screens that wait for the user in the build with buttons. -/
inductive Prompt where
  | attestInput | address | extPubKey | signTx | blindWarning
deriving DecidableEq

/-- A pair of the review. -/
structure Pair where
  title : Text
  text : Text
deriving DecidableEq

/-- A pair that was written, and what the function that renders it answered. -/
structure PairWrite where
  index : Nat
  pair : Pair
  status : Sw
deriving DecidableEq

/-- What the user interface keeps outside of the context. -/
structure Ui where
  /-- The prompt on the screen; otherwise there is the menu. -/
  prompt : Option Prompt
  /-- `signtx_screen` -/
  signtxScreen : UInt8
  /-- `signtx_outputs_screen` -/
  signtxOutputsScreen : UInt8
  /-- `pair_list.nbPairs` of the signing command -/
  nbPairs : UInt8
  /-- `screen_count` of the flow that shows the review -/
  dynamicScreenCount : UInt8
  /-- The pairs written into the arrays of the review since the session began. -/
  writes : List PairWrite

/-- What happened so far; the code does not keep it. -/
structure History where
  /-- The tokens on screens that the user approved. -/
  granted : List UInt32
  /-- The byte strings that were signed as frames. -/
  signed : List (List UInt8)

/-- `app_ctx_t`, with the rest of the state of the application. -/
structure App where
  connectedAppId : UInt32
  sessionKey : Bytes sessionKeyLen
  currentCommand : Command
  isUiBusy : Bool
  commandsCtx : CommandsCtx
  /-- `N_storage.blind_signing_enabled` -/
  blindSigningEnabled : Bool
  ui : Ui
  /-- What the user answers if the command waits for it. -/
  answer : Bool
  supply : Supply
  history : History

/-- A handler of the application. An error is a response with its status word. -/
abbrev AppM (α : Type) := EStateM Sw App α

/-- How a command that did not fail ends. -/
inductive Reply where
  | data (bytes : List UInt8)
  /-- A response with a status word only that is not `SW_OK`. -/
  | status (sw : Sw)
  /-- The user decides about the response. -/
  | pending
deriving DecidableEq

/-- `res_ok` -/
def resOk : Reply := .data []

/-- `res_deny` -/
def resDeny : Reply := .status .deny

namespace App

/-- `app_set_current_command` -/
def setCurrentCommand (command : Command) (app : App) : App :=
  { app with commandsCtx := .zero, isUiBusy := false, currentCommand := command }

/-- `app_sign_transaction_context` -/
def signTxCtx (app : App) : SignTxCtx :=
  match app.commandsCtx with
  | .signTx ctx => ctx
  | _ => .zero

/-- `app_attest_input_context` -/
def attestInputCtx (app : App) : AttestInput.AttestInputCtx :=
  match app.commandsCtx with
  | .attestInput ctx => ctx
  | _ => .zero

/-- `app_derive_address_context` -/
def deriveAddressCtx (app : App) : DeriveAddressCtx :=
  match app.commandsCtx with
  | .deriveAddress ctx => ctx
  | _ => .zero

/-- `app_extended_public_key_context` -/
def extPubKeyCtx (app : App) : ExtPubKeyCtx :=
  match app.commandsCtx with
  | .extPubKey ctx => ctx
  | _ => .zero

/-- Write the context of the signing command. -/
def setSignTx (ctx : SignTxCtx) (app : App) : App := { app with commandsCtx := .signTx ctx }

/-- Write the context of the attestation. -/
def setAttestInput (ctx : AttestInput.AttestInputCtx) (app : App) : App :=
  { app with commandsCtx := .attestInput ctx }

/-- `app_set_connected_app_id`, once the user has approved it. -/
def setConnectedAppId (id : UInt32) (app : App) : App := { app with connectedAppId := id }

/-- The user approves a screen that shows a token. -/
def grant (id : UInt32) (app : App) : App :=
  { app with history := { app.history with granted := id :: app.history.granted } }

/-- The user approves a prompt that carries a token. -/
def approveToken (id : UInt32) (app : App) : App := (app.grant id).setConnectedAppId id

/-- The bytes of a frame were signed. -/
def logSigned (bytes : List UInt8) (app : App) : App :=
  { app with history := { app.history with signed := bytes :: app.history.signed } }

/-- The menu is shown: `ui_menu_main`, `ui_menu_settings` and `ui_menu_about`. -/
def showMenu (app : App) : App := { app with isUiBusy := false, ui := { app.ui with prompt := none } }

/-- `ui_display_screens` of a flow that waits for the user -/
def showPrompt (prompt : Prompt) (app : App) : App :=
  { app with isUiBusy := true, ui := { app.ui with prompt := some prompt } }

/-- `app_init`: the key of the session is random. -/
def init (key : Bytes sessionKeyLen) (blindSigningEnabled : Bool) (supply : Supply) : App where
  connectedAppId := 0
  sessionKey := key
  currentCommand := .none
  isUiBusy := false
  commandsCtx := .zero
  blindSigningEnabled := blindSigningEnabled
  ui := ⟨none, 0, 0, 0, 0, []⟩
  answer := false
  supply := supply
  history := ⟨[], []⟩

end App

end LedgerErgo
