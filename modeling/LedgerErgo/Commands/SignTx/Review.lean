import LedgerErgo.Context

/-! # The review of a transaction

The screens of a session are pairs of a title and a text. They are written while the outputs
come in, and shown together when the transaction is confirmed. A pair that cannot be rendered
is left with what was written of it, and nobody looks at the status.
-/

namespace LedgerErgo

open LedgerErgo.Common LedgerErgo.Ergo LedgerErgo.Prog

namespace SignTx

/-- `N_UX_PAIRS`: the size of the arrays of the review. -/
def nUxPairs : Nat := tokenMaxCount * 2 + 10

/-- The size of a title. -/
def titleLen : Nat := 20

/-- The size of a text. -/
def textLen : Nat := 70

/-- `pairs_count` of the operation: it has no screens of its own. -/
def opScreenCount : Nat := 0

namespace OutputInfo

/-- The member `public_key`. -/
def publicKey (info : OutputInfo) : List UInt8 :=
  match info.tree with
  | .publicKey key => key
  | _ => []

/-- The member `tree_hash`. -/
def treeHash (info : OutputInfo) : List UInt8 :=
  match info.tree with
  | .treeHash hash => hash
  | _ => []

end OutputInfo

/-- The index of the element that is used and has so many used ones before it. -/
def usedIndex {α : Type} (used : α → Bool) : List α → Nat → Option Nat
  | [], _ => none
  | x :: xs, count =>
      if used x then
        match count with
        | 0 => some 0
        | count + 1 => (usedIndex used xs count).map (· + 1)
      else (usedIndex used xs count).map (· + 1)

/-- `stx_output_info_used_token_index` -/
def OutputInfo.usedTokenIndex (info : OutputInfo) (index : Nat) : Option Nat :=
  usedIndex (fun amount => decide (amount > 0)) info.tokens.toList index

/-- `stx_amounts_non_zero_token_index` -/
def Amounts.nonZeroTokenIndex (amounts : Amounts) (index : Nat) : Option Nat :=
  usedIndex (fun amount => decide (amount ≠ 0)) amounts.tokens.toList index

/-! ## Pairs -/

/-- What renders a pair. The arrays of the pair are zero before. -/
abbrev RenderM (α : Type) := EStateM Sw (Mem Pair) α

/-- Write the title. -/
def setTitle (title : Text) : RenderM Unit :=
  modify fun mem => { mem with cb := { mem.cb with title := clip titleLen title } }

/-- Write the text, if there is one. -/
def setText (text : Option Text) (err : Sw) : RenderM Unit :=
  match text with
  | some text => modify fun mem => { mem with cb := { mem.cb with text } }
  | none => throw err

/-- An address that is generated for its text. -/
def generated (address : EStateM Unit (Mem Pair) (List UInt8)) : RenderM (List UInt8) :=
  zoom id (fun mem _ => mem) (fun _ => .addressGenerationFailed) address

/-- The title with the number of a token. -/
def tokenTitle (index : Nat) (suffix : String) : Text :=
  "Token [".toList ++ decimal (index + 1) ++ suffix.toList

section Rendering

variable (device : Device)

/-- `output_info_print_address` -/
def outputInfoPrintAddress (info : OutputInfo) (networkId : UInt8) : RenderM Unit := do
  ensure info.isFinished .badState
  match info.type with
  | .bip32 =>
      setTitle "Change".toList
      setText (bip32PathFormat info.bip32Path textLen) .bip32FormattingFailed
  | .address =>
      setTitle "To".toList
      let rawAddress ← generated
        (Address.fromCompressedPubkey device.sdk networkId info.publicKey (Bytes.zero _))
      setText (formatB58Id rawAddress textLen) .addressFormattingFailed
  | .script | .scriptHash =>
      setTitle "Script Hash".toList
      let rawAddress ← generated
        (Address.fromScriptHash device.sdk networkId info.treeHash (Bytes.zero _))
      setText (formatB58Id rawAddress textLen) .addressFormattingFailed
  | .minersFee =>
      setTitle "Fee".toList
      setText (some "Miners Fee".toList) .badState
  | .unknown => throw .badState

/-- `ui_stx_display_output_state` -/
def displayOutputState (info : OutputInfo) (networkId : UInt8) : Nat → RenderM Unit
  | 0 => outputInfoPrintAddress device info networkId
  | 1 => do
      setTitle "Amount".toList
      setText (formatErgAmount device.formats info.value textLen) .bufferError
  | screen + 2 =>
      match info.usedTokenIndex (screen / 2) with
      | none => throw .badTokenIndex
      | some index => do
          if screen % 2 = 0 then
            setTitle (tokenTitle (screen / 2) "]")
            let mem ← get
            setText (formatHexId device.formats (mem.table.slot index).val textLen)
              .addressFormattingFailed
          else
            setTitle (tokenTitle (screen / 2) "] Raw Value")
            setText (some (device.formats.formatU64 (info.tokens[index]?.getD 0))) .badState

/-- `ui_stx_operation_p2pk_show_tx_screen` -/
def showTxScreen (path : Bip32Path) (index : Nat) : RenderM Unit := do
  ensure (index = 0) .badState
  setTitle "P2PK Path".toList
  setText (bip32PathFormat path textLen) .bip32FormattingFailed

/-- The text of a net amount. -/
def netAmountText (value : Int64) : Text :=
  if value < 0 then "Minting: ".toList ++ device.formats.formatU64 (-value).toUInt64
  else "Burning: ".toList ++ device.formats.formatU64 value.toUInt64

/-- `ui_stx_display_tx_state` -/
def displayTxState (path : Bip32Path) (amounts : Amounts) (screen : Nat) : RenderM Unit :=
  if screen < opScreenCount then showTxScreen path screen
  else
    match screen - opScreenCount with
    | 0 => do
        setTitle "Fee".toList
        setText (formatErgAmount device.formats amounts.fee textLen) .bufferError
    | screen + 1 =>
        match amounts.nonZeroTokenIndex (screen / 2) with
        | none => throw .badTokenIndex
        | some index => do
            if screen % 2 = 0 then
              setTitle (tokenTitle (screen / 2) "]")
              let mem ← get
              setText (formatHexId device.formats (mem.table.slot index).val textLen)
                .addressFormattingFailed
            else
              setTitle (tokenTitle (screen / 2) "] Raw Value")
              setText (some (netAmountText device (amounts.tokens[index]?.getD 0))) .badState

end Rendering

/-! ## The arrays of the review -/

/-- Change what the user interface keeps. -/
def modifyUi (f : Ui → Ui) : AppM Unit := modify fun app => { app with ui := f app.ui }

/-- Change the context of the signing command. -/
def App.modifySign (f : SignTxCtx → SignTxCtx) (app : App) : App := app.setSignTx (f app.signTxCtx)

/-- Change the context of the operation. -/
def App.modifyOp (f : OpCtx → OpCtx) : App → App :=
  App.modifySign fun ctx => { ctx with p2pk := f ctx.p2pk }

/-- What a rendering leaves and answers. -/
def rendered (render : RenderM Unit) (mem : Mem Pair) : Sw × Mem Pair :=
  match render mem with
  | .ok _ mem => (.ok, mem)
  | .error err mem => (err, mem)

/-- What the rendering of a pair works on; the arrays of the pair are erased. -/
def App.renderMem (app : App) : Mem Pair :=
  ⟨app.supply.faults, app.signTxCtx.p2pk.tokensTable, ⟨[], []⟩⟩

/-- Write a pair into the arrays; the status is ignored. -/
def App.writePair (index : Nat) (render : RenderM Unit) (app : App) : App :=
  let (status, mem) := rendered render (App.renderMem app)
  { app with
    supply := { app.supply with faults := mem.faults }
    ui := { app.ui with writes := app.ui.writes ++ [⟨index, mem.cb, status⟩] } }

/-- The loop that writes `count` pairs behind each other. -/
def writePairs (start : Nat) (render : Nat → RenderM Unit) (i : Nat) : Nat → AppM Unit
  | 0 => pure ()
  | count + 1 => do
      modify (App.writePair (start + i) (render i))
      writePairs start render (i + 1) count

/-- `ui_add_screen` on the flow of the session -/
def addScreen : AppM Unit := modifyUi fun ui =>
  if ui.signtxScreen.toNat < maxNumberOfScreens then { ui with signtxScreen := ui.signtxScreen + 1 }
  else ui

/-- There is room for so many screens. -/
def screensLeft (count : Nat) (app : App) : Bool :=
  app.ui.signtxScreen.toNat + count ≤ maxNumberOfScreens

/-! ## The screens of an operation -/

section Screens

variable (device : Device)

/-- `ui_stx_operation_approve_reject`, which is only called with an approval. -/
def operationApproved (token : UInt32) : AppM Reply := do
  modify fun app => { app with isUiBusy := false }
  modify (App.setConnectedAppId token)
  modify (App.modifySign fun ctx => { ctx with state := .approved })
  let app ← get
  return .data [app.signTxCtx.session]

/-- The token of an application that is not known is put on a screen. -/
def addApplicationId (token : UInt32) (isKnown : Bool) : AppM Unit :=
  match device.build with
  | .bagl => if ¬ isKnown ∧ token ≠ 0 then addScreen else pure ()
  | .nbgl =>
      if ¬ isKnown ∧ token ≠ 0 then
        modifyUi fun ui => { ui with
          nbPairs := 1
          writes := ui.writes ++
            [⟨0, ⟨"Application".toList, applicationIdText token⟩, .ok⟩] }
      else modifyUi fun ui => { ui with nbPairs := 0 }

/-- `ui_stx_add_operation_approve_screens`: the operation is approved at once. -/
def addOperationApproveScreens (token : UInt32) (isKnown : Bool) : AppM Reply := do
  let app ← get
  ensure (screensLeft 3 app) .screensBufferOverflow
  addApplicationId device token isKnown
  modify (App.modifyOp fun op => { op with appTokenValue := token })
  operationApproved token

/-- `ui_stx_operation_p2pk_show_token_and_path` -/
def showTokenAndPath (token : UInt32) (isKnown : Bool) : AppM Reply := do
  modifyUi fun ui => { ui with signtxScreen := 0, signtxOutputsScreen := 0, writes := [] }
  let app ← get
  ensure (bip32PathFormat app.signTxCtx.p2pk.bip32 maxBip32StringLen ≠ none) .bip32FormattingFailed
  if device.build = .bagl then addScreen
  addOperationApproveScreens device token isKnown

/-- The screens of an output: its address, and unless it is change its value and its tokens. -/
def infoScreenCount (info : OutputInfo) : Nat :=
  if info.type = .bip32 then 1 else 2 + 2 * info.usedTokensCount

/-- The path of a change output is kept as the last approved one. -/
def storeLastApproved (info : OutputInfo) : AppM Unit :=
  modify (App.modifyOp fun op => { op with
    lastApprovedChange := if info.type = .bip32 then info.bip32Path else .empty })

/-- `ui_stx_add_output_screens` -/
def addOutputScreens : AppM Reply := do
  let app ← get
  ensure (screensLeft 6 app) .screensBufferOverflow
  let op := app.signTxCtx.p2pk
  let info := op.mem.output
  let count := infoScreenCount info
  let render := displayOutputState device info op.networkId
  match device.build with
  | .bagl =>
      modify fun app => { app with isUiBusy := false }
      storeLastApproved info
      let start := app.ui.signtxOutputsScreen
      writePairs start.toNat render 0 count
      modifyUi fun ui => { ui with signtxOutputsScreen := UInt8.ofNat (start.toNat + count) }
      storeLastApproved info
  | .nbgl =>
      let start := app.ui.nbPairs
      writePairs start.toNat render 0 count
      modifyUi fun ui => { ui with
        signtxOutputsScreen := UInt8.ofNat (start.toNat + count)
        nbPairs := start + UInt8.ofNat count }
      storeLastApproved info
  return resOk

/-- The flow of the session is shown, with two more entries at its end. -/
def displayScreens (prompt : Prompt) : AppM Reply := do
  let app ← get
  ensure (screensLeft 2 app) .screensBufferOverflow
  modify (App.showPrompt prompt)
  return .pending

/-- `ui_stx_operation_p2pk_show_output_confirm_screen` -/
def showOutputConfirmScreen : AppM Reply := do
  let app ← get
  let op := app.signTxCtx.p2pk
  ensure (op.state = .outputsStarted ∨ op.state = .txFinished) .badState
  if isBlindSigningTx op.mem.output then
    modify (App.modifyOp fun op => { op with blindSigningRequired := true })
    match device.build with
    | .nbgl => addOutputScreens device
    | .bagl =>
        if app.blindSigningEnabled then
          addScreen
          addOutputScreens device
        else
          addScreen
          addScreen
          addScreen
          addScreen
          displayScreens .blindWarning
  else addOutputScreens device

/-- `ui_stx_operation_p2pk_send_response` -/
def sendResponse : AppM Reply := do
  let app ← get
  let op := app.signTxCtx.p2pk
  if op.state ≠ .finalized then
    modify (App.setCurrentCommand .none)
    return .status .badState
  let mem : Mem Unit := ⟨app.supply.faults, op.tokensTable, ()⟩
  match sdkCalls () 2 mem with
  | .error _ mem =>
      modify fun app => { app with supply := { app.supply with faults := mem.faults } }
      modify (App.setCurrentCommand .none)
      return .status .internalCryptoError
  | .ok _ mem =>
      let signed := Schnorr.signFinish device.sdk op.txHash (device.sdk.deriveBip32 op.bip32).1
        op.schnorrKey mem
      modify (App.modifyOp fun op => { op with schnorrKey := Bytes.zero 32 })
      match signed with
      | .ok signature mem =>
          modify fun app => { app with supply := { app.supply with faults := mem.faults } }
          return .data signature
      | .error _ mem =>
          modify fun app => { app with supply := { app.supply with faults := mem.faults } }
          modify (App.setCurrentCommand .none)
          return .status .schnorrSigningFailed

/-- The review stands for the token of its session, which is on it unless it is known. -/
def App.grantReviewed (app : App) : App := app.grant app.signTxCtx.p2pk.appTokenValue

/-- `ui_stx_operation_execute_action`, and its counterpart behind the review with a touch screen -/
def executeAction (approved : Bool) : AppM Reply := do
  modify fun app => { app with isUiBusy := false }
  let reply ← if approved then do
      modify App.grantReviewed
      sendResponse device
    else pure resDeny
  modify (App.setCurrentCommand .none)
  modify App.showMenu
  return reply

/-- The pairs of the transaction: the fee and its tokens. -/
def pairsCount (amounts : Amounts) : Nat := opScreenCount + 1 + 2 * amounts.nonZeroTokensCount

/-- `ui_stx_add_transaction_screens`, and the flow that is shown after it -/
def addTransactionScreens : AppM Reply := do
  let app ← get
  ensure (screensLeft 6 app) .screensBufferOverflow
  let op := app.signTxCtx.p2pk
  let amounts := op.mem.amounts
  let count := pairsCount amounts
  let render := displayTxState device op.bip32 amounts
  match device.build with
  | .bagl =>
      modify (App.modifyOp fun op => { op with confirmSet := true })
      let start := app.ui.signtxOutputsScreen.toNat
      writePairs start render 0 count
      -- the count is passed in a byte, and the last one stands for no screen
      let screens := UInt8.ofNat (start + count)
      ensure (screens ≠ 0 ∧ screens ≠ 255) .screensBufferOverflow
      modifyUi fun ui => { ui with
        dynamicScreenCount := screens
        signtxScreen := ui.signtxScreen + 5 }
      displayScreens .signTx
  | .nbgl =>
      if op.blindSigningRequired ∧ ¬ app.blindSigningEnabled then
        modify (App.setCurrentCommand .none)
        modify App.showMenu
        return resDeny
      modify (App.modifyOp fun op => { op with confirmSet := true })
      let start := app.ui.nbPairs.toNat
      writePairs start render 0 count
      modifyUi fun ui => { ui with
        signtxOutputsScreen := UInt8.ofNat (start + count)
        nbPairs := UInt8.ofNat (start + count) }
      executeAction device app.answer

/-- `ui_stx_operation_p2pk_show_confirm_screen` -/
def showConfirmScreen : AppM Reply := do
  let app ← get
  ensure (app.signTxCtx.p2pk.state = .txFinished) .badState
  modify (App.modifyOp fun op => { op with state := .finalized })
  addTransactionScreens device

end Screens

end SignTx

end LedgerErgo
