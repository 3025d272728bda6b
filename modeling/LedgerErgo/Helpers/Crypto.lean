import LedgerErgo.Helpers.CmdMacros

/-! # Keys of the device

A private key and its chain code are derived from a path in two calls of the SDK, and a third
one gives the public key.
-/

namespace LedgerErgo

open LedgerErgo.Common LedgerErgo.Ergo LedgerErgo.Prog

/-- What a call of the SDK by a handler works on: nothing but its supply. -/
def App.supplyMem (app : App) : Mem Unit := ⟨app.supply.faults, .empty, ()⟩

/-- Put back the supply of the SDK. -/
def App.setSupplyMem (mem : Mem Unit) (app : App) : App :=
  { app with supply := { app.supply with faults := mem.faults } }

/-- A call that only uses the SDK. -/
def withSdk {ε α : Type} (err : ε → Sw) (call : EStateM ε (Mem Unit) α) : AppM α :=
  zoom App.supplyMem App.setSupplyMem err call

/-- `crypto_generate_public_key`, with the chain code -/
def generatePublicKey (sdk : Sdk) (path : Bip32Path) : AppM (PublicKey × Bytes 32) := do
  withSdk (fun _ => .internalCryptoError) (sdkCalls () 3)
  return (sdk.scalarMult (sdk.deriveBip32 path).1, (sdk.deriveBip32 path).2)

/-- `read_bip32_path` -/
def readBip32Path (input : Buffer) : Option (Bip32Path × Buffer) := do
  let (len, input) ← bufferReadU8 input
  bufferReadBip32Path input len

end LedgerErgo
