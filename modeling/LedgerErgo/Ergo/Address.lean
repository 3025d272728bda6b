import LedgerErgo.Common.RwBuffer
import LedgerErgo.Ergo.ErgoTree
import LedgerErgo.Ergo.SerState
import LedgerErgo.Helpers.Sdk

/-! # Addresses

An address is a byte for its type and the network, the public key or the hash of the script, and
the first bytes of the hash of all that. It is written into an array of the caller.
-/

namespace LedgerErgo.Ergo.Address

open LedgerErgo.Common LedgerErgo.Prog

/-- `ADDRESS_CHECKSUM_LEN` -/
def addressChecksumLen : Nat := 4

/-- `P2PK_ADDRESS_LEN` -/
def p2pkAddressLen : Nat := 38

/-- `P2SH_ADDRESS_LEN` -/
def p2shAddressLen : Nat := 29

/-- `ERGO_ADDRESS_TYPE_P2PK` -/
def typeP2pk : UInt8 := 0x01

/-- `ERGO_ADDRESS_TYPE_P2SH` -/
def typeP2sh : UInt8 := 0x02

/-- `network_id_is_valid` -/
def networkIdIsValid (networkId : UInt8) : Bool := networkId ≤ 252

section Programs

variable {σ α : Type} (sdk : Sdk)

/-- The answer `false` if there is no value. -/
def orFalse (value : Option α) : EStateM Unit (Mem σ) α :=
  match value with
  | some a => pure a
  | none => throw ()

@[simp] theorem orFalse_some {a : α} : (orFalse (some a) : EStateM Unit (Mem σ) α) = pure a := rfl

/-- The checksum at the end of an address. -/
def writeChecksum (buffer : RwBuffer) : EStateM Unit (Mem σ) (List UInt8) := do
  sdkCall ()
  let hash := sdk.blake2b256 buffer.data
  let buffer ← orFalse (buffer.writeBytes (hash.val.take addressChecksumLen))
  return buffer.bytes

/-- `_ergo_address_from_pubkey` -/
def fromKey (network : UInt8) (publicKey : List UInt8) (isCompressed : Bool)
    (address : Bytes p2pkAddressLen) : EStateM Unit (Mem σ) (List UInt8) := do
  let buffer := RwBuffer.fromArrayEmpty address.val
  ensure (networkIdIsValid network) ()
  let buffer ← orFalse (buffer.writeU8 (typeP2pk + network))
  let buffer ← orFalse
    (if isCompressed then buffer.writeBytes (publicKey.take 33)
    else
      (buffer.writeU8 (if publicKey.getD 64 0 &&& 1 ≠ 0 then 0x03 else 0x02)).bind fun buffer =>
        buffer.writeBytes ((publicKey.drop 1).take 32))
  writeChecksum sdk buffer

/-- `ergo_address_from_pubkey` -/
def fromPubkey (network : UInt8) (publicKey : PublicKey) (address : Bytes p2pkAddressLen) :
    EStateM Unit (Mem σ) (List UInt8) :=
  fromKey sdk network publicKey.val false address

/-- `ergo_address_from_compressed_pubkey` -/
def fromCompressedPubkey (network : UInt8) (publicKey : List UInt8)
    (address : Bytes p2pkAddressLen) : EStateM Unit (Mem σ) (List UInt8) :=
  fromKey sdk network publicKey true address

/-- `ergo_address_from_script_hash` -/
def fromScriptHash (network : UInt8) (hash : List UInt8) (address : Bytes p2shAddressLen) :
    EStateM Unit (Mem σ) (List UInt8) := do
  let buffer := RwBuffer.fromArrayEmpty address.val
  ensure (networkIdIsValid network) ()
  let buffer ← orFalse (buffer.writeU8 (typeP2sh + network))
  let buffer ← orFalse (buffer.writeBytes (hash.take ErgoTree.p2shHashLen))
  writeChecksum sdk buffer

end Programs

section Spec

variable {σ : Type} {sdk : Sdk} {network : UInt8} {m n : Mem σ} {buffer : RwBuffer}
  {held : List UInt8} {capacity : Nat}

/-- A byte and more bytes behind it are written like all of them at once. -/
theorem writeU8_writeBytes (holds : buffer.Holds capacity held) {byte : UInt8} {written : List UInt8}
    (room : held.length + (byte :: written).length ≤ capacity) :
    (buffer.writeU8 byte).bind (·.writeBytes written) = buffer.writeBytes (byte :: written) := by
  have room' : held.length + [byte].length ≤ capacity := by
    simp only [List.length_cons, List.length_nil] at room ⊢
    omega
  have first : buffer.writeU8 byte = some (buffer.push [byte]) := holds.writeBytes_ok.mpr ⟨room', rfl⟩
  have second : (buffer.push [byte]).writeBytes written =
      some ((buffer.push [byte]).push written) := by
    apply (holds.push room').writeBytes_ok.mpr
    refine ⟨?_, rfl⟩
    simp only [List.length_append, List.length_cons, List.length_nil] at room ⊢
    omega
  have both : buffer.writeBytes (byte :: written) = some (buffer.push (byte :: written)) :=
    holds.writeBytes_ok.mpr ⟨room, rfl⟩
  have inside : buffer.dataSize + [byte].length ≤ buffer.size := by
    rw [holds.dataSize, holds.size]
    exact room'
  rw [first, both, Option.bind_some, second, RwBuffer.push_push inside]
  rfl

/-- The compressed key of a tree is written like the parity and the coordinate of the key. -/
theorem writeBytes_key (holds : buffer.Holds p2pkAddressLen held) (one : held.length = 1)
    (publicKey : PublicKey) :
    buffer.writeBytes (((ErgoTree.generateP2pk publicKey).drop 3).take 33) =
      (buffer.writeU8 (if publicKey.val.getD 64 0 &&& 1 ≠ 0 then 0x03 else 0x02)).bind
        fun buffer => buffer.writeBytes ((publicKey.val.drop 1).take 32) := by
  have key : (ErgoTree.generateP2pk publicKey).drop 3 =
      (if publicKey.val.getD 64 0 &&& 1 ≠ 0 then 0x03 else 0x02) ::
        (publicKey.val.drop 1).take 32 := rfl
  have length : ((ErgoTree.generateP2pk publicKey).drop 3).length = 33 := by
    rw [List.length_drop, ErgoTree.length_generateP2pk]
    rfl
  rw [List.take_of_length_le length.le]
  rw [key] at length ⊢
  apply (writeU8_writeBytes holds _).symm
  rw [one, length]
  decide

/-- The address of a public key is the address of the key that its tree holds. -/
theorem fromCompressedPubkey_generateP2pk (publicKey : PublicKey)
    (address : Bytes p2pkAddressLen) :
    (fromCompressedPubkey sdk network ((ErgoTree.generateP2pk publicKey).drop 3) address :
      EStateM Unit (Mem σ) (List UInt8)) = fromPubkey sdk network publicKey address := by
  have empty : (RwBuffer.fromArrayEmpty address.val).Holds p2pkAddressLen [] :=
    RwBuffer.Holds.fromArray address.property (by decide)
  have room : ([] : List UInt8).length + [typeP2pk + network].length ≤ p2pkAddressLen :=
    Nat.le_of_ble_eq_true rfl
  have typed : (RwBuffer.fromArrayEmpty address.val).writeU8 (typeP2pk + network) =
      some ((RwBuffer.fromArrayEmpty address.val).push [typeP2pk + network]) :=
    empty.writeBytes_ok.mpr ⟨room, rfl⟩
  simp only [fromCompressedPubkey, fromPubkey, fromKey, typed, orFalse_some, pure_bind, if_true,
    Bool.false_eq_true, if_false, writeBytes_key (empty.push room) rfl]

end Spec

end LedgerErgo.Ergo.Address
