import LedgerErgo.Ergo.Schnorr
import Mathlib.Data.ZMod.Basic
import Mathlib.GroupTheory.OrderOfElement

/-! # Signatures verify

A verifier knows the public key and the message. It recomputes the commitment from the
challenge and the response of the signature, hashes it with the key and the message, and
compares. What `sign_init` and `sign_finish` make together is accepted: the hash starts
with the very commitment that the verifier recomputes.
-/

namespace LedgerErgo.Ergo.Schnorr

open LedgerErgo.Prog

section Group

variable {E : Type} [AddCommGroup E] {g : E} {order : Nat}

/-- The commitment is recomputed from the response. -/
theorem recompute_commitment (annihilates : order • g = 0) (k c x : Nat) :
    ((k + c * x) % order) • g - c • x • g = k • g := by
  rw [← nsmul_eq_mod_nsmul (k + c * x) annihilates, add_nsmul, mul_nsmul', add_sub_cancel_right]

end Group

/-- The curve as the SDK computes on it: a group with a generator of the order of the curve, and
    an encoding of its points. -/
structure Curve (sdk : Sdk) (E : Type) [AddCommGroup E] where
  generator : E
  encode : E → PublicKey
  order : secp256k1N • generator = 0
  scalarMult : ∀ k : Bytes 32, BigEndian.value k.val ≠ 0 → BigEndian.value k.val < secp256k1N →
    sdk.scalarMult k = encode (BigEndian.value k.val • generator)

namespace Curve

variable {sdk : Sdk} {E : Type} [AddCommGroup E]

/-- The public key of a secret. -/
def publicKey (curve : Curve sdk E) (secret : Bytes 32) : E :=
  BigEndian.value secret.val • curve.generator

/-- The verifier. -/
def Accepts (curve : Curve sdk E) (key : E) (message signature : List UInt8) : Prop :=
  let c := signature.take soundnessBytes
  let z := signature.drop soundnessBytes
  let w := BigEndian.value z • curve.generator - BigEndian.value c • key
  c = challenge sdk (p2pkPrefix ++ compress (curve.encode key) ++ p2pkSuffix ++
    compress (curve.encode w) ++ message)

end Curve

section Signature

variable {sdk : Sdk} {E : Type} [AddCommGroup E]

theorem length_challenge (sdk : Sdk) (hash : List UInt8) :
    (challenge sdk hash).length = soundnessBytes := by
  simp [challenge, soundnessBytes]

theorem length_response (c : List UInt8) (secret key : Bytes 32) :
    (response c secret key).length = 32 := BigEndian.length_write ..

/-- The response is a number below the order. -/
theorem value_response (c : List UInt8) (secret key : Bytes 32) :
    BigEndian.value (response c secret key) =
      (BigEndian.value key.val + BigEndian.value c * BigEndian.value secret.val) % secp256k1N := by
  have positive : 0 < secp256k1N := by decide
  exact BigEndian.value_write_of_lt ((Nat.mod_lt _ positive).trans (by decide))

/-- What is computed of the hash that starts with the commitment is accepted. -/
theorem Curve.accepts (curve : Curve sdk E) {secret key : Bytes 32} (drawn : Drawn secret key)
    (small : BigEndian.value key.val < secp256k1N) (message : List UInt8) :
    curve.Accepts (curve.publicKey secret) message
      (challenge sdk (commitment sdk secret key ++ message) ++
        response (challenge sdk (commitment sdk secret key ++ message)) secret key) := by
  generalize c_eq : challenge sdk (commitment sdk secret key ++ message) = c
  have length : c.length = soundnessBytes := c_eq ▸ length_challenge ..
  have w : BigEndian.value (response c secret key) • curve.generator -
      BigEndian.value c • curve.publicKey secret = BigEndian.value key.val • curve.generator := by
    rw [value_response]
    exact recompute_commitment curve.order ..
  simp only [Curve.Accepts, List.take_left' length, List.drop_left' length, w]
  rw [← c_eq, commitment, curve.scalarMult secret drawn.secretSome drawn.secretSmall,
    curve.scalarMult key drawn.keySome small]
  rfl

/-- Updates append to the hash. -/
theorem foldl_append_flatten (updates : List (List UInt8)) (hash : List UInt8) :
    updates.foldl (· ++ ·) hash = hash ++ updates.flatten := by
  induction updates generalizing hash with
  | nil => simp
  | cons update updates ih => simp [ih]

/-- A signature of any message is accepted by the verifier, and finishing it fails only for a
    zero challenge or a failing SDK call. -/
theorem signature_accepted {σ : Type} (curve : Curve sdk E) {secret : Bytes 32}
    {m n : Mem SignInit} (begun : signInit sdk secret m = .ok true n)
    (small : BigEndian.value n.cb.key.val < secp256k1N) (updates : List (List UInt8))
    (f : Mem σ) :
    (∀ signature f',
      signFinish sdk (updates.foldl (· ++ ·) n.cb.hash) secret n.cb.key f = .ok signature f' →
        signature.length = 56 ∧
          curve.Accepts (curve.publicKey secret) updates.flatten signature) ∧
      (∀ f', BigEndian.value (challenge sdk (updates.foldl (· ++ ·) n.cb.hash)) ≠ 0 → f.Ran 3 f' →
        ∃ signature,
          signFinish sdk (updates.foldl (· ++ ·) n.cb.hash) secret n.cb.key f = .ok signature f') := by
  refine ⟨?_, fun f' some ran => ⟨_, signFinish_ok.mpr ⟨some, ran, rfl⟩⟩⟩
  intro signature f' finished
  obtain ⟨-, -, rfl⟩ := signFinish_ok.mp finished
  have hashed : updates.foldl (· ++ ·) n.cb.hash = commitment sdk secret n.cb.key ++ updates.flatten := by
    rw [foldl_append_flatten, signInit_hash begun]
  constructor
  · rw [List.length_append, length_challenge, length_response]
    rfl
  · rw [hashed]
    exact curve.accepts (signInit_drawn begun) small updates.flatten

end Signature

namespace KeyTwo

/-- A number as 32 bytes. -/
def number (n : Nat) : Bytes 32 := ⟨BigEndian.write 32 n, BigEndian.length_write ..⟩

/-- The first two multiples of the generator of the curve. -/
def point : Nat → PublicKey
  | 1 => ⟨0x04 ::
      BigEndian.write 32 0x79be667ef9dcbbac55a06295ce870b07029bfcdb2dce28d959f2815b16f81798 ++
      BigEndian.write 32 0x483ada7726a3c4655da4fbfc0e1108a8fd17b448a68554199c47d08ffb10d4b8,
      by simp⟩
  | 2 => ⟨0x04 ::
      BigEndian.write 32 0xc6047f9441ed7d6d3045406e95c07cd85c778e4b8cef3ca7abac09b95c709ee5 ++
      BigEndian.write 32 0x1ae168fea63dc339a3c58419466ceaeef7f632653266d0e1236431a950cfe52a,
      by simp⟩
  | _ => Bytes.zero 65

/-- The SDK on the secret 1, the key 2 and the message of two letters. -/
def sdk : Sdk where
  blake2b256 input :=
    if input = p2pkPrefix ++ compress (point 1) ++ p2pkSuffix ++ compress (point 2) ++ [0x68, 0x69]
    then number 0xc531b8420d97fc3bf0100d5411f9a18bfee0330a6c83ed9f482f1f2833e2720c
    else Bytes.zero 32
  hmacSha256 _ _ := Bytes.zero 32
  deriveBip32 _ := (Bytes.zero 32, Bytes.zero 32)
  scalarMult k := point (BigEndian.value k.val % secp256k1N)
  base58Encode _ := ""

/-- A group of the order of the curve, with its points encoded as the SDK does. -/
def curve : Curve sdk (ZMod secp256k1N) where
  generator := 1
  encode e := point e.val
  order := by simp
  scalarMult k _ _ := by simp [sdk, ZMod.val_natCast]

/-- The generator will draw the key 2, and no SDK call fails. -/
def start : Mem SignInit := ⟨[], .empty, ⟨[number 2], Bytes.zero 32, []⟩⟩

/-- The hash has absorbed the commitment. -/
def drawn : Mem SignInit :=
  ⟨[], .empty, ⟨[], number 2, commitment sdk (number 1) (number 2)⟩⟩

theorem signature_accepted_keyTwo :
    ∃ signature, signFinish sdk ([[0x68], [0x69]].foldl (· ++ ·) drawn.cb.hash) (number 1)
        drawn.cb.key start = .ok signature start ∧
      signature.length = 56 ∧
      curve.Accepts (curve.publicKey (number 1)) [0x68, 0x69] signature := by
  have begun : signInit sdk (number 1) start = .ok true drawn := by rfl
  obtain ⟨accepted, goes⟩ :=
    signature_accepted curve begun (by decide +kernel) [[0x68], [0x69]] start
  obtain ⟨signature, finished⟩ := goes start (by decide +kernel) rfl
  exact ⟨signature, finished, accepted signature start finished⟩

end KeyTwo

end LedgerErgo.Ergo.Schnorr
