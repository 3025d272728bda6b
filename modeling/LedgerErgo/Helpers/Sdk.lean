import LedgerErgo.Common.Bip32
import LedgerErgo.Constants

/-! # The SDK

The cryptography of the device belongs to its SDK and is a parameter: what a call computes
when it succeeds is a function here. Which calls fail and what the random generator
returns is part of the state, as the supply of the answers still to come.
-/

namespace LedgerErgo

open LedgerErgo.Common

/-- What the functions of the SDK compute. -/
structure Sdk where
  blake2b256 : List UInt8 → ErgoId
  hmacSha256 : List UInt8 → List UInt8 → Bytes 32
  /-- `os_derive_bip32_no_throw`: the private key and the chain code of a path. -/
  deriveBip32 : Bip32Path → Bytes 32 × Bytes 32
  /-- The multiple of the generator of the curve. -/
  scalarMult : Bytes 32 → PublicKey
  /-- `base58_encode` -/
  base58Encode : List UInt8 → String

/-- The answers of the SDK that are still to come. -/
structure Supply where
  /-- Which of the next calls fail. -/
  faults : List Bool
  /-- The next answers of `cx_rng_u8`. -/
  bytes : List UInt8
  /-- The next answers of `cx_rng_no_throw`, 32 bytes each. -/
  keys : List (Bytes 32)

/-- `session_id_new_random`: the first answer that is neither zero nor the old id. -/
def sessionIdNewRandom (old : UInt8) : List UInt8 → UInt8 × List UInt8
  | [] => (if old = 1 then 2 else 1, [])
  | id :: rest => if id = 0 ∨ id = old then sessionIdNewRandom old rest else (id, rest)

theorem sessionIdNewRandom_fresh (old : UInt8) (answers : List UInt8) :
    (sessionIdNewRandom old answers).1 ≠ 0 ∧ (sessionIdNewRandom old answers).1 ≠ old := by
  induction answers with
  | nil =>
      rw [sessionIdNewRandom]
      split
      · simp_all
      · exact ⟨by decide, Ne.symm (by assumption)⟩
  | cons id rest ih =>
      rw [sessionIdNewRandom]
      split
      · exact ih
      · rename_i good
        exact not_or.mp good

/-- `is_known_application` -/
def isKnownApplication (saved appId : UInt32) : Bool := saved ≠ 0 ∧ appId ≠ 0 ∧ appId = saved

end LedgerErgo
