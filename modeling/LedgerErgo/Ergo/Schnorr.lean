import LedgerErgo.Ergo.SerState
import LedgerErgo.Helpers.Sdk

/-! # Schnorr signatures

A signature is prepared before its message is known: the hash starts with the commitment,
and the ephemeral key is kept until the message was hashed. An attempt that fails is
repeated from the start.
-/

namespace LedgerErgo.Ergo.Schnorr

open LedgerErgo.Prog

/-- `ERGO_SOUNDNESS_BYTES` -/
def soundnessBytes : Nat := 24

/-- `MAX_ITERATIONS` -/
def maxIterations : Nat := 100

/-- `SECP256K1_N` -/
def secp256k1N : Nat :=
  0xfffffffffffffffffffffffffffffffebaaedce6af48a03bbfd25e8cd0364141

/-- `P2PK_PREFIX` -/
def p2pkPrefix : List UInt8 := [0x01, 0x00, 0x27, 0x10, 0x01, 0x08, 0xcd]

/-- `P2PK_SUFFIX` -/
def p2pkSuffix : List UInt8 := [0x73, 0x00, 0x00, 0x21]

/-- The compressed form of a point, as the loop makes it in place. -/
def compress (point : PublicKey) : List UInt8 :=
  (if point.val.getD 64 0 &&& 1 = 1 then 0x03 else 0x02) :: (point.val.drop 1).take 32

/-- What `sign_init` works on: the answers of the generator, the key and the hash. -/
structure SignInit where
  draws : List (Bytes 32)
  key : Bytes 32
  hash : List UInt8

/-- The bytes of the commitment: they do not depend on the message. -/
def commitment (sdk : Sdk) (secret key : Bytes 32) : List UInt8 :=
  p2pkPrefix ++ compress (sdk.scalarMult secret) ++ p2pkSuffix ++ compress (sdk.scalarMult key)

/-- `blake2b_update` of the loop. -/
def update (data : List UInt8) : EStateM Unit (Mem SignInit) Unit := do
  sdkCall ()
  modify fun mem => { mem with cb := { mem.cb with hash := mem.cb.hash ++ data } }

/-- After `cx_rng_no_throw` has filled the key. -/
def SignInit.drawn (init : SignInit) : SignInit :=
  match init.draws with
  | [] => { init with key := Bytes.zero 32 }
  | key :: draws => { init with key, draws }

/-- One round of the loop of `ergo_secp256k1_schnorr_p2pk_sign_init`. -/
def attempt (sdk : Sdk) (secret : Bytes 32) : EStateM Unit (Mem SignInit) Unit := do
  sdkCall ()
  modify fun mem => { mem with cb := { mem.cb with hash := [] } }
  update p2pkPrefix
  ensure (BigEndian.value secret.val ≠ 0) ()
  sdkCall ()
  ensure (BigEndian.value secret.val < secp256k1N) ()
  sdkCall ()
  update (compress (sdk.scalarMult secret))
  update p2pkSuffix
  modify fun mem => { mem with cb := mem.cb.drawn }
  let mem ← get
  ensure (BigEndian.value mem.cb.key.val ≠ 0) ()
  sdkCall ()
  ensure (BigEndian.value mem.cb.key.val ≤ secp256k1N) ()
  sdkCall ()
  update (compress (sdk.scalarMult mem.cb.key))

/-- The loop of `ergo_secp256k1_schnorr_p2pk_sign_init`. -/
def attempts (sdk : Sdk) (secret : Bytes 32) : Nat → EStateM Unit (Mem SignInit) Bool
  | 0 => pure false
  | rounds + 1 => fun mem =>
      match attempt sdk secret mem with
      | .ok _ mem => .ok true mem
      | .error _ mem => attempts sdk secret rounds mem

/-- `ergo_secp256k1_schnorr_p2pk_sign_init` -/
def signInit (sdk : Sdk) (secret : Bytes 32) : EStateM Unit (Mem SignInit) Bool :=
  attempts sdk secret maxIterations

/-- `ergo_secp256k1_schnorr_p2pk_sign_finish`: the signature of what was hashed. -/
def signFinish {σ : Type} (sdk : Sdk) (hash : List UInt8) (secret key : Bytes 32) :
    EStateM Unit (Mem σ) (List UInt8) := do
  sdkCall ()
  let c := (sdk.blake2b256 hash).val.take soundnessBytes
  ensure (BigEndian.value c ≠ 0) ()
  sdkCalls () 2
  return c ++ BigEndian.write 32
    ((BigEndian.value key.val + BigEndian.value c * BigEndian.value secret.val) % secp256k1N)

theorem SignInit.drawn_hash (init : SignInit) : init.drawn.hash = init.hash := by
  unfold drawn
  split <;> rfl

theorem update_cb {data : List UInt8} {m n : Mem SignInit} {u : Unit}
    (ok : update data m = .ok u n) : n.cb = { m.cb with hash := m.cb.hash ++ data } := by
  simp only [update, bind_ok, exists_unit, modify_ok] at ok
  obtain ⟨k, call, rfl⟩ := ok
  simp only [(sdkCall_frame call).2]

/-- A round that succeeds leaves the commitment of the key it drew in the hash. -/
theorem attempt_hash {sdk : Sdk} {secret : Bytes 32} {m n : Mem SignInit} {u : Unit}
    (ok : attempt sdk secret m = .ok u n) : n.cb.hash = commitment sdk secret n.cb.key := by
  simp only [attempt, bind_ok, exists_unit, modify_ok, get_ok, ensure_ok, and_assoc,
    exists_eq_left', exists_and_left] at ok
  obtain ⟨_, -, m₁, front, -, m₂, call₂, -, m₃, call₃, m₄, middle, m₅, suffix, -, m₆, call₆, -, m₇,
    call₇, back⟩ := ok
  have hashed : m₅.cb.hash = p2pkPrefix ++ compress (sdk.scalarMult secret) ++ p2pkSuffix := by
    rw [update_cb suffix, update_cb middle, (sdkCall_frame call₃).2, (sdkCall_frame call₂).2,
      update_cb front, List.nil_append]
  have drawn : m₇.cb = m₅.cb.drawn := by
    rw [(sdkCall_frame call₇).2, (sdkCall_frame call₆).2]
  rw [update_cb back, drawn, commitment, SignInit.drawn_hash, hashed]

/-- A round that succeeds has checked the secret and the key it drew. -/
theorem attempt_ranges {sdk : Sdk} {secret : Bytes 32} {m n : Mem SignInit} {u : Unit}
    (ok : attempt sdk secret m = .ok u n) :
    (BigEndian.value secret.val ≠ 0 ∧ BigEndian.value secret.val < secp256k1N) ∧
      BigEndian.value n.cb.key.val ≠ 0 ∧ BigEndian.value n.cb.key.val ≤ secp256k1N := by
  simp only [attempt, bind_ok, exists_unit, modify_ok, get_ok, ensure_ok, and_assoc,
    exists_eq_left', exists_and_left] at ok
  obtain ⟨_, -, m₁, -, some, m₂, -, below, m₃, -, m₄, -, m₅, -, some', m₆, call₆, below', m₇, call₇,
    back⟩ := ok
  have drawn : n.cb.key = m₅.cb.drawn.key := by
    rw [update_cb back, (sdkCall_frame call₇).2, (sdkCall_frame call₆).2]
  rw [drawn]
  exact ⟨⟨some, below⟩, some', below'⟩

/-- The loop succeeds with a round that succeeds. -/
theorem attempts_ok {sdk : Sdk} {secret : Bytes 32} {rounds : Nat} {m n : Mem SignInit}
    (ok : attempts sdk secret rounds m = .ok true n) :
    ∃ k, attempt sdk secret k = .ok () n := by
  induction rounds generalizing m with
  | zero => simp [attempts] at ok
  | succ rounds ih =>
      cases first : attempt sdk secret m with
      | ok _ k =>
          simp only [attempts, first, EStateM.Result.ok.injEq, true_and] at ok
          subst ok
          exact ⟨m, first⟩
      | error _ k =>
          simp only [attempts, first] at ok
          exact ih ok

theorem signInit_hash {sdk : Sdk} {secret : Bytes 32} {m n : Mem SignInit}
    (ok : signInit sdk secret m = .ok true n) : n.cb.hash = commitment sdk secret n.cb.key := by
  obtain ⟨_, last⟩ := attempts_ok ok
  exact attempt_hash last

/-- The secret and the key of a signature, as they were checked. -/
structure Drawn (secret key : Bytes 32) : Prop where
  secretSome : BigEndian.value secret.val ≠ 0
  secretSmall : BigEndian.value secret.val < secp256k1N
  keySome : BigEndian.value key.val ≠ 0
  keySmall : BigEndian.value key.val ≤ secp256k1N

theorem signInit_drawn {sdk : Sdk} {secret : Bytes 32} {m n : Mem SignInit}
    (ok : signInit sdk secret m = .ok true n) : Drawn secret n.cb.key := by
  obtain ⟨_, last⟩ := attempts_ok ok
  obtain ⟨⟨secretSome, secretSmall⟩, keySome, keySmall⟩ := attempt_ranges last
  exact ⟨secretSome, secretSmall, keySome, keySmall⟩

/-- The challenge that is put into a signature. -/
def challenge (sdk : Sdk) (hash : List UInt8) : List UInt8 :=
  (sdk.blake2b256 hash).val.take soundnessBytes

/-- The response that is put into a signature. -/
def response (challenge : List UInt8) (secret key : Bytes 32) : List UInt8 :=
  BigEndian.write 32
    ((BigEndian.value key.val + BigEndian.value challenge * BigEndian.value secret.val) % secp256k1N)

/-- Finishing fails only for a zero challenge or when one of its three SDK calls fails. -/
theorem signFinish_ok {σ : Type} {sdk : Sdk} {hash signature : List UInt8} {secret key : Bytes 32}
    {m n : Mem σ} :
    signFinish sdk hash secret key m = .ok signature n ↔
      BigEndian.value (challenge sdk hash) ≠ 0 ∧ m.Ran 3 n ∧
        challenge sdk hash ++ response (challenge sdk hash) secret key = signature := by
  have three : ∀ {n : Mem σ}, m.Ran 3 n ↔ ∃ k, m.Ran 1 k ∧ k.Ran 2 n :=
    Mem.ran_add (a := 1) (b := 2)
  simp only [signFinish, bind_ok, exists_unit, ensure_ok, pure_ok, sdkCall_ok_iff, sdkCalls_ok_iff,
    three]
  constructor
  · rintro ⟨k, call, _, ⟨some, rfl⟩, _, calls, rfl, rfl⟩
    exact ⟨some, ⟨k, call, calls⟩, rfl⟩
  · rintro ⟨some, ⟨k, call, calls⟩, rfl⟩
    exact ⟨k, call, k, ⟨some, rfl⟩, n, calls, rfl, rfl⟩

end LedgerErgo.Ergo.Schnorr
