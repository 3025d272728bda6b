import LedgerErgo.Common.Buffer
import Mathlib.Tactic

/-! # Derivation paths

A path has a length byte and an array of `MAX_BIP32_PATH` numbers. It is the list of the
numbers in use here. Two paths are compared byte by byte over the memory of the arrays,
where a number is stored with its low byte first.
-/

namespace LedgerErgo.Common

/-- `MAX_BIP32_PATH` -/
def maxBip32Path : Nat := 10

/-- `BIP32_HARDENED_CONSTANT` -/
def bip32HardenedConstant : UInt32 := 0x80000000

/-- `BIP32_HARDENED` -/
def bip32Hardened (x : UInt32) : UInt32 := bip32HardenedConstant + x

/-- `BIP32_ERGO_COIN` -/
def bip32ErgoCoin : UInt32 := 429

/-- A derivation path; `sign_transaction_bip32_path_t` when it is stored. -/
structure Bip32Path where
  path : List UInt32
  bounded : path.length ≤ maxBip32Path
deriving DecidableEq

/-- A zeroed path. -/
def Bip32Path.empty : Bip32Path := ⟨[], Nat.zero_le _⟩

instance : Inhabited Bip32Path := ⟨Bip32Path.empty⟩

/-- The `i`-th number of the array. -/
def Bip32Path.at (p : Bip32Path) (i : Nat) : UInt32 := p.path.getD i 0

/-- `count` numbers of four bytes each. -/
def readU32s : Nat → Buffer → Option (List UInt32 × Buffer)
  | 0, buffer => some ([], buffer)
  | count + 1, buffer => do
      let (value, rest) ← bufferReadU32 buffer
      let (values, rest) ← readU32s count rest
      return (value :: values, rest)

theorem length_of_readU32s {count : Nat} {buffer rest : Buffer} {values : List UInt32}
    (read : readU32s count buffer = some (values, rest)) : values.length = count := by
  induction count generalizing buffer values rest with
  | zero =>
      obtain ⟨rfl, -⟩ := Prod.mk.inj (Option.some.inj read)
      rfl
  | succ count ih =>
      simp only [readU32s, Option.bind_eq_bind, Option.bind_eq_some_iff, Option.pure_def,
        Option.some.injEq, Prod.mk.injEq, Prod.exists] at read
      obtain ⟨value, afterOne, -, others, afterAll, more, rfl, -⟩ := read
      rw [List.length_cons, ih more]

/-- `buffer_read_bip32_path` -/
def bufferReadBip32Path (buffer : Buffer) (len : UInt8) : Option (Bip32Path × Buffer) :=
  if bad : len = 0 ∨ len.toNat > maxBip32Path then none
  else
    match read : readU32s len.toNat buffer with
    | none => none
    | some (path, rest) =>
        some (⟨path, by rw [length_of_readU32s read]; omega⟩, rest)

/-- `bip32_path_validation_type_e` -/
inductive Bip32PathValidationType where
  | coin | coinGe2Hard | accountE3 | accountGe3 | addressE5 | addressGe5

/-- `bip32_path_validate` -/
def bip32PathValidate (p : Bip32Path) (type coin : UInt32) (vtype : Bip32PathValidationType) :
    Bool :=
  if p.path.length ≤ 2 ∨ p.at 0 ≠ type ∨ p.at 1 ≠ coin then false
  else
    match vtype with
    | .coin => true
    | .coinGe2Hard | .accountGe3 => (p.path.drop 2).all (· ≥ bip32HardenedConstant)
    | .accountE3 => p.path.length = 3 ∧ p.at 2 ≥ bip32HardenedConstant
    | .addressE5 =>
        p.path.length = 5 ∧ p.at 2 ≥ bip32HardenedConstant ∧ (p.at 3 = 0 ∨ p.at 3 = 1) ∧
          p.at 4 < bip32HardenedConstant
    | .addressGe5 =>
        5 ≤ p.path.length ∧ p.at 2 ≥ bip32HardenedConstant ∧ (p.at 3 = 0 ∨ p.at 3 = 1) ∧
          (p.path.drop 4).all (· < bip32HardenedConstant)

/-- The first bytes of the array in memory. -/
def Bip32Path.memory (p : Bip32Path) (count : Nat) : List UInt8 :=
  (p.path.flatMap fun x => (u32Bytes x).reverse).take count

/-- `bip32_path_is_equal`: the length counts numbers, the comparison counts bytes. -/
def bip32PathIsEqual (p q : Bip32Path) : Bool :=
  p.path.length = q.path.length ∧ p.memory p.path.length = q.memory p.path.length

/-- `bip32_path_same_account` -/
def bip32PathSameAccount (p q : Bip32Path) : Bool :=
  3 ≤ p.path.length ∧ 3 ≤ q.path.length ∧ p.memory 3 = q.memory 3

end LedgerErgo.Common
