import LedgerErgo.Constants
import Mathlib.Tactic

/-! # The trees the application knows

Three shapes of an ergo tree are recognised: pay to a public key, pay to a script
hash and the fixed tree of a miners fee box.
-/

namespace LedgerErgo.Ergo.ErgoTree

/-- `C_ERGO_TREE_P2PK_PREFIX` -/
def p2pkPrefix : List UInt8 := [0x00, 0x08, 0xcd]

/-- `ERGO_TREE_P2PK_LEN` -/
def p2pkLen : Nat := 36

/-- `C_ERGO_TREE_P2SH_PREFIX` -/
def p2shPrefix : List UInt8 :=
  [0x00, 0xea, 0x02, 0xd1, 0x93, 0xb4, 0xcb, 0xe4, 0xe3,
    0x01, 0x0e, 0x04, 0x00, 0x04, 0x30, 0x0e, 0x18]

/-- `C_ERGO_TREE_P2SH_SUFFIX` -/
def p2shSuffix : List UInt8 := [0xd4, 0x08, 0x01]

/-- `P2SH_HASH_LEN` -/
def p2shHashLen : Nat := 24

/-- `ERGO_TREE_P2SH_LEN` -/
def p2shLen : Nat := 44

/-- `C_ERGO_TREE_MINERS_HASH_FEE_MAINNET` -/
def minersHashFeeMainnet : List UInt8 :=
  [0x10, 0x05, 0x04, 0x00, 0x04, 0x00, 0x0e, 0x36, 0x10, 0x02, 0x04, 0xa0, 0x0b, 0x08, 0xcd,
    0x02, 0x79, 0xbe, 0x66, 0x7e, 0xf9, 0xdc, 0xbb, 0xac, 0x55, 0xa0, 0x62, 0x95, 0xce, 0x87,
    0x0b, 0x07, 0x02, 0x9b, 0xfc, 0xdb, 0x2d, 0xce, 0x28, 0xd9, 0x59, 0xf2, 0x81, 0x5b, 0x16,
    0xf8, 0x17, 0x98, 0xea, 0x02, 0xd1, 0x92, 0xa3, 0x9a, 0x8c, 0xc7, 0xa7, 0x01, 0x73, 0x00,
    0x73, 0x01, 0x10, 0x01, 0x02, 0x04, 0x02, 0xd1, 0x96, 0x83, 0x03, 0x01, 0x93, 0xa3, 0x8c,
    0xc7, 0xb2, 0xa5, 0x73, 0x00, 0x00, 0x01, 0x93, 0xc2, 0xb2, 0xa5, 0x73, 0x01, 0x00, 0x74,
    0x73, 0x02, 0x73, 0x03, 0x83, 0x01, 0x08, 0xcd, 0xee, 0xac, 0x93, 0xb1, 0xa5, 0x73, 0x04]

/-- `ergo_tree_generate_p2pk`: the prefix and the compressed public key. -/
def generateP2pk (rawPublicKey : PublicKey) : List UInt8 :=
  let parity : UInt8 := if rawPublicKey.val.getD 64 0 &&& 1 ≠ 0 then 0x03 else 0x02
  p2pkPrefix ++ [parity] ++ (rawPublicKey.val.drop 1).take 32

/-- `ergo_tree_parse_p2pk`: the compressed public key of a tree of `p2pkLen` bytes. -/
def parseP2pk (tree : List UInt8) : Option (List UInt8) :=
  if tree.take 3 ≠ p2pkPrefix then none
  else if tree.getD 3 0 ≠ 0x02 ∧ tree.getD 3 0 ≠ 0x03 then none
  else some ((tree.drop 3).take 33)

/-- `ergo_tree_parse_p2sh`: the script hash of a tree of `p2shLen` bytes. -/
def parseP2sh (tree : List UInt8) : Option (List UInt8) :=
  if tree.take 17 ≠ p2shPrefix then none
  else if (tree.drop (17 + p2shHashLen)).take 3 ≠ p2shSuffix then none
  else some ((tree.drop 17).take p2shHashLen)

/-- `ergo_tree_miners_fee_tree`: the main network's tree on every network. -/
def minersFeeTree (_isMainnet : Bool) : List UInt8 := minersHashFeeMainnet

theorem length_generateP2pk (rawPublicKey : PublicKey) :
    (generateP2pk rawPublicKey).length = p2pkLen := by
  simp [generateP2pk, p2pkPrefix, p2pkLen]

/-! ## The shapes -/

/-- The tree that pays to a compressed public key. -/
def P2pk (tree key : List UInt8) : Prop :=
  tree = p2pkPrefix ++ key ∧ key.length = 33 ∧ (key.head? = some 0x02 ∨ key.head? = some 0x03)

/-- The tree that pays to the hash of a script. -/
def P2sh (tree hash : List UInt8) : Prop :=
  tree = p2shPrefix ++ hash ++ p2shSuffix ∧ hash.length = p2shHashLen

variable {tree key hash : List UInt8}

theorem P2pk.length (pays : P2pk tree key) : tree.length = p2pkLen := by
  rw [pays.1, List.length_append, pays.2.1]
  rfl

theorem P2sh.length (pays : P2sh tree hash) : tree.length = p2shLen := by
  rw [pays.1, List.length_append, List.length_append, pays.2]
  rfl

theorem P2pk.key_eq (pays : P2pk tree key) : (tree.drop 3).take 33 = key := by
  have back : tree.drop 3 = key := by
    rw [pays.1]
    exact List.drop_left' rfl
  rw [back, List.take_of_length_le pays.2.1.le]

theorem P2sh.hash_eq (pays : P2sh tree hash) : (tree.drop 17).take 24 = hash := by
  have back : tree.drop 17 = hash ++ p2shSuffix := by
    rw [pays.1, List.append_assoc]
    exact List.drop_left' rfl
  rw [back]
  exact List.take_left' pays.2

theorem parseP2pk_eq_some (length : tree.length = p2pkLen) :
    parseP2pk tree = some key ↔ P2pk tree key := by
  have length : tree.length = 36 := length
  have parity : tree.getD 3 0 = 0x02 ∨ tree.getD 3 0 = 0x03 ↔
      (tree.drop 3).head? = some 0x02 ∨ (tree.drop 3).head? = some 0x03 := by
    have inside : 3 < tree.length := by omega
    rw [List.head?_drop, List.getD_eq_getElem?_getD, List.getElem?_eq_getElem inside,
      Option.getD_some, Option.some.injEq, Option.some.injEq]
  have whole : (tree.drop 3).length = 33 := by rw [List.length_drop]; omega
  unfold parseP2pk P2pk
  constructor
  · intro parsed
    split at parsed
    · cases parsed
    · rename_i front
      split at parsed
      · cases parsed
      · rename_i odd
        rw [← not_or, not_not] at odd
        rw [List.take_of_length_le whole.le] at parsed
        obtain rfl := Option.some.inj parsed
        refine ⟨?_, whole, parity.mp odd⟩
        rw [← not_not.mp front, List.take_append_drop]
  · intro pays
    obtain ⟨rfl, long, sign⟩ := pays
    have front : (p2pkPrefix ++ key).take 3 = p2pkPrefix := List.take_left' rfl
    have back : (p2pkPrefix ++ key).drop 3 = key := List.drop_left' rfl
    rw [back] at parity
    rw [if_neg (not_not.mpr front), if_neg (by rw [← not_or, not_not]; exact parity.mpr sign), back,
      List.take_of_length_le long.le]

theorem parseP2sh_eq_some (length : tree.length = p2shLen) :
    parseP2sh tree = some hash ↔ P2sh tree hash := by
  have length : tree.length = 44 := length
  have size : p2shHashLen = 24 := rfl
  have middle : ((tree.drop 17).take p2shHashLen).length = p2shHashLen := by
    rw [List.length_take, List.length_drop]
    omega
  have last : ((tree.drop (17 + p2shHashLen)).take 3) = tree.drop (17 + p2shHashLen) :=
    List.take_of_length_le (by rw [List.length_drop]; omega)
  unfold parseP2sh P2sh
  rw [last]
  constructor
  · intro parsed
    split at parsed
    · cases parsed
    · rename_i front
      split at parsed
      · cases parsed
      · rename_i back
        obtain rfl := Option.some.inj parsed
        refine ⟨?_, middle⟩
        have split : tree.drop 17 =
            (tree.drop 17).take p2shHashLen ++ tree.drop (17 + p2shHashLen) := by
          rw [← List.drop_drop, List.take_append_drop]
        rw [← not_not.mp front, ← not_not.mp back, List.append_assoc, ← split,
          List.take_append_drop]
  · intro pays
    obtain ⟨rfl, long⟩ := pays
    have front : (p2shPrefix ++ hash ++ p2shSuffix).take 17 = p2shPrefix := by
      rw [List.append_assoc]
      exact List.take_left' rfl
    have rest : (p2shPrefix ++ hash ++ p2shSuffix).drop 17 = hash ++ p2shSuffix := by
      rw [List.append_assoc]
      exact List.drop_left' rfl
    have back : (p2shPrefix ++ hash ++ p2shSuffix).drop (17 + p2shHashLen) = p2shSuffix :=
      List.drop_left' (by rw [List.length_append, long]; rfl)
    rw [if_neg (not_not.mpr front), if_neg (not_not.mpr back), rest, List.take_left' long]

/-- No tree has both shapes. -/
theorem P2pk.not_p2sh (pays : P2pk tree key) : ¬ P2sh tree hash := by
  intro also
  have same := pays.length.symm.trans also.length
  cases same

/-- The tree of a public key pays to the compressed key. -/
theorem p2pk_generateP2pk (rawPublicKey : PublicKey) :
    P2pk (generateP2pk rawPublicKey) ((generateP2pk rawPublicKey).drop 3) := by
  refine ⟨(List.take_append_drop 3 _).symm, ?_, ?_⟩
  · rw [List.length_drop, length_generateP2pk]
    rfl
  · unfold generateP2pk
    split
    · exact .inr rfl
    · exact .inl rfl

end LedgerErgo.Ergo.ErgoTree
