import LedgerErgo.Ergo.TxSerBoxCalls
import LedgerErgo.Lib.SelfDelimiting

/-! # Transactions and their encoding

The reference the serializers are measured against: a box and a transaction as plain
data, and the bytes they stand for. A transaction is encoded with an empty proof for
every input, which is the message its signatures are about.

The encoding cannot be read back. A tree, the registers and a context extension are
written without their lengths, so two different boxes may have the same encoding. What
can be read back once these lengths are known is stated below.
-/

namespace LedgerErgo.Ergo

open LedgerErgo.Common
open TxSerTable (idBytes)

/-- A box. -/
structure Box where
  value : UInt64
  tree : List UInt8
  creationHeight : UInt32
  tokens : List BoxToken
  registers : List UInt8

/-- Registers or a context extension; an empty blob is one zero byte. -/
def blobBytes (blob : List UInt8) : List UInt8 := if blob = [] then [0] else blob

/-- The number of the tokens and the tokens. -/
def tokensBytes (tokens : List BoxToken) : List UInt8 :=
  UInt8.ofNat tokens.length :: tokens.flatMap BoxToken.bytes

/-- The bytes of a box. -/
def Box.encode (box : Box) : List UInt8 :=
  vlq box.value.toNat ++ box.tree ++ vlq box.creationHeight.toNat ++ tokensBytes box.tokens ++
    blobBytes box.registers

/-- An input: the box it spends and its context extension. -/
structure Input where
  boxId : ErgoId
  extension : List UInt8

/-- The bytes of an input with an empty proof. -/
def Input.encode (input : Input) : List UInt8 :=
  input.boxId.val ++ [0] ++ blobBytes input.extension

/-- A transaction: the tokens of its outputs refer to `tokenIds` by index. -/
structure Tx where
  inputs : List Input
  dataInputs : List ErgoId
  tokenIds : List ErgoId
  outputs : List Box

/-- Everything before the outputs. -/
def headerBytes (inputs : List Input) (dataInputs tokenIds : List ErgoId) (outputsCount : Nat) :
    List UInt8 :=
  vlq inputs.length ++ inputs.flatMap Input.encode ++ vlq dataInputs.length ++
    idBytes dataInputs ++ vlq tokenIds.length ++ idBytes tokenIds ++ vlq outputsCount

/-- The bytes of a transaction. -/
def Tx.encode (tx : Tx) : List UInt8 :=
  headerBytes tx.inputs tx.dataInputs tx.tokenIds tx.outputs.length ++
    tx.outputs.flatMap Box.encode

/-! ## What can be read back -/

/-- The token is named by its id, not by an index. -/
def TokenRef.isId : TokenRef → Bool
  | .id _ => true
  | .index _ => false

theorem TokenRef.Fits.isId {table : Option TableCtx} {ref : TokenRef} (fits : ref.Fits table) :
    ref.isId = table.isNone := by
  cases table <;> cases ref <;> simp_all [TokenRef.Fits, TokenRef.isId]

/-- Entries that name their tokens in one way show where they end. -/
theorem BoxToken.selfDelimiting (byId : Bool) :
    SelfDelimiting (fun token : BoxToken => token.ref.isId = byId) BoxToken.bytes := by
  rintro ⟨ref, amount⟩ ⟨ref', amount'⟩ x y here here' same
  simp only [BoxToken.bytes, List.append_assoc] at same
  have amounts : ∀ x' y', vlq amount.toNat ++ x' = vlq amount'.toNat ++ y' →
      amount = amount' ∧ x' = y' := fun _ _ tail =>
    ⟨UInt64.toNat_inj.mp (Vlq.append_inj tail).1, (Vlq.append_inj tail).2⟩
  cases ref with
  | id tokenId =>
      cases ref' with
      | id tokenId' =>
          obtain ⟨ids, rest⟩ := List.append_inj same (by simp [TokenRef.bytes])
          obtain ⟨rfl, ends⟩ := amounts _ _ rest
          exact ⟨by rw [Subtype.ext ids], ends⟩
      | index i => simp [TokenRef.isId, ← here'] at here
  | index i =>
      cases ref' with
      | id tokenId' => simp [TokenRef.isId, ← here'] at here
      | index i' =>
          obtain ⟨indices, rest⟩ := Vlq.append_inj same
          obtain ⟨rfl, ends⟩ := amounts _ _ rest
          exact ⟨by rw [UInt32.toNat_inj.mp indices], ends⟩

/-- Two boxes whose streams can be told apart: their tokens are named in one way and there
    are few enough of them for the count to be one byte. -/
structure Box.Comparable (a b : Box) : Prop where
  fewTokens : a.tokens.length < 256
  fewTokens' : b.tokens.length < 256
  kinds : ∀ token ∈ a.tokens, ∀ token' ∈ b.tokens, token.ref.isId = token'.ref.isId

/-- The value can always be read back. -/
theorem Box.value_eq {a b : Box} {x y : List UInt8} (same : a.encode ++ x = b.encode ++ y) :
    a.value = b.value := by
  simp only [Box.encode, List.append_assoc] at same
  exact UInt64.toNat_inj.mp (Vlq.append_inj same).1

/-- Up to the registers a box can be read back if the length of its tree is known. -/
theorem Box.front_eq {a b : Box} {x y : List UInt8} (comparable : a.Comparable b)
    (trees : a.tree.length = b.tree.length) (same : a.encode ++ x = b.encode ++ y) :
    a.value = b.value ∧ a.tree = b.tree ∧ a.creationHeight = b.creationHeight ∧
      a.tokens = b.tokens ∧ blobBytes a.registers ++ x = blobBytes b.registers ++ y := by
  simp only [Box.encode, tokensBytes, List.append_assoc, List.cons_append] at same
  obtain ⟨values, same⟩ := Vlq.append_inj same
  obtain ⟨trees, same⟩ := List.append_inj same trees
  obtain ⟨heights, same⟩ := Vlq.append_inj same
  obtain ⟨counts, same⟩ := List.cons.inj same
  have lengths : a.tokens.length = b.tokens.length := by
    have := congrArg UInt8.toNat counts
    have := comparable.fewTokens
    have := comparable.fewTokens'
    simp only [UInt8.toNat_ofNat'] at *
    omega
  have tokens : a.tokens = b.tokens ∧ blobBytes a.registers ++ x = blobBytes b.registers ++ y := by
    cases hb : b.tokens with
    | nil =>
        have ha : a.tokens = [] := List.length_eq_zero_iff.mp (by simpa [hb] using lengths)
        simpa [ha, hb] using same
    | cons token tokens =>
        rw [← hb]
        refine (BoxToken.selfDelimiting token.ref.isId).flatMap ?_ ?_ lengths same
        · intro t ht
          exact comparable.kinds t ht token (by simp [hb])
        · intro t ht
          obtain ⟨t', ht'⟩ := List.exists_mem_of_length_pos
            (l := a.tokens) (by simp [lengths, hb])
          exact (comparable.kinds t' ht' t ht).symm.trans
            (comparable.kinds t' ht' token (by simp [hb]))
  exact ⟨UInt64.toNat_inj.mp values, trees, UInt32.toNat_inj.mp heights, tokens⟩

theorem length_blobBytes_congr {a b : List UInt8} (lengths : a.length = b.length) :
    (blobBytes a).length = (blobBytes b).length := by
  unfold blobBytes
  cases a <;> cases b <;> simp_all

/-- A blob can be read back if its length is known. -/
theorem blobBytes_append_inj {a b x y : List UInt8} (lengths : a.length = b.length)
    (same : blobBytes a ++ x = blobBytes b ++ y) : a = b ∧ x = y := by
  obtain ⟨blobs, ends⟩ := List.append_inj same (length_blobBytes_congr lengths)
  refine ⟨?_, ends⟩
  unfold blobBytes at blobs
  cases a <;> cases b <;> simp_all

/-- A box can be read back if the lengths of its tree and of its registers are known. -/
theorem Box.append_inj {a b : Box} {x y : List UInt8} (comparable : a.Comparable b)
    (trees : a.tree.length = b.tree.length) (registers : a.registers.length = b.registers.length)
    (same : a.encode ++ x = b.encode ++ y) : a = b ∧ x = y := by
  obtain ⟨values, trees, heights, tokens, rest⟩ := Box.front_eq comparable trees same
  obtain ⟨registers, ends⟩ := blobBytes_append_inj registers rest
  cases a
  cases b
  simp_all

/-- An input can be read back if the length of its extension is known. -/
theorem Input.append_inj {a b : Input} {x y : List UInt8}
    (extensions : a.extension.length = b.extension.length)
    (same : a.encode ++ x = b.encode ++ y) : a = b ∧ x = y := by
  simp only [Input.encode, List.append_assoc] at same
  obtain ⟨ids, same⟩ := List.append_inj same (by simp)
  obtain ⟨extensions, ends⟩ := blobBytes_append_inj extensions (by simpa using same)
  cases a
  cases b
  exact ⟨by simp_all [Subtype.ext_iff], ends⟩

theorem idBytes_append_inj {as bs : List ErgoId} {x y : List UInt8}
    (lengths : as.length = bs.length) (same : idBytes as ++ x = idBytes bs ++ y) :
    as = bs ∧ x = y :=
  SelfDelimiting.flatMap (p := fun _ => True)
    (.ofLength (n := 32) (fun id _ => id.property) fun _ _ _ _ => Subtype.ext)
    (by simp) (by simp) lengths same

end LedgerErgo.Ergo
