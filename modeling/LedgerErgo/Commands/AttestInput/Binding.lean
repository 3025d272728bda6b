import LedgerErgo.Commands.AttestInput.Attestation

/-! # What the id of a box binds

The id of a box is the hash of its bytes, and these do not contain the sizes which the host has
declared. So the bytes show the value, and once the size of the tree is known also the tokens; but
boxes with other tokens may have the same bytes if their trees are not equally long.
-/

namespace LedgerErgo.AttestInput

open LedgerErgo.Common LedgerErgo.Ergo

theorem entry_injective : Function.Injective entry := by
  rintro ⟨id, amount⟩ ⟨id', amount'⟩ same
  simpa [entry] using same

namespace Delivery

/-- The bytes that the id of the box is the hash of. -/
def stream (d : Delivery) (tokens : List InputToken) : List UInt8 :=
  (d.box tokens).encode ++ (d.params.txId.val ++ vlq d.params.boxIndex.toNat)

variable {d d' : Delivery} {tokens tokens' : List InputToken}

theorem boxId_eq {sdk : Sdk} : d.boxId sdk tokens = sdk.blake2b256 (d.stream tokens) := rfl

theorem Carries.length_tree (carries : d.Carries tokens) :
    (d.sent .treeChunk).length = d.params.ergoTreeSize.toNat := by
  cases carries.complete.tree with
  | inl whole => cases whole
  | inr size => exact size

/-- All tokens of a box are named by their ids. -/
theorem Carries.comparable (carries : d.Carries tokens) (carries' : d'.Carries tokens') :
    (d.box tokens).Comparable (d'.box tokens') where
  fewTokens := by
    have count : (d.box tokens).tokens.length = d.params.tokensCount.toNat := carries.complete.tokens
    rw [count]
    exact d.params.tokensCount.toNat_lt
  fewTokens' := by
    have count : (d'.box tokens').tokens.length = d'.params.tokensCount.toNat :=
      carries'.complete.tokens
    rw [count]
    exact d'.params.tokensCount.toNat_lt
  kinds := by
    intro token here token' here'
    obtain ⟨_, -, rfl⟩ := List.mem_map.mp here
    obtain ⟨_, -, rfl⟩ := List.mem_map.mp here'
    rfl

/-- If the size of the tree is known, the bytes show it, and the tokens behind it. -/
theorem Carries.front_eq (carries : d.Carries tokens) (carries' : d'.Carries tokens')
    (sizes : d.params.ergoTreeSize = d'.params.ergoTreeSize)
    (same : d.stream tokens = d'.stream tokens') :
    d.sent .treeChunk = d'.sent .treeChunk ∧
      d.params.creationHeight = d'.params.creationHeight ∧ tokens = tokens' := by
  have trees : (d.sent .treeChunk).length = (d'.sent .treeChunk).length := by
    rw [carries.length_tree, carries'.length_tree, sizes]
  obtain ⟨-, tree, height, entries, -⟩ := Box.front_eq (carries.comparable carries') trees same
  exact ⟨tree, height, entry_injective.list_map entries⟩

/-- What two boxes with the same bytes have in common. -/
structure Agree (d d' : Delivery) (tokens tokens' : List InputToken) : Prop where
  value : d.params.value = d'.params.value
  /-- The tokens are the same if the trees were declared equally long. -/
  front : d.params.ergoTreeSize = d'.params.ergoTreeSize →
    d.sent .treeChunk = d'.sent .treeChunk ∧
      d.params.creationHeight = d'.params.creationHeight ∧ tokens = tokens'
  /-- All is the same if the registers were declared equally long, too. -/
  whole : d.params.ergoTreeSize = d'.params.ergoTreeSize →
    d.params.registersSize = d'.params.registersSize →
    d.sent .registers = d'.sent .registers ∧ d.params.txId = d'.params.txId ∧
      d.params.boxIndex = d'.params.boxIndex

/-- The bytes of a box show its value, its tokens if the size of its tree is known, and all of it if
    the size of its registers is known as well. -/
theorem stream_binds (carries : d.Carries tokens) (carries' : d'.Carries tokens')
    (same : d.stream tokens = d'.stream tokens') : Agree d d' tokens tokens' := by
  constructor
  · exact Box.value_eq same
  · exact fun sizes => carries.front_eq carries' sizes same
  · intro sizes registers
    have trees : (d.sent .treeChunk).length = (d'.sent .treeChunk).length := by
      rw [carries.length_tree, carries'.length_tree, sizes]
    have blobs : (d.sent .registers).length = (d'.sent .registers).length := by
      have size : (d.sent .registers).length = d.params.registersSize.toNat :=
        carries.complete.registers
      have size' : (d'.sent .registers).length = d'.params.registersSize.toNat :=
        carries'.complete.registers
      rw [size, size', registers]
    obtain ⟨boxes, places⟩ := Box.append_inj (carries.comparable carries') trees blobs same
    obtain ⟨ids, index⟩ := List.append_inj places (by simp)
    have index := Vlq.append_inj (congrArg (· ++ ([] : List UInt8)) index)
    exact ⟨congrArg Box.registers boxes, Subtype.ext ids, UInt16.toNat_inj.mp index.1⟩

/-- Two tokens of a box. -/
def twoTokens : List InputToken := [(Bytes.zero 32, 1), (⟨List.replicate 32 9, rfl⟩, 300)]

/-- A box whose tokens and registers are sent in one part each. -/
def inOnePart : Delivery :=
  ⟨⟨Bytes.zero 32, 0, 1, 1, 0, 2, 2⟩,
    [(.treeChunk, [0]), (.tokens, twoTokens.flatMap InputToken.bytes), (.registers, [1, 2])]⟩

/-- The same box in more parts. -/
def inMoreParts : Delivery :=
  ⟨inOnePart.params, (.treeChunk, [0]) :: (twoTokens.map fun token => (.tokens, token.bytes)) ++
    [(.registers, [1]), (.registers, [2])]⟩

theorem stream_binds_inMoreParts : Agree inOnePart inMoreParts twoTokens twoTokens := by
  have carries : inOnePart.Carries twoTokens := ⟨⟨.inr rfl, rfl, rfl⟩, rfl, by decide⟩
  have carries' : inMoreParts.Carries twoTokens := ⟨⟨.inr rfl, rfl, rfl⟩, rfl, by decide⟩
  exact stream_binds carries carries' rfl

/-! ## Boxes that cannot be told apart -/

/-- The sizes that are accepted for a box. -/
structure Limits (params : InitParams) : Prop where
  tokens : params.tokensCount.toNat ≤ tokenMaxCount
  tree : params.ergoTreeSize ≤ maxTxDataPartLen
  registers : params.registersSize ≤ maxTxDataPartLen

/-- The declarations say the same, up to the sizes. -/
structure SameBut (params params' : InitParams) : Prop where
  value : params.value = params'.value
  creationHeight : params.creationHeight = params'.creationHeight
  txId : params.txId = params'.txId
  boxIndex : params.boxIndex = params'.boxIndex

/-- The delivery of a box in one part of each kind, next to the rest of what is declared. -/
def sending (params : InitParams) (tree : List UInt8) (tokens : List InputToken)
    (registers : List UInt8) : Delivery where
  params := { params with
    ergoTreeSize := UInt32.ofNat tree.length
    tokensCount := UInt8.ofNat tokens.length
    registersSize := UInt32.ofNat registers.length }
  parts := [(.treeChunk, tree), (.tokens, tokens.flatMap InputToken.bytes), (.registers, registers)]

section Sending

variable {params : InitParams} {tree registers : List UInt8}

theorem sent_sending : (sending params tree tokens registers).sent .treeChunk = tree ∧
    (sending params tree tokens registers).sent .tokens = tokens.flatMap InputToken.bytes ∧
    (sending params tree tokens registers).sent .registers = registers := by
  simp [sent, sending]

private theorem toNat_size {blob : List UInt8} (short : blob.length ≤ 32768) :
    (UInt32.ofNat blob.length).toNat = blob.length :=
  UInt32.toNat_ofNat_of_lt' (Nat.lt_of_le_of_lt short (by decide))

private theorem toNat_count (few : tokens.length ≤ tokenMaxCount) :
    (UInt8.ofNat tokens.length).toNat = tokens.length :=
  UInt8.toNat_ofNat_of_lt' (Nat.lt_of_le_of_lt few (by decide))

theorem sameBut_sending : SameBut (sending params tree tokens registers).params params :=
  ⟨rfl, rfl, rfl, rfl⟩

theorem carries_sending (short : tree.length ≤ 32768) (few : tokens.length ≤ tokenMaxCount)
    (distinct : (tokens.map Prod.fst).Nodup) (short' : registers.length ≤ 32768) :
    (sending params tree tokens registers).Carries tokens := by
  obtain ⟨trees, entries, blobs⟩ := @sent_sending tokens params tree registers
  refine ⟨⟨.inr ?_, ?_, ?_⟩, entries, distinct⟩
  · exact (congrArg List.length trees).trans (toNat_size short).symm
  · exact (List.length_map _).trans (toNat_count few).symm
  · exact (congrArg List.length blobs).trans (toNat_size short').symm

theorem limits_sending (short : tree.length ≤ 32768) (few : tokens.length ≤ tokenMaxCount)
    (short' : registers.length ≤ 32768) : Limits (sending params tree tokens registers).params where
  tokens := (toNat_count few).trans_le few
  tree := UInt32.le_iff_toNat_le.mpr ((toNat_size short).trans_le short)
  registers := UInt32.le_iff_toNat_le.mpr ((toNat_size short').trans_le short')

/-- The height and the tokens of a box, as they stand behind its tree. -/
def middle (params : InitParams) (tokens : List InputToken) : List UInt8 :=
  vlq params.creationHeight.toNat ++ tokensBytes (tokens.map entry)

theorem stream_sending : (sending params tree tokens registers).stream tokens =
    vlq params.value.toNat ++ (tree ++ (middle params tokens ++ (blobBytes registers ++
      (params.txId.val ++ vlq params.boxIndex.toNat)))) := by
  obtain ⟨trees, -, blobs⟩ := @sent_sending tokens params tree registers
  simp only [stream, box, trees, blobs, Box.encode, middle, List.append_assoc]
  rfl

theorem length_middle (few : tokens.length ≤ tokenMaxCount) : (middle params tokens).length ≤ 4300 := by
  have height : (vlq params.creationHeight.toNat).length ≤ 5 := by
    apply Vlq.length_encode_le
    exact Nat.lt_of_lt_of_le params.creationHeight.toNat_lt (by decide)
  have entries : ((tokens.map entry).flatMap BoxToken.bytes).length ≤ tokens.length * 42 := by
    clear few
    induction tokens with
    | nil => simp
    | cons token tokens ih =>
        have amount : (vlq token.2.toNat).length ≤ 10 := length_vlq_le_ten token.2
        have bytes : (entry token).bytes.length ≤ 42 := by
          simp only [BoxToken.bytes, entry, TokenRef.bytes, List.length_append, Bytes.length_val]
          omega
        rw [List.map_cons, List.flatMap_cons, List.length_append, List.length_cons]
        omega
  have few : tokens.length ≤ 100 := few
  rw [middle, tokensBytes, List.length_append, List.length_cons]
  omega

end Sending

/-- For any two lists of tokens and whatever else is declared there are boxes with the same bytes
    that have them: what stands behind the tree of the one is the end of the tree of the other. -/
theorem stream_ambiguous (params : InitParams) {tree : List UInt8} (short : tree.length ≤ 28000)
    (few : tokens.length ≤ tokenMaxCount) (distinct : (tokens.map Prod.fst).Nodup)
    (few' : tokens'.length ≤ tokenMaxCount) (distinct' : (tokens'.map Prod.fst).Nodup) :
    ∃ d d' : Delivery, d.Carries tokens ∧ d'.Carries tokens' ∧ Limits d.params ∧ Limits d'.params ∧
      SameBut d.params params ∧ SameBut d'.params params ∧ d.sent .treeChunk = tree ∧
      d.stream tokens = d'.stream tokens' := by
  have behind := @length_middle tokens params few
  have behind' := @length_middle tokens' params few'
  have registers : (middle params tokens' ++ [0]).length ≤ 32768 := by
    rw [List.length_append, List.length_singleton]
    omega
  have trees : (tree ++ middle params tokens).length ≤ 32768 := by
    rw [List.length_append]
    omega
  have short : tree.length ≤ 32768 := by omega
  refine ⟨sending params tree tokens (middle params tokens' ++ [0]),
    sending params (tree ++ middle params tokens) tokens' [], ?_, ?_, ?_, ?_, sameBut_sending,
    sameBut_sending, ?_, ?_⟩
  · exact carries_sending short few distinct registers
  · exact carries_sending trees few' distinct' (by simp)
  · exact limits_sending short few registers
  · exact limits_sending trees few' (by simp)
  · exact sent_sending.1
  · have some : blobBytes (middle params tokens' ++ [0]) = middle params tokens' ++ [0] := if_neg (by simp)
    have none : blobBytes [] = [0] := rfl
    rw [stream_sending, stream_sending, some, none]
    simp only [List.append_assoc]

theorem stream_ambiguous_token : ∃ d d' : Delivery, d.Carries [] ∧ d'.Carries [(Bytes.zero 32, 1)] ∧
    Limits d.params ∧ Limits d'.params ∧ SameBut d.params inOnePart.params ∧
    SameBut d'.params inOnePart.params ∧ d.sent .treeChunk = [0, 8] ∧
    d.stream [] = d'.stream [(Bytes.zero 32, 1)] :=
  stream_ambiguous inOnePart.params (by decide) (by decide) List.nodup_nil (by decide)
    (List.nodup_singleton _)

end Delivery

end LedgerErgo.AttestInput
