import LedgerErgo.Ergo.TxSerInput
import LedgerErgo.Helpers.Sdk

/-! # Input frames

The contents of an attested box travel to the signing command in frames of at most four
tokens, each of them signed under the key of the session. The lengths are computed in
eight bits, so a large number of tokens makes them wrap.
-/

namespace LedgerErgo

open LedgerErgo.Common LedgerErgo.Ergo

/-- `FRAME_MAX_TOKENS_COUNT` -/
def frameMaxTokensCount : Nat := 4

/-- `FRAME_TOKEN_VALUE_PAIR_SIZE` -/
def frameTokenValuePairSize : Nat := 40

/-- `FRAME_TOKEN_COUNT_POSITION` -/
def frameTokenCountPosition : Nat := 42

/-- `FRAME_TOKEN_PREFIX_LEN` -/
def frameTokenPrefixLen : Nat := frameTokenCountPosition + 1

/-- `INPUT_FRAME_SIGNATURE_LEN` -/
def inputFrameSignatureLen : Nat := 16

/-- `FRAME_MIN_SIZE` -/
def frameMinSize : Nat := frameTokenPrefixLen + inputFrameSignatureLen

/-- `input_frame_data_length` -/
def inputFrameDataLength (input : Buffer) : UInt8 :=
  if ¬ bufferCanRead input frameMinSize then 0
  else
    let tokenCount := input.getD frameTokenCountPosition 0
    let dataLen := UInt8.ofNat (tokenCount.toNat * frameTokenValuePairSize + frameTokenPrefixLen)
    if ¬ bufferCanRead input (dataLen.toNat + inputFrameSignatureLen) then 0 else dataLen

/-- `input_frame_signature_ptr`, with the bytes behind it. -/
def inputFrameSignaturePtr (input : Buffer) : Option Buffer :=
  let dataLen := inputFrameDataLength input
  if dataLen = 0 then none else some (input.drop dataLen.toNat)

/-- The signature of a frame under the key of the session. -/
def frameSignature (sdk : Sdk) (sessionKey : Bytes sessionKeyLen) (message : List UInt8) :
    List UInt8 :=
  (sdk.hmacSha256 sessionKey.val message).val.take inputFrameSignatureLen

/-- The contents of a frame. -/
structure InputFrame where
  boxId : ErgoId
  framesCount : UInt8
  frameIndex : UInt8
  value : UInt64
  tokens : List InputToken

namespace InputFrame

/-- The bytes of a frame before its tokens. -/
def front (frame : InputFrame) : List UInt8 :=
  frame.boxId.val ++ [frame.framesCount, frame.frameIndex] ++ u64Bytes frame.value ++
    [UInt8.ofNat frame.tokens.length]

/-- The bytes of a frame that are signed. -/
def data (frame : InputFrame) : List UInt8 :=
  frame.front ++ frame.tokens.flatMap InputToken.bytes

/-- As many tokens as a frame may carry. -/
def Few (frame : InputFrame) : Prop := frame.tokens.length ≤ frameMaxTokensCount

variable {frame : InputFrame} {rest : List UInt8}

@[simp] theorem length_front : frame.front.length = frameTokenPrefixLen := by
  simp [front, frameTokenPrefixLen, frameTokenCountPosition]

theorem length_tokens (tokens : List InputToken) :
    (tokens.flatMap InputToken.bytes).length = tokens.length * frameTokenValuePairSize := by
  induction tokens with
  | nil => rfl
  | cons token tokens ih =>
      rw [List.flatMap_cons, List.length_append, ih, List.length_cons, frameTokenValuePairSize]
      simp only [InputToken.bytes, List.length_append, Bytes.length_val, length_u64Bytes]
      omega

theorem length_data :
    frame.data.length = frame.tokens.length * frameTokenValuePairSize + frameTokenPrefixLen := by
  rw [data, List.length_append, length_front, length_tokens, Nat.add_comm]

end InputFrame

/-! ## The length in eight bits -/

/-- `tokens_len` of `handle_input_frame` -/
def frameTokensLen (tokensCount : UInt8) : UInt8 :=
  UInt8.ofNat (tokensCount.toNat * frameTokenValuePairSize)

/-- `tokens_count` of an input -/
def frameTokensCount (input : Buffer) : UInt8 := input.getD frameTokenCountPosition 0

/-- The bytes of a frame with the tokens the input says it has, less the signature. -/
def frameLength (input : Buffer) : Nat :=
  frameTokenPrefixLen + frameTokenValuePairSize * (frameTokensCount input).toNat

/-- The input holds all of its frame. -/
def HoldsFrame (input : Buffer) : Prop := frameLength input + inputFrameSignatureLen ≤ input.length

/-- The lengths that are computed are those of the frame. -/
structure LengthsExact (input : Buffer) : Prop where
  length : inputFrameDataLength input ≠ 0 →
    (inputFrameDataLength input).toNat = frameLength input ∧ HoldsFrame input
  signature : inputFrameDataLength input ≠ 0 →
    inputFrameSignaturePtr input = some (input.drop (frameLength input))
  tokens : inputFrameDataLength input ≠ 0 →
    (frameTokensLen (frameTokensCount input)).toNat =
      frameTokenValuePairSize * (frameTokensCount input).toNat
  nothing : inputFrameDataLength input = 0 ↔ ¬ HoldsFrame input

/-- The length is looked at only if it fits into eight bits. -/
def LengthFits (input : Buffer) : Prop :=
  input.length < frameMinSize ∨ (frameTokensCount input).toNat ≤ 5 ∨
    input.length < frameLength input % 256 + inputFrameSignatureLen

/-- The length as it is computed: an odd number, so it does not wrap to zero. -/
theorem inputFrameDataLength_toNat (input : Buffer) :
    (inputFrameDataLength input).toNat =
      if frameMinSize ≤ input.length ∧
          frameLength input % 256 + inputFrameSignatureLen ≤ input.length then
        frameLength input % 256
      else 0 := by
  have wrapped : (UInt8.ofNat ((input.getD frameTokenCountPosition 0).toNat *
      frameTokenValuePairSize + frameTokenPrefixLen)).toNat = frameLength input % 256 := by
    rw [UInt8.toNat_ofNat', frameLength, frameTokensCount, Nat.add_comm, Nat.mul_comm]
  simp only [inputFrameDataLength, bufferCanRead, decide_eq_true_eq, wrapped]
  by_cases least : frameMinSize ≤ input.length
  · by_cases room : frameLength input % 256 + inputFrameSignatureLen ≤ input.length
    · rw [if_neg (not_not.mpr least), if_neg (not_not.mpr room), if_pos ⟨least, room⟩, wrapped]
    · rw [if_neg (not_not.mpr least), if_pos room, if_neg fun both => room both.2]
      rfl
  · rw [if_pos least, if_neg fun both => least both.1]
    rfl

private theorem frameLength_eq (input : Buffer) :
    frameLength input = 43 + 40 * (frameTokensCount input).toNat := rfl

/-- A length of zero is exact if the frame is not there. -/
private theorem lengthsExact_of_zero {input : Buffer} (zero : (inputFrameDataLength input).toNat = 0)
    (missing : ¬ HoldsFrame input) : LengthsExact input := by
  have none : inputFrameDataLength input = 0 := UInt8.toNat_inj.mp zero
  exact ⟨fun some => absurd none some, fun some => absurd none some,
    fun some => absurd none some, ⟨fun _ => missing, fun _ => none⟩⟩

/-- Five tokens are counted in eight bits. -/
private theorem lengthsExact_of_few {input : Buffer} (few : (frameTokensCount input).toNat ≤ 5) :
    LengthsExact input := by
  have length := inputFrameDataLength_toNat input
  have whole := frameLength_eq input
  have small : frameLength input % 256 = frameLength input := Nat.mod_eq_of_lt (by omega)
  rw [small] at length
  by_cases room : frameLength input + 16 ≤ input.length
  · have least : frameMinSize ≤ input.length := by
      change 59 ≤ input.length
      omega
    rw [if_pos ⟨least, room⟩] at length
    have some : inputFrameDataLength input ≠ 0 := by
      intro none
      rw [none, UInt8.toNat_zero] at length
      omega
    refine ⟨fun _ => ⟨length, room⟩, fun _ => ?_, fun _ => ?_, ?_⟩
    · rw [inputFrameSignaturePtr, if_neg some, length]
    · rw [frameTokensLen, UInt8.toNat_ofNat', Nat.mul_comm]
      exact Nat.mod_eq_of_lt (by rw [frameTokenValuePairSize]; omega)
    · exact ⟨fun none => absurd none some, fun missing => absurd room missing⟩
  · rw [if_neg fun both => room both.2] at length
    exact lengthsExact_of_zero length room

/-- The lengths are exact if and only if a length that wraps is not looked at: the input is too
short for any frame, has at most five tokens, or is too short for the wrapped length. -/
theorem input_frame_lengths_exact_iff (input : Buffer) :
    LengthsExact input ↔ LengthFits input := by
  have length := inputFrameDataLength_toNat input
  have whole := frameLength_eq input
  constructor
  · intro exact
    by_contra wraps
    obtain ⟨least, many⟩ := not_or.mp wraps
    obtain ⟨many, room⟩ := not_or.mp many
    rw [if_pos ⟨Nat.not_lt.mp least, Nat.not_lt.mp room⟩] at length
    have some : inputFrameDataLength input ≠ 0 := by
      intro none
      rw [none, UInt8.toNat_zero] at length
      omega
    have same := (exact.length some).1
    omega
  · intro fits
    cases fits with
    | inl short =>
        have short : input.length < 59 := short
        rw [if_neg fun both => absurd both.1 (Nat.not_le.mpr short)] at length
        apply lengthsExact_of_zero length
        intro holds
        have holds : frameLength input + 16 ≤ input.length := holds
        omega
    | inr fits =>
        cases fits with
        | inl few => exact lengthsExact_of_few few
        | inr short =>
            have short : input.length < frameLength input % 256 + 16 := short
            rw [if_neg fun both => absurd both.2 (Nat.not_le.mpr short)] at length
            apply lengthsExact_of_zero length
            intro holds
            have holds : frameLength input + 16 ≤ input.length := holds
            omega

/-- An input of 59 bytes that says it has 32 tokens is taken for a frame without tokens. -/
theorem input_frame_length_wraps :
    ¬ LengthsExact (List.replicate 42 0 ++ 32 :: List.replicate 16 0) ∧
      inputFrameDataLength (List.replicate 42 0 ++ 32 :: List.replicate 16 0) = 43 ∧
      frameTokensLen 32 = 0 := by
  refine ⟨?_, by decide, by decide⟩
  intro exact
  have same := (exact.length (by decide)).1
  exact absurd same (by decide)

end LedgerErgo
