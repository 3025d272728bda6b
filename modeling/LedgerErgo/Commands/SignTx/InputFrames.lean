import LedgerErgo.SigningSteps

/-! # Frames as calls

The signing command reads a frame of an attestation back as it was made: the box, its value, the
place of the frame and its tokens. The lengths that it computes for that fit into eight bits.
-/

namespace LedgerErgo.SignTx

open LedgerErgo.Common LedgerErgo.Ergo LedgerErgo.Prog

variable {sdk : Sdk} {frame : InputFrame} {rest : Buffer}

/-- What a frame says before its tokens. -/
def FrameHead.ofFrame (frame : InputFrame) : FrameHead where
  boxId := frame.boxId
  framesCount := frame.framesCount
  frameIndex := frame.frameIndex
  value := frame.value
  tokensCount := UInt8.ofNat frame.tokens.length

theorem readFrameHead_data :
    readFrameHead (frame.data ++ rest) =
      some (.ofFrame frame, frame.tokens.flatMap InputToken.bytes ++ rest) := by
  simp only [readFrameHead, InputFrame.data, InputFrame.front, List.append_assoc,
    bufferReadBytes_append, List.cons_append, List.nil_append, bufferReadU8,
    bufferReadU64_eq_some.mpr rfl, Option.bind_eq_bind, Option.bind_some, Option.pure_def,
    FrameHead.ofFrame]

/-- The length of the tokens does not wrap. -/
theorem tokensLen_data (few : frame.Few) :
    (frameTokensLen (UInt8.ofNat frame.tokens.length)).toNat =
      (frame.tokens.flatMap InputToken.bytes).length := by
  have few : frame.tokens.length ≤ 4 := few
  rw [InputFrame.length_tokens, frameTokensLen, frameTokenValuePairSize, UInt8.toNat_ofNat',
    UInt8.toNat_ofNat']
  omega

/-- The call for the tokens of a frame. -/
def tokensCall (frame : InputFrame) : OpCall :=
  .addInputTokens frame.boxId frame.frameIndex (frame.tokens.flatMap InputToken.bytes)

/-- The call that starts the input of a frame. -/
def inputCall (frame : InputFrame) (extensionLength : UInt32) : OpCall :=
  .addInput frame.boxId frame.value frame.framesCount extensionLength

/-- The first frame starts the input. -/
theorem calls_firstFrame (few : frame.Few) (first : frame.frameIndex = 0) :
    Subcommand.inputFrame.calls sdk (frame.data ++ rest) =
      ((bufferReadU32 (rest.drop inputFrameSignatureLen)).map fun read =>
        [inputCall frame read.1, tokensCall frame]).getD [] := by
  have head : (FrameHead.ofFrame frame).frameIndex = 0 := first
  have skipped : (frame.tokens.flatMap InputToken.bytes ++ rest).drop
      ((frame.tokens.flatMap InputToken.bytes).length + inputFrameSignatureLen) =
        rest.drop inputFrameSignatureLen := by
    rw [List.drop_append, List.drop_eq_nil_of_le (Nat.le_add_right _ _), List.nil_append,
      Nat.add_sub_cancel_left]
  simp only [Subcommand.calls, readFrameHead_data, Option.bind_eq_bind, Option.bind_some, if_pos head]
  rw [FrameHead.ofFrame, tokensLen_data few, skipped, List.take_left]
  cases bufferReadU32 (rest.drop inputFrameSignatureLen) <;> rfl

/-- Every other frame has tokens of the input that was started last. -/
theorem calls_laterFrame (few : frame.Few) (later : frame.frameIndex ≠ 0) :
    Subcommand.inputFrame.calls sdk (frame.data ++ rest) = [tokensCall frame] := by
  have head : (FrameHead.ofFrame frame).frameIndex ≠ 0 := later
  simp only [Subcommand.calls, readFrameHead_data, Option.bind_eq_bind, Option.bind_some, if_neg head]
  rw [FrameHead.ofFrame, tokensLen_data few, List.take_left]
  rfl

/-- A frame is nothing but these calls. -/
theorem mem_calls_inputFrame (few : frame.Few) {call : OpCall}
    (here : call ∈ Subcommand.inputFrame.calls sdk (frame.data ++ rest)) :
    call = tokensCall frame ∨
      frame.frameIndex = 0 ∧ ∃ extensionLength, call = inputCall frame extensionLength := by
  by_cases first : frame.frameIndex = 0
  · rw [calls_firstFrame few first] at here
    cases read : bufferReadU32 (rest.drop inputFrameSignatureLen) with
    | none =>
        rw [read] at here
        cases here
    | some extension =>
        rw [read] at here
        rcases List.mem_pair.mp here with rfl | rfl
        · exact .inr ⟨first, _, rfl⟩
        · exact .inl rfl
  · rw [calls_laterFrame few first] at here
    exact .inl (List.mem_singleton.mp here)

end LedgerErgo.SignTx
