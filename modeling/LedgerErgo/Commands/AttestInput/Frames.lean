import LedgerErgo.Commands.AttestInput.Attestation
import LedgerErgo.Lib.Pieces

/-! # The frames of a finished session

A session that is finished hands out frames for the indices below the number of frames, and for no
others. A frame has at most four tokens and fits the response; all frames together have the tokens
of the box, in their order.
-/

namespace LedgerErgo.AttestInput

open LedgerErgo.Common LedgerErgo.Ergo

variable [SharedLayout] {ctx : AttestInputCtx} {index : UInt8} {sdk : Sdk}
  {sessionKey : Bytes sessionKeyLen}

/-- The number of frames of the box. -/
def AttestInputCtx.framesCount (ctx : AttestInputCtx) : UInt8 :=
  getFramesCount (UInt8.ofNat ctx.tokensTable.count)

omit [SharedLayout] in
theorem toNat_framesCount : ctx.framesCount.toNat = max 1 ((ctx.tokensTable.count + 3) / 4) :=
  framesCount_toNat ctx.tokensTable.bounded

/-! ## The frame with an index -/

omit [SharedLayout] in
/-- The tokens of a frame start inside of the table, and their place does not wrap. -/
theorem offset_le (within : index < ctx.framesCount) :
    index.toNat * 4 ≤ ctx.tokensTable.count ∧ (index * 4).toNat = index.toNat * 4 := by
  have bounded : ctx.tokensTable.count ≤ 100 := ctx.tokensTable.bounded
  have below : index.toNat < ctx.framesCount.toNat := within
  rw [toNat_framesCount] at below
  have start : index.toNat * 4 ≤ ctx.tokensTable.count := by omega
  refine ⟨start, ?_⟩
  rw [UInt8.toNat_mul]
  exact Nat.mod_eq_of_lt (Nat.lt_of_le_of_lt start (by omega))

/-- The number of the tokens of a frame is the one that is computed for it. -/
theorem length_tokens_frame (within : index < ctx.framesCount) :
    min (UInt8.ofNat ctx.tokensTable.count - index * 4) 4 =
      UInt8.ofNat (ctx.frame index).tokens.length := by
  obtain ⟨start, offset⟩ := offset_le within
  have bounded : ctx.tokensTable.count ≤ 100 := ctx.tokensTable.bounded
  have count : (UInt8.ofNat ctx.tokensTable.count).toNat = ctx.tokensTable.count := by
    rw [UInt8.toNat_ofNat']
    omega
  have rest : (UInt8.ofNat ctx.tokensTable.count - index * 4).toNat =
      ctx.tokensTable.count - index.toNat * 4 := by
    rw [UInt8.toNat_sub_of_le _ _ (UInt8.le_iff_toNat_le.mpr (by omega)), count, offset]
  have length : (ctx.frame index).tokens.length = min 4 (ctx.tokensTable.count - index.toNat * 4) := by
    rw [AttestInputCtx.frame, List.length_take, List.length_drop, length_attested]
    rfl
  rw [length]
  have chosen : min (UInt8.ofNat ctx.tokensTable.count - index * 4) 4 =
      if UInt8.ofNat ctx.tokensTable.count - index * 4 ≤ 4 then
        UInt8.ofNat ctx.tokensTable.count - index * 4 else 4 := rfl
  rw [chosen]
  split
  · rename_i few
    have few : (UInt8.ofNat ctx.tokensTable.count - index * 4).toNat ≤ 4 := few
    rw [Nat.min_eq_right (rest ▸ few), ← rest, UInt8.ofNat_toNat]
  · rename_i many
    have many : 4 < (UInt8.ofNat ctx.tokensTable.count - index * 4).toNat := UInt8.not_le.mp many
    rw [Nat.min_eq_left (rest ▸ many.le)]
    rfl

omit [SharedLayout] in
/-- A write that fits goes on. -/
theorem writes {α : Type} {buffer : RwBuffer} {capacity : Nat} {held : List UInt8}
    (holds : buffer.Holds capacity held) (written : List UInt8)
    (room : held.length + written.length ≤ capacity) :
    ∃ next, next.Holds capacity (held ++ written) ∧ ∀ rest : RwBuffer → Except Sw α,
      (checkWriteParam (buffer.writeBytes written) >>= rest) = rest next := by
  have wrote : buffer.writeBytes written = some (buffer.push written) :=
    holds.writeBytes_ok.mpr ⟨room, rfl⟩
  refine ⟨buffer.push written, holds.push room, fun rest => ?_⟩
  rw [wrote]
  rfl

/-- A frame with an index below their number is the one that is due, with its signature. -/
theorem sendResponse_ok (within : index < ctx.framesCount) :
    sendResponseAttestedInputFrame sdk ctx sessionKey index =
      .ok ((ctx.frame index).data,
        (ctx.frame index).data ++ frameSignature sdk sessionKey (ctx.frame index).data) := by
  obtain ⟨start, offset⟩ := offset_le within
  have bounded : ctx.tokensTable.count ≤ 100 := ctx.tokensTable.bounded
  have few : (ctx.frame index).tokens.length ≤ 4 := few_frame
  have count := length_tokens_frame within
  have small : (UInt8.ofNat (ctx.frame index).tokens.length).toNat =
      (ctx.frame index).tokens.length := by
    rw [UInt8.toNat_ofNat']
    omega
  have length : (ctx.frame index).tokens.length = min 4 (ctx.tokensTable.count - index.toNat * 4) := by
    rw [AttestInputCtx.frame, List.length_take, List.length_drop, length_attested]
    rfl
  have tokens : (ctx.attested.drop (index.toNat * 4)).take (ctx.frame index).tokens.length =
      (ctx.frame index).tokens := by
    rw [AttestInputCtx.frame, frameMaxTokensCount, List.length_take, ← List.take_eq_take_min]
  have within' : index.toNat * 4 + (ctx.frame index).tokens.length ≤ ctx.attested.length := by
    rw [length_attested, length]
    omega
  have whole : [] ++ ctx.boxId.val ++ [ctx.framesCount] ++ [index] ++ u64Bytes ctx.box.value ++
      [UInt8.ofNat (ctx.frame index).tokens.length] ++ (ctx.frame index).tokens.flatMap InputToken.bytes =
        (ctx.frame index).data := by
    simp [InputFrame.data, InputFrame.front, AttestInputCtx.frame, AttestInputCtx.framesCount]
  have room : (ctx.frame index).data.length + 32 ≤ 258 := by
    rw [InputFrame.length_data, frameTokenValuePairSize, frameTokenPrefixLen, frameTokenCountPosition]
    omega
  have empty : (RwBuffer.newLocalEmpty (ioApduBufferSize - 2)).Holds 258 [] := .empty (by decide)
  obtain ⟨_, id, wroteId⟩ := writes empty ctx.boxId.val (by simp)
  obtain ⟨_, framesCount, wroteCount⟩ := writes id [ctx.framesCount] (by simp)
  obtain ⟨_, frameIndex, wroteIndex⟩ := writes framesCount [index] (by simp)
  obtain ⟨_, value, wroteValue⟩ := writes frameIndex (u64Bytes ctx.box.value) (by simp)
  obtain ⟨_, front, wroteFront⟩ :=
    writes value [UInt8.ofNat (ctx.frame index).tokens.length] (by simp)
  obtain ⟨output, wrote, holds⟩ := writeTokens_holds front within' (by
    simp only [List.nil_append, List.length_append, Bytes.length_val, length_u64Bytes, List.length_cons,
      List.length_nil, frameTokenValuePairSize]
    omega)
  rw [tokens, whole] at holds
  have frames : getFramesCount (UInt8.ofNat ctx.tokensTable.count) = ctx.framesCount := rfl
  unfold sendResponseAttestedInputFrame
  simp only [RwBuffer.writeU8_eq, RwBuffer.writeU64_eq]
  rw [frames, if_neg (UInt8.not_le.mpr within : ¬ index ≥ ctx.framesCount), wroteId, wroteCount,
    wroteIndex, wroteValue, count, wroteFront, offset, small, if_neg (by omega), wrote]
  obtain ⟨response, poked, signed⟩ := @RwBuffer.Holds.poke output 258 (ctx.frame index).data holds
    (sdk.hmacSha256 sessionKey.val output.data).val inputFrameSignatureLen
    (by rwa [Bytes.length_val]) (by rw [Bytes.length_val]; decide)
  have wroteTokens : checkWriteParam (some output) = pure output := rfl
  have wroteSignature : checkWriteParam (some response) = pure response := rfl
  rw [wroteTokens, pure_bind, if_neg (not_not.mpr (holds.canWrite.mpr room)), poked, wroteSignature,
    pure_bind, signed.data_eq, holds.data_eq]
  rfl

/-- An index that no frame has is refused. -/
theorem sendResponse_refuses (behind : ¬ index < ctx.framesCount) :
    sendResponseAttestedInputFrame sdk ctx sessionKey index = .error .badFrameIndex := by
  have behind : index ≥ getFramesCount (UInt8.ofNat ctx.tokensTable.count) := UInt8.not_lt.mp behind
  unfold sendResponseAttestedInputFrame
  dsimp only
  rw [if_pos behind]
  rfl

/-! ## All frames together -/

/-- The tokens of all frames are those of the box. -/
theorem tokens_frames (ctx : AttestInputCtx) :
    (List.range ctx.framesCount.toNat).flatMap (fun i => (ctx.frame (UInt8.ofNat i)).tokens) =
      ctx.attested := by
  have few : ctx.tokensTable.count ≤ 100 := ctx.tokensTable.bounded
  have count : ctx.framesCount.toNat = max 1 ((ctx.tokensTable.count + 3) / 4) := toNat_framesCount
  have all : ctx.attested.length ≤ (List.range ctx.framesCount.toNat).length * 4 := by
    rw [length_attested, List.length_range]
    omega
  refine (flatMap_of_blocks fun i within => ?_).trans (List.take_of_length_le all)
  rw [List.length_range] at within
  have small : (UInt8.ofNat i).toNat = i := by
    rw [UInt8.toNat_ofNat']
    omega
  simp only [List.getElem_range, AttestInputCtx.frame, small, frameMaxTokensCount]

/-- The frame is one of those of the box that was sent, which has these tokens. -/
structure Delivery.HasFrame (sdk : Sdk) (d : Delivery) (tokens : List InputToken) (frame : InputFrame) :
    Prop where
  carries : d.Carries tokens
  boxId : frame.boxId = d.boxId sdk tokens
  value : frame.value = d.params.value
  framesCount : frame.framesCount.toNat = max 1 ((tokens.length + 3) / frameMaxTokensCount)
  frameIndex : frame.frameIndex < frame.framesCount
  tokens : frame.tokens =
    (tokens.drop (frame.frameIndex.toNat * frameMaxTokensCount)).take frameMaxTokensCount

theorem Delivered.hasFrame {d : Delivery} {app : App} (delivered : Delivered sdk d app)
    (within : index < app.attestInputCtx.framesCount) :
    d.HasFrame sdk app.attestInputCtx.attested (app.attestInputCtx.frame index) where
  carries := delivered.carries
  boxId := delivered.boxId
  value := delivered.value
  framesCount := by
    rw [length_attested]
    exact toNat_framesCount
  frameIndex := within
  tokens := rfl

end LedgerErgo.AttestInput
