import LedgerErgo.Commands.AttestInput.Context
import LedgerErgo.Common.RwBuffer
import LedgerErgo.Helpers.InputFrame
import LedgerErgo.Helpers.Sdk
import LedgerErgo.Sw

/-! # Frames of an attested box

A finished attestation hands out the tokens of the box in frames of four, the last one with
what is left; a box without tokens has one frame. A frame is written into the buffer of the
response and signed there.
-/

namespace LedgerErgo.AttestInput

open LedgerErgo.Common LedgerErgo.Ergo

/-- `CHECK_WRITE_PARAM`; the handler of the error resets the application. -/
def checkWriteParam {α : Type} (written : Option α) : Except Sw α :=
  match written with
  | some a => .ok a
  | none => .error .bufferError

/-- `get_frames_count` -/
def getFramesCount (tokensCount : UInt8) : UInt8 :=
  let framesCount :=
    UInt8.ofNat ((tokensCount.toNat + (frameMaxTokensCount - 1)) / frameMaxTokensCount)
  if framesCount = 0 then 1 else framesCount

theorem framesCount_toNat {tokensCount : Nat} (bounded : tokensCount ≤ tokenMaxCount) :
    (getFramesCount (UInt8.ofNat tokensCount)).toNat = max 1 ((tokensCount + 3) / 4) := by
  have bounded : tokensCount ≤ 100 := bounded
  have count : (UInt8.ofNat tokensCount).toNat = tokensCount := by
    rw [UInt8.toNat_ofNat']
    omega
  have quotient : (UInt8.ofNat ((tokensCount + 3) / 4)).toNat = (tokensCount + 3) / 4 := by
    rw [UInt8.toNat_ofNat']
    omega
  simp only [getFramesCount, frameMaxTokensCount, count]
  split
  · rename_i zero
    have none : (UInt8.ofNat ((tokensCount + 3) / 4)).toNat = 0 := congrArg UInt8.toNat zero
    rw [quotient] at none
    simp only [UInt8.toNat_one]
    omega
  · rename_i some
    have positive : (UInt8.ofNat ((tokensCount + 3) / 4)).toNat ≠ 0 := fun zero =>
      some (UInt8.toNat_inj.mp zero)
    rw [quotient] at positive
    exact quotient.trans (by omega)

section Response

variable [SharedLayout]

/-- The loop over the slots `i, …, i + n - 1`. -/
def writeTokens (ctx : AttestInputCtx) (i : Nat) : Nat → RwBuffer → Option RwBuffer
  | 0, output => some output
  | n + 1, output => do
      let output ← output.writeBytes (ctx.tokensTable.slot i).val
      let output ← output.writeU64 (ctx.shared.amounts[i]?.getD 0)
      writeTokens ctx (i + 1) n output

/-- `send_response_attested_input_frame`: the bytes that were signed and the response. -/
def sendResponseAttestedInputFrame (sdk : Sdk) (ctx : AttestInputCtx)
    (sessionKey : Bytes sessionKeyLen) (index : UInt8) : Except Sw (List UInt8 × List UInt8) := do
  let count := UInt8.ofNat ctx.tokensTable.count
  let framesCount := getFramesCount count
  if index ≥ framesCount then throw .badFrameIndex
  let output := RwBuffer.newLocalEmpty (ioApduBufferSize - 2)
  let output ← checkWriteParam (output.writeBytes ctx.boxId.val)
  let output ← checkWriteParam (output.writeU8 framesCount)
  let output ← checkWriteParam (output.writeU8 index)
  let output ← checkWriteParam (output.writeU64 ctx.box.value)
  let tokensCount := min (count - index * 4) 4
  let output ← checkWriteParam (output.writeU8 tokensCount)
  let offset := index * 4
  if offset.toNat + tokensCount.toNat > 255 then throw .tooMuchData
  let output ← checkWriteParam (writeTokens ctx offset.toNat tokensCount.toNat output)
  if ¬ output.canWrite 32 then throw .bufferError
  let signed := output.data
  let output := output.poke (sdk.hmacSha256 sessionKey.val signed).val
  let output ← checkWriteParam (output.seekWriteCur inputFrameSignatureLen)
  return (signed, output.data)

/-- The tokens of the box with their amounts. -/
def AttestInputCtx.attested (ctx : AttestInputCtx) : List InputToken :=
  ctx.tokensTable.tokens.zip ctx.shared.amounts.toList

/-- The frame with an index. -/
def AttestInputCtx.frame (ctx : AttestInputCtx) (index : UInt8) : InputFrame where
  boxId := ctx.boxId
  framesCount := getFramesCount (UInt8.ofNat ctx.tokensTable.count)
  frameIndex := index
  value := ctx.box.value
  tokens := (ctx.attested.drop (index.toNat * frameMaxTokensCount)).take frameMaxTokensCount

/-! ## What the response is -/

variable {ctx : AttestInputCtx}

@[simp] theorem length_attested : ctx.attested.length = ctx.tokensTable.count := by
  have bounded := ctx.tokensTable.bounded
  simp only [AttestInputCtx.attested, List.length_zip, Vector.length_toList, TokenTable.count]
  omega

theorem attested_getElem {i : Nat} (within : i < ctx.attested.length) :
    ctx.attested[i] = (ctx.tokensTable.slot i, ctx.shared.amounts[i]?.getD 0) := by
  have within' : i < ctx.tokensTable.tokens.length := by simpa [TokenTable.count] using within
  have room : i < tokenMaxCount := Nat.lt_of_lt_of_le within' ctx.tokensTable.bounded
  simp [AttestInputCtx.attested, TokenTable.slot_eq_getElem within', room]

theorem few_frame {index : UInt8} : (ctx.frame index).Few :=
  List.length_take_le ..

theorem writeTokens_succ {i n : Nat} {output middle next : RwBuffer}
    (id : output.writeBytes (ctx.tokensTable.slot i).val = some middle)
    (amount : middle.writeU64 (ctx.shared.amounts[i]?.getD 0) = some next) :
    writeTokens ctx i (n + 1) output = writeTokens ctx (i + 1) n next := by
  have unfolded : writeTokens ctx i (n + 1) output = (do
      let output ← output.writeBytes (ctx.tokensTable.slot i).val
      let output ← output.writeU64 (ctx.shared.amounts[i]?.getD 0)
      writeTokens ctx (i + 1) n output) := rfl
  rw [unfolded, id, Option.bind_eq_bind, Option.bind_some, amount, Option.bind_some]

theorem writeTokens_holds {i n capacity : Nat} {output : RwBuffer} {held : List UInt8}
    (holds : output.Holds capacity held) (within : i + n ≤ ctx.attested.length)
    (room : held.length + n * frameTokenValuePairSize ≤ capacity) :
    ∃ next, writeTokens ctx i n output = some next ∧
      next.Holds capacity (held ++ ((ctx.attested.drop i).take n).flatMap InputToken.bytes) := by
  induction n generalizing i held output with
  | zero => exact ⟨output, rfl, by simpa using holds⟩
  | succ n ih =>
      rw [frameTokenValuePairSize] at room
      have here : i < ctx.attested.length := by omega
      have fits : held.length + (ctx.tokensTable.slot i).val.length ≤ capacity := by
        rw [Bytes.length_val]
        omega
      have id := holds.push fits
      have fits' : (held ++ (ctx.tokensTable.slot i).val).length +
          (u64Bytes (ctx.shared.amounts[i]?.getD 0)).length ≤ capacity := by
        rw [List.length_append, Bytes.length_val, length_u64Bytes]
        omega
      have amount := id.push fits'
      obtain ⟨next, ran, done⟩ := ih (i := i + 1) amount (by omega) (by
        simp only [List.length_append, Bytes.length_val, length_u64Bytes, frameTokenValuePairSize]
        omega)
      refine ⟨next, ?_, ?_⟩
      · have first := holds.writeBytes_ok.mpr ⟨fits, rfl⟩
        have second := id.writeBytes_ok.mpr ⟨fits', rfl⟩
        rw [writeTokens_succ first second]
        exact ran
      · rw [List.drop_eq_getElem_cons here, List.take_succ_cons, List.flatMap_cons,
          attested_getElem here]
        simpa only [InputToken.bytes, List.append_assoc] using done

end Response

end LedgerErgo.AttestInput
