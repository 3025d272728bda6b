import LedgerErgo.Ergo.TxSerFull

/-! # Status words

A response ends with a status word. The two-byte codes are left out: nothing compares them
with anything but each other.
-/

namespace LedgerErgo

open LedgerErgo.Ergo

/-- The status words of `sw.h`. -/
inductive Sw where
  | ok | deny | wrongP1P2 | wrongApduDataLength | insNotSupported | claNotSupported | busy
  | wrongResponseLength | badSessionId | wrongSubcommand | screensBufferOverflow | badState
  | badTokenId | badTokenValue | badContextExtensionSize | badDataInput | badBoxId
  | badTokenIndex | badFrameIndex | badInputCount | badOutputCount | tooManyTokens
  | tooManyInputs | tooManyDataInputs | tooManyInputFrames | tooManyOutputs | hasherError
  | bufferError | u64Overflow | bip32BadPath | internalCryptoError | notEnoughData | tooMuchData
  | addressGenerationFailed | schnorrSigningFailed | badFrameSignature | badNetTypeValue
  | smallChunk | bip32FormattingFailed | addressFormattingFailed
deriving Repr, DecidableEq

/-- `sw_from_tx_full_result`, of an error -/
def swFromTxFullErr : FullErr → Sw
  | .badTokenId => .badTokenId
  | .badTokenValue => .badTokenValue
  | .badContextExtensionSize => .badContextExtensionSize
  | .badDataInput => .badDataInput
  | .badInputId => .badBoxId
  | .badTokenIndex => .badTokenIndex
  | .badFrameIndex => .badFrameIndex
  | .badInputCount => .badInputCount
  | .badOutputCount => .badOutputCount
  | .tooManyTokens => .tooManyTokens
  | .tooManyInputs => .tooManyInputs
  | .tooManyDataInputs => .tooManyDataInputs
  | .tooManyInputFrames => .tooManyInputFrames
  | .tooManyOutputs => .tooManyOutputs
  | .tooMuchData => .tooMuchData
  | .hasher => .hasherError
  | .buffer => .bufferError
  | .badState => .badState
  | .u64Overflow => .u64Overflow
  | .smallChunk => .smallChunk

/-- `sw_from_tx_box_result`, of an error -/
def swFromTxBoxErr : BoxErr → Sw
  | .badTokenIndex => .badTokenIndex
  | .badTokenId => .badTokenId
  | .badTokenValue => .badTokenValue
  | .tooManyTokens => .tooManyTokens
  | .tooMuchData => .tooMuchData
  | .hasher => .hasherError
  | .buffer => .bufferError
  | .badState => .badState
  | .u64Overflow => .u64Overflow
  | .smallChunk => .smallChunk

end LedgerErgo
