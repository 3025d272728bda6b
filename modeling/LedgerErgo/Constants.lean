import LedgerErgo.Lib.BigEndian

/-! # Constants of the application -/

namespace LedgerErgo

/-- `TOKEN_MAX_COUNT`: the most tokens a transaction may mention. -/
def tokenMaxCount : Nat := 100

/-- `MAX_TX_DATA_PART_LEN`: the longest tree, registers blob or context extension. -/
def maxTxDataPartLen : UInt32 := 32768

/-- `MAX_DATA_CHUNK_LEN`: the longest chunk of one of them. -/
def maxDataChunkLen : Nat := 255

/-- `SESSION_KEY_LEN` -/
def sessionKeyLen : Nat := 16

/-- The size of the buffer a response is written into, with room for the status word. -/
def ioApduBufferSize : Nat := 260

/-- `MAX_NUMBER_OF_SCREENS` -/
def maxNumberOfScreens : Nat := 16

/-- An identifier of `ERGO_ID_LEN` bytes. -/
abbrev ErgoId := Bytes 32

/-- An uncompressed public key, `PUBLIC_KEY_LEN` bytes. -/
abbrev PublicKey := Bytes 65

end LedgerErgo
