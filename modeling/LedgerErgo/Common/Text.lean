import LedgerErgo.Common.Bip32

/-! # Texts of the screens

Every text is written into an array of a fixed size. A text that does not fit is cut or
refused, and which of the two happens depends on the function that writes it.
-/

namespace LedgerErgo.Common

/-- A text without its final zero. -/
abbrev Text := List Char

/-- `MAX_BIP32_STRING_LEN` -/
def maxBip32StringLen : Nat := 60

/-- `ERGO_ID_UI_CHARACTERS_HALF` -/
def ergoIdUiCharactersHalf : Nat := 26

/-- `ERGO_ERG_FRACTION_DIGIT_COUNT` -/
def ergoErgFractionDigitCount : Nat := 9

/-- What `snprintf` and `strncpy` leave of a text in an array of `outLen` bytes. -/
def clip (outLen : Nat) (text : Text) : Text := text.take (outLen - 1)

/-- The decimal digits of a number. -/
def decimal (n : Nat) : Text := Nat.toDigits 10 n

/-! ## Paths -/

/-- The apostrophe behind a hardened number. -/
def hardenedMark : Char := Char.ofNat 39

/-- The pieces of a path: each number, its mark if it is hardened, and the slash behind it. -/
def bip32Pieces : List UInt32 → List Text
  | [] => []
  | x :: xs =>
      decimal (x &&& 0x7FFFFFFF).toNat ::
        (if x &&& bip32HardenedConstant ≠ 0 then [[hardenedMark]] else []) ++
        (if xs = [] then [] else ['/'] :: bip32Pieces xs)

/-- A piece goes behind the text, as far as there is room for it. -/
def appendPiece (outLen : Nat) (text piece : Text) : Option Text :=
  let written := clip (outLen - text.length) piece
  if written.length = 0 then none else some (text ++ written)

/-- `bip32_path_format`: the last number may be cut. -/
def bip32PathFormat (path : Bip32Path) (outLen : Nat) : Option Text :=
  if path.path = [] then none else (bip32Pieces path.path).foldlM (appendPiece outLen) []

/-! ## Numbers and identifiers -/

/-- The text functions of the SDK: `format_fpu64` and `format_u64` as far as they are decimal
    texts of bounded length, `format_hex` if the text fits. -/
structure Formats where
  formatFpu64 : UInt64 → Nat → Text
  formatU64 : UInt64 → Text
  formatHex : List UInt8 → Text
  /-- Twenty digits and a point. -/
  length_formatFpu64 : ∀ value, (formatFpu64 value ergoErgFractionDigitCount).length ≤ 21
  /-- Two digits for each byte. -/
  length_formatHex : ∀ bytes, (formatHex bytes).length = 2 * bytes.length

/-- Texts without content, of the right lengths. -/
def Formats.blank : Formats :=
  ⟨fun _ _ => [], fun _ => [], fun bytes => List.replicate (2 * bytes.length) '0',
    fun _ => Nat.zero_le _, fun _ => List.length_replicate⟩

/-- `id_string_remove_middle` -/
def idStringRemoveMiddle (text : Text) : Text :=
  if text.length ≤ 2 * ergoIdUiCharactersHalf + 3 then text
  else text.take ergoIdUiCharactersHalf ++ ['.', '.', '.'] ++
    text.drop (text.length - ergoIdUiCharactersHalf)

/-- `format_hex_id` -/
def formatHexId (formats : Formats) (id : List UInt8) (outLen : Nat) : Option Text :=
  if outLen < (formats.formatHex id).length + 1 then none
  else some (idStringRemoveMiddle (formats.formatHex id))

/-- `format_erg_amount` -/
def formatErgAmount (formats : Formats) (amount : UInt64) (outLen : Nat) : Option Text :=
  let text := formats.formatFpu64 amount ergoErgFractionDigitCount
  if outLen < text.length + 1 then none
  else if outLen < 5 ∨ text.length > outLen - 5 then none
  else some (text ++ " ERG".toList)

/-- `BASE58_ALPHABET` -/
def base58Alphabet : Text := "123456789ABCDEFGHJKLMNPQRSTUVWXYZabcdefghijkmnopqrstuvwxyz".toList

/-- `MAX_ENC_INPUT_SIZE` -/
def maxEncInputSize : Nat := 120

/-- The text of `base58_encode`: a first digit for each zero byte in front, then the digits of the
    number. -/
def base58Text (bytes : List UInt8) : Text :=
  (bytes.takeWhile (· = 0)).map (fun _ => base58Alphabet.getD 0 ' ') ++
    (Nat.digits 58 (BigEndian.value bytes)).reverse.map fun digit => base58Alphabet.getD digit ' '

/-- `format_b58_id`, with `base58_encode` -/
def formatB58Id (id : List UInt8) (outLen : Nat) : Option Text :=
  if id.length > maxEncInputSize ∨ outLen < (base58Text id).length ∨ (base58Text id).length = 0
  then none
  else some (base58Text id)

/-- The text of an application token. -/
def applicationIdText (appId : UInt32) : Text :=
  "0x".toList ++ List.replicate (8 - (Nat.toDigits 16 appId.toNat).length) '0' ++
    Nat.toDigits 16 appId.toNat

end LedgerErgo.Common
