import LedgerErgo.Common.Gve
import LedgerErgo.Common.GveDecode
import LedgerErgo.Common.RwBufferCalls
import LedgerErgo.Lib.Zigzag

/-! # Writing variable length numbers into any buffer

A write appends the base-128 encoding of the number behind the write offset, or changes nothing
when there is no room for all of it. Signed numbers are zigzag numbers first, with one step more
for 32 bits: the word is widened to 64 bits as a signed number.
-/

namespace LedgerErgo.Common

open LedgerErgo.Prog

namespace RwBuffer

namespace Writable

variable {buffer : RwBuffer} {written : List UInt8}

/-- What is written stands behind the bytes that were there. -/
theorem slice_push (writable : buffer.Writable) :
    (buffer.push written).slice buffer.dataSize written.length = written := by
  have front : (buffer.bytes.take buffer.dataSize).length = buffer.dataSize :=
    List.length_take_of_le writable.write
  rw [slice, push, List.append_assoc, List.drop_append_of_le_length front.ge,
    List.drop_eq_nil_of_le front.le, List.nil_append, List.take_left']
  rfl

/-- The bytes from the read offset to the end of what was written. -/
private theorem drop_take_written {bytes tail : List UInt8} {offset dataSize : Nat}
    (read : offset ≤ dataSize) (write : dataSize ≤ bytes.length) :
    ((bytes.take dataSize ++ written ++ tail).drop offset).take
        (dataSize + written.length - offset) =
      (bytes.drop offset).take (dataSize - offset) ++ written := by
  have front : (bytes.take dataSize).length = dataSize := List.length_take_of_le write
  rw [List.append_assoc, List.drop_append_of_le_length (read.trans front.ge), ← List.append_assoc,
    List.drop_take, List.take_left']
  simp only [List.length_append, List.length_take, List.length_drop]
  omega

theorem data_push (writable : buffer.Writable) (read : buffer.offset ≤ buffer.dataSize)
    (room : written.length ≤ buffer.emptySpaceLen) :
    (buffer.push written).data = buffer.data ++ written := by
  have write := writable.write
  have small := writable.small
  rw [writable.emptySpaceLen] at room
  have length : buffer.dataLen = buffer.dataSize - buffer.offset := sizeSub_of_le read (by omega)
  have fits : buffer.dataSize + written.length < 2 ^ 32 := by omega
  have pushed : (buffer.push written).dataLen =
      buffer.dataSize + written.length - buffer.offset :=
    sizeSub_of_le (Nat.le_add_right_of_le read) fits
  rw [data, data, length, pushed]
  exact drop_take_written read write

end Writable

end RwBuffer

namespace Rw

open RwBuffer

variable {buffer next : RwBuffer} {written : List UInt8}

/-- The bytes go behind the data, or nothing happens. -/
structure Appends (put : RwM Unit) (bytes : List UInt8) (buffer : RwBuffer) : Prop where
  fits : bytes.length ≤ buffer.emptySpaceLen → put buffer = .ok () (buffer.push bytes)
  data : bytes.length ≤ buffer.emptySpaceLen → buffer.offset ≤ buffer.dataSize →
    (buffer.push bytes).data = buffer.data ++ bytes
  refused : buffer.emptySpaceLen < bytes.length → put buffer = .error () buffer

theorem gvePutU64_appends (val : UInt64) (writable : buffer.Writable) :
    Appends (gvePutU64 val) (vlq val.toNat) buffer := by
  have writes : writeBytes (gveGroups 10 val) buffer = _ := writeBytes_eq writable
  rw [gveGroups_ten] at writes
  have same : gvePutU64 val = writeBytes (vlq val.toNat) := by rw [gvePutU64, gveGroups_ten]
  constructor
  · intro fits
    rw [same, writes, if_pos fits]
  · intro fits read
    exact writable.data_push read fits
  · intro refused
    rw [same, writes, if_neg (Nat.not_le.mpr refused)]

end Rw

/-! ## Zigzag numbers -/

/-- `zigzag_encode_i32`: the word is signed when it is widened. -/
def zigzagEncodeI32 (v : Int32) : UInt64 := ((v <<< 1) ^^^ (v >>> 31)).toInt64.toUInt64

/-- `zigzag_decode_i32` -/
def zigzagDecodeI32 (v : UInt64) : Int32 :=
  (v.toUInt32 >>> 1).toInt32 ^^^ -(v.toUInt32.toInt32 &&& 1)

/-- `zigzag_encode_i64` -/
def zigzagEncodeI64 (v : Int64) : UInt64 := ((v <<< 1) ^^^ (v >>> 63)).toUInt64

/-- `zigzag_decode_i64` -/
def zigzagDecodeI64 (v : UInt64) : Int64 :=
  ((v >>> 1) ^^^ (-(v &&& 1).toInt64).toUInt64).toInt64

theorem zigzagEncodeI64_toNat (v : Int64) : (zigzagEncodeI64 v).toNat = Zigzag.encode v.toInt :=
  Zigzag.toNat_shift_xor (n := 63) v.toBitVec

theorem zigzagDecodeI64_toInt (v : UInt64) : (zigzagDecodeI64 v).toInt = Zigzag.decode v.toNat :=
  Zigzag.toInt_shift_xor (n := 63) v.toBitVec

theorem zigzagDecodeI32_toInt (v : UInt64) :
    (zigzagDecodeI32 v).toInt = Zigzag.decode (v.toNat % 2 ^ 32) := by
  have word := Zigzag.toInt_shift_xor (n := 31) v.toUInt32.toBitVec
  rw [← UInt64.toNat_toUInt32]
  exact word

/-- The word has the bits of the zigzag number, and its sign bit is spread when it is widened. -/
theorem zigzagEncodeI32_toNat (v : Int32) :
    (zigzagEncodeI32 v).toNat =
      if Zigzag.encode v.toInt < 2 ^ 31 then Zigzag.encode v.toInt
      else Zigzag.encode v.toInt + (2 ^ 64 - 2 ^ 32) := by
  have word : ((v <<< 1) ^^^ (v >>> 31)).toBitVec.toNat = Zigzag.encode v.toInt :=
    Zigzag.toNat_shift_xor (n := 31) v.toBitVec
  have widened : (zigzagEncodeI32 v).toNat =
      (((v <<< 1) ^^^ (v >>> 31)).toBitVec.signExtend 64).toNat := rfl
  have size := ((v <<< 1) ^^^ (v >>> 31)).toBitVec.isLt
  have small : ((v <<< 1) ^^^ (v >>> 31)).toBitVec.toNat < 2 ^ 64 :=
    Nat.lt_trans size (by decide)
  rw [widened, BitVec.toNat_signExtend, BitVec.toNat_setWidth, Nat.mod_eq_of_lt small,
    BitVec.msb_eq_decide, word]
  by_cases positive : Zigzag.encode v.toInt < 2 ^ 31
  · rw [if_pos positive, if_neg (by simpa using positive), Nat.add_zero]
  · rw [if_neg positive, if_pos (by simpa using positive)]

/-! ## Signed numbers -/

namespace Rw

variable {buffer : RwBuffer}

/-- `gve_put_i64` -/
def gvePutI64 (val : Int64) : RwM Unit := gvePutU64 (zigzagEncodeI64 val)

/-- `gve_put_i32` -/
def gvePutI32 (val : Int32) : RwM Unit := gvePutU64 (zigzagEncodeI32 val)

/-- `gve_put_i16` -/
def gvePutI16 (val : Int16) : RwM Unit := gvePutU32 (zigzagEncodeI32 val.toInt32).toUInt32

end Rw

/-- `gve_get_i64` -/
def gveGetI64 : GveM Int64 := do
  let u64 ← gveGetU64
  return zigzagDecodeI64 u64

/-- `gve_get_i32` -/
def gveGetI32 : GveM Int32 := do
  let u64 ← gveGetU64
  ensure (¬ u64 > 0xFFFFFFFF) .intToBig
  return zigzagDecodeI32 u64

/-- `gve_get_i16` -/
def gveGetI16 : GveM Int16 := do
  let i32 ← gveGetI32
  ensure (¬ (i32 > 32767 ∨ i32 < -32768)) .intToBig
  return i32.toInt16

variable {α : Type} {buffer : RwBuffer} {rest : Buffer}

/-- What is put is the variable length encoding of the zigzag number, and it is read back. -/
structure RoundTrip (put : α → RwM Unit) (get : GveM α) (number : α → Int) (v : α)
    (buffer : RwBuffer) : Prop where
  written : put v buffer = .ok () (buffer.push (vlq (Zigzag.encode (number v))))
  read : ∀ rest, get (vlq (Zigzag.encode (number v)) ++ rest) = .ok v rest

/-- A number of 64 bits is read back. -/
theorem gveGetU64_vlq (val : UInt64) : gveGetU64 (vlq val.toNat ++ rest) = .ok val rest := by
  have reads : Vlq.Reads 10 (vlq val.toNat ++ rest) val.toNat rest :=
    Vlq.Reads.encode (length_vlq_le_ten val)
  have fits : TopByteFits 9 (vlq val.toNat ++ rest) := by
    by_contra more
    have large := reads_of_not_fits more reads
    have small := val.toNat_lt
    omega
  exact (gveGetU64_ok fits).mpr reads

theorem roundTrip_i64 (writable : buffer.Writable) (room : 10 ≤ buffer.emptySpaceLen)
    (v : Int64) : RoundTrip Rw.gvePutI64 gveGetI64 Int64.toInt v buffer := by
  have number := zigzagEncodeI64_toNat v
  have short := length_vlq_le_ten (zigzagEncodeI64 v)
  have appends := Rw.gvePutU64_appends (zigzagEncodeI64 v) writable
  rw [number] at appends short
  constructor
  · exact appends.fits (short.trans room)
  · intro rest
    have wide : gveGetU64 (_ ++ rest) = _ := gveGetU64_vlq (zigzagEncodeI64 v)
    rw [number] at wide
    have same : zigzagDecodeI64 (zigzagEncodeI64 v) = v := by
      apply Int64.toInt_inj.mp
      rw [zigzagDecodeI64_toInt, number, Zigzag.decode_encode]
    rw [gveGetI64, bind_of_ok wide, same]
    rfl

/-- A zigzag number of 32 bits is read, whether or not it was written by `gve_put_i32`. -/
theorem gveGetI32_vlq {v : Int32} (val : UInt64) (number : val.toNat = Zigzag.encode v.toInt) :
    gveGetI32 (vlq val.toNat ++ rest) = .ok v rest := by
  have small : Zigzag.encode v.toInt < 2 * 2 ^ 31 :=
    Zigzag.encode_lt.mpr ⟨v.le_toInt, v.toInt_lt⟩
  have same : zigzagDecodeI32 val = v := by
    apply Int32.toInt_inj.mp
    rw [zigzagDecodeI32_toInt, number, Nat.mod_eq_of_lt (by omega), Zigzag.decode_encode]
  have inside : ¬ val > 0xFFFFFFFF := by
    rw [gt_iff_lt, UInt64.lt_iff_toNat_lt, number]
    change ¬ 4294967295 < Zigzag.encode v.toInt
    omega
  rw [gveGetI32, bind_of_ok (gveGetU64_vlq val), bind_of_ok (ensure_of inside), same]
  rfl

theorem roundTrip_i32 (writable : buffer.Writable) (room : 10 ≤ buffer.emptySpaceLen)
    {v : Int32} (low : -2 ^ 30 ≤ v.toInt) (high : v.toInt < 2 ^ 30) :
    RoundTrip Rw.gvePutI32 gveGetI32 Int32.toInt v buffer := by
  have small : Zigzag.encode v.toInt < 2 * 2 ^ 30 := Zigzag.encode_lt.mpr ⟨low, high⟩
  have number : (zigzagEncodeI32 v).toNat = Zigzag.encode v.toInt := by
    rw [zigzagEncodeI32_toNat, if_pos (by omega)]
  have short := length_vlq_le_ten (zigzagEncodeI32 v)
  have appends := Rw.gvePutU64_appends (zigzagEncodeI32 v) writable
  rw [number] at appends short
  constructor
  · exact appends.fits (short.trans room)
  · intro rest
    rw [← number]
    exact gveGetI32_vlq (zigzagEncodeI32 v) number

/-- Buffers that differ in what was pushed last show it. -/
theorem push_injective (writable : buffer.Writable) {first second : List UInt8}
    (same : buffer.push first = buffer.push second) : first = second := by
  have lengths : buffer.dataSize + first.length = buffer.dataSize + second.length :=
    congrArg RwBuffer.dataSize same
  calc first
    _ = (buffer.push first).slice buffer.dataSize first.length := writable.slice_push.symm
    _ = (buffer.push second).slice buffer.dataSize second.length := by
      rw [same, Nat.add_left_cancel lengths]
    _ = second := writable.slice_push

/-- A larger magnitude is widened with its sign bit: other bytes are written. -/
theorem not_roundTrip_i32 (writable : buffer.Writable) (room : 10 ≤ buffer.emptySpaceLen)
    {v : Int32} (large : ¬ (-2 ^ 30 ≤ v.toInt ∧ v.toInt < 2 ^ 30)) :
    ¬ RoundTrip Rw.gvePutI32 gveGetI32 Int32.toInt v buffer := by
  intro trip
  have many : ¬ Zigzag.encode v.toInt < 2 * 2 ^ 30 := mt Zigzag.encode_lt.mp large
  have number : (zigzagEncodeI32 v).toNat = Zigzag.encode v.toInt + (2 ^ 64 - 2 ^ 32) := by
    rw [zigzagEncodeI32_toNat, if_neg (by omega)]
  have short := length_vlq_le_ten (zigzagEncodeI32 v)
  have put := (Rw.gvePutU64_appends (zigzagEncodeI32 v) writable).fits (short.trans room)
  have same := put.symm.trans trip.written
  have numbers := Vlq.encode_injective (push_injective writable (EStateM.Result.ok.inj same).2)
  omega

theorem roundTrip_i16 (writable : buffer.Writable) (room : 10 ≤ buffer.emptySpaceLen)
    (v : Int16) : RoundTrip Rw.gvePutI16 gveGetI16 Int16.toInt v buffer := by
  have low := v.le_toInt
  have high := v.toInt_lt
  have small : Zigzag.encode v.toInt < 2 * 2 ^ 15 := Zigzag.encode_lt.mpr ⟨low, high⟩
  have wide : v.toInt32.toInt = v.toInt := Int16.toInt_toInt32 v
  have encoded : (zigzagEncodeI32 v.toInt32).toNat = Zigzag.encode v.toInt := by
    rw [zigzagEncodeI32_toNat, wide, if_pos (by omega)]
  have number : (zigzagEncodeI32 v.toInt32).toUInt32.toUInt64.toNat = Zigzag.encode v.toInt := by
    rw [UInt32.toNat_toUInt64, UInt64.toNat_toUInt32, encoded, Nat.mod_eq_of_lt (by omega)]
  have short := length_vlq_le_ten (zigzagEncodeI32 v.toInt32).toUInt32.toUInt64
  have appends := Rw.gvePutU64_appends (zigzagEncodeI32 v.toInt32).toUInt32.toUInt64 writable
  rw [number] at appends short
  constructor
  · exact appends.fits (short.trans room)
  · intro rest
    have read : gveGetI32 (_ ++ rest) = _ := gveGetI32_vlq _ (number.trans (by rw [wide]))
    rw [number] at read
    have inside : ¬ (v.toInt32 > 32767 ∨ v.toInt32 < -32768) := by
      rw [gt_iff_lt, Int32.lt_iff_toInt_lt, Int32.lt_iff_toInt_lt, wide]
      change ¬ ((32767 : Int) < v.toInt ∨ v.toInt < -32768)
      omega
    rw [gveGetI16, bind_of_ok read, bind_of_ok (ensure_of inside), Int16.toInt16_toInt32]
    rfl

/-- Signed numbers of 16 and 64 bits make the round trip; those of 32 bits exactly if their
zigzag number has 31 bits. -/
theorem gve_signed_round_trip_iff (writable : buffer.Writable) (room : 10 ≤ buffer.emptySpaceLen) :
    (∀ v : Int16, RoundTrip Rw.gvePutI16 gveGetI16 Int16.toInt v buffer) ∧
      (∀ v : Int64, RoundTrip Rw.gvePutI64 gveGetI64 Int64.toInt v buffer) ∧
      ∀ v : Int32, RoundTrip Rw.gvePutI32 gveGetI32 Int32.toInt v buffer ↔
        -2 ^ 30 ≤ v.toInt ∧ v.toInt < 2 ^ 30 := by
  refine ⟨roundTrip_i16 writable room, roundTrip_i64 writable room, fun v => ?_⟩
  constructor
  · intro trip
    by_contra large
    exact not_roundTrip_i32 writable room large trip
  · intro range
    exact roundTrip_i32 writable room range.1 range.2

theorem scratch_writable : (RwBuffer.newLocalEmpty 10).Writable := ⟨by decide, by decide⟩

theorem gve_signed_round_trip_iff_scratch :
    (∀ v : Int16, RoundTrip Rw.gvePutI16 gveGetI16 Int16.toInt v (.newLocalEmpty 10)) ∧
      (∀ v : Int64, RoundTrip Rw.gvePutI64 gveGetI64 Int64.toInt v (.newLocalEmpty 10)) ∧
      ∀ v : Int32, RoundTrip Rw.gvePutI32 gveGetI32 Int32.toInt v (.newLocalEmpty 10) ↔
        -2 ^ 30 ≤ v.toInt ∧ v.toInt < 2 ^ 30 :=
  gve_signed_round_trip_iff scratch_writable (by decide)

/-- The number 2 ^ 30 is written in ten bytes, and the read of 32 bits refuses them. -/
theorem gve_put_i32_too_big :
    ¬ RoundTrip Rw.gvePutI32 gveGetI32 Int32.toInt (2 ^ 30) (.newLocalEmpty 10) ∧
      RwBuffer.scratch 10 (fun buffer => gvePutU64 buffer (zigzagEncodeI32 (2 ^ 30))) =
        some [0x80, 0x80, 0x80, 0x80, 0xF8, 0xFF, 0xFF, 0xFF, 0xFF, 0x01] ∧
      gveGetI32 [0x80, 0x80, 0x80, 0x80, 0xF8, 0xFF, 0xFF, 0xFF, 0xFF, 0x01] =
        .error .intToBig [] := by
  refine ⟨not_roundTrip_i32 scratch_writable (by decide) ?_, by decide +kernel, rfl⟩
  decide

/-! ## The encoding -/

/-- A write of a number appends its canonical encoding or changes nothing, and encodings one
after the other can be read back. -/
theorem gve_put_u64_canonical :
    (∀ (val : UInt64) (buffer : RwBuffer), buffer.Writable →
        Rw.Appends (Rw.gvePutU64 val) (vlq val.toNat) buffer) ∧
      (∀ val : UInt64, 1 ≤ (vlq val.toNat).length ∧ (vlq val.toNat).length ≤ 10 ∧
        Vlq.value (vlq val.toNat) = val.toNat ∧ Vlq.Canonical (vlq val.toNat)) ∧
      (∀ v w : UInt64, v ≠ w → ¬ vlq v.toNat <+: vlq w.toNat) ∧
      Function.Injective fun vals : List UInt64 => vals.flatMap fun val => vlq val.toNat := by
  refine ⟨fun val buffer => Rw.gvePutU64_appends val, fun val => ?_, ?_, ?_⟩
  · exact ⟨List.length_pos_iff.mpr (Vlq.encode_ne_nil _), length_vlq_le_ten val,
      Vlq.value_encode _, Vlq.canonical_encode _⟩
  · intro v w different front
    exact different (UInt64.toNat_inj.mp (Vlq.eq_of_prefix front))
  · intro vs ws same
    have numbers : vs.map UInt64.toNat = ws.map UInt64.toNat := by
      apply Vlq.flatMap_encode_injective
      rw [List.flatMap_map, List.flatMap_map]
      exact same
    exact List.map_injective_iff.mpr (fun a b => UInt64.toNat_inj.mp) numbers

theorem gve_put_u64_canonical_scratch :
    Rw.Appends (Rw.gvePutU64 300) (vlq 300) (.newLocalEmpty 10) :=
  gve_put_u64_canonical.1 300 _ scratch_writable

end LedgerErgo.Common
