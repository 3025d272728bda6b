import LedgerErgo.Common.Buffer
import LedgerErgo.Lib.Prog

/-! # Read and write buffers

An `rw_buffer_t` is an array with a read offset and a write offset; the bytes
between the two offsets are the data. Lengths are `size_t`, 32 bits wide on the
device, so a difference of two offsets wraps when the second one is larger.
-/

namespace LedgerErgo.Common

open LedgerErgo.Prog

/-- `endianness_t` -/
inductive Endianness where
  | be | le
deriving DecidableEq

namespace Endianness

/-- The number in some bytes. -/
def value : Endianness → List UInt8 → Nat
  | .be, bytes => BigEndian.value bytes
  | .le, bytes => BigEndian.value bytes.reverse

/-- The bytes of a number. -/
def bytes (width n : Nat) : Endianness → List UInt8
  | .be => BigEndian.write width n
  | .le => (BigEndian.write width n).reverse

@[simp] theorem length_bytes {endianness : Endianness} {width n : Nat} :
    (endianness.bytes width n).length = width := by
  cases endianness <;> simp [bytes]

end Endianness

/-- A sum of two `size_t` values. -/
def sizeAdd (a b : Nat) : Nat := (a + b) % 2 ^ 32

/-- A difference of two `size_t` values. -/
def sizeSub (a b : Nat) : Nat := (a + 2 ^ 32 - b) % 2 ^ 32

theorem sizeSub_of_le {a b : Nat} (ordered : b ≤ a) (small : a < 2 ^ 32) :
    sizeSub a b = a - b := by
  unfold sizeSub
  omega

/-- `rw_buffer_t`: `offset` is `read.offset` and `dataSize` is `read.size`. -/
structure RwBuffer where
  bytes : List UInt8
  offset : Nat
  dataSize : Nat
deriving Repr, DecidableEq

namespace RwBuffer

/-- The allocated size of the buffer. -/
def size (buffer : RwBuffer) : Nat := buffer.bytes.length

/-- `RW_BUFFER_NEW_LOCAL_EMPTY` -/
def newLocalEmpty (size : Nat) : RwBuffer := ⟨List.replicate size 0, 0, 0⟩

/-- `RW_BUFFER_FROM_ARRAY_EMPTY` -/
def fromArrayEmpty (array : List UInt8) : RwBuffer := ⟨array, 0, 0⟩

/-- `rw_buffer_data_len` -/
def dataLen (buffer : RwBuffer) : Nat := sizeSub buffer.dataSize buffer.offset

/-- `rw_buffer_empty_space_len` -/
def emptySpaceLen (buffer : RwBuffer) : Nat := sizeSub buffer.size buffer.dataSize

/-- `rw_buffer_can_write` -/
def canWrite (buffer : RwBuffer) (n : Nat) : Bool := n ≤ buffer.emptySpaceLen

/-- The unread data: `rw_buffer_data_len` bytes from `rw_buffer_read_ptr` on. -/
def data (buffer : RwBuffer) : List UInt8 :=
  (buffer.bytes.drop buffer.offset).take buffer.dataLen

/-- Overwrite the array at the write offset and move the offset behind it. -/
def push (buffer : RwBuffer) (written : List UInt8) : RwBuffer where
  bytes := buffer.bytes.take buffer.dataSize ++ written ++
    buffer.bytes.drop (buffer.dataSize + written.length)
  offset := buffer.offset
  dataSize := buffer.dataSize + written.length

/-- Write some bytes into the array. -/
def overwrite (buffer : RwBuffer) (start : Nat) (written : List UInt8) : RwBuffer :=
  { buffer with
    bytes := buffer.bytes.take start ++ written ++ buffer.bytes.drop (start + written.length) }

/-- Write behind `rw_buffer_write_ptr` without moving the offset. -/
def poke (buffer : RwBuffer) (written : List UInt8) : RwBuffer :=
  buffer.overwrite buffer.dataSize written

end RwBuffer

/-! ## Writes -/

/-- A call of a buffer; the error stands for the answer `false`. -/
abbrev RwM (α : Type) := EStateM Unit RwBuffer α

/-- Make a call and drop its answer. -/
def dropAnswer (call : RwM Unit) : RwM Unit := fun buffer => .ok () (final (call buffer))

namespace Rw

/-- `rw_buffer_seek_write_cur` -/
def seekWriteCur (offset : Nat) : RwM Unit := do
  let buffer ← get
  let target := sizeAdd buffer.dataSize offset
  ensure (¬ (target < buffer.dataSize ∨ target > buffer.size)) ()
  set { buffer with dataSize := target }

/-- `rw_buffer_write_bytes` -/
def writeBytes (written : List UInt8) : RwM Unit := do
  let buffer ← get
  ensure (buffer.canWrite written.length) ()
  set (buffer.overwrite buffer.dataSize written)
  dropAnswer (seekWriteCur written.length)

/-- `rw_buffer_write_u8` -/
def writeU8 (value : UInt8) : RwM Unit := writeBytes [value]

/-- `rw_buffer_write_u16` -/
def writeU16 (value : UInt16) (endianness : Endianness) : RwM Unit :=
  writeBytes (endianness.bytes 2 value.toNat)

/-- `rw_buffer_write_u32` -/
def writeU32 (value : UInt32) (endianness : Endianness) : RwM Unit :=
  writeBytes (endianness.bytes 4 value.toNat)

/-- `rw_buffer_write_u64` -/
def writeU64 (value : UInt64) (endianness : Endianness) : RwM Unit :=
  writeBytes (endianness.bytes 8 value.toNat)

end Rw

namespace RwBuffer

/-- The buffer after a call, if the call succeeds. -/
def after (buffer : RwBuffer) (call : RwM Unit) : Option RwBuffer :=
  match call buffer with
  | .ok _ next => some next
  | .error _ _ => none

/-- `rw_buffer_write_bytes` -/
def writeBytes (buffer : RwBuffer) (written : List UInt8) : Option RwBuffer :=
  buffer.after (Rw.writeBytes written)

/-- `rw_buffer_write_u8` -/
def writeU8 (buffer : RwBuffer) (value : UInt8) : Option RwBuffer := buffer.after (Rw.writeU8 value)

/-- `rw_buffer_write_u64`, big endian -/
def writeU64 (buffer : RwBuffer) (value : UInt64) : Option RwBuffer :=
  buffer.after (Rw.writeU64 value .be)

/-- `rw_buffer_seek_write_cur` -/
def seekWriteCur (buffer : RwBuffer) (offset : Nat) : Option RwBuffer :=
  buffer.after (Rw.seekWriteCur offset)

theorem after_of_ok {buffer next : RwBuffer} {call : RwM Unit} {u : Unit}
    (ok : call buffer = .ok u next) : buffer.after call = some next := by
  rw [after, ok]

theorem after_of_error {buffer next : RwBuffer} {call : RwM Unit} {err : Unit}
    (failed : call buffer = .error err next) : buffer.after call = none := by
  rw [after, failed]

theorem writeU8_eq {buffer : RwBuffer} {value : UInt8} :
    buffer.writeU8 value = buffer.writeBytes [value] := rfl

theorem writeU64_eq {buffer : RwBuffer} {value : UInt64} :
    buffer.writeU64 value = buffer.writeBytes (u64Bytes value) := rfl

theorem size_overwrite {buffer : RwBuffer} {start : Nat} {written : List UInt8}
    (inside : start + written.length ≤ buffer.size) :
    (buffer.overwrite start written).size = buffer.size := by
  simp only [size, overwrite, List.length_append, List.length_take, List.length_drop] at inside ⊢
  omega

/-- The write offset is in the array. Every call keeps this. -/
structure Writable (buffer : RwBuffer) : Prop where
  write : buffer.dataSize ≤ buffer.size
  small : buffer.size < 2 ^ 32

namespace Writable

variable {buffer : RwBuffer} {written : List UInt8}

theorem emptySpaceLen (writable : buffer.Writable) :
    buffer.emptySpaceLen = buffer.size - buffer.dataSize :=
  sizeSub_of_le writable.write writable.small

theorem size_push (writable : buffer.Writable) (room : written.length ≤ buffer.emptySpaceLen) :
    (buffer.push written).size = buffer.size := by
  have write := writable.write
  rw [writable.emptySpaceLen] at room
  exact size_overwrite (by omega)

end Writable

end RwBuffer

namespace Rw

open RwBuffer

variable {buffer : RwBuffer} {written : List UInt8} {n : Nat}

theorem dropAnswer_eq {call : RwM Unit} : dropAnswer call buffer = .ok () (final (call buffer)) := rfl

theorem set_eq {next : RwBuffer} : (set next : RwM PUnit) buffer = .ok PUnit.unit next := rfl

/-- The write offset moves when there is room. -/
theorem seekWriteCur_run (room : buffer.dataSize + n ≤ buffer.size) (small : buffer.size < 2 ^ 32) :
    seekWriteCur n buffer = .ok () { buffer with dataSize := buffer.dataSize + n } := by
  have target : sizeAdd buffer.dataSize n = buffer.dataSize + n :=
    Nat.mod_eq_of_lt (Nat.lt_of_le_of_lt room small)
  have inside : ¬ (sizeAdd buffer.dataSize n < buffer.dataSize ∨
      sizeAdd buffer.dataSize n > buffer.size) := by omega
  rw [seekWriteCur, get_bind, bind_of_ok (ensure_of inside), set_eq, target]

theorem seekWriteCur_moves (room : buffer.dataSize + n ≤ buffer.size) (small : buffer.size < 2 ^ 32) :
    final (seekWriteCur n buffer) = { buffer with dataSize := buffer.dataSize + n } := by
  rw [seekWriteCur_run room small, final]

theorem writeBytes_eq (writable : buffer.Writable) :
    writeBytes written buffer =
      if written.length ≤ buffer.emptySpaceLen then .ok () (buffer.push written)
      else .error () buffer := by
  have writes : (buffer.canWrite written.length = true) ↔ written.length ≤ buffer.emptySpaceLen :=
    decide_eq_true_iff
  unfold writeBytes
  rw [get_bind]
  by_cases room : written.length ≤ buffer.emptySpaceLen
  · rw [if_pos room, bind_of_ok (ensure_of (writes.mpr room)), bind_of_ok set_eq, dropAnswer_eq]
    have same := writable.size_push room
    rw [writable.emptySpaceLen] at room
    have write := writable.write
    have inside : buffer.dataSize + written.length ≤ (buffer.push written).size := by omega
    have inside : (buffer.overwrite buffer.dataSize written).dataSize + written.length ≤
        (buffer.overwrite buffer.dataSize written).size := inside
    exact congrArg _ (seekWriteCur_moves inside (same.trans_lt writable.small))
  · rw [if_neg room, bind_of_error (ensure_of_not (mt writes.mp room))]

end Rw

namespace RwBuffer

theorem writeBytes_eq {buffer : RwBuffer} (writable : buffer.Writable) (written : List UInt8) :
    buffer.writeBytes written =
      if written.length ≤ buffer.emptySpaceLen then some (buffer.push written) else none := by
  have ran := @Rw.writeBytes_eq buffer written writable
  by_cases room : written.length ≤ buffer.emptySpaceLen
  · rw [if_pos room] at ran ⊢
    exact after_of_ok ran
  · rw [if_neg room] at ran ⊢
    exact after_of_error ran

/-- What a fresh local array of `size` bytes holds after one write into it. -/
def scratch (size : Nat) (write : RwBuffer → Option RwBuffer) : Option (List UInt8) :=
  (write (newLocalEmpty size)).map data

theorem scratch_writeBytes {size : Nat} {written : List UInt8} (fits : written.length ≤ size)
    (small : size < 2 ^ 32) :
    scratch size (fun buffer => buffer.writeBytes written) = some written := by
  have length : (newLocalEmpty size).size = size := by simp [newLocalEmpty, RwBuffer.size]
  have writable : (newLocalEmpty size).Writable := ⟨Nat.zero_le _, length.trans_lt small⟩
  have room : written.length ≤ (newLocalEmpty size).emptySpaceLen := by
    rw [writable.emptySpaceLen, length]
    exact fits
  have read : ((newLocalEmpty size).push written).data = written := by
    simp [data, push, dataLen, newLocalEmpty, sizeSub_of_le (Nat.zero_le _)
      (Nat.lt_of_le_of_lt fits small)]
  rw [scratch, writeBytes_eq writable, if_pos room, Option.map_some, read]

/-- Two pushes one after the other. -/
theorem push_push {buffer : RwBuffer} {first second : List UInt8}
    (inside : buffer.dataSize + first.length ≤ buffer.size) :
    (buffer.push first).push second = buffer.push (first ++ second) := by
  have inside : buffer.dataSize + first.length ≤ buffer.bytes.length := inside
  have front : (buffer.bytes.take buffer.dataSize ++ first).length =
      buffer.dataSize + first.length := by
    rw [List.length_append, List.length_take_of_le (by omega)]
  have rest : (buffer.bytes.take buffer.dataSize ++ first ++
        buffer.bytes.drop (buffer.dataSize + first.length)).drop
          (buffer.dataSize + first.length + second.length) =
      buffer.bytes.drop (buffer.dataSize + first.length + second.length) := by
    rw [← List.drop_drop, List.drop_left' front, List.drop_drop]
  simp only [push]
  rw [rest, List.take_left' front]
  simp only [List.append_assoc, List.length_append, Nat.add_assoc]

/-! ## Filling a buffer -/

/-- A buffer of `capacity` bytes that nothing was read from holds the data. -/
structure Holds (buffer : RwBuffer) (capacity : Nat) (data : List UInt8) : Prop where
  offset : buffer.offset = 0
  size : buffer.size = capacity
  dataSize : buffer.dataSize = data.length
  front : buffer.bytes.take data.length = data
  fits : data.length ≤ capacity
  small : capacity < 2 ^ 32

namespace Holds

variable {buffer next : RwBuffer} {capacity : Nat} {held : List UInt8}

theorem fromArray {array : List UInt8} (size : array.length = capacity) (small : capacity < 2 ^ 32) :
    (fromArrayEmpty array).Holds capacity [] where
  offset := rfl
  size := size
  dataSize := rfl
  front := rfl
  fits := Nat.zero_le _
  small := small

theorem empty {capacity : Nat} (small : capacity < 2 ^ 32) :
    (newLocalEmpty capacity).Holds capacity [] where
  offset := rfl
  size := by simp [newLocalEmpty, RwBuffer.size]
  dataSize := rfl
  front := rfl
  fits := Nat.zero_le _
  small := small

theorem data_eq (holds : buffer.Holds capacity held) : buffer.data = held := by
  have small : buffer.dataSize < 2 ^ 32 :=
    holds.dataSize ▸ Nat.lt_of_le_of_lt holds.fits holds.small
  rw [data, dataLen, holds.offset, sizeSub_of_le (Nat.zero_le _) small, holds.dataSize]
  simpa using holds.front

theorem writable (holds : buffer.Holds capacity held) : buffer.Writable where
  write := by
    rw [holds.dataSize, holds.size]
    exact holds.fits
  small := holds.size.trans_lt holds.small

theorem room (holds : buffer.Holds capacity held) {n : Nat} :
    n ≤ buffer.emptySpaceLen ↔ held.length + n ≤ capacity := by
  have := holds.fits
  rw [holds.writable.emptySpaceLen, holds.dataSize, holds.size]
  omega

theorem canWrite (holds : buffer.Holds capacity held) {n : Nat} :
    buffer.canWrite n = true ↔ held.length + n ≤ capacity := by
  rw [RwBuffer.canWrite, decide_eq_true_iff, holds.room]

private theorem length_filled (holds : buffer.Holds capacity held) {written : List UInt8}
    (room : held.length + written.length ≤ capacity) :
    (buffer.bytes.take buffer.dataSize ++ written ++
      buffer.bytes.drop (buffer.dataSize + written.length)).length = capacity := by
  have size : buffer.bytes.length = capacity := holds.size
  have := holds.fits
  simp only [List.length_append, List.length_take, List.length_drop, holds.dataSize, size]
  omega

private theorem take_filled (holds : buffer.Holds capacity held) {written : List UInt8} (n : Nat) :
    (buffer.bytes.take buffer.dataSize ++ written ++
      buffer.bytes.drop (buffer.dataSize + written.length)).take
        (held ++ written.take n).length = held ++ written.take n := by
  rw [holds.dataSize, holds.front, List.append_assoc, List.length_append, List.take_length_add_append]
  congr 1
  rw [List.length_take, List.take_append_of_le_length (Nat.min_le_right ..)]
  exact List.take_eq_take_min.symm

/-- A write succeeds if there is room, and appends what is written. -/
theorem writeBytes_ok (holds : buffer.Holds capacity held) {written : List UInt8} :
    buffer.writeBytes written = some next ↔
      held.length + written.length ≤ capacity ∧ buffer.push written = next := by
  simp only [writeBytes_eq holds.writable, Option.ite_none_right_eq_some, Option.some.injEq, holds.room]

theorem push (holds : buffer.Holds capacity held) {written : List UInt8}
    (room : held.length + written.length ≤ capacity) :
    (buffer.push written).Holds capacity (held ++ written) where
  offset := holds.offset
  size := holds.length_filled room
  dataSize := by simp [RwBuffer.push, holds.dataSize]
  front := by
    have taken := @take_filled _ _ _ holds written written.length
    rwa [List.take_length] at taken
  fits := by simpa using room
  small := holds.small

/-- Something is written behind the data, and a part of it is kept. -/
theorem poke (holds : buffer.Holds capacity held) {written : List UInt8} {n : Nat}
    (room : held.length + written.length ≤ capacity) (part : n ≤ written.length) :
    ∃ next, (buffer.poke written).seekWriteCur n = some next ∧
      next.Holds capacity (held ++ written.take n) := by
  have size : (buffer.poke written).size = capacity := holds.length_filled room
  have small := holds.small
  have dataSize : (buffer.poke written).dataSize = held.length := holds.dataSize
  have inside : (buffer.poke written).dataSize + n ≤ (buffer.poke written).size := by omega
  refine ⟨_, after_of_ok (Rw.seekWriteCur_run inside (size.trans_lt small)), ?_⟩
  refine ⟨holds.offset, size, ?_, holds.take_filled n, ?_, small⟩
  · simp [dataSize, List.length_take, Nat.min_eq_left part]
  · simp only [List.length_append, List.length_take, Nat.min_eq_left part]
    omega

end Holds

end RwBuffer

end LedgerErgo.Common
