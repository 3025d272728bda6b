import LedgerErgo.Common.Bip32
import LedgerErgo.Common.RwBuffer

/-! # The calls of a read and write buffer

Every call of the buffer moves one of the two offsets or copies bytes of the array. The
offsets are in order when the read offset is not behind the write offset and the write offset
is in the array. All calls keep them in order, except that the write offset can be set to a
place before the read offset; then the length of the data wraps.
-/

namespace LedgerErgo.Common

open LedgerErgo.Prog

namespace RwBuffer

/-- `rw_buffer_init` -/
def init (bytes : List UInt8) (dataSize : Nat) : RwBuffer := ⟨bytes, 0, dataSize⟩

/-- `rw_buffer_can_read` -/
def canRead (buffer : RwBuffer) (n : Nat) : Bool := n ≤ buffer.dataLen

/-- Some bytes of the array. -/
def slice (buffer : RwBuffer) (start count : Nat) : List UInt8 :=
  (buffer.bytes.drop start).take count

end RwBuffer

namespace Rw

/-! ## Seeks -/

/-- `rw_buffer_seek_read_set` -/
def seekReadSet (offset : Nat) : RwM Unit := do
  let buffer ← get
  ensure (¬ offset > buffer.dataSize) ()
  set { buffer with offset := offset }

/-- `rw_buffer_seek_read_cur` -/
def seekReadCur (offset : Nat) : RwM Unit := do
  let buffer ← get
  let target := sizeAdd buffer.offset offset
  ensure (¬ (target < buffer.offset ∨ target > buffer.dataSize)) ()
  set { buffer with offset := target }

/-- `rw_buffer_seek_read_end` -/
def seekReadEnd (offset : Nat) : RwM Unit := do
  let buffer ← get
  ensure (¬ offset > buffer.dataSize) ()
  set { buffer with offset := sizeSub buffer.dataSize offset }

/-- `rw_buffer_seek_write_set` -/
def seekWriteSet (offset : Nat) : RwM Unit := do
  let buffer ← get
  ensure (¬ offset > buffer.size) ()
  set { buffer with dataSize := offset }

/-- `rw_buffer_seek_write_end` -/
def seekWriteEnd (offset : Nat) : RwM Unit := do
  let buffer ← get
  ensure (¬ offset > buffer.size) ()
  set { buffer with dataSize := sizeSub buffer.size offset }

/-! ## Reads -/

/-- Read a number, as `buffer_read_u8` and its wider variants do. -/
def readNumber (width : Nat) (endianness : Endianness) : RwM Nat := do
  let buffer ← get
  ensure (buffer.canRead width) ()
  dropAnswer (seekReadCur width)
  return endianness.value (buffer.slice buffer.offset width)

/-- `rw_buffer_read_u8` -/
def readU8 : RwM UInt8 := UInt8.ofNat <$> readNumber 1 .be

/-- `rw_buffer_read_u16` -/
def readU16 (endianness : Endianness) : RwM UInt16 := UInt16.ofNat <$> readNumber 2 endianness

/-- `rw_buffer_read_u32` -/
def readU32 (endianness : Endianness) : RwM UInt32 := UInt32.ofNat <$> readNumber 4 endianness

/-- `rw_buffer_read_u64` -/
def readU64 (endianness : Endianness) : RwM UInt64 := UInt64.ofNat <$> readNumber 8 endianness

/-- `rw_buffer_copy_bytes` -/
def copyBytes (count : Nat) : RwM (List UInt8) := do
  let buffer ← get
  ensure (buffer.canRead count) ()
  return buffer.slice buffer.offset count

/-- `rw_buffer_read_bytes` -/
def readBytes (count : Nat) : RwM (List UInt8) := do
  let out ← copyBytes count
  seekReadCur count
  return out

/-- `rw_buffer_read_bip32_path` -/
def readBip32Path (outLen : Nat) : RwM (List UInt32) := do
  let buffer ← get
  ensure (¬ (outLen = 0 ∨ outLen > maxBip32Path) ∧ 4 * outLen ≤ buffer.dataLen) ()
  dropAnswer (seekReadCur (4 * outLen))
  return (List.range outLen).map fun i =>
    UInt32.ofNat (BigEndian.value (buffer.slice (buffer.offset + 4 * i) 4))

/-! ## Writes -/

/-- `rw_buffer_empty` -/
def empty : RwM Unit := modify fun buffer => { buffer with offset := 0, dataSize := 0 }

/-- `rw_buffer_shift_data` -/
def shiftData : RwM Unit := do
  let buffer ← get
  if buffer.offset = 0 then return
  set (buffer.overwrite 0 (buffer.slice buffer.offset buffer.dataLen))
  dropAnswer (seekReadSet 0)
  dropAnswer (seekWriteSet buffer.dataLen)

end Rw

/-- A call of a buffer with its arguments. -/
inductive RwCall where
  | seekReadSet (offset : Nat)
  | seekReadCur (offset : Nat)
  | seekReadEnd (offset : Nat)
  | seekWriteSet (offset : Nat)
  | seekWriteCur (offset : Nat)
  | seekWriteEnd (offset : Nat)
  | readU8
  | readU16 (endianness : Endianness)
  | readU32 (endianness : Endianness)
  | readU64 (endianness : Endianness)
  | readBytes (count : Nat)
  | copyBytes (count : Nat)
  | readBip32Path (outLen : Nat)
  | writeU8 (value : UInt8)
  | writeU16 (value : UInt16) (endianness : Endianness)
  | writeU32 (value : UInt32) (endianness : Endianness)
  | writeU64 (value : UInt64) (endianness : Endianness)
  | writeBytes (written : List UInt8)
  | empty
  | shiftData

namespace RwCall

/-- Make the call; what it reads is dropped. -/
def run : RwCall → RwM Unit
  | .seekReadSet offset => Rw.seekReadSet offset
  | .seekReadCur offset => Rw.seekReadCur offset
  | .seekReadEnd offset => Rw.seekReadEnd offset
  | .seekWriteSet offset => Rw.seekWriteSet offset
  | .seekWriteCur offset => Rw.seekWriteCur offset
  | .seekWriteEnd offset => Rw.seekWriteEnd offset
  | .readU8 => do let _ ← Rw.readU8
  | .readU16 endianness => do let _ ← Rw.readU16 endianness
  | .readU32 endianness => do let _ ← Rw.readU32 endianness
  | .readU64 endianness => do let _ ← Rw.readU64 endianness
  | .readBytes count => do let _ ← Rw.readBytes count
  | .copyBytes count => do let _ ← Rw.copyBytes count
  | .readBip32Path outLen => do let _ ← Rw.readBip32Path outLen
  | .writeU8 value => Rw.writeU8 value
  | .writeU16 value endianness => Rw.writeU16 value endianness
  | .writeU32 value endianness => Rw.writeU32 value endianness
  | .writeU64 value endianness => Rw.writeU64 value endianness
  | .writeBytes written => Rw.writeBytes written
  | .empty => Rw.empty
  | .shiftData => Rw.shiftData

/-- The buffer after the call, whether it succeeds or fails. -/
def next (buffer : RwBuffer) (call : RwCall) : RwBuffer := final (call.run buffer)

/-- The bytes of the array the call copies, as ranges of a start and a length. -/
def accesses (buffer : RwBuffer) : RwCall → List (Nat × Nat)
  | .readU8 => read 1
  | .readU16 _ => read 2
  | .readU32 _ => read 4
  | .readU64 _ => read 8
  | .readBytes count | .copyBytes count => read count
  | .readBip32Path outLen =>
      -- the loop stops at the first number that is not there
      if outLen = 0 ∨ outLen > maxBip32Path then []
      else (List.range (min outLen (buffer.dataLen / 4))).map fun i => (buffer.offset + 4 * i, 4)
  | .writeU8 _ => write 1
  | .writeU16 .. => write 2
  | .writeU32 .. => write 4
  | .writeU64 .. => write 8
  | .writeBytes written => write written.length
  | .shiftData =>
      if buffer.offset = 0 then [] else [(buffer.offset, buffer.dataLen), (0, buffer.dataLen)]
  | _ => []
where
  read (count : Nat) := if buffer.canRead count then [(buffer.offset, count)] else []
  write (count : Nat) := if buffer.canWrite count then [(buffer.dataSize, count)] else []

end RwCall

/-! ## What the calls do -/

namespace RwBuffer

/-- The offsets are in order and in the array. -/
structure Ordered (buffer : RwBuffer) : Prop where
  read : buffer.offset ≤ buffer.dataSize
  write : buffer.dataSize ≤ buffer.size
  small : buffer.size < 2 ^ 32

namespace Ordered

variable {buffer : RwBuffer} {n : Nat}

theorem dataLen (ordered : buffer.Ordered) : buffer.dataLen = buffer.dataSize - buffer.offset :=
  sizeSub_of_le ordered.read (Nat.lt_of_le_of_lt ordered.write ordered.small)

theorem writable (ordered : buffer.Ordered) : buffer.Writable := ⟨ordered.write, ordered.small⟩

theorem emptySpaceLen (ordered : buffer.Ordered) :
    buffer.emptySpaceLen = buffer.size - buffer.dataSize := ordered.writable.emptySpaceLen

theorem canRead (ordered : buffer.Ordered) :
    buffer.canRead n = true ↔ buffer.offset + n ≤ buffer.dataSize := by
  have := ordered.read
  rw [RwBuffer.canRead, decide_eq_true_iff, ordered.dataLen]
  omega

theorem canWrite (ordered : buffer.Ordered) :
    buffer.canWrite n = true ↔ buffer.dataSize + n ≤ buffer.size := by
  have := ordered.write
  rw [RwBuffer.canWrite, decide_eq_true_iff, ordered.emptySpaceLen]
  omega

end Ordered

end RwBuffer

namespace Rw

open RwBuffer

variable {buffer : RwBuffer} {n : Nat}

theorem final_drop {α : Type} {call : RwM α} :
    final ((do let _ ← call : RwM Unit) buffer) = final (call buffer) := final_map

/-- A call that checks something and then changes the buffer. -/
theorem checked_eq {check : RwBuffer → Prop} [∀ b, Decidable (check b)]
    {change : RwBuffer → RwBuffer} {call : RwM Unit}
    (same : call = (do
      let buffer ← get
      ensure (check buffer) ()
      set (change buffer)))
    (buffer : RwBuffer) :
    call buffer = if check buffer then .ok () (change buffer) else .error () buffer := by
  subst same
  by_cases holds : check buffer
  · rw [if_pos holds, get_bind, bind_of_ok (ensure_of holds)]
    rfl
  · rw [if_neg holds, get_bind, bind_of_error (ensure_of_not holds)]

private theorem final_checked {check : RwBuffer → Prop} [∀ b, Decidable (check b)]
    {change : RwBuffer → RwBuffer} {call : RwM Unit}
    (same : call = (do
      let buffer ← get
      ensure (check buffer) ()
      set (change buffer)))
    (buffer : RwBuffer) : final (call buffer) = if check buffer then change buffer else buffer := by
  rw [checked_eq same]
  split <;> rfl

theorem seekReadSet_final (n : Nat) (buffer : RwBuffer) :
    final (seekReadSet n buffer) =
      if ¬ n > buffer.dataSize then { buffer with offset := n } else buffer :=
  final_checked rfl buffer

theorem seekReadCur_final (n : Nat) (buffer : RwBuffer) :
    final (seekReadCur n buffer) =
      if ¬ (sizeAdd buffer.offset n < buffer.offset ∨ sizeAdd buffer.offset n > buffer.dataSize) then
        { buffer with offset := sizeAdd buffer.offset n }
      else buffer :=
  final_checked rfl buffer

theorem seekReadEnd_final (n : Nat) (buffer : RwBuffer) :
    final (seekReadEnd n buffer) =
      if ¬ n > buffer.dataSize then { buffer with offset := sizeSub buffer.dataSize n }
      else buffer :=
  final_checked rfl buffer

theorem seekWriteSet_final (n : Nat) (buffer : RwBuffer) :
    final (seekWriteSet n buffer) =
      if ¬ n > buffer.size then { buffer with dataSize := n } else buffer :=
  final_checked rfl buffer

theorem seekWriteCur_final (n : Nat) (buffer : RwBuffer) :
    final (seekWriteCur n buffer) =
      if ¬ (sizeAdd buffer.dataSize n < buffer.dataSize ∨ sizeAdd buffer.dataSize n > buffer.size) then
        { buffer with dataSize := sizeAdd buffer.dataSize n }
      else buffer :=
  final_checked rfl buffer

theorem seekWriteEnd_final (n : Nat) (buffer : RwBuffer) :
    final (seekWriteEnd n buffer) =
      if ¬ n > buffer.size then { buffer with dataSize := sizeSub buffer.size n } else buffer :=
  final_checked rfl buffer

/-- The read offset moves when there are unread bytes. -/
theorem seekReadCur_run (ordered : buffer.Ordered) (inside : buffer.offset + n ≤ buffer.dataSize) :
    seekReadCur n buffer = .ok () { buffer with offset := buffer.offset + n } := by
  have write := ordered.write
  have small := ordered.small
  have target : sizeAdd buffer.offset n = buffer.offset + n := Nat.mod_eq_of_lt (by omega)
  have within : ¬ (sizeAdd buffer.offset n < buffer.offset ∨
      sizeAdd buffer.offset n > buffer.dataSize) := by omega
  rw [seekReadCur, get_bind, bind_of_ok (ensure_of within), set_eq, target]

/-- The buffer keeps its size, and its offsets are in order. -/
structure Stays (buffer next : RwBuffer) : Prop where
  ordered : next.Ordered
  size : next.size = buffer.size

theorem Stays.refl (ordered : buffer.Ordered) : Stays buffer buffer := ⟨ordered, rfl⟩

theorem Stays.setOffset {offset : Nat} (ordered : buffer.Ordered) (data : offset ≤ buffer.dataSize) :
    Stays buffer { buffer with offset := offset } :=
  ⟨⟨data, ordered.write, ordered.small⟩, rfl⟩

theorem Stays.setDataSize {dataSize : Nat} (ordered : buffer.Ordered)
    (read : buffer.offset ≤ dataSize) (inside : dataSize ≤ buffer.size) :
    Stays buffer { buffer with dataSize := dataSize } :=
  ⟨⟨read, inside, ordered.small⟩, rfl⟩

theorem seekReadSet_stays (ordered : buffer.Ordered) :
    Stays buffer (final (seekReadSet n buffer)) := by
  rw [seekReadSet_final]
  split
  · rename_i inside
    exact .setOffset ordered (Nat.not_lt.mp inside)
  · exact .refl ordered

theorem seekReadCur_stays (ordered : buffer.Ordered) :
    Stays buffer (final (seekReadCur n buffer)) := by
  rw [seekReadCur_final]
  split
  · rename_i inside
    exact .setOffset ordered (Nat.not_lt.mp (not_or.mp inside).2)
  · exact .refl ordered

theorem seekReadEnd_stays (ordered : buffer.Ordered) :
    Stays buffer (final (seekReadEnd n buffer)) := by
  rw [seekReadEnd_final]
  split
  · rename_i inside
    have place : sizeSub buffer.dataSize n = buffer.dataSize - n :=
      sizeSub_of_le (Nat.not_lt.mp inside) (Nat.lt_of_le_of_lt ordered.write ordered.small)
    exact .setOffset ordered (place.trans_le (Nat.sub_le _ _))
  · exact .refl ordered

theorem seekWriteCur_stays (ordered : buffer.Ordered) :
    Stays buffer (final (seekWriteCur n buffer)) := by
  rw [seekWriteCur_final]
  split
  · rename_i inside
    obtain ⟨later, within⟩ := not_or.mp inside
    exact .setDataSize ordered (ordered.read.trans (Nat.not_lt.mp later)) (Nat.not_lt.mp within)
  · exact .refl ordered

theorem readNumber_eq {endianness : Endianness} :
    readNumber n endianness buffer =
      if buffer.canRead n then
        .ok (endianness.value (buffer.slice buffer.offset n)) (final (seekReadCur n buffer))
      else .error () buffer := by
  unfold readNumber
  rw [get_bind]
  by_cases readable : buffer.canRead n = true
  · rw [bind_of_ok (ensure_of readable), if_pos readable]
    rfl
  · rw [bind_of_error (ensure_of_not readable), if_neg readable]

theorem readNumber_stays {endianness : Endianness} (ordered : buffer.Ordered) :
    Stays buffer (final (readNumber n endianness buffer)) := by
  rw [readNumber_eq]
  split
  · exact seekReadCur_stays ordered
  · exact .refl ordered

theorem copyBytes_eq :
    copyBytes n buffer =
      if buffer.canRead n then .ok (buffer.slice buffer.offset n) buffer else .error () buffer := by
  unfold copyBytes
  rw [get_bind]
  by_cases readable : buffer.canRead n = true
  · rw [bind_of_ok (ensure_of readable), if_pos readable]
    rfl
  · rw [bind_of_error (ensure_of_not readable), if_neg readable]

theorem readBytes_eq (ordered : buffer.Ordered) :
    readBytes n buffer =
      if buffer.canRead n then
        .ok (buffer.slice buffer.offset n) { buffer with offset := buffer.offset + n }
      else .error () buffer := by
  unfold readBytes
  by_cases readable : buffer.canRead n = true
  · have sought := seekReadCur_run ordered (ordered.canRead.mp readable)
    rw [bind_of_ok (copyBytes_eq.trans (if_pos readable)), bind_of_ok sought, if_pos readable]
    rfl
  · rw [bind_of_error (copyBytes_eq.trans (if_neg readable)), if_neg readable]

theorem readBytes_stays (ordered : buffer.Ordered) :
    Stays buffer (final (readBytes n buffer)) := by
  rw [readBytes_eq ordered]
  split
  · rename_i readable
    exact .setOffset ordered (ordered.canRead.mp readable)
  · exact .refl ordered

theorem readBip32Path_eq :
    readBip32Path n buffer =
      if ¬ (n = 0 ∨ n > maxBip32Path) ∧ 4 * n ≤ buffer.dataLen then
        .ok ((List.range n).map fun i =>
            UInt32.ofNat (BigEndian.value (buffer.slice (buffer.offset + 4 * i) 4)))
          (final (seekReadCur (4 * n) buffer))
      else .error () buffer := by
  unfold readBip32Path
  rw [get_bind]
  by_cases readable : ¬ (n = 0 ∨ n > maxBip32Path) ∧ 4 * n ≤ buffer.dataLen
  · rw [bind_of_ok (ensure_of readable), if_pos readable]
    rfl
  · rw [bind_of_error (ensure_of_not readable), if_neg readable]

theorem readBip32Path_stays (ordered : buffer.Ordered) :
    Stays buffer (final (readBip32Path n buffer)) := by
  rw [readBip32Path_eq]
  split
  · exact seekReadCur_stays ordered
  · exact .refl ordered

theorem writeBytes_stays {written : List UInt8} (ordered : buffer.Ordered) :
    Stays buffer (final (writeBytes written buffer)) := by
  rw [writeBytes_eq ordered.writable]
  split
  · rename_i room
    have same := ordered.writable.size_push room
    have write := ordered.write
    rw [ordered.emptySpaceLen] at room
    have inside : buffer.dataSize + written.length ≤ buffer.size := by omega
    exact ⟨⟨ordered.read.trans (Nat.le_add_right ..), inside.trans_eq same.symm,
      same.trans_lt ordered.small⟩, same⟩
  · exact .refl ordered

theorem empty_stays (ordered : buffer.Ordered) : Stays buffer (final (empty buffer)) :=
  ⟨⟨Nat.le_refl 0, Nat.zero_le _, ordered.small⟩, rfl⟩

theorem length_slice {start : Nat} (inside : start + n ≤ buffer.size) :
    (buffer.slice start n).length = n := by
  have inside : start + n ≤ buffer.bytes.length := inside
  simp only [slice, List.length_take, List.length_drop]
  omega

theorem seekReadSet_zero : final (seekReadSet 0 buffer) = { buffer with offset := 0 } := by
  rw [seekReadSet_final, if_pos (Nat.not_lt.mpr (Nat.zero_le _))]

theorem seekWriteSet_stays (ordered : buffer.Ordered) (later : n ≤ buffer.size → buffer.offset ≤ n) :
    Stays buffer (final (seekWriteSet n buffer)) := by
  rw [seekWriteSet_final]
  split
  · rename_i inside
    have within := Nat.not_lt.mp inside
    exact .setDataSize ordered (later within) within
  · exact .refl ordered

theorem seekWriteEnd_stays (ordered : buffer.Ordered)
    (later : n ≤ buffer.size → buffer.offset ≤ buffer.size - n) :
    Stays buffer (final (seekWriteEnd n buffer)) := by
  rw [seekWriteEnd_final]
  split
  · rename_i inside
    have within := Nat.not_lt.mp inside
    have place : sizeSub buffer.size n = buffer.size - n := sizeSub_of_le within ordered.small
    exact .setDataSize ordered ((later within).trans_eq place.symm)
      (place.trans_le (Nat.sub_le _ _))
  · exact .refl ordered

theorem dataLen_le (ordered : buffer.Ordered) : buffer.dataLen ≤ buffer.size := by
  rw [ordered.dataLen]
  exact (Nat.sub_le _ _).trans ordered.write

theorem length_unread (ordered : buffer.Ordered) :
    (buffer.slice buffer.offset buffer.dataLen).length = buffer.dataLen := by
  have length := ordered.dataLen
  have read := ordered.read
  have write := ordered.write
  exact length_slice (by omega)

/-- The data has room at the front of the array. -/
theorem moved_inside (ordered : buffer.Ordered) :
    0 + (buffer.slice buffer.offset buffer.dataLen).length ≤ buffer.size := by
  rw [length_unread ordered, Nat.zero_add]
  exact dataLen_le ordered

theorem size_moved (ordered : buffer.Ordered) :
    (buffer.overwrite 0 (buffer.slice buffer.offset buffer.dataLen)).size = buffer.size :=
  size_overwrite (moved_inside ordered)

theorem shiftData_eq (ordered : buffer.Ordered) :
    shiftData buffer = .ok () (if buffer.offset = 0 then buffer else
      { buffer.overwrite 0 (buffer.slice buffer.offset buffer.dataLen) with
        offset := 0, dataSize := buffer.dataLen }) := by
  unfold shiftData
  rw [get_bind]
  by_cases start : buffer.offset = 0
  · rw [if_pos start, if_pos start]
    rfl
  · have inside : ¬ buffer.dataLen > RwBuffer.size
        { buffer.overwrite 0 (buffer.slice buffer.offset buffer.dataLen) with offset := 0 } :=
      Nat.not_lt.mpr ((dataLen_le ordered).trans_eq (size_moved ordered).symm)
    rw [if_neg start, if_neg start, bind_of_ok set_eq, bind_of_ok dropAnswer_eq, dropAnswer_eq,
      seekReadSet_zero, seekWriteSet_final, if_pos inside]

theorem shiftData_stays (ordered : buffer.Ordered) : Stays buffer (final (shiftData buffer)) := by
  have same := size_moved ordered
  rw [shiftData_eq ordered, final]
  split
  · exact .refl ordered
  · exact ⟨⟨Nat.zero_le _, (dataLen_le ordered).trans_eq same.symm, same.trans_lt ordered.small⟩, same⟩

end Rw

end LedgerErgo.Common
