import LedgerErgo.Common.RwBufferRuns
import LedgerErgo.Lib.ItemStream

/-! # A buffer as a queue

The array of a buffer is what was read, then what is unread, then room. A write takes the first
bytes of the room for the end of the unread part, a read gives the first unread bytes away, and
`rw_buffer_shift_data` drops what was read.
-/

namespace LedgerErgo.Common

open LedgerErgo.Prog

/-! ## Items -/

/-- What is written or read by one call. -/
inductive Item where
  | u8 (value : UInt8)
  | u16 (value : UInt16) (endianness : Endianness)
  | u32 (value : UInt32) (endianness : Endianness)
  | u64 (value : UInt64) (endianness : Endianness)
  | bytes (content : List UInt8)
deriving DecidableEq

/-- What a reader says of the next item. -/
inductive Format where
  | u8
  | u16 (endianness : Endianness)
  | u32 (endianness : Endianness)
  | u64 (endianness : Endianness)
  | bytes (count : Nat)
deriving DecidableEq

namespace Endianness

variable {endianness : Endianness} {width n : Nat} {bytes : List UInt8}

theorem value_bytes (small : n < 256 ^ width) :
    endianness.value (endianness.bytes width n) = n := by
  cases endianness with
  | be => exact BigEndian.value_write_of_lt small
  | le => rw [Endianness.bytes, value, List.reverse_reverse, BigEndian.value_write_of_lt small]

theorem value_lt : endianness.value bytes < 256 ^ bytes.length := by
  cases endianness with
  | be => exact BigEndian.value_lt bytes
  | le =>
      have bound := BigEndian.value_lt bytes.reverse
      rwa [List.length_reverse] at bound

theorem bytes_value (length : bytes.length = width) :
    endianness.bytes width (endianness.value bytes) = bytes := by
  subst length
  cases endianness with
  | be => exact BigEndian.write_value bytes
  | le =>
      have back := BigEndian.write_value bytes.reverse
      rw [List.length_reverse] at back
      rw [Endianness.bytes, value, back, List.reverse_reverse]

end Endianness

namespace Item

/-- The format that reads an item back. -/
def format : Item → Format
  | .u8 _ => .u8
  | .u16 _ endianness => .u16 endianness
  | .u32 _ endianness => .u32 endianness
  | .u64 _ endianness => .u64 endianness
  | .bytes content => .bytes content.length

/-- The bytes of an item. -/
def encode : Item → List UInt8
  | .u8 value => [value]
  | .u16 value endianness => endianness.bytes 2 value.toNat
  | .u32 value endianness => endianness.bytes 4 value.toNat
  | .u64 value endianness => endianness.bytes 8 value.toNat
  | .bytes content => content

/-- Write an item with the call for its type. -/
def write : Item → RwM Unit
  | .u8 value => Rw.writeU8 value
  | .u16 value endianness => Rw.writeU16 value endianness
  | .u32 value endianness => Rw.writeU32 value endianness
  | .u64 value endianness => Rw.writeU64 value endianness
  | .bytes content => Rw.writeBytes content

theorem write_eq (item : Item) : item.write = Rw.writeBytes item.encode := by
  cases item <;> rfl

end Item

namespace Format

/-- The number of bytes of an item. -/
def size : Format → Nat
  | .u8 => 1
  | .u16 _ => 2
  | .u32 _ => 4
  | .u64 _ => 8
  | .bytes count => count

/-- Read an item with the call for its type. -/
def read : Format → RwM Item
  | .u8 => Item.u8 <$> Rw.readU8
  | .u16 endianness => (Item.u16 · endianness) <$> Rw.readU16 endianness
  | .u32 endianness => (Item.u32 · endianness) <$> Rw.readU32 endianness
  | .u64 endianness => (Item.u64 · endianness) <$> Rw.readU64 endianness
  | .bytes count => Item.bytes <$> Rw.readBytes count

/-- The item of a format in its bytes. -/
def decode (content : List UInt8) : Format → Item
  | .u8 => .u8 (UInt8.ofNat (Endianness.be.value content))
  | .u16 endianness => .u16 (UInt16.ofNat (endianness.value content)) endianness
  | .u32 endianness => .u32 (UInt32.ofNat (endianness.value content)) endianness
  | .u64 endianness => .u64 (UInt64.ofNat (endianness.value content)) endianness
  | .bytes _ => .bytes content

variable {format : Format} {content : List UInt8}

theorem encode_decode (length : content.length = format.size) :
    (format.decode content).encode = content := by
  have bound (endianness : Endianness) : endianness.value content < 256 ^ format.size :=
    length ▸ Endianness.value_lt
  cases format with
  | u8 =>
      obtain ⟨byte, rfl⟩ := List.length_eq_one_iff.mp length
      simp [decode, Item.encode, Endianness.value, BigEndian.value]
  | u16 endianness =>
      rw [decode, Item.encode, UInt16.toNat_ofNat_of_lt' (bound endianness)]
      exact Endianness.bytes_value length
  | u32 endianness =>
      rw [decode, Item.encode, UInt32.toNat_ofNat_of_lt' (bound endianness)]
      exact Endianness.bytes_value length
  | u64 endianness =>
      rw [decode, Item.encode, UInt64.toNat_ofNat_of_lt' (bound endianness)]
      exact Endianness.bytes_value length
  | bytes count => rfl

end Format

namespace Item

theorem length_encode (item : Item) : item.encode.length = item.format.size := by
  cases item with
  | u8 | bytes => rfl
  | u16 | u32 | u64 => exact Endianness.length_bytes

/-- The bytes of an item and its format determine it. -/
theorem decode_encode (item : Item) : item.format.decode item.encode = item := by
  cases item with
  | u8 value => simp [format, encode, Format.decode, Endianness.value, BigEndian.value]
  | u16 value endianness =>
      rw [format, encode, Format.decode, Endianness.value_bytes value.toNat_lt, UInt16.ofNat_toNat]
  | u32 value endianness =>
      rw [format, encode, Format.decode, Endianness.value_bytes value.toNat_lt, UInt32.ofNat_toNat]
  | u64 value endianness =>
      rw [format, encode, Format.decode, Endianness.value_bytes value.toNat_lt, UInt64.ofNat_toNat]
  | bytes content => rfl

end Item

/-- How items are written into a buffer. -/
def itemEncoding : ItemEncoding Item Format UInt8 where
  encode := Item.encode
  format := Item.format
  length a b same := by rw [a.length_encode, b.length_encode, same]
  injective a b format same := by rw [← a.decode_encode, ← b.decode_encode, format, same]

/-! ## The parts of the array -/

/-- The array is what was read, the unread bytes and the room behind them. -/
structure Layout (buffer : RwBuffer) (front unread room : List UInt8) : Prop where
  bytes : buffer.bytes = front ++ unread ++ room
  offset : buffer.offset = front.length
  dataSize : buffer.dataSize = front.length + unread.length
  small : buffer.size < 2 ^ 32

theorem RwBuffer.Ordered.layout {buffer : RwBuffer} (ordered : buffer.Ordered) :
    ∃ front room, Layout buffer front buffer.data room := by
  have read := ordered.read
  have write : buffer.dataSize ≤ buffer.bytes.length := ordered.write
  have length : (buffer.bytes.take buffer.offset).length = buffer.offset :=
    List.length_take_of_le (read.trans write)
  have unread : buffer.data.length = buffer.dataSize - buffer.offset := by
    rw [RwBuffer.data, ordered.dataLen, List.length_take, List.length_drop]
    omega
  refine ⟨buffer.bytes.take buffer.offset, buffer.bytes.drop buffer.dataSize, ?_, length.symm, ?_,
    ordered.small⟩
  · have rest : buffer.bytes.drop buffer.dataSize =
        (buffer.bytes.drop buffer.offset).drop (buffer.dataSize - buffer.offset) := by
      rw [List.drop_drop, Nat.add_sub_cancel' read]
    rw [RwBuffer.data, ordered.dataLen, rest, List.append_assoc, List.take_append_drop,
      List.take_append_drop]
  · rw [length, unread, Nat.add_sub_cancel' read]

namespace Layout

variable {buffer next : RwBuffer} {front unread room : List UInt8} {n : Nat}

theorem size (layout : Layout buffer front unread room) :
    buffer.size = front.length + unread.length + room.length := by
  rw [RwBuffer.size, layout.bytes, List.length_append, List.length_append]

theorem ordered (layout : Layout buffer front unread room) : buffer.Ordered where
  read := by
    rw [layout.offset, layout.dataSize]
    exact Nat.le_add_right ..
  write := by
    rw [layout.dataSize, layout.size]
    exact Nat.le_add_right ..
  small := layout.small

theorem dataLen (layout : Layout buffer front unread room) : buffer.dataLen = unread.length := by
  rw [layout.ordered.dataLen, layout.dataSize, layout.offset, Nat.add_sub_cancel_left]

theorem slice (layout : Layout buffer front unread room) (inside : n ≤ unread.length) :
    buffer.slice buffer.offset n = unread.take n := by
  rw [RwBuffer.slice, layout.bytes, layout.offset, List.append_assoc, List.drop_left,
    List.take_append_of_le_length inside]

theorem data (layout : Layout buffer front unread room) : buffer.data = unread := by
  have all := layout.slice (Nat.le_refl unread.length)
  rw [List.take_length] at all
  rw [RwBuffer.data, layout.dataLen]
  exact all

theorem canRead (layout : Layout buffer front unread room) :
    buffer.canRead n = true ↔ n ≤ unread.length := by
  rw [RwBuffer.canRead, decide_eq_true_iff, layout.dataLen]

theorem canWrite (layout : Layout buffer front unread room) :
    buffer.canWrite n = true ↔ n ≤ room.length := by
  rw [layout.ordered.canWrite, layout.dataSize, layout.size]
  omega

/-! ### Calls -/

/-- The read offset moves behind the first unread bytes. -/
theorem seekReadCur (layout : Layout buffer front unread room) (inside : n ≤ unread.length) :
    Layout (final (Rw.seekReadCur n buffer)) (front ++ unread.take n) (unread.drop n) room := by
  have size := layout.size
  have small := layout.small
  have offset := layout.offset
  have dataSize := layout.dataSize
  have target : sizeAdd buffer.offset n = buffer.offset + n := Nat.mod_eq_of_lt (by omega)
  have taken : (unread.take n).length = n := List.length_take_of_le inside
  rw [Rw.seekReadCur_final, target, if_pos (by omega)]
  refine ⟨?_, ?_, ?_, small⟩
  · rw [List.append_assoc front, List.take_append_drop]
    exact layout.bytes
  · rw [List.length_append, taken, ← offset]
  · rw [List.length_append, taken, List.length_drop, Nat.add_assoc, Nat.add_sub_cancel' inside]
    exact dataSize

/-- A number is read from the first unread bytes. -/
theorem readNumber_ok {endianness : Endianness} {value : Nat}
    (layout : Layout buffer front unread room)
    (read : Rw.readNumber n endianness buffer = .ok value next) :
    n ≤ unread.length ∧ endianness.value (unread.take n) = value ∧
      final (Rw.seekReadCur n buffer) = next := by
  simp only [Rw.readNumber, bind_ok, exists_unit, get_ok, ensure_ok, pure_ok] at read
  obtain ⟨_, _, ⟨rfl, rfl⟩, _, ⟨readable, rfl⟩, _, dropped, rfl, rfl⟩ := read
  cases dropped
  have inside := layout.canRead.mp readable
  exact ⟨inside, by rw [layout.slice inside], rfl⟩

theorem readBytes_ok {bytes : List UInt8} (layout : Layout buffer front unread room)
    (read : Rw.readBytes n buffer = .ok bytes next) :
    n ≤ unread.length ∧ unread.take n = bytes ∧ final (Rw.seekReadCur n buffer) = next := by
  simp only [Rw.readBytes, Rw.copyBytes, bind_ok, exists_unit, get_ok, ensure_ok, pure_ok] at read
  obtain ⟨_, _, ⟨_, _, ⟨rfl, rfl⟩, _, ⟨readable, rfl⟩, rfl, rfl⟩, _, sought, rfl, rfl⟩ := read
  have inside := layout.canRead.mp readable
  rw [sought]
  exact ⟨inside, (layout.slice inside).symm, rfl⟩

/-- Bytes are written if there is room for all of them. -/
theorem writeBytes_succeeds {written : List UInt8} (layout : Layout buffer front unread room) :
    Prog.succeeds (Rw.writeBytes written buffer) = true ↔ written.length ≤ buffer.emptySpaceLen := by
  rw [Rw.writeBytes_eq layout.ordered.writable]
  exact succeeds_checked

private theorem readNumber_succeeds {endianness : Endianness}
    (layout : Layout buffer front unread room) :
    Prog.succeeds (Rw.readNumber n endianness buffer) = true ↔ n ≤ unread.length := by
  rw [Rw.readNumber_eq, ← layout.canRead]
  exact succeeds_checked

private theorem readBytes_succeeds (layout : Layout buffer front unread room) :
    Prog.succeeds (Rw.readBytes n buffer) = true ↔ n ≤ unread.length := by
  rw [Rw.readBytes_eq layout.ordered, ← layout.canRead]
  exact succeeds_checked

/-- An item is read if all its bytes are there. -/
theorem read_succeeds {format : Format} (layout : Layout buffer front unread room) :
    Prog.succeeds (format.read buffer) = true ↔ format.size ≤ unread.length := by
  cases format with
  | u8 | u16 | u32 | u64 =>
      simp only [Format.read, Rw.readU8, Rw.readU16, Rw.readU32, Rw.readU64, succeeds_map]
      exact layout.readNumber_succeeds
  | bytes count =>
      rw [Format.read, succeeds_map]
      exact layout.readBytes_succeeds

/-- What is read is the item of the format in the first unread bytes. -/
theorem read_ok {format : Format} {item : Item} (layout : Layout buffer front unread room)
    (read : format.read buffer = .ok item next) :
    format.size ≤ unread.length ∧ format.decode (unread.take format.size) = item ∧
      final (Rw.seekReadCur format.size buffer) = next := by
  cases format with
  | u8 =>
      simp only [Format.read, Rw.readU8, map_ok] at read
      obtain ⟨_, ⟨_, read, rfl⟩, rfl⟩ := read
      obtain ⟨inside, rfl, moved⟩ := layout.readNumber_ok read
      exact ⟨inside, rfl, moved⟩
  | u16 endianness =>
      simp only [Format.read, Rw.readU16, map_ok] at read
      obtain ⟨_, ⟨_, read, rfl⟩, rfl⟩ := read
      obtain ⟨inside, rfl, moved⟩ := layout.readNumber_ok read
      exact ⟨inside, rfl, moved⟩
  | u32 endianness =>
      simp only [Format.read, Rw.readU32, map_ok] at read
      obtain ⟨_, ⟨_, read, rfl⟩, rfl⟩ := read
      obtain ⟨inside, rfl, moved⟩ := layout.readNumber_ok read
      exact ⟨inside, rfl, moved⟩
  | u64 endianness =>
      simp only [Format.read, Rw.readU64, map_ok] at read
      obtain ⟨_, ⟨_, read, rfl⟩, rfl⟩ := read
      obtain ⟨inside, rfl, moved⟩ := layout.readNumber_ok read
      exact ⟨inside, rfl, moved⟩
  | bytes count =>
      simp only [Format.read, map_ok] at read
      obtain ⟨_, read, rfl⟩ := read
      obtain ⟨inside, rfl, moved⟩ := layout.readBytes_ok read
      exact ⟨inside, rfl, moved⟩

/-- A read takes its item from the front of the unread bytes. -/
theorem read {format : Format} {item : Item} (layout : Layout buffer front unread room)
    (read : format.read buffer = .ok item next) :
    ∃ rest, unread = item.encode ++ rest ∧ Layout next (front ++ item.encode) rest room := by
  obtain ⟨inside, rfl, rfl⟩ := layout.read_ok read
  have length : (unread.take format.size).length = format.size := List.length_take_of_le inside
  rw [Format.encode_decode length]
  exact ⟨unread.drop format.size, (List.take_append_drop ..).symm, layout.seekReadCur inside⟩

/-- A write takes the first bytes of the room. -/
theorem write {written : List UInt8} (layout : Layout buffer front unread room)
    (wrote : Rw.writeBytes written buffer = .ok () next) :
    written.length ≤ room.length ∧
      Layout next front (unread ++ written) (room.drop written.length) := by
  simp only [Rw.writeBytes, bind_ok, exists_unit, get_ok, ensure_ok, set_ok] at wrote
  obtain ⟨_, _, ⟨rfl, rfl⟩, _, ⟨writable, rfl⟩, _, rfl, moved⟩ := wrote
  cases moved
  have inside := layout.canWrite.mp writable
  have same := RwBuffer.size_overwrite (layout.ordered.canWrite.mp writable)
  have fits : buffer.dataSize + written.length ≤
      (buffer.overwrite buffer.dataSize written).size := by
    rw [same]
    exact layout.ordered.canWrite.mp writable
  have dataSize : (front ++ unread).length = buffer.dataSize := by
    rw [List.length_append, layout.dataSize]
  have small := same.trans_lt layout.small
  rw [Rw.seekWriteCur_moves fits small]
  refine ⟨inside, ?_, layout.offset, ?_, small⟩
  · change buffer.bytes.take buffer.dataSize ++ written ++
      buffer.bytes.drop (buffer.dataSize + written.length) = _
    rw [layout.bytes, ← dataSize, List.take_left, ← List.drop_drop, List.drop_left,
      List.append_assoc front unread]
  · rw [List.length_append, ← Nat.add_assoc, ← layout.dataSize]
    rfl

/-- The bytes that were read are dropped. -/
theorem shiftData (layout : Layout buffer front unread room) :
    ∃ room', Layout (final (Rw.shiftData buffer)) [] unread room' := by
  have same := Rw.size_moved layout.ordered
  rw [Rw.shiftData_eq layout.ordered, final]
  split
  · rename_i start
    have none : front = [] := List.length_eq_zero_iff.mp (layout.offset.symm.trans start)
    subst none
    exact ⟨room, layout⟩
  · rw [layout.dataLen, layout.slice (Nat.le_refl _), List.take_length] at same ⊢
    refine ⟨buffer.bytes.drop unread.length, ?_, rfl, (Nat.zero_add _).symm, ?_⟩
    · change [] ++ unread ++ buffer.bytes.drop (0 + unread.length) = _
      rw [Nat.zero_add]
    · exact same.trans_lt layout.small

end Layout

/-! ## Runs -/

/-- A call of the queue. -/
inductive QueueCall where
  | write (item : Item)
  | read (format : Format)
  | shiftData
deriving DecidableEq

/-- A buffer with what was written into it and read from it so far. -/
structure Queue where
  buffer : RwBuffer
  written : List Item
  read : List Item

namespace Queue

/-- Make a call. What is refused is not written or read. -/
def next (queue : Queue) : QueueCall → Queue
  | .write item =>
      match item.write queue.buffer with
      | .ok _ buffer => { queue with buffer, written := queue.written ++ [item] }
      | .error _ buffer => { queue with buffer }
  | .read format =>
      match format.read queue.buffer with
      | .ok item buffer => { queue with buffer, read := queue.read ++ [item] }
      | .error _ buffer => { queue with buffer }
  | .shiftData => { queue with buffer := final (Rw.shiftData queue.buffer) }

/-- The unread bytes are what was written and not read. -/
structure Inv (queue : Queue) : Prop where
  ordered : queue.buffer.Ordered
  conserves : itemEncoding.Conserves queue.written queue.read queue.buffer.data

/-- The buffer is a queue of bytes. -/
structure Exact (queue : Queue) : Prop where
  conserves : itemEncoding.stream queue.read ++ queue.buffer.data = itemEncoding.stream queue.written
  shifted_data : (queue.next .shiftData).buffer.data = queue.buffer.data
  shifted_read : (queue.next .shiftData).read = queue.read
  shifted_space : (queue.next .shiftData).buffer.emptySpaceLen =
    queue.buffer.size - queue.buffer.data.length
  unchanged : ∀ position wrote got, itemEncoding.At queue.written position wrote →
    itemEncoding.At queue.read position got → wrote.format = got.format → wrote = got
  writes : ∀ item : Item, Prog.succeeds (item.write queue.buffer) = true ↔
    item.encode.length ≤ queue.buffer.emptySpaceLen
  reads : ∀ format : Format, Prog.succeeds (format.read queue.buffer) = true ↔
    format.size ≤ queue.buffer.data.length

variable {queue : Queue} {call : QueueCall}

theorem refuses_write (item : Item) : Rw.Refuses item.write := by
  rw [item.write_eq]
  exact Rw.refuses_writeBytes

theorem refuses_read (format : Format) : Rw.Refuses format.read := by
  cases format with
  | u8 | u16 | u32 | u64 => exact Rw.refuses_map (Rw.refuses_map Rw.refuses_readNumber)
  | bytes => exact Rw.refuses_map Rw.refuses_readBytes

theorem Inv.next (inv : queue.Inv) : (queue.next call).Inv := by
  obtain ⟨front, room, layout⟩ := inv.ordered.layout
  have conserves := inv.conserves
  cases call with
  | write item =>
      simp only [Queue.next]
      cases wrote : item.write queue.buffer with
      | ok u buffer =>
          rw [item.write_eq] at wrote
          obtain ⟨-, after⟩ := layout.write wrote
          refine ⟨after.ordered, ?_⟩
          rw [after.data]
          exact conserves.write
      | error err buffer =>
          obtain rfl := refuses_write item _ _ _ wrote
          exact inv
  | read format =>
      simp only [Queue.next]
      cases read : format.read queue.buffer with
      | ok item buffer =>
          obtain ⟨rest, unread, after⟩ := layout.read read
          rw [unread] at conserves
          refine ⟨after.ordered, ?_⟩
          rw [after.data]
          exact conserves.take
      | error err buffer =>
          obtain rfl := refuses_read format _ _ _ read
          exact inv
  | shiftData =>
      obtain ⟨room', after⟩ := layout.shiftData
      refine ⟨after.ordered, ?_⟩
      simp only [Queue.next, after.data]
      exact conserves

theorem Inv.run (inv : queue.Inv) (calls : List QueueCall) : (calls.foldl Queue.next queue).Inv := by
  induction calls generalizing queue with
  | nil => exact inv
  | cons call calls ih => exact ih inv.next

theorem Inv.exact (inv : queue.Inv) : queue.Exact := by
  obtain ⟨front, room, layout⟩ := inv.ordered.layout
  obtain ⟨room', after⟩ := layout.shiftData
  have size : (final (Rw.shiftData queue.buffer)).size = queue.buffer.size :=
    (Rw.shiftData_stays inv.ordered).size
  refine ⟨inv.conserves, after.data, rfl, ?_, fun position wrote got => inv.conserves.unchanged,
    fun item => ?_, fun format => layout.read_succeeds⟩
  · simp only [Queue.next]
    rw [after.ordered.emptySpaceLen, size, after.dataSize, List.length_nil, Nat.zero_add]
  · rw [item.write_eq]
    exact layout.writeBytes_succeeds

end Queue

/-- From an empty buffer on, every run of writes, reads and shifts treats the buffer as a queue of
bytes, and gives every item back as it was written. What has room is written, and what is there is
read. -/
theorem rw_buffer_is_queue {buffer : RwBuffer} (ordered : buffer.Ordered)
    (empty : buffer.dataLen = 0) (calls : List QueueCall) :
    (calls.foldl Queue.next ⟨buffer, [], []⟩).Exact := by
  have none : buffer.data = [] := by rw [RwBuffer.data, empty, List.take_zero]
  have start : Queue.Inv ⟨buffer, [], []⟩ := by
    refine ⟨ordered, ?_⟩
    rw [none]
    exact .start
  exact (start.run calls).exact

/-- Five bytes: the second number has room only after the first one is read and dropped. -/
theorem rw_buffer_is_queue_fiveBytes :
    Queue.Exact ([.write (.u32 7 .le), .write (.u16 9 .be), .read (.u32 .le), .shiftData,
      .write (.u16 9 .be), .read (.u16 .be)].foldl Queue.next
        ⟨RwBuffer.init (List.replicate 5 0) 0, [], []⟩) :=
  rw_buffer_is_queue ⟨Nat.le_refl 0, Nat.zero_le _, by decide⟩ (by decide) _

end LedgerErgo.Common
