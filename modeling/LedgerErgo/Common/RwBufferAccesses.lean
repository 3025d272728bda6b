import LedgerErgo.Common.RwBufferCalls

/-! # The bytes that a call copies

Apart from the two offsets and the size, a call depends on the bytes it copies and on no others,
and it changes no others. So the ranges a call is said to copy are not too few: two buffers that
differ behind them cannot be told apart by the call.
-/

namespace LedgerErgo.Common

open LedgerErgo.Prog

variable {α β : Type} {ranges : List (Nat × Nat)}

/-- The place is in one of the ranges of a start and a length. -/
def InRanges (ranges : List (Nat × Nat)) (place : Nat) : Prop :=
  ∃ range ∈ ranges, range.1 ≤ place ∧ place < range.1 + range.2

/-- Two buffers with the same offsets and the same size that hold the same bytes in the ranges. -/
structure Alike (ranges : List (Nat × Nat)) (buffer other : RwBuffer) : Prop where
  offset : other.offset = buffer.offset
  dataSize : other.dataSize = buffer.dataSize
  size : other.size = buffer.size
  bytes : ∀ place, InRanges ranges place → other.bytes[place]? = buffer.bytes[place]?

/-- Two calls that give the same answer and leave two buffers that are alike. -/
inductive EndAlike (ranges : List (Nat × Nat)) :
    EStateM.Result Unit RwBuffer α → EStateM.Result Unit RwBuffer α → Prop where
  | ok {answer : α} {buffer other : RwBuffer} (alike : Alike ranges buffer other) :
      EndAlike ranges (.ok answer buffer) (.ok answer other)
  | error {buffer other : RwBuffer} (alike : Alike ranges buffer other) :
      EndAlike ranges (.error () buffer) (.error () other)

/-- The call changes only bytes in the ranges, and of all bytes only those decide what it does. -/
structure Confined (ranges : List (Nat × Nat)) (call : RwM α) (buffer : RwBuffer) : Prop where
  outside : ∀ place, ¬ InRanges ranges place →
    (final (call buffer)).bytes[place]? = buffer.bytes[place]?
  same : ∀ other, Alike ranges buffer other → EndAlike ranges (call buffer) (call other)

/-! ## Buffers that are alike -/

variable {buffer other : RwBuffer}

namespace Alike

theorem dataLen (alike : Alike ranges buffer other) : other.dataLen = buffer.dataLen := by
  rw [RwBuffer.dataLen, RwBuffer.dataLen, alike.dataSize, alike.offset]

theorem canRead {n : Nat} (alike : Alike ranges buffer other) :
    other.canRead n = buffer.canRead n := by
  rw [RwBuffer.canRead, RwBuffer.canRead, alike.dataLen]

theorem emptySpaceLen (alike : Alike ranges buffer other) :
    other.emptySpaceLen = buffer.emptySpaceLen := by
  rw [RwBuffer.emptySpaceLen, RwBuffer.emptySpaceLen, alike.size, alike.dataSize]

theorem ordered (alike : Alike ranges buffer other) (ordered : buffer.Ordered) : other.Ordered where
  read := by
    rw [alike.offset, alike.dataSize]
    exact ordered.read
  write := by
    rw [alike.dataSize, alike.size]
    exact ordered.write
  small := by
    rw [alike.size]
    exact ordered.small

theorem setOffset {offset offset' : Nat} (alike : Alike ranges buffer other)
    (same : offset' = offset) :
    Alike ranges { buffer with offset := offset } { other with offset := offset' } :=
  ⟨same, alike.dataSize, alike.size, alike.bytes⟩

theorem setDataSize {dataSize dataSize' : Nat} (alike : Alike ranges buffer other)
    (same : dataSize' = dataSize) :
    Alike ranges { buffer with dataSize := dataSize } { other with dataSize := dataSize' } :=
  ⟨alike.offset, same, alike.size, alike.bytes⟩

theorem slice {start n : Nat} (alike : Alike ranges buffer other) (among : (start, n) ∈ ranges) :
    other.slice start n = buffer.slice start n := by
  apply List.ext_getElem?
  intro i
  simp only [RwBuffer.slice, List.getElem?_take, List.getElem?_drop]
  split
  · exact alike.bytes (start + i) ⟨(start, n), among, Nat.le_add_right .., by dsimp only; omega⟩
  · rfl

end Alike

theorem getElem?_overwrite {start place : Nat} {written : List UInt8}
    (inside : start + written.length ≤ buffer.size) :
    (buffer.overwrite start written).bytes[place]? =
      if place < start then buffer.bytes[place]?
      else if place < start + written.length then written[place - start]?
      else buffer.bytes[place]? := by
  have inside : start + written.length ≤ buffer.bytes.length := inside
  simp only [RwBuffer.overwrite, List.append_assoc, List.getElem?_append, List.length_take,
    List.getElem?_take, List.getElem?_drop]
  rw [Nat.min_eq_left (by omega)]
  split
  · rfl
  · split
    · rw [if_pos (by omega)]
    · rw [if_neg (by omega)]
      congr 1
      omega

theorem Alike.overwrite {start : Nat} {written : List UInt8} (alike : Alike ranges buffer other)
    (inside : start + written.length ≤ buffer.size) :
    Alike ranges (buffer.overwrite start written) (other.overwrite start written) where
  offset := alike.offset
  dataSize := alike.dataSize
  size := by
    rw [RwBuffer.size_overwrite inside, RwBuffer.size_overwrite (inside.trans_eq alike.size.symm),
      alike.size]
  bytes := by
    intro place within
    rw [getElem?_overwrite inside, getElem?_overwrite (inside.trans_eq alike.size.symm),
      alike.bytes place within]

theorem outside_overwrite {start place : Nat} {written : List UInt8}
    (among : (start, written.length) ∈ ranges) (inside : start + written.length ≤ buffer.size)
    (outside : ¬ InRanges ranges place) :
    (buffer.overwrite start written).bytes[place]? = buffer.bytes[place]? := by
  rw [getElem?_overwrite inside]
  split
  · rfl
  · rename_i behind
    rw [if_neg fun within => outside ⟨_, among, Nat.not_lt.mp behind, within⟩]

/-! ## Calls that are confined -/

namespace EndAlike

variable {answer answer' : EStateM.Result Unit RwBuffer α}

theorem final (ends : EndAlike ranges answer answer') :
    Alike ranges (Prog.final answer) (Prog.final answer') := by
  cases ends with
  | ok alike => exact alike
  | error alike => exact alike

theorem map {call : RwM α} {f : α → β} (ends : EndAlike ranges (call buffer) (call other)) :
    EndAlike ranges ((f <$> call) buffer) ((f <$> call) other) := by
  generalize here : call buffer = answer at ends
  generalize there : call other = answer' at ends
  rw [map_eq_pure_bind]
  cases ends with
  | ok alike =>
      rw [bind_of_ok here, bind_of_ok there]
      exact .ok alike
  | error alike =>
      rw [bind_of_error here, bind_of_error there]
      exact .error alike

end EndAlike

namespace Confined

variable {call : RwM α} {f : α → β}

theorem map (confined : Confined ranges call buffer) : Confined ranges (f <$> call) buffer where
  outside := by
    rw [final_map]
    exact confined.outside
  same other alike := (confined.same other alike).map

/-- A call that checks something and then moves an offset. -/
theorem checked {check : RwBuffer → Prop} [∀ b, Decidable (check b)]
    {change : RwBuffer → RwBuffer} {call : RwM Unit}
    (same : call = (do
      let buffer ← get
      ensure (check buffer) ()
      set (change buffer)))
    (bytes : (change buffer).bytes = buffer.bytes)
    (alike : ∀ other, Alike ranges buffer other →
      (check other ↔ check buffer) ∧ Alike ranges (change buffer) (change other)) :
    Confined ranges call buffer where
  outside place out := by
    rw [Rw.checked_eq same]
    split
    · rw [final, bytes]
    · rfl
  same other agrees := by
    obtain ⟨checks, changed⟩ := alike other agrees
    rw [Rw.checked_eq same, Rw.checked_eq same]
    by_cases holds : check buffer
    · rw [if_pos holds, if_pos (checks.mpr holds)]
      exact .ok changed
    · rw [if_neg holds, if_neg (mt checks.mp holds)]
      exact .error agrees

end Confined

namespace Rw

variable {n : Nat} {endianness : Endianness}

theorem seekReadSet_confined : Confined ranges (seekReadSet n) buffer :=
  .checked rfl rfl fun other alike => ⟨by rw [alike.dataSize], alike.setOffset rfl⟩

theorem seekReadCur_confined : Confined ranges (seekReadCur n) buffer :=
  .checked rfl rfl fun other alike =>
    ⟨by rw [alike.dataSize, alike.offset], alike.setOffset (by rw [alike.offset])⟩

theorem seekReadEnd_confined : Confined ranges (seekReadEnd n) buffer :=
  .checked rfl rfl fun other alike =>
    ⟨by rw [alike.dataSize], alike.setOffset (by rw [alike.dataSize])⟩

theorem seekWriteSet_confined : Confined ranges (seekWriteSet n) buffer :=
  .checked rfl rfl fun other alike => ⟨by rw [alike.size], alike.setDataSize rfl⟩

theorem seekWriteCur_confined : Confined ranges (seekWriteCur n) buffer :=
  .checked rfl rfl fun other alike =>
    ⟨by rw [alike.dataSize, alike.size], alike.setDataSize (by rw [alike.dataSize])⟩

theorem seekWriteEnd_confined : Confined ranges (seekWriteEnd n) buffer :=
  .checked rfl rfl fun other alike =>
    ⟨by rw [alike.size], alike.setDataSize (by rw [alike.size])⟩

theorem readNumber_confined (among : buffer.canRead n = true → (buffer.offset, n) ∈ ranges) :
    Confined ranges (readNumber n endianness) buffer where
  outside place out := by
    rw [readNumber_eq]
    split
    · exact seekReadCur_confined.outside place out
    · rfl
  same other alike := by
    rw [readNumber_eq, readNumber_eq, alike.canRead]
    by_cases readable : buffer.canRead n = true
    · rw [if_pos readable, if_pos readable, alike.offset, alike.slice (among readable)]
      exact .ok (seekReadCur_confined.same other alike).final
    · rw [if_neg readable, if_neg readable]
      exact .error alike

theorem copyBytes_confined (among : buffer.canRead n = true → (buffer.offset, n) ∈ ranges) :
    Confined ranges (copyBytes n) buffer where
  outside place out := by
    rw [copyBytes_eq]
    split <;> rfl
  same other alike := by
    rw [copyBytes_eq, copyBytes_eq, alike.canRead]
    by_cases readable : buffer.canRead n = true
    · rw [if_pos readable, if_pos readable, alike.offset, alike.slice (among readable)]
      exact .ok alike
    · rw [if_neg readable, if_neg readable]
      exact .error alike

theorem readBytes_confined (ordered : buffer.Ordered)
    (among : buffer.canRead n = true → (buffer.offset, n) ∈ ranges) :
    Confined ranges (readBytes n) buffer where
  outside place out := by
    rw [readBytes_eq ordered]
    split <;> rfl
  same other alike := by
    rw [readBytes_eq ordered, readBytes_eq (alike.ordered ordered), alike.canRead]
    by_cases readable : buffer.canRead n = true
    · rw [if_pos readable, if_pos readable, alike.offset, alike.slice (among readable)]
      exact .ok (alike.setOffset rfl)
    · rw [if_neg readable, if_neg readable]
      exact .error alike

theorem readBip32Path_confined
    (among : ¬ (n = 0 ∨ n > maxBip32Path) → 4 * n ≤ buffer.dataLen →
      ∀ i < n, (buffer.offset + 4 * i, 4) ∈ ranges) :
    Confined ranges (readBip32Path n) buffer where
  outside place out := by
    rw [readBip32Path_eq]
    split
    · exact seekReadCur_confined.outside place out
    · rfl
  same other alike := by
    rw [readBip32Path_eq, readBip32Path_eq, alike.dataLen]
    by_cases readable : ¬ (n = 0 ∨ n > maxBip32Path) ∧ 4 * n ≤ buffer.dataLen
    · have numbers : (List.range n).map (fun i =>
            UInt32.ofNat (BigEndian.value (other.slice (other.offset + 4 * i) 4))) =
          (List.range n).map fun i =>
            UInt32.ofNat (BigEndian.value (buffer.slice (buffer.offset + 4 * i) 4)) := by
        apply List.map_congr_left
        intro i within
        rw [alike.offset, alike.slice (among readable.1 readable.2 i (List.mem_range.mp within))]
      rw [if_pos readable, if_pos readable, numbers]
      exact .ok (seekReadCur_confined.same other alike).final
    · rw [if_neg readable, if_neg readable]
      exact .error alike

theorem writeBytes_confined {written : List UInt8} (ordered : buffer.Ordered)
    (among : buffer.canWrite written.length = true → (buffer.dataSize, written.length) ∈ ranges) :
    Confined ranges (writeBytes written) buffer := by
  have inside (room : written.length ≤ buffer.emptySpaceLen) :
      buffer.dataSize + written.length ≤ buffer.size :=
    ordered.canWrite.mp (decide_eq_true room)
  constructor
  · intro place out
    rw [writeBytes_eq ordered.writable]
    split
    · rename_i room
      exact outside_overwrite (among (decide_eq_true room)) (inside room) out
    · rfl
  · intro other alike
    rw [writeBytes_eq ordered.writable, writeBytes_eq (alike.ordered ordered).writable,
      alike.emptySpaceLen]
    by_cases room : written.length ≤ buffer.emptySpaceLen
    · have pushed : Alike ranges (buffer.push written) (other.push written) := by
        unfold RwBuffer.push
        rw [alike.dataSize]
        exact (alike.overwrite (inside room)).setDataSize rfl
      rw [if_pos room, if_pos room]
      exact .ok pushed
    · rw [if_neg room, if_neg room]
      exact .error alike

theorem shiftData_confined (ordered : buffer.Ordered)
    (source : buffer.offset ≠ 0 → (buffer.offset, buffer.dataLen) ∈ ranges)
    (target : buffer.offset ≠ 0 → (0, buffer.dataLen) ∈ ranges) :
    Confined ranges shiftData buffer := by
  constructor
  · intro place out
    rw [shiftData_eq ordered, final]
    split
    · rfl
    · rename_i start
      exact outside_overwrite ((length_unread ordered).symm ▸ target start) (moved_inside ordered) out
  · intro other alike
    rw [shiftData_eq ordered, shiftData_eq (alike.ordered ordered), alike.offset, alike.dataLen]
    by_cases start : buffer.offset = 0
    · rw [if_pos start, if_pos start]
      exact .ok alike
    · rw [if_neg start, if_neg start, alike.slice (source start)]
      have moved := alike.overwrite (moved_inside ordered)
      exact .ok ⟨rfl, rfl, moved.size, moved.bytes⟩

end Rw

/-! ## The ranges of a call -/

namespace RwCall

open Rw

/-- Make the call; the answer is what it reads. -/
def answer : RwCall → RwM (List Nat)
  | .readU8 => (fun value => [value.toNat]) <$> Rw.readU8
  | .readU16 endianness => (fun value => [value.toNat]) <$> Rw.readU16 endianness
  | .readU32 endianness => (fun value => [value.toNat]) <$> Rw.readU32 endianness
  | .readU64 endianness => (fun value => [value.toNat]) <$> Rw.readU64 endianness
  | .readBytes count => List.map UInt8.toNat <$> Rw.readBytes count
  | .copyBytes count => List.map UInt8.toNat <$> Rw.copyBytes count
  | .readBip32Path outLen => List.map UInt32.toNat <$> Rw.readBip32Path outLen
  | call => (fun _ => []) <$> call.run

theorem final_answer {call : RwCall} : final (call.answer buffer) = next buffer call := by
  cases call with
  | readU8 | readU16 | readU32 | readU64 | readBytes | copyBytes | readBip32Path =>
      exact final_map.trans final_drop.symm
  | _ => exact final_map

/-- A call copies the bytes of its ranges and no others. -/
theorem answer_confined {call : RwCall} (ordered : buffer.Ordered) :
    Confined (call.accesses buffer) call.answer buffer := by
  have read (n : Nat) (readable : buffer.canRead n = true) :
      (buffer.offset, n) ∈ accesses.read buffer n := by
    rw [accesses.read, if_pos readable]
    exact List.mem_singleton_self _
  have write (n : Nat) (room : buffer.canWrite n = true) :
      (buffer.dataSize, n) ∈ accesses.write buffer n := by
    rw [accesses.write, if_pos room]
    exact List.mem_singleton_self _
  have written (endianness : Endianness) (width n : Nat)
      (room : buffer.canWrite (endianness.bytes width n).length = true) :
      (buffer.dataSize, (endianness.bytes width n).length) ∈ accesses.write buffer width := by
    rw [Endianness.length_bytes] at room ⊢
    exact write width room
  cases call with
  | seekReadSet offset => exact seekReadSet_confined.map
  | seekReadCur offset => exact seekReadCur_confined.map
  | seekReadEnd offset => exact seekReadEnd_confined.map
  | seekWriteSet offset => exact seekWriteSet_confined.map
  | seekWriteCur offset => exact seekWriteCur_confined.map
  | seekWriteEnd offset => exact seekWriteEnd_confined.map
  | readU8 => exact (readNumber_confined (read 1)).map.map
  | readU16 endianness => exact (readNumber_confined (read 2)).map.map
  | readU32 endianness => exact (readNumber_confined (read 4)).map.map
  | readU64 endianness => exact (readNumber_confined (read 8)).map.map
  | readBytes count => exact (readBytes_confined ordered (read count)).map
  | copyBytes count => exact (copyBytes_confined (read count)).map
  | readBip32Path outLen =>
      refine (readBip32Path_confined fun counted readable i within => ?_).map
      rw [accesses, if_neg counted]
      exact List.mem_map.mpr ⟨i, List.mem_range.mpr (by omega), rfl⟩
  | writeU8 value => exact (@writeBytes_confined _ buffer [value] ordered (write 1)).map
  | writeU16 value endianness => exact (writeBytes_confined ordered (written endianness 2 _)).map
  | writeU32 value endianness => exact (writeBytes_confined ordered (written endianness 4 _)).map
  | writeU64 value endianness => exact (writeBytes_confined ordered (written endianness 8 _)).map
  | writeBytes bytes => exact (writeBytes_confined ordered (write bytes.length)).map
  | empty =>
      refine Confined.map ⟨fun place out => rfl, fun other alike => ?_⟩
      exact .ok ⟨rfl, rfl, alike.size, alike.bytes⟩
  | shiftData =>
      refine (shiftData_confined ordered (fun start => ?_) fun start => ?_).map
      · rw [accesses, if_neg start]
        exact List.mem_cons_self
      · rw [accesses, if_neg start]
        exact List.mem_cons_of_mem _ (List.mem_singleton_self _)

end RwCall

end LedgerErgo.Common
