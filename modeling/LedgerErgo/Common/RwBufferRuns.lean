import LedgerErgo.Common.RwBufferAccesses
import LedgerErgo.Lib.Runs

/-! # Runs of calls of a buffer

From a fresh buffer on, a run keeps the offsets in order exactly if no seek puts the write
offset before the read offset. The seeks of the read offset look at the write offset; those of
the write offset only look at the size of the array.
-/

namespace LedgerErgo.Common

open LedgerErgo.Prog LedgerErgo.Runs

variable {α β : Type} {buffer : RwBuffer} {call : RwCall}

namespace Rw

/-- A call that fails changes nothing. -/
def Refuses (call : RwM α) : Prop :=
  ∀ (buffer next : RwBuffer) (err : Unit), call buffer = .error err next → next = buffer

theorem refuses_checked {check : RwBuffer → Prop} [∀ b, Decidable (check b)]
    {rest : RwBuffer → RwM α} (always : ∀ b err next, rest b b ≠ .error err next) :
    Refuses (do
      let buffer ← get
      ensure (check buffer) ()
      rest buffer) := by
  intro buffer next err failed
  rw [get_bind] at failed
  by_cases holds : check buffer
  · rw [bind_of_ok (ensure_of holds)] at failed
    exact absurd failed (always buffer err next)
  · rw [bind_of_error (ensure_of_not holds)] at failed
    cases failed
    rfl

theorem refuses_map {call : RwM α} {f : α → β} (refuses : Refuses call) : Refuses (f <$> call) := by
  intro buffer next err failed
  rw [map_eq_pure_bind, bind_error] at failed
  cases failed with
  | inl failed => exact refuses buffer next err failed
  | inr failed =>
      obtain ⟨a, middle, -, never⟩ := failed
      cases never

theorem refuses_drop {call : RwM α} (refuses : Refuses call) :
    Refuses (do let _ ← call) := refuses_map refuses

theorem refuses_readNumber {n : Nat} {endianness : Endianness} :
    Refuses (readNumber n endianness) := by
  apply refuses_checked
  intro b err next failed
  cases failed

theorem refuses_copyBytes {n : Nat} : Refuses (copyBytes n) := by
  apply refuses_checked
  intro b err next failed
  cases failed

theorem refuses_seekReadCur {n : Nat} : Refuses (seekReadCur n) := by
  apply refuses_checked
  intro b err next failed
  cases failed

theorem refuses_readBytes {n : Nat} : Refuses (readBytes n) := by
  intro buffer next err failed
  unfold readBytes at failed
  cases bind_error.mp failed with
  | inl failed => exact refuses_copyBytes buffer next err failed
  | inr later =>
      obtain ⟨out, middle, copied, late⟩ := later
      have same : middle = buffer := by
        rw [copyBytes_eq] at copied
        split at copied
        · cases copied
          rfl
        · cases copied
      subst same
      cases bind_error.mp late with
      | inl failed => exact refuses_seekReadCur middle next err failed
      | inr never =>
          obtain ⟨u, moved, sought, never⟩ := never
          cases never

theorem refuses_writeBytes {written : List UInt8} : Refuses (writeBytes written) := by
  apply refuses_checked
  intro b err next failed
  cases failed

theorem refuses_shiftData : Refuses shiftData := by
  intro buffer next err failed
  unfold shiftData at failed
  rw [get_bind] at failed
  split at failed
  · cases failed
  · cases failed

end Rw

open Rw in
theorem RwCall.refuses (call : RwCall) : Refuses call.run := by
  cases call with
  | seekReadSet offset => exact refuses_checked fun b err next failed => by cases failed
  | seekReadCur offset => exact refuses_seekReadCur
  | seekReadEnd offset => exact refuses_checked fun b err next failed => by cases failed
  | seekWriteSet offset => exact refuses_checked fun b err next failed => by cases failed
  | seekWriteCur offset => exact refuses_checked fun b err next failed => by cases failed
  | seekWriteEnd offset => exact refuses_checked fun b err next failed => by cases failed
  | readU8 => exact refuses_drop (refuses_map refuses_readNumber)
  | readU16 endianness => exact refuses_drop (refuses_map refuses_readNumber)
  | readU32 endianness => exact refuses_drop (refuses_map refuses_readNumber)
  | readU64 endianness => exact refuses_drop (refuses_map refuses_readNumber)
  | readBytes count => exact refuses_drop refuses_readBytes
  | copyBytes count => exact refuses_drop refuses_copyBytes
  | readBip32Path outLen =>
      exact refuses_drop (refuses_checked fun b err next failed => by cases failed)
  | writeU8 value => exact refuses_writeBytes
  | writeU16 value endianness => exact refuses_writeBytes
  | writeU32 value endianness => exact refuses_writeBytes
  | writeU64 value endianness => exact refuses_writeBytes
  | writeBytes written => exact refuses_writeBytes
  | empty => intro buffer next err failed; cases failed
  | shiftData => exact refuses_shiftData

namespace RwCall

open Rw RwBuffer

/-- A seek of the write offset does not put it before the read offset. -/
def Keeps (buffer : RwBuffer) : RwCall → Prop
  | .seekWriteSet offset => offset ≤ buffer.size → buffer.offset ≤ offset
  | .seekWriteEnd offset => offset ≤ buffer.size → buffer.offset ≤ buffer.size - offset
  | _ => True

/-- The two lengths are those of the parts of the array they stand for. -/
structure Lengths (buffer : RwBuffer) : Prop where
  data : buffer.offset + buffer.dataLen = buffer.dataSize
  space : buffer.dataSize + buffer.emptySpaceLen = buffer.size

/-- The call stays in the array, leaves the offsets in order, and changes nothing if it fails. The
ranges it copies are in the array; it changes nothing behind them and depends on nothing there. -/
structure Safe (buffer : RwBuffer) (call : RwCall) : Prop where
  inside : ∀ access ∈ call.accesses buffer, access.1 + access.2 ≤ buffer.size
  outside : ∀ place, ¬ InRanges (call.accesses buffer) place →
    (next buffer call).bytes[place]? = buffer.bytes[place]?
  depends : ∀ other, Alike (call.accesses buffer) buffer other →
    EndAlike (call.accesses buffer) (call.answer buffer) (call.answer other)
  unchanged : ∀ err next, call.run buffer = .error err next → next = buffer
  ordered : (next buffer call).Ordered
  size : (next buffer call).size = buffer.size
  lengths : Lengths (next buffer call)

theorem lengths_of_ordered (ordered : buffer.Ordered) : Lengths buffer where
  data := by rw [ordered.dataLen, Nat.add_sub_cancel' ordered.read]
  space := by rw [ordered.emptySpaceLen, Nat.add_sub_cancel' ordered.write]

private theorem stays_read {n : Nat} {endianness : Endianness} {f : Nat → α}
    (ordered : buffer.Ordered) :
    Stays buffer (final ((do let _ ← f <$> readNumber n endianness : RwM Unit) buffer)) := by
  rw [final_drop, final_map]
  exact readNumber_stays ordered

private theorem stays_drop {read : RwM α} (stays : Stays buffer (final (read buffer))) :
    Stays buffer (final ((do let _ ← read : RwM Unit) buffer)) := by
  rwa [final_drop]

theorem next_stays (ordered : buffer.Ordered) (keeps : Keeps buffer call) :
    Stays buffer (next buffer call) := by
  cases call with
  | seekReadSet offset => exact seekReadSet_stays ordered
  | seekReadCur offset => exact seekReadCur_stays ordered
  | seekReadEnd offset => exact seekReadEnd_stays ordered
  | seekWriteSet offset => exact seekWriteSet_stays ordered keeps
  | seekWriteCur offset => exact seekWriteCur_stays ordered
  | seekWriteEnd offset => exact seekWriteEnd_stays ordered keeps
  | readU8 => exact stays_read ordered
  | readU16 endianness => exact stays_read ordered
  | readU32 endianness => exact stays_read ordered
  | readU64 endianness => exact stays_read ordered
  | readBytes count => exact stays_drop (readBytes_stays ordered)
  | copyBytes count =>
      apply stays_drop
      rw [copyBytes_eq]
      split <;> exact .refl ordered
  | readBip32Path outLen => exact stays_drop (readBip32Path_stays ordered)
  | writeU8 value => exact writeBytes_stays ordered
  | writeU16 value endianness => exact writeBytes_stays ordered
  | writeU32 value endianness => exact writeBytes_stays ordered
  | writeU64 value endianness => exact writeBytes_stays ordered
  | writeBytes written => exact writeBytes_stays ordered
  | empty => exact empty_stays ordered
  | shiftData => exact shiftData_stays ordered

private theorem read_inside {n : Nat} (ordered : buffer.Ordered) :
    ∀ access ∈ accesses.read buffer n, access.1 + access.2 ≤ buffer.size := by
  intro access accessed
  rw [accesses.read] at accessed
  split at accessed
  · rename_i readable
    obtain rfl := List.mem_singleton.mp accessed
    exact (ordered.canRead.mp readable).trans ordered.write
  · cases accessed

private theorem write_inside {n : Nat} (ordered : buffer.Ordered) :
    ∀ access ∈ accesses.write buffer n, access.1 + access.2 ≤ buffer.size := by
  intro access accessed
  rw [accesses.write] at accessed
  split at accessed
  · rename_i writable
    obtain rfl := List.mem_singleton.mp accessed
    exact ordered.canWrite.mp writable
  · cases accessed

private theorem path_inside {outLen len : Nat} (ordered : buffer.Ordered)
    (length : buffer.offset + len = buffer.dataSize) :
    ∀ i ∈ List.range (min outLen (len / 4)), buffer.offset + 4 * i + 4 ≤ buffer.size := by
  intro i among
  have write := ordered.write
  have := List.mem_range.mp among
  omega

private theorem shifted_inside {len : Nat} (ordered : buffer.Ordered)
    (length : buffer.offset + len = buffer.dataSize) :
    ∀ access ∈ [(buffer.offset, len), (0, len)], access.1 + access.2 ≤ buffer.size := by
  have write := ordered.write
  intro access accessed
  cases List.mem_cons.mp accessed with
  | inl first =>
      subst first
      exact length.trans_le write
  | inr second =>
      obtain rfl := List.mem_singleton.mp second
      change 0 + len ≤ buffer.size
      omega

theorem accesses_inside (ordered : buffer.Ordered) :
    ∀ access ∈ call.accesses buffer, access.1 + access.2 ≤ buffer.size := by
  have length := (lengths_of_ordered ordered).data
  cases call with
  | readU8 => exact read_inside ordered
  | readU16 endianness => exact read_inside ordered
  | readU32 endianness => exact read_inside ordered
  | readU64 endianness => exact read_inside ordered
  | readBytes count => exact read_inside ordered
  | copyBytes count => exact read_inside ordered
  | readBip32Path outLen =>
      intro access accessed
      rw [accesses] at accessed
      split at accessed
      · cases accessed
      · obtain ⟨i, among, rfl⟩ := List.mem_map.mp accessed
        exact path_inside ordered length i among
  | writeU8 value => exact write_inside ordered
  | writeU16 value endianness => exact write_inside ordered
  | writeU32 value endianness => exact write_inside ordered
  | writeU64 value endianness => exact write_inside ordered
  | writeBytes written => exact write_inside ordered
  | shiftData =>
      intro access accessed
      rw [accesses] at accessed
      split at accessed
      · cases accessed
      · exact shifted_inside ordered length access accessed
  | _ => intro access accessed; cases accessed

/-- What `Keeps` leaves out are the seeks that put the write offset before the read offset. -/
theorem keeps_of_ordered (small : buffer.size < 2 ^ 32) (after : (next buffer call).Ordered) :
    Keeps buffer call := by
  cases call with
  | seekWriteSet offset =>
      intro inside
      have moved : next buffer (.seekWriteSet offset) = { buffer with dataSize := offset } :=
        (seekWriteSet_final offset buffer).trans (if_pos (Nat.not_lt.mpr inside))
      rw [moved] at after
      exact after.read
  | seekWriteEnd offset =>
      intro inside
      have moved : next buffer (.seekWriteEnd offset) =
          { buffer with dataSize := sizeSub buffer.size offset } :=
        (seekWriteEnd_final offset buffer).trans (if_pos (Nat.not_lt.mpr inside))
      rw [sizeSub_of_le inside small] at moved
      rw [moved] at after
      exact after.read
  | _ => trivial

theorem safe_iff_keeps (ordered : buffer.Ordered) : Safe buffer call ↔ Keeps buffer call := by
  constructor
  · intro safe
    exact keeps_of_ordered ordered.small safe.ordered
  · intro keeps
    have stays := next_stays ordered keeps
    have unchanged := fun err next failed => RwCall.refuses call buffer next err failed
    have confined := @answer_confined buffer call ordered
    have outside := confined.outside
    rw [final_answer] at outside
    exact ⟨accesses_inside ordered, outside, confined.same, unchanged, stays.ordered, stays.size,
      lengths_of_ordered stays.ordered⟩

end RwCall

section

open RwCall RwBuffer

/-- From a fresh buffer on, all calls of a run are safe exactly if no seek of the run puts the
write offset before the read offset. -/
theorem rw_buffer_run_safe_iff {bytes : List UInt8} {dataSize : Nat} {calls : List RwCall}
    (fits : dataSize ≤ bytes.length) (small : bytes.length < 2 ^ 32) :
    (init bytes dataSize).Ordered ∧
      (EachStep next Safe (init bytes dataSize) calls ↔
        EachStep next Keeps (init bytes dataSize) calls) := by
  have start : (init bytes dataSize).Ordered := ⟨Nat.zero_le _, fits, small⟩
  constructor
  · exact start
  · apply eachStep_iff (fun buffer call ordered => ?_) (fun buffer call ordered safe => ?_) start
    · exact safe_iff_keeps ordered
    · exact safe.ordered

theorem rw_buffer_run_safe_iff_full :
    (init (List.replicate 4 7) 4).Ordered ∧
      (EachStep next Safe (init (List.replicate 4 7) 4) [.readU8, .seekWriteSet 2, .shiftData] ↔
        EachStep next Keeps (init (List.replicate 4 7) 4)
          [.readU8, .seekWriteSet 2, .shiftData]) :=
  rw_buffer_run_safe_iff (by decide) (by decide)

/-- A full buffer is read up to its middle and then its write offset is put before that. -/
theorem rw_buffer_write_offset_behind :
    ¬ EachStep next Safe (init (List.replicate 20 7) 20)
        [.seekReadSet 10, .seekWriteSet 5, .readBytes 12] ∧
      (10, 12) ∈ (RwCall.readBytes 12).accesses
        ([.seekReadSet 10, .seekWriteSet 5].foldl next (init (List.replicate 20 7) 20)) := by
  constructor
  · intro each
    have late : 10 ≤ 5 := each.2.1.ordered.read
    omega
  · decide

end

end LedgerErgo.Common
