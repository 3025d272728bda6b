import LedgerErgo.Lib.BigEndian

/-! # Reading from a buffer

A `buffer_t` is a pointer, a size and a read offset. Nothing in the application
looks back at what it has read, so a buffer is the list of its unread bytes, and
a read gives the value together with the bytes that stay. A read that does not
find enough bytes fails and consumes nothing.
-/

namespace LedgerErgo.Common

/-- The unread bytes of a `buffer_t`. -/
abbrev Buffer := List UInt8

/-- `buffer_can_read` -/
def bufferCanRead (buffer : Buffer) (n : Nat) : Bool := n ≤ buffer.length

/-- `buffer_read_bytes` -/
def bufferReadBytes (n : Nat) (buffer : Buffer) : Option (Bytes n × Buffer) :=
  if h : n ≤ buffer.length then
    some (⟨buffer.take n, by simpa using h⟩, buffer.drop n)
  else none

/-- `buffer_read_u8` -/
def bufferReadU8 : Buffer → Option (UInt8 × Buffer)
  | [] => none
  | b :: rest => some (b, rest)

/-- The big-endian number in the next `width` bytes. -/
def bufferReadNat (width : Nat) (buffer : Buffer) : Option (Nat × Buffer) :=
  (bufferReadBytes width buffer).map fun read => (BigEndian.value read.1.val, read.2)

/-- `buffer_read_u16`, big endian -/
def bufferReadU16 (buffer : Buffer) : Option (UInt16 × Buffer) :=
  (bufferReadNat 2 buffer).map fun read => (UInt16.ofNat read.1, read.2)

/-- `buffer_read_u32`, big endian -/
def bufferReadU32 (buffer : Buffer) : Option (UInt32 × Buffer) :=
  (bufferReadNat 4 buffer).map fun read => (UInt32.ofNat read.1, read.2)

/-- `buffer_read_u64`, big endian -/
def bufferReadU64 (buffer : Buffer) : Option (UInt64 × Buffer) :=
  (bufferReadNat 8 buffer).map fun read => (UInt64.ofNat read.1, read.2)

theorem bufferReadBytes_eq_some {n : Nat} {buffer rest : Buffer} {bytes : Bytes n} :
    bufferReadBytes n buffer = some (bytes, rest) ↔ buffer = bytes.val ++ rest := by
  simp only [bufferReadBytes, Option.dite_none_right_eq_some, Option.some.injEq, Prod.mk.injEq]
  constructor
  · rintro ⟨h, rfl, rfl⟩
    exact (List.take_append_drop n buffer).symm
  · rintro rfl
    exact ⟨by simp, Subtype.ext (by simp), by simp⟩

theorem bufferReadBytes_append {n : Nat} (bytes : Bytes n) (rest : Buffer) :
    bufferReadBytes n (bytes.val ++ rest) = some (bytes, rest) :=
  bufferReadBytes_eq_some.mpr rfl

theorem bufferReadBytes_eq_none {n : Nat} {buffer : Buffer} :
    bufferReadBytes n buffer = none ↔ buffer.length < n := by
  simp [bufferReadBytes]

theorem bufferReadNat_eq_some {width n : Nat} {buffer rest : Buffer} :
    bufferReadNat width buffer = some (n, rest) ↔
      n < 256 ^ width ∧ buffer = BigEndian.write width n ++ rest := by
  simp only [bufferReadNat, Option.map_eq_some_iff, Prod.mk.injEq, Prod.exists,
    bufferReadBytes_eq_some]
  constructor
  · rintro ⟨⟨bytes, length⟩, _, rfl, rfl, rfl⟩
    subst length
    exact ⟨BigEndian.value_lt bytes, by rw [BigEndian.write_value]⟩
  · rintro ⟨small, rfl⟩
    exact ⟨⟨BigEndian.write width n, by simp⟩, rest, rfl, BigEndian.value_write_of_lt small, rfl⟩

/-- The big-endian bytes of a 32-bit number. -/
def u32Bytes (value : UInt32) : List UInt8 := BigEndian.write 4 value.toNat

/-- The big-endian bytes of a 64-bit number. -/
def u64Bytes (value : UInt64) : List UInt8 := BigEndian.write 8 value.toNat

@[simp] theorem length_u32Bytes (value : UInt32) : (u32Bytes value).length = 4 := by
  simp [u32Bytes]

@[simp] theorem length_u64Bytes (value : UInt64) : (u64Bytes value).length = 8 := by
  simp [u64Bytes]

theorem bufferReadU32_eq_some {buffer rest : Buffer} {value : UInt32} :
    bufferReadU32 buffer = some (value, rest) ↔ buffer = u32Bytes value ++ rest := by
  simp only [bufferReadU32, Option.map_eq_some_iff, Prod.mk.injEq, Prod.exists,
    bufferReadNat_eq_some]
  constructor
  · rintro ⟨n, _, ⟨small, rfl⟩, rfl, rfl⟩
    rw [u32Bytes, UInt32.toNat_ofNat_of_lt' small]
  · rintro rfl
    exact ⟨value.toNat, rest, ⟨value.toNat_lt, rfl⟩, UInt32.ofNat_toNat, rfl⟩

theorem bufferReadU32_eq_none {buffer : Buffer} :
    bufferReadU32 buffer = none ↔ buffer.length < 4 := by
  rw [bufferReadU32, Option.map_eq_none_iff, bufferReadNat, Option.map_eq_none_iff,
    bufferReadBytes_eq_none]

theorem bufferReadU64_eq_some {buffer rest : Buffer} {value : UInt64} :
    bufferReadU64 buffer = some (value, rest) ↔ buffer = u64Bytes value ++ rest := by
  simp only [bufferReadU64, Option.map_eq_some_iff, Prod.mk.injEq, Prod.exists,
    bufferReadNat_eq_some]
  constructor
  · rintro ⟨n, _, ⟨small, rfl⟩, rfl, rfl⟩
    rw [u64Bytes, UInt64.toNat_ofNat_of_lt' small]
  · rintro rfl
    exact ⟨value.toNat, rest, ⟨value.toNat_lt, rfl⟩, UInt64.ofNat_toNat, rfl⟩

end LedgerErgo.Common
