import Mathlib.Data.List.Basic
import Mathlib.Tactic

/-! # Items in a stream

Items are written into a stream one after the other, without marks between them. A reader has
to know the format of the next item. If it asks for the format that was written at its place
then it gets the item that was written, wherever the items before were cut.
-/

namespace LedgerErgo

/-- Items of several formats. The format of an item says how long it is, and with that its
    elements determine it. -/
structure ItemEncoding (ι φ β : Type) where
  encode : ι → List β
  format : ι → φ
  length : ∀ a b, format a = format b → (encode a).length = (encode b).length
  injective : ∀ a b, format a = format b → encode a = encode b → a = b

namespace ItemEncoding

variable {ι φ β : Type} (encoding : ItemEncoding ι φ β)

/-- The stream of some items. -/
def stream (items : List ι) : List β := items.flatMap encoding.encode

/-- An item begins at a position of the stream. -/
def At (items : List ι) (position : Nat) (item : ι) : Prop :=
  ∃ before after, items = before ++ item :: after ∧ (encoding.stream before).length = position

/-- What was written is what was read with the unread elements behind it. -/
def Conserves (written read : List ι) (unread : List β) : Prop :=
  encoding.stream read ++ unread = encoding.stream written

variable {encoding} {written read : List ι} {unread more rest : List β} {item a b : ι}
  {position : Nat}

@[simp] theorem stream_nil : encoding.stream [] = [] := rfl

theorem stream_concat {items : List ι} :
    encoding.stream (items ++ [item]) = encoding.stream items ++ encoding.encode item := by
  simp [stream]

/-- Where an item begins, the stream goes on with it. -/
theorem At.drop {items : List ι} (here : encoding.At items position item) :
    ∃ rest, (encoding.stream items).drop position = encoding.encode item ++ rest := by
  obtain ⟨before, after, rfl, rfl⟩ := here
  refine ⟨encoding.stream after, ?_⟩
  simp [stream]

theorem At.bounded {items : List ι} (here : encoding.At items position item) :
    position + (encoding.encode item).length ≤ (encoding.stream items).length := by
  obtain ⟨before, after, rfl, rfl⟩ := here
  simp only [stream, List.flatMap_append, List.flatMap_cons, List.length_append]
  omega

namespace Conserves

theorem start : encoding.Conserves [] [] [] := rfl

theorem write (conserves : encoding.Conserves written read unread) :
    encoding.Conserves (written ++ [item]) read (unread ++ encoding.encode item) := by
  rw [Conserves, stream_concat, ← List.append_assoc, conserves]

theorem take (conserves : encoding.Conserves written read (encoding.encode item ++ rest)) :
    encoding.Conserves written (read ++ [item]) rest := by
  rw [Conserves, stream_concat, List.append_assoc, conserves]

/-- An item is read as it was written. -/
theorem unchanged (conserves : encoding.Conserves written read unread)
    (wrote : encoding.At written position a) (got : encoding.At read position b)
    (same : encoding.format a = encoding.format b) : a = b := by
  obtain ⟨x, afterWritten⟩ := wrote.drop
  obtain ⟨y, afterRead⟩ := got.drop
  have inside : position ≤ (encoding.stream read).length := by
    have := got.bounded
    omega
  rw [← conserves, List.drop_append_of_le_length inside, afterRead, List.append_assoc] at afterWritten
  have equal := List.append_inj_left afterWritten (encoding.length a b same).symm
  exact encoding.injective a b same equal.symm

end Conserves

end ItemEncoding

end LedgerErgo
