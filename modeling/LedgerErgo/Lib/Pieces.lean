import LedgerErgo.Lib.Prog

/-! # Data that is sent in pieces

Data may be cut into pieces anywhere. A receiver counts what is still missing and stops
listening with the piece that completes the data, so the last piece must not be empty;
nothing is sent for empty data. The rule below is about a receiver of this kind.
-/

namespace LedgerErgo

open LedgerErgo.Prog

/-- The pieces make up the whole, and the last one of them is not empty. -/
structure Pieces {ι : Type} (whole : List ι) (pieces : List (List ι)) : Prop where
  flatten : pieces.flatten = whole
  last : ∀ piece, pieces.getLast? = some piece → piece ≠ []

namespace Pieces

variable {ι ε σ α : Type} {whole : List ι} {pieces : List (List ι)}

theorem eq_nil (split : Pieces [] pieces) : pieces = [] := by
  rcases pieces.eq_nil_or_concat with rfl | ⟨pieces, piece, rfl⟩
  · rfl
  · rw [List.concat_eq_append] at split
    have none := split.flatten
    simp only [List.flatten_append, List.flatten_singleton, List.append_eq_nil_iff] at none
    exact (split.last piece (by simp) none.2).elim

theorem tail {piece : List ι} (split : Pieces whole (piece :: pieces)) (more : pieces ≠ []) :
    Pieces pieces.flatten pieces where
  flatten := rfl
  last p here := split.last p (by rwa [List.getLast?_cons_of_ne_nil more])

/-- A receiver that accepts each piece that leaves something missing, and the one that completes
    the data, accepts the data in any pieces. `during sent` describes it after `sent`. -/
theorem runAll (during : List ι → σ → Prop) {step : List ι → EStateM ε σ α} {after : σ → Prop}
    (more : ∀ sent piece rest s, during sent s → rest ≠ [] → sent ++ piece ++ rest = whole →
      ∃ a t, step piece s = .ok a t ∧ during (sent ++ piece) t)
    (last : ∀ sent piece s, during sent s → piece ≠ [] → sent ++ piece = whole →
      ∃ a t, step piece s = .ok a t ∧ after t)
    (split : Pieces whole pieces) (something : whole ≠ []) {s : σ} (start : during [] s) :
    ∃ t, runAll step pieces s = .ok () t ∧ after t := by
  suffices general : ∀ (sent : List ι) (pieces : List (List ι)) (s : σ), pieces ≠ [] →
      sent ++ pieces.flatten = whole → Pieces pieces.flatten pieces → during sent s →
      ∃ t, Prog.runAll step pieces s = .ok () t ∧ after t by
    refine general [] pieces s ?_ split.flatten ⟨rfl, split.last⟩ start
    rintro rfl
    exact something split.flatten.symm
  intro sent pieces s some all split start
  induction pieces generalizing sent s with
  | nil => exact (some rfl).elim
  | cons piece pieces ih =>
      by_cases final : pieces = []
      · subst final
        obtain ⟨a, t, ran, done⟩ :=
          last sent piece s start (split.last piece rfl) (by simpa using all)
        exact ⟨t, runAll_cons_ok.mpr ⟨a, t, ran, runAll_nil_ok.mpr rfl⟩, done⟩
      · have rest : pieces.flatten ≠ [] := fun none =>
          final (eq_nil (none ▸ split.tail final))
        obtain ⟨a, m, ran, next⟩ :=
          more sent piece pieces.flatten s start rest (by simpa using all)
        obtain ⟨t, others, done⟩ :=
          ih (sent ++ piece) m final (by simpa using all) (split.tail final) next
        exact ⟨t, runAll_cons_ok.mpr ⟨a, m, ran, others⟩, done⟩

end Pieces

/-- Pieces that are read as the blocks of a whole, one after the other, are its first part. -/
theorem flatMap_of_blocks {κ ι : Type} {pieces : List κ} {read : κ → List ι} {whole : List ι}
    {size : Nat} (blocks : ∀ i (within : i < pieces.length),
      read pieces[i] = (whole.drop (i * size)).take size) :
    pieces.flatMap read = whole.take (pieces.length * size) := by
  induction pieces using List.reverseRecOn with
  | nil => simp
  | append_singleton pieces piece ih =>
      have last : read piece = (whole.drop (pieces.length * size)).take size := by
        simpa using blocks pieces.length (by simp)
      have before : pieces.flatMap read = whole.take (pieces.length * size) := by
        apply ih
        intro i within
        have block := blocks i (by rw [List.length_append]; omega)
        rwa [List.getElem_append_left within] at block
      rw [List.flatMap_append, before, List.flatMap_singleton, last, List.length_append,
        List.length_singleton, Nat.succ_mul, List.take_add]

end LedgerErgo
