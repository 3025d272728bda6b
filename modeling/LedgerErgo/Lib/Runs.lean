import Mathlib.Tactic

/-! # Runs of a state machine

A machine goes from one state to the next with each event of a run. What one step says of
its events is carried to whole runs by induction on the events.
-/

namespace LedgerErgo.Runs

variable {σ ι : Type} {next : σ → ι → σ} {P Q : σ → ι → Prop} {Inv : σ → Prop}

/-- Every event of a run meets a condition in the state it comes in. -/
def EachStep (next : σ → ι → σ) (P : σ → ι → Prop) : σ → List ι → Prop
  | _, [] => True
  | s, i :: is => P s i ∧ EachStep next P (next s i) is

/-- What the steps keep holds at the end of the run. -/
theorem EachStep.foldl {s : σ} {is : List ι} (each : EachStep next P s is)
    (keep : ∀ s i, Inv s → P s i → Inv (next s i)) (start : Inv s) : Inv (is.foldl next s) := by
  induction is generalizing s with
  | nil => exact start
  | cons i is ih =>
      obtain ⟨first, later⟩ := each
      exact ih later (keep s i start first)

/-- The last event of a run meets the condition in the state that the others lead to. -/
theorem EachStep.last {s : σ} {is : List ι} {i : ι} (each : EachStep next P s (is ++ [i])) :
    P (is.foldl next s) i := by
  induction is generalizing s with
  | nil => exact each.1
  | cons j is ih => exact ih each.2

/-- A condition that implies another one as long as an invariant holds. -/
theorem EachStep.imp {s : σ} {is : List ι} (each : EachStep next P s is)
    (implies : ∀ s i, Inv s → P s i → Q s i) (keep : ∀ s i, Inv s → P s i → Inv (next s i))
    (start : Inv s) : EachStep next Q s is := by
  induction is generalizing s with
  | nil => exact trivial
  | cons i is ih =>
      obtain ⟨first, later⟩ := each
      exact ⟨implies s i start first, ih later (keep s i start first)⟩

/-- A condition that is the same as another one as long as an invariant holds. -/
theorem eachStep_iff {s : σ} {is : List ι} (same : ∀ s i, Inv s → (P s i ↔ Q s i))
    (keep : ∀ s i, Inv s → P s i → Inv (next s i)) (start : Inv s) :
    EachStep next P s is ↔ EachStep next Q s is := by
  induction is generalizing s with
  | nil => exact Iff.rfl
  | cons i is ih =>
      constructor
      · intro each
        obtain ⟨first, later⟩ := each
        exact ⟨(same s i start).mp first, (ih (keep s i start first)).mp later⟩
      · intro each
        obtain ⟨first, later⟩ := each
        have holds := (same s i start).mpr first
        exact ⟨holds, (ih (keep s i start holds)).mpr later⟩

/-- What every step keeps holds at the end of every run. -/
theorem invariant_foldl {s : σ} (keep : ∀ s i, Inv s → Inv (next s i)) (start : Inv s) (is : List ι) :
    Inv (is.foldl next s) := by
  induction is generalizing s with
  | nil => exact start
  | cons i is ih => exact ih (keep s i start)

/-- What every step keeps may be used at each event of a run. -/
theorem eachStep_of_invariant {s : σ} (keep : ∀ s i, Inv s → Inv (next s i))
    (holds : ∀ s i, Inv s → P s i) (start : Inv s) (is : List ι) : EachStep next P s is := by
  induction is generalizing s with
  | nil => exact trivial
  | cons i is ih => exact ⟨holds s i start, ih (keep s i start)⟩

end LedgerErgo.Runs
