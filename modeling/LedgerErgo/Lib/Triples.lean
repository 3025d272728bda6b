import LedgerErgo.Lib.Prog

/-! # Triples

What a program leaves if it starts in a state that meets a condition: one condition for its
results and one for its errors. A program that fails half-way stops there, so the condition for
errors has to hold wherever it may stop.
-/

namespace LedgerErgo.Prog

variable {ε ε' σ α β : Type}

/-- From each state that meets `P` the program ends with a result that meets `Q` or with an error
    that meets `E`. -/
def Triple (P : σ → Prop) (prog : EStateM ε σ α) (Q : α → σ → Prop) (E : ε → σ → Prop) : Prop :=
  ∀ s, P s → match prog s with
    | .ok a t => Q a t
    | .error e t => E e t

/-- The program keeps a condition, unless it fails. -/
abbrev Keeps (P : σ → Prop) (prog : EStateM ε σ α) (E : ε → σ → Prop) : Prop :=
  Triple P prog (fun _ => P) E

namespace Triple

variable {P P' : σ → Prop} {Q : α → σ → Prop} {R : β → σ → Prop} {E E' : ε → σ → Prop}
  {x y : EStateM ε σ α} {f : α → EStateM ε σ β}

theorem ok {s t : σ} {a : α} (triple : Triple P x Q E) (start : P s) (ok : x s = .ok a t) :
    Q a t := by
  have here := triple s start
  rwa [ok] at here

theorem error {s t : σ} {e : ε} (triple : Triple P x Q E) (start : P s) (failed : x s = .error e t) :
    E e t := by
  have here := triple s start
  rwa [failed] at here

/-- The state that is left, if both conditions say the same of it. -/
theorem final {C : σ → Prop} {s : σ} (triple : Triple P x (fun _ => C) fun _ => C) (start : P s) :
    C (final (x s)) := by
  have here := triple s start
  cases ran : x s with
  | ok a t | error e t =>
      rw [ran] at here
      exact here

theorem imp (triple : Triple P x Q E) {Q' : α → σ → Prop} (start : ∀ s, P' s → P s)
    (result : ∀ a s, Q a s → Q' a s) (fails : ∀ e s, E e s → E' e s) : Triple P' x Q' E' := by
  intro s here
  have after := triple s (start s here)
  cases ran : x s with
  | ok a t =>
      rw [ran] at after
      exact result a t after
  | error e t =>
      rw [ran] at after
      exact fails e t after

theorem bind (first : Triple P x Q E) (rest : ∀ a, Triple (Q a) (f a) R E) :
    Triple P (x >>= f) R E := by
  intro s start
  cases ran : x s with
  | ok a t =>
      rw [bind_of_ok ran]
      exact rest a t (first.ok start ran)
  | error e t =>
      rw [bind_of_error ran]
      exact first.error start ran

theorem pure {a : α} (holds : ∀ s, P s → Q a s) : Triple P (Pure.pure a : EStateM ε σ α) Q E :=
  holds

theorem throw {e : ε} (holds : ∀ s, P s → E e s) :
    Triple P (MonadExcept.throw e : EStateM ε σ α) Q E := holds

/-- What is read is the state. -/
theorem get {f : σ → EStateM ε σ β} (rest : ∀ s, P s → Triple (s = ·) (f s) R E) :
    Triple P (MonadState.get >>= f) R E := fun s start => rest s start s rfl

/-- The rest does not depend on what is read. -/
theorem read {f : σ → EStateM ε σ β} (rest : ∀ a, Triple P (f a) R E) :
    Triple P (MonadState.get >>= f) R E := fun s start => rest s s start

theorem change {f : σ → σ} (keeps : ∀ s, P s → P (f s)) :
    Keeps P (modify f : EStateM ε σ PUnit) E := keeps

theorem modify (C : σ → Prop) {f : σ → σ} (changes : ∀ s, P s → C (f s)) :
    Triple P (modify f : EStateM ε σ PUnit) (fun _ => C) E := changes

theorem ensure {p : Prop} [Decidable p] {err : ε} (fails : ∀ s, P s → E err s) :
    Keeps P (ensure p err : EStateM ε σ Unit) E := by
  unfold Prog.ensure
  split
  · exact pure fun _ => id
  · exact throw fails

theorem ite {p : Prop} [Decidable p] (yes : p → Triple P x Q E) (no : ¬ p → Triple P y Q E) :
    Triple P (if p then x else y) Q E := by
  split
  · exact yes ‹_›
  · exact no ‹_›

/-- A program on a part of the state, whatever it does there. -/
theorem zoom {τ : Type} {part : σ → τ} {setPart : τ → σ → σ} {mapErr : ε' → ε}
    {prog : EStateM ε' τ α} (keeps : ∀ s v, P s → P (setPart v s))
    (fails : ∀ e s, P s → E e s) : Keeps P (Prog.zoom part setPart mapErr prog) E := by
  intro s start
  unfold Prog.zoom
  cases prog (part s) with
  | ok a v => exact keeps s v start
  | error e v => exact fails _ _ (keeps s v start)

/-- The conditions are met by what the program does anyhow. -/
theorem of_moves {S : σ → σ → Prop} {C : σ → Prop} (moves : Moves S x)
    (keeps : ∀ s t, S s t → P s → C t) : Triple P x (fun _ => C) fun _ => C := by
  intro s start
  have moved := moves s
  cases ran : x s with
  | ok a t | error e t =>
      rw [ran] at moved
      exact keeps s t moved start

end Triple

end LedgerErgo.Prog
