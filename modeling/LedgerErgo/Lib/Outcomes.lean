import LedgerErgo.Lib.Prog

/-! # How a run ends

The errors that a program can stop with, and what its results have in common with the states
they come in. Of a sequence of programs all give their errors and only the last one its
result, so the rules follow the way the program is built.
-/

namespace LedgerErgo.Prog

variable {ε ε' σ σ' α β : Type}

/-- A run fails with an error of one kind, or gives a result and a state that belong together. -/
def Ends (E : ε → Prop) (P : α → σ → Prop) (prog : EStateM ε σ α) : Prop := ∀ s,
  match prog s with
  | .ok a t => P a t
  | .error e _ => E e

/-- A run fails with an error of one kind or not at all. -/
def Throws (E : ε → Prop) (prog : EStateM ε σ α) : Prop := Ends E (fun _ _ => True) prog

namespace Ends

variable {E : ε → Prop} {P : α → σ → Prop} {Q : β → σ → Prop} {x : EStateM ε σ α}
  {f : α → EStateM ε σ β}

theorem ok {s t : σ} {a : α} (ends : Ends E P x) (ok : x s = .ok a t) : P a t := by
  have here := ends s
  rwa [ok] at here

theorem error {s t : σ} {e : ε} (ends : Ends E P x) (failed : x s = .error e t) : E e := by
  have here := ends s
  rwa [failed] at here

theorem bind (first : Throws E x) (next : ∀ a, Ends E Q (f a)) : Ends E Q (x >>= f) := by
  intro s
  cases ran : x s with
  | ok a t =>
      rw [bind_of_ok ran]
      exact next a t
  | error e t =>
      rw [bind_of_error ran]
      exact first.error ran

/-- The rest of the program may depend on what the first one says of its result. -/
theorem bindOk (first : Ends E P x) (next : ∀ a s, P a s → match f a s with
    | .ok b t => Q b t
    | .error e _ => E e) : Ends E Q (x >>= f) := by
  intro s
  cases ran : x s with
  | ok a t =>
      rw [bind_of_ok ran]
      exact next a t (first.ok ran)
  | error e t =>
      rw [bind_of_error ran]
      exact first.error ran

theorem pure {a : α} (holds : ∀ s, P a s) : Ends E P (Pure.pure a : EStateM ε σ α) := holds

theorem throw {e : ε} (kind : E e) : Ends E P (MonadExcept.throw e : EStateM ε σ α) :=
  fun _ => kind

theorem ite {p : Prop} [Decidable p] {y : EStateM ε σ α} (yes : Ends E P x) (no : Ends E P y) :
    Ends E P (if p then x else y) := by
  split
  · exact yes
  · exact no

end Ends

namespace Throws

variable {E : ε → Prop} {x : EStateM ε σ α}

variable {f : α → EStateM ε σ β}

theorem bind (first : Throws E x) (next : ∀ a, Throws E (f a)) : Throws E (x >>= f) :=
  Ends.bind first next

theorem throw {e : ε} (kind : E e) : Throws E (MonadExcept.throw e : EStateM ε σ α) :=
  fun _ => kind

theorem ite {p : Prop} [Decidable p] {y : EStateM ε σ α} (yes : Throws E x) (no : Throws E y) :
    Throws E (if p then x else y) := Ends.ite yes no

theorem get : Throws E (MonadState.get : EStateM ε σ σ) := fun _ => trivial

theorem modify {change : σ → σ} : Throws E (modify change : EStateM ε σ PUnit) := fun _ => trivial

theorem pure {a : α} : Throws E (Pure.pure a : EStateM ε σ α) := fun _ => trivial

theorem ensure {p : Prop} [Decidable p] {err : ε} (kind : E err) :
    Throws E (ensure p err : EStateM ε σ Unit) := by
  unfold Prog.ensure
  exact .ite pure (.throw kind)

theorem ofExcept {value : Except ε α} (kind : ∀ e, value = .error e → E e) :
    Throws E (ofExcept value : EStateM ε σ α) := by
  cases value with
  | ok a => exact pure
  | error e => exact .throw (kind e rfl)

/-- A program on a part of the state, whose errors are translated. -/
theorem zoom {τ : Type} {part : σ → τ} {setPart : τ → σ → σ} {mapErr : ε' → ε}
    {prog : EStateM ε' τ α} {E' : ε' → Prop} (inner : Throws E' prog) (kind : ∀ e, E' e → E (mapErr e)) :
    Throws E (Prog.zoom part setPart mapErr prog) := by
  intro s
  have here := inner (part s)
  unfold Prog.zoom
  cases ran : prog (part s) with
  | ok a t => exact trivial
  | error e t =>
      rw [ran] at here
      exact kind e here

theorem any : Throws (fun _ => True) x := by
  intro s
  cases x s with
  | ok => exact trivial
  | error => exact trivial

/-- All errors are translated to errors of one kind. -/
theorem translated {τ : Type} {part : σ → τ} {setPart : τ → σ → σ} {mapErr : ε' → ε}
    {prog : EStateM ε' τ α} (kind : ∀ e, E (mapErr e)) :
    Throws E (Prog.zoom part setPart mapErr prog) := zoom any fun e _ => kind e

end Throws

end LedgerErgo.Prog
