import Mathlib.Tactic

/-! # Programs with a state and an error code

Imperative code that threads a state and may stop with an error code is an
`EStateM` program. The state of a failed run is kept, because the callers of such
code look at it. The rules below turn `prog s = .ok a t` into a plain formula,
one rule for each way of building a program; a specification of a larger program
is obtained by rewriting with them.
-/

namespace LedgerErgo.Prog

variable {ε ε' σ σ' α β : Type}

@[simp] theorem bind_ok {x : EStateM ε σ α} {f : α → EStateM ε σ β} {s t : σ} {b : β} :
    (x >>= f) s = .ok b t ↔ ∃ a u, x s = .ok a u ∧ f a u = .ok b t := by
  change (match x s with | .ok a u => f a u | .error e u => .error e u) = _ ↔ _
  cases h : x s <;> simp

/-- A program without a result has only one. -/
@[simp] theorem exists_unit {p : Unit → Prop} : (∃ u, p u) ↔ p () :=
  ⟨fun ⟨⟨⟩, h⟩ => h, fun h => ⟨(), h⟩⟩

theorem bind_error {x : EStateM ε σ α} {f : α → EStateM ε σ β} {s t : σ} {e : ε} :
    (x >>= f) s = .error e t ↔
      x s = .error e t ∨ ∃ a u, x s = .ok a u ∧ f a u = .error e t := by
  change (match x s with | .ok a u => f a u | .error e u => .error e u) = _ ↔ _
  cases h : x s <;> simp

/-- After a step that succeeds the run goes on from there. -/
theorem bind_of_ok {x : EStateM ε σ α} {f : α → EStateM ε σ β} {s t : σ} {a : α}
    (ok : x s = .ok a t) : (x >>= f) s = f a t := by
  change (match x s with | .ok a u => f a u | .error e u => .error e u) = _
  rw [ok]

/-- A step that fails ends the run. -/
theorem bind_of_error {x : EStateM ε σ α} {f : α → EStateM ε σ β} {s t : σ} {e : ε}
    (failed : x s = .error e t) : (x >>= f) s = .error e t :=
  bind_error.mpr (.inl failed)

@[simp] theorem pure_ok {a b : α} {s t : σ} :
    (pure a : EStateM ε σ α) s = .ok b t ↔ a = b ∧ s = t := by
  change EStateM.Result.ok a s = _ ↔ _
  simp

@[simp] theorem pure_error {a : α} {e : ε} {s t : σ} :
    (pure a : EStateM ε σ α) s = .error e t ↔ False := by
  change EStateM.Result.ok a s = _ ↔ _
  simp

@[simp] theorem throw_ok {e : ε} {b : α} {s t : σ} :
    (throw e : EStateM ε σ α) s = .ok b t ↔ False := by
  change EStateM.Result.error e s = _ ↔ _
  simp

@[simp] theorem throw_error {e e' : ε} {s t : σ} :
    (throw e : EStateM ε σ α) s = .error e' t ↔ e = e' ∧ s = t := by
  change EStateM.Result.error e s = _ ↔ _
  simp

@[simp] theorem get_ok {s t u : σ} : (get : EStateM ε σ σ) s = .ok t u ↔ s = t ∧ s = u := by
  change EStateM.Result.ok s s = _ ↔ _
  simp

@[simp] theorem get_error {e : ε} {s t : σ} : (get : EStateM ε σ σ) s = .error e t ↔ False := by
  change EStateM.Result.ok s s = _ ↔ _
  simp

@[simp] theorem set_ok {s t u : σ} {v : PUnit} :
    (set u : EStateM ε σ PUnit) s = .ok v t ↔ u = t := by
  change EStateM.Result.ok _ _ = _ ↔ _
  simp

@[simp] theorem map_ok {x : EStateM ε σ α} {f : α → β} {s t : σ} {b : β} :
    (f <$> x) s = .ok b t ↔ ∃ a, x s = .ok a t ∧ f a = b := by
  change (match x s with | .ok a u => EStateM.Result.ok (f a) u | .error e u => .error e u) = _ ↔ _
  cases h : x s <;> simp [and_comm, eq_comm]

@[simp] theorem modify_ok {f : σ → σ} {s t : σ} {u : PUnit} :
    (modify f : EStateM ε σ PUnit) s = .ok u t ↔ f s = t := by
  change EStateM.Result.ok _ _ = _ ↔ _
  simp

@[simp] theorem modify_error {f : σ → σ} {e : ε} {s t : σ} :
    (modify f : EStateM ε σ PUnit) s = .error e t ↔ False := by
  change EStateM.Result.ok _ _ = _ ↔ _
  simp

@[simp] theorem ite_ok {c : Prop} [Decidable c] {x y : EStateM ε σ α} {s t : σ} {a : α} :
    (if c then x else y) s = .ok a t ↔ c ∧ x s = .ok a t ∨ ¬ c ∧ y s = .ok a t := by
  split <;> simp [*]

theorem ite_error {c : Prop} [Decidable c] {x y : EStateM ε σ α} {s t : σ} {e : ε} :
    (if c then x else y) s = .error e t ↔ c ∧ x s = .error e t ∨ ¬ c ∧ y s = .error e t := by
  split <;> simp [*]

/-- Fail unless the condition holds. -/
def ensure (c : Prop) [Decidable c] (err : ε) : EStateM ε σ Unit :=
  if c then pure () else throw err

@[simp] theorem ensure_ok {c : Prop} [Decidable c] {err : ε} {s t : σ} {u : Unit} :
    (ensure c err : EStateM ε σ Unit) s = .ok u t ↔ c ∧ s = t := by
  simp [ensure]

theorem ensure_of {c : Prop} [Decidable c] {err : ε} {s : σ} (holds : c) :
    (ensure c err : EStateM ε σ Unit) s = .ok () s :=
  ensure_ok.mpr ⟨holds, rfl⟩

theorem ensure_of_not {c : Prop} [Decidable c] {err : ε} {s : σ} (fails : ¬ c) :
    (ensure c err : EStateM ε σ Unit) s = .error err s := by
  rw [ensure, if_neg fails]
  rfl

/-- Reading the state first. -/
theorem get_bind {f : σ → EStateM ε σ α} {s : σ} : (get >>= f) s = f s s := rfl

@[simp] theorem ofExcept_ok {value : Except ε α} {s t : σ} {a : α} :
    (ofExcept value : EStateM ε σ α) s = .ok a t ↔ value = .ok a ∧ s = t := by
  cases value <;> simp [ofExcept]

/-- Run an action that may be absent; then there is nothing to do. -/
def whenSome (action : Option α) (run : α → EStateM ε σ Unit) : EStateM ε σ Unit :=
  match action with
  | none => pure ()
  | some a => run a

@[simp] theorem whenSome_ok {action : Option α} {run : α → EStateM ε σ Unit} {s t : σ} {u : Unit} :
    whenSome action run s = .ok u t ↔
      action = none ∧ s = t ∨ ∃ a, action = some a ∧ run a s = .ok u t := by
  cases action <;> simp [whenSome, pure_ok]

/-- The state a run ends in, whether it succeeds or fails. -/
def final : EStateM.Result ε σ α → σ
  | .ok _ t => t
  | .error _ t => t

theorem final_map {x : EStateM ε σ α} {f : α → β} {s : σ} : final ((f <$> x) s) = final (x s) := by
  change final (match x s with | .ok a u => EStateM.Result.ok (f a) u | .error e u => .error e u) = _
  cases x s <;> rfl

/-- The run succeeds. -/
def succeeds : EStateM.Result ε σ α → Bool
  | .ok .. => true
  | .error .. => false

theorem eq_ok_of_succeeds {r : EStateM.Result ε σ Unit} (ok : succeeds r = true) :
    r = .ok () (final r) := by
  cases r with
  | ok => rfl
  | error => simp [succeeds] at ok

theorem succeeds_checked {c : Prop} [Decidable c] {a : α} {e : ε} {s t : σ} :
    succeeds (if c then EStateM.Result.ok a s else EStateM.Result.error e t) = true ↔ c := by
  split
  · rename_i holds
    exact ⟨fun _ => holds, fun _ => rfl⟩
  · rename_i fails
    exact ⟨fun never => (Bool.false_ne_true never).elim, fun holds => absurd holds fails⟩

theorem succeeds_map {x : EStateM ε σ α} {f : α → β} {s : σ} :
    succeeds ((f <$> x) s) = succeeds (x s) := by
  change succeeds (match x s with | .ok a u => EStateM.Result.ok (f a) u | .error e u => .error e u) = _
  cases x s <;> rfl

/-- Run a program on a part of the state and translate its errors. -/
def zoom {τ : Type} (part : σ → τ) (setPart : τ → σ → σ) (mapErr : ε' → ε)
    (prog : EStateM ε' τ α) : EStateM ε σ α := fun s =>
  match prog (part s) with
  | .ok a t => .ok a (setPart t s)
  | .error e t => .error (mapErr e) (setPart t s)

@[simp] theorem zoom_ok {τ : Type} {part : σ → τ} {setPart : τ → σ → σ} {mapErr : ε' → ε}
    {prog : EStateM ε' τ α} {s t : σ} {a : α} :
    zoom part setPart mapErr prog s = .ok a t ↔
      ∃ v, prog (part s) = .ok a v ∧ setPart v s = t := by
  unfold zoom
  cases h : prog (part s) <;> simp

/-- Run the actions of a list one after the other, stopping at the first error. -/
def runAll (step : β → EStateM ε σ α) : List β → EStateM ε σ Unit
  | [] => pure ()
  | b :: bs => do
      let _ ← step b
      runAll step bs

theorem runAll_nil_ok {step : β → EStateM ε σ α} {s t : σ} {u : Unit} :
    runAll step [] s = .ok u t ↔ s = t := by
  simp [runAll, pure_ok]

theorem runAll_cons_ok {step : β → EStateM ε σ α} {b : β} {bs : List β} {s t : σ} {u : Unit} :
    runAll step (b :: bs) s = .ok u t ↔
      ∃ a m, step b s = .ok a m ∧ runAll step bs m = .ok u t := by
  simp only [runAll, bind_ok]

theorem runAll_append_ok {step : β → EStateM ε σ α} {bs cs : List β} {s t : σ} {u : Unit} :
    runAll step (bs ++ cs) s = .ok u t ↔
      ∃ m, runAll step bs s = .ok () m ∧ runAll step cs m = .ok u t := by
  induction bs generalizing s with
  | nil => simp [runAll_nil_ok]
  | cons b bs ih =>
      simp only [List.cons_append, runAll_cons_ok, ih]
      constructor
      · rintro ⟨a, m, hb, n, hbs, hcs⟩
        exact ⟨n, ⟨a, m, hb, hbs⟩, hcs⟩
      · rintro ⟨n, ⟨a, m, hb, hbs⟩, hcs⟩
        exact ⟨a, m, hb, n, hbs, hcs⟩

theorem runAll_map {γ : Type} {step : β → EStateM ε σ α} {f : γ → β} {cs : List γ} :
    runAll step (cs.map f) = runAll (fun c => step (f c)) cs := by
  induction cs with
  | nil => rfl
  | cons c cs ih => simp only [List.map_cons, runAll, ih]

/-- Every action of the list meets its guard when its turn comes. -/
def Guarded (guard : β → σ → Prop) (step : β → EStateM ε σ α) : List β → σ → Prop
  | [], _ => True
  | b :: bs, s => guard b s ∧
      match step b s with
      | .ok _ t => Guarded guard step bs t
      | .error .. => True

instance Guarded.decidable {guard : β → σ → Prop} {step : β → EStateM ε σ α}
    [∀ b s, Decidable (guard b s)] :
    (bs : List β) → (s : σ) → Decidable (Guarded guard step bs s)
  | [], _ => .isTrue trivial
  | b :: bs, s =>
      match h : step b s with
      | .ok _ t =>
          have : Decidable (Guarded guard step bs t) := Guarded.decidable bs t
          decidable_of_iff (guard b s ∧ Guarded guard step bs t) (by rw [Guarded, h])
      | .error .. => decidable_of_iff (guard b s) (by simp [Guarded, h])

private theorem runAll_guarded_from {guard : β → σ → Prop} {step : β → EStateM ε σ α}
    (inv : List β → σ → Prop)
    (preserved : ∀ done b s a t, inv done s → guard b s → step b s = .ok a t → inv (done ++ [b]) t)
    {done bs : List β} {s t : σ} {u : Unit} (start : inv done s) (guarded : Guarded guard step bs s)
    (run : runAll step bs s = .ok u t) : inv (done ++ bs) t := by
  induction bs generalizing done s with
  | nil =>
      obtain rfl := runAll_nil_ok.mp run
      simpa using start
  | cons b bs ih =>
      obtain ⟨a, m, hb, hbs⟩ := runAll_cons_ok.mp run
      obtain ⟨here, later⟩ := guarded
      rw [hb] at later
      simpa using ih (preserved done b s a m start here hb) later hbs

/-- The invariant rule for successful runs: what every guarded step that succeeds preserves
    holds at the end. The invariant also sees the actions already run. -/
theorem runAll_guarded {guard : β → σ → Prop} {step : β → EStateM ε σ α}
    (inv : List β → σ → Prop)
    (preserved : ∀ done b s a t, inv done s → guard b s → step b s = .ok a t → inv (done ++ [b]) t)
    {bs : List β} {s t : σ} {u : Unit} (start : inv [] s) (guarded : Guarded guard step bs s)
    (run : runAll step bs s = .ok u t) : inv bs t :=
  runAll_guarded_from inv preserved start guarded run

/-- `while (the input is not empty) body`: the body returns the input it leaves.
    A body that consumes something needs no more than one round for each element. -/
def whileData {ι : Type} (body : List ι → EStateM ε σ (List ι)) :
    Nat → List ι → EStateM ε σ Unit
  | 0, _ => pure ()
  | _ + 1, [] => pure ()
  | rounds + 1, input => do
      let rest ← body input
      whileData body rounds rest

/-- A loop that reads an item and acts on it, until the input is used up, succeeds
    exactly on the inputs that are a sequence of items on which the acts succeed. -/
theorem whileData_ok {ι : Type} {body : List ι → EStateM ε σ (List ι)} {encode : β → List ι}
    {act : β → EStateM ε σ Unit} (consumes : ∀ b, encode b ≠ [])
    (body_ok : ∀ input rest s t, body input s = .ok rest t ↔
      ∃ b, input = encode b ++ rest ∧ act b s = .ok () t)
    {rounds : Nat} {input : List ι} (enough : input.length ≤ rounds) {s t : σ} {u : Unit} :
    whileData body rounds input s = .ok u t ↔
      ∃ bs : List β, input = bs.flatMap encode ∧ runAll act bs s = .ok () t := by
  induction rounds generalizing input s with
  | zero =>
      obtain rfl : input = [] := List.length_eq_zero_iff.mp (by omega)
      constructor
      · intro h
        exact ⟨[], rfl, by simpa [whileData, runAll] using h⟩
      · rintro ⟨bs, hbs, h⟩
        cases bs with
        | nil => simpa [whileData, runAll] using h
        | cons b bs => simp [consumes b] at hbs
  | succ rounds ih =>
      cases input with
      | nil =>
          constructor
          · intro h
            exact ⟨[], rfl, by simpa [whileData, runAll] using h⟩
          · rintro ⟨bs, hbs, h⟩
            cases bs with
            | nil => simpa [whileData, runAll] using h
            | cons b bs => simp [consumes b] at hbs
      | cons i input =>
          simp only [whileData, bind_ok, body_ok]
          constructor
          · rintro ⟨rest, m, ⟨b, split, hb⟩, hrest⟩
            have shorter : rest.length ≤ rounds := by
              have := congrArg List.length split
              have := List.length_pos_iff.mpr (consumes b)
              simp only [List.length_cons, List.length_append] at *
              omega
            obtain ⟨bs, rfl, hbs⟩ := (ih shorter).mp hrest
            exact ⟨b :: bs, split, runAll_cons_ok.mpr ⟨(), m, hb, hbs⟩⟩
          · rintro ⟨bs, split, h⟩
            cases bs with
            | nil => simp at split
            | cons b bs =>
                obtain ⟨_, m, hb, hbs⟩ := runAll_cons_ok.mp h
                have shorter : (bs.flatMap encode).length ≤ rounds := by
                  have := congrArg List.length split
                  have := List.length_pos_iff.mpr (consumes b)
                  simp only [List.length_cons, List.flatMap_cons, List.length_append] at *
                  omega
                exact ⟨bs.flatMap encode, m, ⟨b, split, hb⟩, (ih shorter).mpr ⟨bs, rfl, hbs⟩⟩

/-- A loop fails where its body does, behind the items that were acted on. -/
theorem whileData_error_iff {ι : Type} {body : List ι → EStateM ε σ (List ι)} {encode : β → List ι}
    {act : β → EStateM ε σ Unit} (consumes : ∀ b, encode b ≠ [])
    (body_ok : ∀ input rest s t, body input s = .ok rest t ↔
      ∃ b, input = encode b ++ rest ∧ act b s = .ok () t)
    {rounds : Nat} {input : List ι} (enough : input.length ≤ rounds) {s t : σ} {e : ε} :
    whileData body rounds input s = .error e t ↔
      ∃ (bs : List β) (rest : List ι) (u : σ), input = bs.flatMap encode ++ rest ∧ rest ≠ [] ∧
        runAll act bs s = .ok () u ∧ body rest u = .error e t := by
  induction rounds generalizing input s with
  | zero =>
      obtain rfl : input = [] := List.length_eq_zero_iff.mp (by omega)
      constructor
      · intro failed
        cases failed
      · intro item
        obtain ⟨bs, rest, u, split, more, -, -⟩ := item
        exact absurd (List.append_eq_nil_iff.mp split.symm).2 more
  | succ rounds ih =>
      cases input with
      | nil =>
          constructor
          · intro failed
            cases failed
          · intro item
            obtain ⟨bs, rest, u, split, more, -, -⟩ := item
            exact absurd (List.append_eq_nil_iff.mp split.symm).2 more
      | cons i input =>
          have shorter : ∀ {b : β} {rest : List ι}, i :: input = encode b ++ rest →
              rest.length ≤ rounds := by
            intro b rest split
            have length := congrArg List.length split
            have := List.length_pos_iff.mpr (consumes b)
            simp only [List.length_cons, List.length_append] at length enough
            omega
          have loop : whileData body (rounds + 1) (i :: input) = (do
              let rest ← body (i :: input)
              whileData body rounds rest) := rfl
          rw [loop, bind_error]
          constructor
          · intro failed
            cases failed with
            | inl here => exact ⟨[], i :: input, s, rfl, List.cons_ne_nil i input, rfl, here⟩
            | inr later =>
                obtain ⟨rest, m, first, failed⟩ := later
                obtain ⟨b, split, acted⟩ := (body_ok _ _ _ _).mp first
                obtain ⟨bs, tail, u, rfl, more, ran, stopped⟩ := (ih (shorter split)).mp failed
                refine ⟨b :: bs, tail, u, ?_, more, runAll_cons_ok.mpr ⟨(), m, acted, ran⟩, stopped⟩
                rw [split, List.flatMap_cons, List.append_assoc]
          · intro item
            obtain ⟨bs, tail, u, split, more, ran, stopped⟩ := item
            cases bs with
            | nil =>
                obtain rfl := runAll_nil_ok.mp ran
                rw [List.flatMap_nil, List.nil_append] at split
                rw [split]
                exact .inl stopped
            | cons b bs =>
                obtain ⟨_, m, acted, ran⟩ := runAll_cons_ok.mp ran
                rw [List.flatMap_cons, List.append_assoc] at split
                have first := (body_ok _ (bs.flatMap encode ++ tail) _ _).mpr ⟨b, split, acted⟩
                have failed := (ih (shorter split)).mpr ⟨bs, tail, u, rfl, more, ran, stopped⟩
                exact .inr ⟨_, m, first, failed⟩

/-- What a loop has done when it fails: the rounds before the failing one keep `inv`. -/
theorem whileData_error {ι : Type} {body : List ι → EStateM ε σ (List ι)}
    (inv : List ι → σ → Prop) (post : σ → Prop)
    (keeps : ∀ input s rest t, inv input s → body input s = .ok rest t → inv rest t)
    (fails : ∀ input s e t, inv input s → body input s = .error e t → post t)
    {rounds : Nat} {input : List ι} {s t : σ} {e : ε} (start : inv input s)
    (failed : whileData body rounds input s = .error e t) : post t := by
  induction rounds generalizing input s with
  | zero => simp [whileData] at failed
  | succ rounds ih =>
      cases input with
      | nil => simp [whileData] at failed
      | cons i input =>
          rcases bind_error.mp failed with here | ⟨rest, u, first, later⟩
          · exact fails _ s e t start here
          · exact ih (keeps _ s rest u start first) later

/-! ## What a run does to the state, whether it succeeds or not -/

/-- The state before and the state after a run are related. -/
def Moves (R : σ → σ → Prop) (prog : EStateM ε σ α) : Prop := ∀ s, R s (final (prog s))

namespace Moves

variable {R : σ → σ → Prop} {x : EStateM ε σ α} {f : α → EStateM ε σ β}

theorem ok {s t : σ} {a : α} (moves : Moves R x) (ok : x s = .ok a t) : R s t := by
  have moved := moves s
  rwa [ok] at moved

theorem error {s t : σ} {e : ε} (moves : Moves R x) (failed : x s = .error e t) : R s t := by
  have moved := moves s
  rwa [failed] at moved

theorem mono {R' : σ → σ → Prop} (weaker : ∀ s t, R s t → R' s t) (moves : Moves R x) :
    Moves R' x := fun s => weaker _ _ (moves s)

theorem bind [IsTrans σ R] (first : Moves R x) (next : ∀ a, Moves R (f a)) : Moves R (x >>= f) := by
  intro s
  change R s (final (match x s with | .ok a u => f a u | .error e u => .error e u))
  cases h : x s with
  | ok a u => exact trans_of R (first.ok h) (next a u)
  | error e u => exact first.error h

theorem pure [Std.Refl R] {a : α} : Moves R (Pure.pure a : EStateM ε σ α) :=
  fun s => refl_of R s

theorem throw [Std.Refl R] {e : ε} : Moves R (MonadExcept.throw e : EStateM ε σ α) :=
  fun s => refl_of R s

theorem get [Std.Refl R] : Moves R (MonadState.get : EStateM ε σ σ) := fun s => refl_of R s

theorem modify {change : σ → σ} (changes : ∀ s, R s (change s)) :
    Moves R (modify change : EStateM ε σ PUnit) := changes

theorem ensure [Std.Refl R] {p : Prop} [Decidable p] {err : ε} :
    Moves R (ensure p err : EStateM ε σ Unit) := by
  unfold Prog.ensure
  split
  · exact pure
  · exact throw

theorem ofExcept [Std.Refl R] {value : Except ε α} : Moves R (ofExcept value : EStateM ε σ α) := by
  cases value with
  | ok a => exact pure
  | error e => exact throw

/-- A program on a part of the state moves the state as putting back the part does. -/
theorem zoom {τ : Type} {part : σ → τ} {setPart : τ → σ → σ} {mapErr : ε' → ε}
    {prog : EStateM ε' τ α} {P : τ → τ → Prop} (inner : Moves P prog)
    (outer : ∀ s v, P (part s) v → R s (setPart v s)) :
    Moves R (Prog.zoom part setPart mapErr prog) := by
  intro s
  have moved := inner (part s)
  unfold Prog.zoom
  cases h : prog (part s) with
  | ok a v =>
      rw [h] at moved
      exact outer s v moved
  | error e v =>
      rw [h] at moved
      exact outer s v moved

theorem ite {p : Prop} [Decidable p] {y : EStateM ε σ α} (yes : Moves R x) (no : Moves R y) :
    Moves R (if p then x else y) := by
  split
  · exact yes
  · exact no

end Moves

/-- A run fails in a related state, or comes to one of the last programs in a related state. -/
def ComesTo (R : σ → σ → Prop) (last : EStateM ε σ α → Prop) (prog : EStateM ε σ α) : Prop :=
  ∀ s, (∃ e t, prog s = .error e t ∧ R s t) ∨ ∃ p t, last p ∧ prog s = p t ∧ R s t

namespace ComesTo

variable {R : σ → σ → Prop} {last : EStateM ε σ β → Prop} {x : EStateM ε σ α}
  {f : α → EStateM ε σ β}

theorem bind [IsTrans σ R] (first : Moves R x) (rest : ∀ a, ComesTo R last (f a)) :
    ComesTo R last (x >>= f) := by
  intro s
  cases ran : x s with
  | error e t => exact .inl ⟨e, t, bind_of_error ran, first.error ran⟩
  | ok a m =>
      have moved := first.ok ran
      cases rest a m with
      | inl failed =>
          obtain ⟨e, t, failed, later⟩ := failed
          exact .inl ⟨e, t, (bind_of_ok ran).trans failed, trans_of R moved later⟩
      | inr came =>
          obtain ⟨p, t, here, same, later⟩ := came
          exact .inr ⟨p, t, here, (bind_of_ok ran).trans same, trans_of R moved later⟩

theorem here [Std.Refl R] {p : EStateM ε σ β} (isLast : last p) : ComesTo R last p :=
  fun s => .inr ⟨p, s, isLast, rfl, refl_of R s⟩

end ComesTo

end LedgerErgo.Prog
