import LedgerErgo.Lib.Prog
import LedgerErgo.Common.Buffer
import LedgerErgo.Ergo.TokenTable

/-! # The state the serializers work on

A serializer has a context of its own and shares three things with its caller: the
running hash, the token table and whatever memory its callbacks use. The running
hash is the list of the bytes it has absorbed. The functions of the hash SDK report
failures; which of its next calls fail is part of the state, and nothing below
depends on it except where a theorem says that no call fails.
-/

namespace LedgerErgo.Ergo

open LedgerErgo.Prog

/-- What a callback can reach: `faults` says which of the next SDK calls fail. -/
structure Mem (σ : Type) where
  faults : List Bool
  table : TokenTable
  cb : σ

/-- What a serializer with context type `κ` can reach. -/
structure SerState (κ σ : Type) where
  ctx : κ
  hash : List UInt8
  mem : Mem σ

/-- A context that can be put into its error state. -/
class Failable (κ : Type) where
  failed : κ → κ

section Mem

variable {ε σ : Type}

/-- One call of the SDK that may fail with `err`. -/
def sdkCall (err : ε) : EStateM ε (Mem σ) Unit := do
  let mem ← get
  match mem.faults with
  | [] => pure ()
  | failed :: rest =>
      set { mem with faults := rest }
      if failed then throw err

/-- `n` calls of the SDK. -/
def sdkCalls (err : ε) : Nat → EStateM ε (Mem σ) Unit
  | 0 => pure ()
  | n + 1 => do
      sdkCall err
      sdkCalls err n

/-- No SDK call will fail. -/
def Mem.Quiet (mem : Mem σ) : Prop := ∀ failed ∈ mem.faults, failed = false

/-- An SDK call changes nothing but the supply of failures. -/
theorem sdkCall_frame {err : ε} {m n : Mem σ} {u : Unit} (ok : sdkCall err m = .ok u n) :
    n.table = m.table ∧ n.cb = m.cb := by
  obtain ⟨faults, table, cb⟩ := m
  cases faults with
  | nil =>
      have : (⟨[], table, cb⟩ : Mem σ) = n := by
        simpa [sdkCall] using ok
      subst this
      exact ⟨rfl, rfl⟩
  | cons failed rest =>
      cases failed with
      | true => simp [sdkCall] at ok
      | false =>
          have : (⟨rest, table, cb⟩ : Mem σ) = n := by
            simpa [sdkCall] using ok
          subst this
          exact ⟨rfl, rfl⟩

theorem sdkCall_quiet (err : ε) {m : Mem σ} (quiet : m.Quiet) :
    ∃ n, sdkCall err m = .ok () n ∧ n.Quiet ∧ n.table = m.table ∧ n.cb = m.cb := by
  obtain ⟨faults, table, cb⟩ := m
  cases faults with
  | nil => exact ⟨⟨[], table, cb⟩, rfl, quiet, rfl, rfl⟩
  | cons failed rest =>
      obtain rfl : failed = false := quiet failed (by simp)
      refine ⟨⟨rest, table, cb⟩, rfl, ?_, rfl, rfl⟩
      intro f hf
      exact quiet f (by simp [hf])

theorem sdkCalls_frame {err : ε} {count : Nat} {m n : Mem σ} {u : Unit}
    (ok : sdkCalls err count m = .ok u n) : n.table = m.table ∧ n.cb = m.cb := by
  induction count generalizing m with
  | zero =>
      obtain rfl : m = n := by simpa [sdkCalls] using ok
      exact ⟨rfl, rfl⟩
  | succ count ih =>
      simp only [sdkCalls, bind_ok, exists_unit] at ok
      obtain ⟨k, first, rest⟩ := ok
      have early := sdkCall_frame first
      have late := ih rest
      exact ⟨late.1.trans early.1, late.2.trans early.2⟩

theorem sdkCalls_quiet (err : ε) {m : Mem σ} (count : Nat) (quiet : m.Quiet) :
    ∃ n, sdkCalls err count m = .ok () n ∧ n.Quiet ∧ n.table = m.table ∧ n.cb = m.cb := by
  induction count generalizing m with
  | zero => exact ⟨m, rfl, quiet, rfl, rfl⟩
  | succ count ih =>
      obtain ⟨k, first, quiet', table', cb'⟩ := sdkCall_quiet err quiet
      obtain ⟨n, rest, quiet'', table'', cb''⟩ := ih quiet'
      refine ⟨n, ?_, quiet'', table''.trans table', cb''.trans cb'⟩
      rw [sdkCalls, bind_ok, exists_unit]
      exact ⟨k, first, rest⟩

/-- The memory after a number of SDK calls that succeed, whatever their error code is. -/
def Mem.Ran (count : Nat) (m n : Mem σ) : Prop := sdkCalls () count m = .ok () n

/-- The memory left by a successful SDK call does not depend on the error code. -/
theorem sdkCall_ok_any {ε' : Type} {err : ε} (err' : ε') {m n : Mem σ}
    (ok : sdkCall err m = .ok () n) : sdkCall err' m = .ok () n := by
  obtain ⟨faults, table, cb⟩ := m
  rcases faults with _ | ⟨_ | _, rest⟩
  · have same : (⟨[], table, cb⟩ : Mem σ) = n := by simpa [sdkCall] using ok
    simpa [sdkCall] using same
  · have same : (⟨rest, table, cb⟩ : Mem σ) = n := by simpa [sdkCall] using ok
    simpa [sdkCall] using same
  · simp [sdkCall] at ok

theorem sdkCalls_ok_any {ε' : Type} {err : ε} (err' : ε') {count : Nat} {m n : Mem σ}
    (ok : sdkCalls err count m = .ok () n) : sdkCalls err' count m = .ok () n := by
  induction count generalizing m with
  | zero =>
      have same : m = n := by simpa [sdkCalls] using ok
      simpa [sdkCalls] using same
  | succ count ih =>
      simp only [sdkCalls, bind_ok, exists_unit] at ok ⊢
      obtain ⟨k, first, rest⟩ := ok
      exact ⟨k, sdkCall_ok_any err' first, ih rest⟩

theorem sdkCalls_ok_iff {err : ε} {count : Nat} {m n : Mem σ} {u : Unit} :
    sdkCalls err count m = .ok u n ↔ m.Ran count n :=
  ⟨sdkCalls_ok_any (), sdkCalls_ok_any err⟩

theorem sdkCall_ok_iff {err : ε} {m n : Mem σ} {u : Unit} :
    sdkCall err m = .ok u n ↔ m.Ran 1 n := by
  have one : sdkCalls err 1 m = .ok u n ↔ m.Ran 1 n := sdkCalls_ok_iff
  simpa [sdkCalls] using one

theorem Mem.ran_add {a b : Nat} {m n : Mem σ} :
    m.Ran (a + b) n ↔ ∃ k, m.Ran a k ∧ k.Ran b n := by
  induction a generalizing m with
  | zero => simp [Mem.Ran, sdkCalls]
  | succ a ih =>
      rw [Nat.add_right_comm]
      simp only [Mem.Ran, sdkCalls, bind_ok, exists_unit] at ih ⊢
      constructor
      · rintro ⟨x, hx, rest⟩
        obtain ⟨k, hk, hn⟩ := ih.mp rest
        exact ⟨k, ⟨x, hx, hk⟩, hn⟩
      · rintro ⟨k, ⟨x, hx, hk⟩, hn⟩
        exact ⟨x, hx, ih.mpr ⟨k, hk, hn⟩⟩

theorem Mem.Ran.table {count : Nat} {m n : Mem σ} (ran : m.Ran count n) : n.table = m.table :=
  (sdkCalls_frame ran).1

theorem Mem.Ran.cb {count : Nat} {m n : Mem σ} (ran : m.Ran count n) : n.cb = m.cb :=
  (sdkCalls_frame ran).2

theorem Mem.Quiet.ran {m : Mem σ} (quiet : m.Quiet) (count : Nat) :
    ∃ n, m.Ran count n ∧ n.Quiet ∧ n.table = m.table := by
  obtain ⟨n, ran, quiet', table, _⟩ := sdkCalls_quiet () count quiet
  exact ⟨n, ran, quiet', table⟩

end Mem

section Callbacks

variable {ε α ρ σ : Type}

/-- A callback with arguments `α` and an answer `ρ`. It may append to the token table,
    it never rewrites an entry. -/
structure Callback (ε α ρ σ : Type) where
  run : α → EStateM ε (Mem σ) ρ
  appends : ∀ a m r n, run a m = .ok r n → n.table.Extends m.table

/-- Call a callback that may not be set; only a failure counts. -/
def invoke (cb : Option (Callback ε α ρ σ)) (a : α) : EStateM ε (Mem σ) Unit :=
  whenSome cb fun cb => do
    let _ ← cb.run a

theorem invoke_extends {cb : Option (Callback ε α ρ σ)} {a : α} {m n : Mem σ} {u : Unit}
    (ok : invoke cb a m = .ok u n) : n.table.Extends m.table := by
  simp only [invoke, whenSome_ok, bind_ok, pure_ok] at ok
  rcases ok with ⟨_, rfl⟩ | ⟨c, _, r, _, ran, _, rfl⟩
  · exact .refl _
  · exact c.appends a m r _ ran

/-- A callback is shown something; it accepts if there is a memory after it. -/
abbrev Showing (σ : Type) := Mem σ → Mem σ → Prop

/-- A callback that may not be set is shown an argument. -/
def shows (cb : Option (Callback ε α ρ σ)) (a : α) : Showing σ := fun m n => invoke cb a m = .ok () n

/-- The callbacks accept what they are shown one after the other and let no SDK call fail, whatever
    SDK calls are made in between. -/
def Welcomes : List (Showing σ) → Mem σ → Prop
  | [], _ => True
  | showing :: later, m => ∀ m' : Mem σ, m'.table = m.table → m'.cb = m.cb → m'.Quiet →
      ∃ n, showing m' n ∧ n.Quiet ∧ Welcomes later n

/-- SDK calls change nothing that a callback can see. -/
theorem Welcomes.congr {showings : List (Showing σ)} {m m' : Mem σ} (welcomes : Welcomes showings m)
    (table : m'.table = m.table) (cb : m'.cb = m.cb) : Welcomes showings m' := by
  cases showings with
  | nil => trivial
  | cons showing later =>
      exact fun m'' table' cb' quiet => welcomes m'' (table'.trans table) (cb'.trans cb) quiet

theorem Welcomes.ran {showings : List (Showing σ)} {m n : Mem σ} {count : Nat}
    (welcomes : Welcomes showings m) (ran : m.Ran count n) : Welcomes showings n :=
  welcomes.congr ran.table ran.cb

/-- What is accepted in every memory is welcome. -/
theorem Welcomes.of_always {showings : List (Showing σ)}
    (always : ∀ showing ∈ showings, ∀ m, m.Quiet → ∃ n, showing m n ∧ n.Quiet) (m : Mem σ) :
    Welcomes showings m := by
  induction showings generalizing m with
  | nil => trivial
  | cons showing later ih =>
      rw [List.forall_mem_cons] at always
      intro m' _ _ quiet
      obtain ⟨n, accepted, quiet'⟩ := always.1 m' quiet
      exact ⟨n, accepted, quiet', ih always.2 n⟩

/-- Whatever a successful run does, the token table only grows. -/
def Appends (effect : EStateM ε (Mem σ) α) : Prop :=
  ∀ m a n, effect m = .ok a n → n.table.Extends m.table

/-- While no SDK call fails, the effect succeeds if the callbacks accept what it shows to them. -/
def Goes (showings : List (Showing σ)) (effect : EStateM ε (Mem σ) Unit) : Prop :=
  ∀ later m, m.Quiet → Welcomes (showings ++ later) m →
    ∃ n, effect m = .ok () n ∧ n.Quiet ∧ Welcomes later n

section Effects

variable {β : Type} {e : EStateM ε (Mem σ) Unit} {f : EStateM ε (Mem σ) α}

theorem Appends.bind (first : Appends e) (second : Appends f) : Appends (do e; f) := by
  intro m a n ok
  simp only [bind_ok, exists_unit] at ok
  obtain ⟨k, hk, hn⟩ := ok
  exact (second k a n hn).trans (first m () k hk)

theorem Appends.pure : Appends (Pure.pure () : EStateM ε (Mem σ) Unit) := by
  intro m _ n ok
  obtain ⟨_, rfl⟩ := pure_ok.mp ok
  exact .refl _

theorem Appends.sdkCalls (err : ε) (count : Nat) :
    Appends (sdkCalls err count : EStateM ε (Mem σ) Unit) := by
  intro m _ n ok
  rw [TokenTable.Extends, (sdkCalls_frame ok).1]

theorem Appends.sdkCall (err : ε) : Appends (sdkCall err : EStateM ε (Mem σ) Unit) := by
  intro m _ n ok
  rw [TokenTable.Extends, (sdkCall_frame ok).1]

theorem Appends.invoke (cb : Option (Callback ε α ρ σ)) (a : α) : Appends (invoke cb a) :=
  fun _ _ _ ok => invoke_extends ok

theorem Appends.ite {p : Prop} [Decidable p] {e' : EStateM ε (Mem σ) Unit} (yes : Appends e)
    (no : Appends e') : Appends (if p then e else e') := by
  split
  · exact yes
  · exact no

theorem Appends.runAll {step : β → EStateM ε (Mem σ) Unit} (each : ∀ b, Appends (step b))
    (bs : List β) : Appends (runAll step bs) := by
  induction bs with
  | nil => exact .pure
  | cons b bs ih => exact (each b).bind ih

variable {here there : List (Showing σ)}

theorem Goes.bind {e' : EStateM ε (Mem σ) Unit} (first : Goes here e) (second : Goes there e') :
    Goes (here ++ there) (do e; e') := by
  intro later m quiet welcomes
  rw [List.append_assoc] at welcomes
  obtain ⟨k, hk, quiet', welcomes'⟩ := first _ m quiet welcomes
  obtain ⟨n, hn, quiet'', welcomes''⟩ := second _ k quiet' welcomes'
  exact ⟨n, bind_ok.mpr ⟨(), k, hk, hn⟩, quiet'', welcomes''⟩

theorem Goes.pure : Goes [] (Pure.pure () : EStateM ε (Mem σ) Unit) :=
  fun _ m quiet welcomes => ⟨m, rfl, quiet, welcomes⟩

theorem Goes.sdkCalls (err : ε) (count : Nat) :
    Goes [] (sdkCalls err count : EStateM ε (Mem σ) Unit) := by
  intro later m quiet welcomes
  obtain ⟨n, ok, quiet', table, cb⟩ := sdkCalls_quiet err count quiet
  exact ⟨n, ok, quiet', welcomes.congr table cb⟩

theorem Goes.sdkCall (err : ε) : Goes [] (sdkCall err : EStateM ε (Mem σ) Unit) := by
  intro later m quiet welcomes
  obtain ⟨n, ok, quiet', table, cb⟩ := sdkCall_quiet err quiet
  exact ⟨n, ok, quiet', welcomes.congr table cb⟩

theorem Goes.invoke (cb : Option (Callback ε α ρ σ)) (a : α) : Goes [shows cb a] (invoke cb a) :=
  fun _ m quiet welcomes => welcomes m rfl rfl quiet

/-- A callback that is not set need not be asked. -/
theorem Goes.unset {cb : Option (Callback ε α ρ σ)} (unset : cb = none) (a : α) :
    Goes [] (Ergo.invoke cb a) := by
  subst unset
  exact .pure

theorem Goes.ite {p : Prop} [Decidable p] {e' : EStateM ε (Mem σ) Unit} (yes : Goes here e)
    (no : Goes there e') : Goes (if p then here else there) (if p then e else e') := by
  by_cases holds : p
  · rw [if_pos holds, if_pos holds]
    exact yes
  · rw [if_neg holds, if_neg holds]
    exact no

/-- Neither branch shows anything. -/
theorem Goes.silentIf {p : Prop} [Decidable p] {e' : EStateM ε (Mem σ) Unit} (yes : Goes [] e)
    (no : Goes [] e') : Goes [] (if p then e else e') := by
  simpa only [ite_self] using Goes.ite yes no

theorem Goes.runAll {step : β → EStateM ε (Mem σ) Unit} {showing : β → Showing σ}
    (each : ∀ b, Goes [showing b] (step b)) (bs : List β) :
    Goes (bs.map showing) (runAll step bs) := by
  induction bs with
  | nil => exact .pure
  | cons b bs ih => exact (each b).bind ih

end Effects

end Callbacks

section Programs

variable {ε ε' κ κ' σ α : Type} [Failable κ] {s t : SerState κ σ} {u : Unit} {e err : ε}

/-- `res_error`: put the context into its error state and fail. -/
def resError (err : ε) : EStateM ε (SerState κ σ) α := do
  modify fun s => { s with ctx := Failable.failed s.ctx }
  throw err

/-- `if (!c) return res_error(context, err)` -/
def require (c : Prop) [Decidable c] (err : ε) : EStateM ε (SerState κ σ) Unit :=
  if c then pure () else resError err

/-- The value of a call that may fail: `if (!call) return res_error(context, err)` -/
def orFail (value : Option α) (err : ε) : EStateM ε (SerState κ σ) α :=
  match value with
  | some a => pure a
  | none => resError err

/-- The context. -/
def getCtx : EStateM ε (SerState κ σ) κ := do
  return (← get).ctx

/-- Assign fields of the context. -/
def modifyCtx (f : κ → κ) : EStateM ε (SerState κ σ) Unit :=
  modify fun s => { s with ctx := f s.ctx }

/-- A call that cannot reach the hash or the context; its error fails the context. -/
def onMem (call : EStateM ε (Mem σ) α) : EStateM ε (SerState κ σ) α := fun s =>
  match call s.mem with
  | .ok a m => .ok a { s with mem := m }
  | .error e m => .error e { s with ctx := Failable.failed s.ctx, mem := m }

/-- `if (!blake2b_update(hash, data, len)) return res_error(context, err)` -/
def hashUpdate (err : ε) (data : List UInt8) : EStateM ε (SerState κ σ) Unit := do
  onMem (sdkCall err)
  modify fun s => { s with hash := s.hash ++ data }

/-- Call a function of a serializer whose context is a part of this one. -/
def callPart (part : κ → κ') (setPart : κ' → κ → κ) (mapResult : ε' → ε)
    (call : EStateM ε' (SerState κ' σ) α) : EStateM ε (SerState κ σ) α := fun s =>
  match call { s with ctx := part s.ctx } with
  | .ok a t => .ok a { t with ctx := setPart t.ctx s.ctx }
  | .error e t => .error (mapResult e) { t with ctx := Failable.failed (setPart t.ctx s.ctx) }

@[simp] theorem resError_ok {a : α} :
    (resError err : EStateM ε (SerState κ σ) α) s = .ok a t ↔ False := by
  simp [resError]

@[simp] theorem require_ok {c : Prop} [Decidable c] :
    (require c err : EStateM ε (SerState κ σ) Unit) s = .ok u t ↔ c ∧ s = t := by
  simp [require]

@[simp] theorem orFail_ok {value : Option α} {a : α} :
    (orFail value err : EStateM ε (SerState κ σ) α) s = .ok a t ↔ value = some a ∧ s = t := by
  cases value <;> simp [orFail]

omit [Failable κ] in
@[simp] theorem getCtx_ok {c : κ} :
    (getCtx : EStateM ε (SerState κ σ) κ) s = .ok c t ↔ s.ctx = c ∧ s = t := by
  simp [getCtx, and_comm]

omit [Failable κ] in
@[simp] theorem modifyCtx_ok {f : κ → κ} :
    (modifyCtx f : EStateM ε (SerState κ σ) Unit) s = .ok u t ↔
      { s with ctx := f s.ctx } = t := by
  simp [modifyCtx]

@[simp] theorem onMem_ok {call : EStateM ε (Mem σ) α} {a : α} :
    (onMem call : EStateM ε (SerState κ σ) α) s = .ok a t ↔
      ∃ m, call s.mem = .ok a m ∧ { s with mem := m } = t := by
  unfold onMem
  cases h : call s.mem <;> simp

@[simp] theorem hashUpdate_ok {data : List UInt8} :
    (hashUpdate err data : EStateM ε (SerState κ σ) Unit) s = .ok u t ↔
      ∃ m, sdkCall err s.mem = .ok () m ∧ ⟨s.ctx, s.hash ++ data, m⟩ = t := by
  simp [hashUpdate]

@[simp] theorem callPart_ok {part : κ → κ'} {setPart : κ' → κ → κ} {mapResult : ε' → ε}
    {call : EStateM ε' (SerState κ' σ) α} {a : α} :
    callPart part setPart mapResult call s = .ok a t ↔
      ∃ v, call { s with ctx := part s.ctx } = .ok a v ∧
        { v with ctx := setPart v.ctx s.ctx } = t := by
  unfold callPart
  cases h : call { s with ctx := part s.ctx } <;> simp

omit [Failable κ] in
theorem getCtx_bind {f : κ → EStateM ε (SerState κ σ) α} : (getCtx >>= f) s = f s.ctx s := rfl

theorem require_bind_ok {c : Prop} [Decidable c] {f : Unit → EStateM ε (SerState κ σ) α} {a : α} :
    (require c err >>= f) s = .ok a t ↔ c ∧ f () s = .ok a t := by
  simp only [bind_ok, require_ok, exists_unit]
  constructor
  · rintro ⟨_, ⟨hc, rfl⟩, h⟩
    exact ⟨hc, h⟩
  · rintro ⟨hc, h⟩
    exact ⟨s, ⟨hc, rfl⟩, h⟩

/-- What a successful run from a context amounts to: it succeeds exactly when `effect` does
    on the memory, and then it answers `answer`, leaves the context `after` and has hashed
    `bytes`. -/
def Does (prog : EStateM ε (SerState κ σ) α) (before : κ) (answer : α) (after : κ)
    (bytes : List UInt8) (effect : EStateM ε (Mem σ) Unit) : Prop :=
  ∀ hash mem a t, prog ⟨before, hash, mem⟩ = .ok a t ↔
    ∃ m, effect mem = .ok () m ∧ answer = a ∧ ⟨after, hash ++ bytes, m⟩ = t

namespace Does

variable {β : Type} {a a' : α} {b : β} {c after after' : κ} {bytes bytes' : List UInt8}
  {effect effect' : EStateM ε (Mem σ) Unit} {prog prog' : EStateM ε (SerState κ σ) α}

omit [Failable κ] in
theorem bind {next : α → EStateM ε (SerState κ σ) β}
    (first : Does prog c a after bytes effect) (second : Does (next a) after b after' bytes' effect') :
    Does (prog >>= next) c b after' (bytes ++ bytes') (do effect; effect') := by
  intro hash mem r t
  simp only [bind_ok, exists_unit]
  constructor
  · rintro ⟨_, v, ran, then_ran⟩
    obtain ⟨m, hm, rfl, rfl⟩ := (first _ _ _ _).mp ran
    obtain ⟨n, hn, rfl, rfl⟩ := (second _ _ _ _).mp then_ran
    exact ⟨n, ⟨m, hm, hn⟩, rfl, by simp⟩
  · rintro ⟨n, ⟨m, hm, hn⟩, rfl, rfl⟩
    exact ⟨a, _, (first _ _ _ _).mpr ⟨m, hm, rfl, rfl⟩,
      (second _ _ _ _).mpr ⟨n, hn, rfl, by simp⟩⟩

omit [Failable κ] in
theorem pure : Does (Pure.pure a : EStateM ε (SerState κ σ) α) c a c [] (Pure.pure ()) := by
  intro hash mem r t
  simp

omit [Failable κ] in
theorem getCtx_bind {next : κ → EStateM ε (SerState κ σ) α}
    (rest : Does (next c) c a after bytes effect) :
    Does (getCtx >>= next) c a after bytes effect := rest

omit [Failable κ] in
theorem modifyCtx_bind {f : κ → κ} {next : Unit → EStateM ε (SerState κ σ) α}
    (rest : Does (next ()) (f c) a after bytes effect) :
    Does (modifyCtx f >>= next) c a after bytes effect := rest

omit [Failable κ] in
theorem modifyCtx {f : κ → κ} :
    Does (modifyCtx f : EStateM ε (SerState κ σ) Unit) c () (f c) [] (Pure.pure ()) := by
  intro hash mem r t
  simp

omit [Failable κ] in
theorem ite {p : Prop} [Decidable p] {before : κ} (yes : Does prog before a after bytes effect)
    (no : Does prog' before a' after' bytes' effect') :
    Does (if p then prog else prog') before (if p then a else a') (if p then after else after')
      (if p then bytes else bytes') (if p then effect else effect') := by
  split
  · exact yes
  · exact no

omit [Failable κ] in
/-- `ite` for two branches with the same answer. -/
theorem ite_same {p : Prop} [Decidable p] {before : κ}
    (yes : Does prog before a after bytes effect) (no : Does prog' before a after' bytes' effect') :
    Does (if p then prog else prog') before a (if p then after else after')
      (if p then bytes else bytes') (if p then effect else effect') := by
  split
  · exact yes
  · exact no

omit [Failable κ] in
theorem congr {effect' : EStateM ε (Mem σ) Unit} (does : Does prog c a after bytes effect)
    (sameCtx : after = after') (sameBytes : bytes = bytes')
    (sameEffect : ∀ m n, effect m = .ok () n ↔ effect' m = .ok () n) :
    Does prog c a after' bytes' effect' := by
  subst sameCtx sameBytes
  intro hash mem r t
  simp only [does hash mem r t, sameEffect]

omit [Failable κ] in
/-- The description of a program without an answer. -/
theorem ok_iff {prog : EStateM ε (SerState κ σ) Unit} {s : SerState κ σ}
    (does : Does prog s.ctx () after bytes effect) :
    prog s = .ok u t ↔ ∃ m, effect s.mem = .ok () m ∧ ⟨after, s.hash ++ bytes, m⟩ = t := by
  simpa using does s.hash s.mem u t

theorem onMem {call : EStateM ε (Mem σ) Unit} :
    Does (onMem call : EStateM ε (SerState κ σ) Unit) c () c [] call := by
  intro hash mem r t
  simp

theorem hashUpdate {data : List UInt8} :
    Does (hashUpdate err data : EStateM ε (SerState κ σ) Unit) c () c data (sdkCall err) := by
  intro hash mem r t
  simp

theorem orFail_bind {value : α} {next : α → EStateM ε (SerState κ σ) β}
    (rest : Does (next value) c b after bytes effect) :
    Does (orFail (some value) err >>= next) c b after bytes effect := rest

end Does

/-- Callback after callback, with the context as it is. -/
theorem runAll_onMem_ok {β : Type} {call : κ → β → EStateM ε (Mem σ) Unit} {bs : List β} :
    runAll (fun b => do let ctx ← getCtx; onMem (call ctx b)) bs s = .ok u t ↔
      ∃ m, runAll (call s.ctx) bs s.mem = .ok () m ∧ { s with mem := m } = t := by
  induction bs generalizing s with
  | nil => simp [runAll_nil_ok]
  | cons b bs ih =>
      simp only [runAll_cons_ok, bind_ok, getCtx_ok, onMem_ok, exists_unit, ih, and_assoc,
        exists_and_left, exists_eq_left']
      constructor
      · rintro ⟨_, ⟨m, first, rfl⟩, n, others, rfl⟩
        exact ⟨n, ⟨m, first, others⟩, rfl⟩
      · rintro ⟨n, ⟨m, first, others⟩, rfl⟩
        exact ⟨_, ⟨m, first, rfl⟩, n, others, rfl⟩

end Programs

end LedgerErgo.Ergo
