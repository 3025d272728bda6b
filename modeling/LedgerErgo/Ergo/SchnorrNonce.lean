import LedgerErgo.Ergo.Schnorr

/-! # The ephemeral key of a signature

A round that fails leaves a part of the commitment in the hash and a key in the buffer; the
next round starts both afresh. The secret is checked to be below the order of the curve, the
ephemeral key only to be at most the order, so the order itself is taken when the generator
yields it.
-/

namespace LedgerErgo.Ergo.Schnorr

open LedgerErgo.Prog

variable {sdk : Sdk} {secret : Bytes 32} {m n : Mem SignInit} {rounds : Nat}

/-! ## Rounds -/

/-- Some rounds in a row that all fail. -/
def Failed (sdk : Sdk) (secret : Bytes 32) : Nat → Mem SignInit → Mem SignInit → Prop
  | 0, m, n => m = n
  | rounds + 1, m, n => ∃ k, attempt sdk secret m = .error () k ∧ Failed sdk secret rounds k n

theorem attempts_of_ok {u : Unit} (first : attempt sdk secret m = .ok u n) :
    attempts sdk secret (rounds + 1) m = .ok true n := by
  simp only [attempts, first]

theorem attempts_of_error {u : Unit} (first : attempt sdk secret m = .error u n) :
    attempts sdk secret (rounds + 1) m = attempts sdk secret rounds n := by
  simp only [attempts, first]

/-- The loop answers yes after the first round that succeeds and no if all rounds fail. -/
theorem attempts_eq (rounds : Nat) (m : Mem SignInit) :
    (∃ k < rounds, ∃ mid n, Failed sdk secret k m mid ∧ attempt sdk secret mid = .ok () n ∧
        attempts sdk secret rounds m = .ok true n) ∨
      ∃ n, Failed sdk secret rounds m n ∧ attempts sdk secret rounds m = .ok false n := by
  induction rounds generalizing m with
  | zero => exact .inr ⟨m, rfl, rfl⟩
  | succ rounds ih =>
      cases first : attempt sdk secret m with
      | ok u n =>
          exact .inl ⟨0, Nat.succ_pos rounds, m, n, rfl, first, attempts_of_ok first⟩
      | error u next =>
          rw [attempts_of_error first]
          cases ih next with
          | inl later =>
              obtain ⟨k, less, mid, n, failed, last, same⟩ := later
              exact .inl ⟨k + 1, Nat.succ_lt_succ less, mid, n, ⟨next, first, failed⟩, last, same⟩
          | inr none =>
              obtain ⟨n, failed, same⟩ := none
              exact .inr ⟨n, ⟨next, first, failed⟩, same⟩

/-- A scalar of the curve that is not zero. -/
def InRange (scalar : Bytes 32) : Prop :=
  1 ≤ BigEndian.value scalar.val ∧ BigEndian.value scalar.val < secp256k1N

/-- At most `MAX_ITERATIONS` rounds are run; if the last one succeeds, the secret and the key are
in range and the hash holds the commitment of the key. -/
structure NonceSound (sdk : Sdk) (secret : Bytes 32) (m : Mem SignInit) : Prop where
  returns : ∃ answer n, signInit sdk secret m = .ok answer n
  refused : ∀ n, signInit sdk secret m = .ok false n → Failed sdk secret maxIterations m n
  attempts : ∀ n, signInit sdk secret m = .ok true n →
    ∃ k < maxIterations, ∃ mid, Failed sdk secret k m mid ∧ attempt sdk secret mid = .ok () n
  secretRange : ∀ n, signInit sdk secret m = .ok true n → InRange secret
  keyRange : ∀ n, signInit sdk secret m = .ok true n → InRange n.cb.key
  hash : ∀ n, signInit sdk secret m = .ok true n → n.cb.hash = commitment sdk secret n.cb.key

/-- All but the range of the key holds of every run. -/
theorem nonceSound_iff_key :
    NonceSound sdk secret m ↔
      ∀ n, signInit sdk secret m = .ok true n → BigEndian.value n.cb.key.val ≠ secp256k1N := by
  constructor
  · intro sound n ok same
    exact absurd same (sound.keyRange n ok).2.ne
  · intro other
    have run := @attempts_eq sdk secret maxIterations m
    have ranges := fun n (ok : signInit sdk secret m = .ok true n) =>
      attempt_ranges (attempts_ok ok).choose_spec
    refine ⟨?_, ?_, ?_, ?_, ?_, ?_⟩
    · cases run with
      | inl yes =>
          obtain ⟨_, _, _, n, _, _, same⟩ := yes
          exact ⟨true, n, same⟩
      | inr no =>
          obtain ⟨n, _, same⟩ := no
          exact ⟨false, n, same⟩
    · intro n ok
      cases run with
      | inl yes =>
          obtain ⟨_, _, _, n, _, _, same⟩ := yes
          cases ok.symm.trans same
      | inr no =>
          obtain ⟨n, failed, same⟩ := no
          cases ok.symm.trans same
          exact failed
    · intro n ok
      cases run with
      | inl yes =>
          obtain ⟨k, less, mid, n, failed, last, same⟩ := yes
          cases ok.symm.trans same
          exact ⟨k, less, mid, failed, last⟩
      | inr no =>
          obtain ⟨n, _, same⟩ := no
          cases ok.symm.trans same
    · intro n ok
      exact ⟨Nat.pos_of_ne_zero (ranges n ok).1.1, (ranges n ok).1.2⟩
    · intro n ok
      exact ⟨Nat.pos_of_ne_zero (ranges n ok).2.1, lt_of_le_of_ne (ranges n ok).2.2 (other n ok)⟩
    · intro n ok
      exact signInit_hash ok

/-! ## The order as a key -/

/-- What the SDK and the generator are going to answer. -/
structure Tape where
  faults : List Bool
  draws : List (Bytes 32)

namespace Tape

/-- The next answer of the generator, as a number. -/
def draw (t : Tape) : Nat := BigEndian.value (t.draws.headD (Bytes.zero 32)).val

/-- The answers of the SDK behind the first failure. -/
def behind (faults : List Bool) : List Bool := (faults.dropWhile (!·)).tail

/-- The SDK calls of a round of which none fails: six before a key is drawn, one to compare a key
that is not zero with the order, and two more to commit to it. -/
def calls (t : Tape) : Nat :=
  if t.draw = 0 then 6 else if t.draw ≤ secp256k1N then 9 else 7

/-- No SDK call of the next round fails, and the generator yields a number that is taken as a key. -/
def GetsThrough (t : Tape) : Prop :=
  true ∉ t.faults.take 9 ∧ t.draw ≠ 0 ∧ t.draw ≤ secp256k1N

instance (t : Tape) : Decidable t.GetsThrough :=
  inferInstanceAs (Decidable (_ ∧ _ ∧ _))

/-- The answers that a round leaves which is given up. -/
def abandon (t : Tape) : Tape where
  faults := if true ∈ t.faults.take t.calls then behind t.faults else t.faults.drop t.calls
  draws := if true ∈ t.faults.take 6 then t.draws else t.draws.tail

/-- The first round that gets through draws the order of the curve. -/
def TakesOrder (t : Tape) (rounds : Nat) : Prop :=
  ∃ k < rounds, (∀ j < k, ¬ (abandon^[j] t).GetsThrough) ∧ (abandon^[k] t).GetsThrough ∧
    (abandon^[k] t).draw = secp256k1N

theorem takesOrder_of_through {t : Tape} (through : t.GetsThrough) :
    t.TakesOrder (rounds + 1) ↔ t.draw = secp256k1N := by
  constructor
  · rintro ⟨k, -, early, -, order⟩
    cases k with
    | zero => exact order
    | succ k => exact (early 0 (Nat.succ_pos k) through).elim
  · intro order
    exact ⟨0, Nat.succ_pos rounds, fun _ early => absurd early (Nat.not_lt_zero _), through, order⟩

theorem takesOrder_of_not_through {t : Tape} (fails : ¬ t.GetsThrough) :
    t.TakesOrder (rounds + 1) ↔ t.abandon.TakesOrder rounds := by
  constructor
  · rintro ⟨k, less, early, through, order⟩
    cases k with
    | zero => exact (fails through).elim
    | succ k =>
        refine ⟨k, Nat.lt_of_succ_lt_succ less, fun j before => ?_, through, order⟩
        exact early (j + 1) (Nat.succ_lt_succ before)
  · rintro ⟨k, less, early, through, order⟩
    refine ⟨k + 1, Nat.succ_lt_succ less, fun j before => ?_, through, order⟩
    cases j with
    | zero => exact fails
    | succ j => exact early j (Nat.lt_of_succ_lt_succ before)

theorem behind_drop {faults : List Bool} {count : Nat} (worked : true ∉ faults.take count) :
    behind (faults.drop count) = behind faults := by
  have all : ∀ failed ∈ faults.take count, (!failed) = true := by
    intro failed here
    cases failed with
    | false => rfl
    | true => exact (worked here).elim
  have split : faults.dropWhile (!·) = (faults.drop count).dropWhile (!·) := by
    conv_lhs => rw [← List.take_append_drop count faults]
    exact List.dropWhile_append_of_pos all
  rw [behind, behind, split]

theorem mem_take_add {faults : List Bool} {a b : Nat} :
    true ∈ faults.take (a + b) ↔ true ∈ faults.take a ∨ true ∈ (faults.drop a).take b := by
  rw [List.take_add, List.mem_append]

/-- A round that fails before a key is drawn. -/
theorem abandon_early {t : Tape} (early : true ∈ t.faults.take 6) :
    t.abandon = ⟨behind t.faults, t.draws⟩ := by
  have within : 6 ≤ t.calls := by
    unfold calls
    split_ifs <;> omega
  rw [abandon, if_pos (List.take_subset_take_left _ within early), if_pos early]

/-- A round that draws a key. -/
theorem abandon_late {t : Tape} {count : Nat} (late : true ∉ t.faults.take 6)
    (calls : t.calls = 6 + count) :
    t.abandon = ⟨if true ∈ (t.faults.drop 6).take count then behind (t.faults.drop 6)
      else (t.faults.drop 6).drop count, t.draws.tail⟩ := by
  have same : true ∈ t.faults.take (6 + count) ↔ true ∈ (t.faults.drop 6).take count := by
    rw [mem_take_add, or_iff_right late]
  simp only [abandon, calls, same, if_neg late, behind_drop late, List.drop_drop]

end Tape

/-- What is going to be answered to a round. -/
def tape (m : Mem SignInit) : Tape := ⟨m.faults, m.cb.draws⟩

/-- A program makes so many SDK calls and fails with the first of them that does; it draws no key. -/
private inductive Calls {α : Type} (count : Nat) (prog : EStateM Unit (Mem SignInit) α)
    (m : Mem SignInit) : Prop where
  | worked {a : α} {n : Mem SignInit} (ran : prog m = .ok a n) (none : true ∉ m.faults.take count)
      (faults : n.faults = m.faults.drop count) (draws : n.cb.draws = m.cb.draws)
      (key : n.cb.key = m.cb.key)
  | failed {n : Mem SignInit} (ran : prog m = .error () n) (some : true ∈ m.faults.take count)
      (faults : n.faults = Tape.behind m.faults) (draws : n.cb.draws = m.cb.draws)

private theorem calls_bind {α β : Type} {a b : Nat} {x : EStateM Unit (Mem SignInit) α}
    {f : α → EStateM Unit (Mem SignInit) β} (first : ∀ m, Calls a x m)
    (second : ∀ answer m, Calls b (f answer) m) (m : Mem SignInit) : Calls (a + b) (x >>= f) m := by
  cases first m with
  | failed ran some faults draws =>
      exact .failed (bind_of_error ran) (Tape.mem_take_add.mpr (.inl some)) faults draws
  | @worked answer k ran none faults draws key =>
      cases second answer k with
      | worked ran' none' faults' draws' key' =>
          refine .worked ((bind_of_ok ran).trans ran') ?_ ?_ (draws'.trans draws) (key'.trans key)
          · rw [Tape.mem_take_add, ← faults]
            exact fun here => here.elim none none'
          · rw [faults', faults, List.drop_drop]
      | failed ran' some' faults' draws' =>
          refine .failed ((bind_of_ok ran).trans ran') ?_ ?_ (draws'.trans draws)
          · rw [Tape.mem_take_add, ← faults]
            exact .inr some'
          · rw [faults', faults, Tape.behind_drop none]

private theorem calls_sdkCall (m : Mem SignInit) : Calls 1 (sdkCall ()) m := by
  obtain ⟨faults, table, cb⟩ := m
  cases faults with
  | nil => exact .worked rfl (by simp) rfl rfl rfl
  | cons failed rest =>
      cases failed with
      | false => exact .worked rfl (by simp) rfl rfl rfl
      | true => exact .failed rfl (by simp) rfl rfl

private theorem calls_ensure {p : Prop} [Decidable p] (holds : p) (m : Mem SignInit) :
    Calls 0 (ensure p ()) m :=
  .worked (ensure_of holds) (by simp) rfl rfl rfl

private theorem calls_hash {f : Mem SignInit → List UInt8} (m : Mem SignInit) :
    Calls 0 (modify fun mem => { mem with cb := { mem.cb with hash := f mem } }) m :=
  .worked rfl (by simp) rfl rfl rfl

private theorem calls_update {data : List UInt8} (m : Mem SignInit) : Calls 1 (update data) m :=
  calls_bind calls_sdkCall (fun _ => calls_hash) m

/-- A round up to the key. -/
private def opening (sdk : Sdk) (secret : Bytes 32) : EStateM Unit (Mem SignInit) Unit := do
  sdkCall ()
  modify fun mem => { mem with cb := { mem.cb with hash := [] } }
  update p2pkPrefix
  ensure (BigEndian.value secret.val ≠ 0) ()
  sdkCall ()
  ensure (BigEndian.value secret.val < secp256k1N) ()
  sdkCall ()
  update (compress (sdk.scalarMult secret))
  update p2pkSuffix

/-- A round from the key on. -/
private def closing (sdk : Sdk) : EStateM Unit (Mem SignInit) Unit := do
  modify fun mem => { mem with cb := mem.cb.drawn }
  let mem ← get
  ensure (BigEndian.value mem.cb.key.val ≠ 0) ()
  sdkCall ()
  ensure (BigEndian.value mem.cb.key.val ≤ secp256k1N) ()
  sdkCall ()
  update (compress (sdk.scalarMult mem.cb.key))

private theorem attempt_eq : attempt sdk secret = opening sdk secret >>= fun _ => closing sdk := by
  simp only [attempt, opening, closing, bind_assoc]

private theorem calls_opening (sdk : Sdk) (range : InRange secret) (m : Mem SignInit) :
    Calls 6 (opening sdk secret) m := by
  have some : BigEndian.value secret.val ≠ 0 := Nat.pos_iff_ne_zero.mp range.1
  refine calls_bind (a := 1) (b := 5) calls_sdkCall (fun _ => ?_) m
  refine calls_bind (a := 0) (b := 5) calls_hash fun _ => ?_
  refine calls_bind (a := 1) (b := 4) calls_update fun _ => ?_
  refine calls_bind (a := 0) (b := 4) (calls_ensure some) fun _ => ?_
  refine calls_bind (a := 1) (b := 3) calls_sdkCall fun _ => ?_
  refine calls_bind (a := 0) (b := 3) (calls_ensure range.2) fun _ => ?_
  refine calls_bind (a := 1) (b := 2) calls_sdkCall fun _ => ?_
  exact calls_bind calls_update fun _ => calls_update

/-- The key that a round takes, as it goes on with it. -/
private theorem closing_eq (m : Mem SignInit) :
    closing sdk m = (do
      ensure (BigEndian.value m.cb.drawn.key.val ≠ 0) ()
      sdkCall ()
      ensure (BigEndian.value m.cb.drawn.key.val ≤ secp256k1N) ()
      sdkCall ()
      update (compress (sdk.scalarMult m.cb.drawn.key)) : EStateM Unit (Mem SignInit) Unit)
        { m with cb := m.cb.drawn } := rfl

private theorem value_drawn {init : SignInit} {faults : List Bool} :
    BigEndian.value init.drawn.key.val = Tape.draw ⟨faults, init.draws⟩ := by
  obtain ⟨draws, key, hash⟩ := init
  cases draws <;> rfl

private theorem draws_drawn {init : SignInit} : init.drawn.draws = init.draws.tail := by
  obtain ⟨draws, key, hash⟩ := init
  cases draws <;> rfl

private theorem drawn_of_draws {t : Tape} (draws : m.cb.draws = t.draws) :
    BigEndian.value m.cb.drawn.key.val = t.draw := by
  have same : t.draw = Tape.draw ⟨m.faults, m.cb.draws⟩ := by
    rw [draws]
    rfl
  exact value_drawn.trans same.symm

/-- The calls of a round behind its key. -/
private def commits (sdk : Sdk) (key : Bytes 32) : EStateM Unit (Mem SignInit) Unit := do
  sdkCall ()
  ensure (BigEndian.value key.val ≤ secp256k1N) ()
  sdkCall ()
  update (compress (sdk.scalarMult key))

private theorem calls_commits (sdk : Sdk) {key : Bytes 32} (small : BigEndian.value key.val ≤ secp256k1N)
    (m : Mem SignInit) : Calls 3 (commits sdk key) m := by
  refine calls_bind (a := 1) (b := 2) calls_sdkCall (fun _ => ?_) m
  refine calls_bind (a := 0) (b := 2) (calls_ensure small) fun _ => ?_
  exact calls_bind calls_sdkCall fun _ => calls_update

/-- A key above the order is refused after it was compared. -/
private theorem commits_fails (sdk : Sdk) {key : Bytes 32}
    (large : ¬ BigEndian.value key.val ≤ secp256k1N) (m : Mem SignInit) :
    ∃ n, commits sdk key m = .error () n ∧ n.cb.draws = m.cb.draws ∧
      n.faults = if true ∈ m.faults.take 1 then Tape.behind m.faults else m.faults.drop 1 := by
  unfold commits
  cases calls_sdkCall m with
  | failed ran some faults draws => exact ⟨_, bind_of_error ran, draws, by rw [if_pos some, faults]⟩
  | worked ran none faults draws =>
      rw [bind_of_ok ran]
      exact ⟨_, bind_of_error (ensure_of_not large), draws, by rw [if_neg none, faults]⟩

/-- What a round does once its key is drawn. -/
private theorem closing_round {t : Tape} (late : true ∉ t.faults.take 6)
    (faults : m.faults = t.faults.drop 6) (draws : m.cb.draws = t.draws) :
    (t.GetsThrough ∧ ∃ n, closing sdk m = .ok () n ∧ BigEndian.value n.cb.key.val = t.draw) ∨
      (¬ t.GetsThrough ∧ ∃ n, closing sdk m = .error () n ∧ tape n = t.abandon) := by
  have drawn : BigEndian.value m.cb.drawn.key.val = t.draw := drawn_of_draws draws
  have tail : m.cb.drawn.draws = t.draws.tail := draws_drawn.trans (congrArg _ draws)
  rw [closing_eq, ← commits]
  by_cases zero : t.draw = 0
  · right
    refine ⟨fun through => through.2.1 zero, _, bind_of_error (ensure_of_not ?_), ?_⟩
    · rw [drawn, not_not]
      exact zero
    · have calls : t.calls = 6 + 0 := if_pos zero
      rw [Tape.abandon_late late calls, tape]
      simp [faults, tail]
  rw [bind_of_ok (ensure_of (by rwa [drawn]))]
  by_cases small : t.draw ≤ secp256k1N
  · have calls : t.calls = 6 + 3 := by rw [Tape.calls, if_neg zero, if_pos small]
    have through : t.GetsThrough ↔ true ∉ m.faults.take 3 := by
      rw [Tape.GetsThrough, Tape.mem_take_add (a := 6) (b := 3), or_iff_right late, ← faults]
      exact and_iff_left ⟨zero, small⟩
    cases calls_commits sdk (drawn ▸ small) { m with cb := m.cb.drawn } with
    | worked ran none faults' draws' key =>
        exact .inl ⟨through.mpr none, _, ran, by rw [key, ← drawn]⟩
    | failed ran some faults' draws' =>
        right
        refine ⟨fun none => through.mp none some, _, ran, ?_⟩
        rw [Tape.abandon_late late calls, tape, faults', draws', ← faults, ← tail]
        exact congrArg (Tape.mk · _) (if_pos some).symm
  · have calls : t.calls = 6 + 1 := by rw [Tape.calls, if_neg zero, if_neg small]
    obtain ⟨n, ran, draws', faults'⟩ := commits_fails sdk (drawn ▸ small)
      { m with cb := m.cb.drawn }
    right
    refine ⟨fun through => small through.2.2, n, ran, ?_⟩
    rw [Tape.abandon_late late calls, tape, faults', draws', ← faults, ← tail]

/-- A round for a secret in range gets through or is given up as its tape says. -/
private theorem attempt_round (sdk : Sdk) (range : InRange secret) (m : Mem SignInit) :
    ((tape m).GetsThrough ∧ ∃ n, attempt sdk secret m = .ok () n ∧
        BigEndian.value n.cb.key.val = (tape m).draw) ∨
      (¬ (tape m).GetsThrough ∧ ∃ n, attempt sdk secret m = .error () n ∧
        tape n = (tape m).abandon) := by
  rw [attempt_eq]
  cases calls_opening sdk range m with
  | failed ran some faults draws =>
      right
      refine ⟨fun through => through.1 (List.take_subset_take_left _ (by omega) some), _,
        bind_of_error ran, ?_⟩
      rw [Tape.abandon_early some, tape, faults, draws]
      rfl
  | worked ran none faults draws =>
      rw [bind_of_ok ran]
      exact closing_round (t := tape m) none faults draws

/-- The loop returns the order of the curve as the key exactly if the first round that gets through
draws it. -/
private theorem attempts_order_iff (sdk : Sdk) (range : InRange secret) :
    (∃ n, attempts sdk secret rounds m = .ok true n ∧ BigEndian.value n.cb.key.val = secp256k1N) ↔
      (tape m).TakesOrder rounds := by
  induction rounds generalizing m with
  | zero =>
      constructor
      · rintro ⟨n, ok, -⟩
        cases ok
      · rintro ⟨k, less, -⟩
        cases less
  | succ rounds ih =>
      rcases attempt_round sdk range m with ⟨through, n, ran, key⟩ | ⟨fails, n, ran, same⟩
      · rw [attempts_of_ok ran, Tape.takesOrder_of_through through, ← key]
        constructor
        · rintro ⟨_, ok, order⟩
          cases ok
          exact order
        · exact fun order => ⟨n, rfl, order⟩
      · rw [attempts_of_error ran, Tape.takesOrder_of_not_through fails, ← same]
        exact ih

/-- What is not sound of a run is the order as the key of the first round that gets through. -/
private theorem nonceSound_iff_takes (m : Mem SignInit) :
    NonceSound sdk secret m ↔ ¬ (InRange secret ∧ (tape m).TakesOrder maxIterations) := by
  rw [nonceSound_iff_key]
  constructor
  · rintro other ⟨range, takes⟩
    obtain ⟨n, ok, order⟩ := (attempts_order_iff sdk range).mpr takes
    exact other n ok order
  · intro none n ok order
    have checked := (attempt_ranges (attempts_ok ok).choose_spec).1
    have range : InRange secret := ⟨Nat.pos_of_ne_zero checked.1, checked.2⟩
    exact none ⟨range, (attempts_order_iff sdk range).mp ⟨n, ok, order⟩⟩

/-- The preparation is sound exactly if the secret is out of range or the first round that gets
through does not draw the order of the curve. -/
theorem nonce_sound_iff (sdk : Sdk) (secret : Bytes 32) (table : TokenTable) (faults : List Bool)
    (init : SignInit) :
    NonceSound sdk secret ⟨faults, table, init⟩ ↔
      (InRange secret → ¬ Tape.TakesOrder ⟨faults, init.draws⟩ maxIterations) :=
  (nonceSound_iff_takes _).trans not_and

/-- The order of the curve as the generator may yield it. -/
def orderKey : Bytes 32 := ⟨BigEndian.write 32 secp256k1N, BigEndian.length_write ..⟩

/-- The SDK that answers zeros. -/
def zeroSdk : Sdk where
  blake2b256 _ := .zero 32
  hmacSha256 _ _ := .zero 32
  deriveBip32 _ := (.zero 32, .zero 32)
  scalarMult _ := .zero 65
  base58Encode _ := ""

/-- With the secret 1 and no failing SDK call the order is returned as the key. -/
theorem nonce_order_accepted :
    ¬ NonceSound zeroSdk ⟨BigEndian.write 32 1, BigEndian.length_write ..⟩
      ⟨List.replicate 6 false, .empty, ⟨[orderKey], .zero 32, []⟩⟩ := by
  have order : BigEndian.value orderKey.val = secp256k1N := BigEndian.value_write_of_lt (by decide)
  have range : InRange ⟨BigEndian.write 32 1, BigEndian.length_write ..⟩ := by
    rw [InRange, BigEndian.value_write_of_lt (by decide)]
    decide
  intro sound
  apply (nonceSound_iff_takes _).mp sound
  have through : Tape.GetsThrough ⟨List.replicate 6 false, [orderKey]⟩ := by
    refine ⟨by decide, ?_, order.le⟩
    rw [Tape.draw, List.headD_cons, order]
    decide
  exact ⟨range, 0, by decide, fun _ none => absurd none (Nat.not_lt_zero _), through, order⟩

end LedgerErgo.Ergo.Schnorr
