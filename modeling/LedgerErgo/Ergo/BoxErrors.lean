import LedgerErgo.Ergo.SerErrors

/-! # Errors of the box serializer

A box in its error state answers every call but the one that starts a new box with a bad state,
and nothing happens. Every call that fails leaves this state behind, with one exception: an
entry that is too short for the index of a token is reported without marking the box, so the box
goes on.
-/

namespace LedgerErgo.Ergo

open LedgerErgo.Common LedgerErgo.Prog TxSerBox

variable {σ : Type}

/-- A call of the box serializer. -/
inductive SerBoxCall where
  | init (value : UInt64) (ergoTreeSize creationHeight : UInt32) (tokensCount : UInt8)
      (registersSize : UInt32)
  | addTree (chunk : Buffer)
  | addMinersFeeTree (isMainnet : Bool)
  | addChangeTree (rawPublicKey : PublicKey)
  | addTokens (input : Buffer) (table : Option TableCtx)
  | addRegisters (chunk : Buffer)
  | idHash (txId : ErgoId) (boxIndex : UInt16)

namespace SerBoxCall

/-- The call starts a new box. -/
def Starts : SerBoxCall → Prop
  | .init .. => True
  | _ => False

/-- Make the call; its answer is dropped if it is no error. -/
def run (blake2b256 : List UInt8 → ErgoId) : SerBoxCall →
    EStateM BoxErr (SerState (BoxCtx σ) σ) Unit
  | .init value ergoTreeSize creationHeight tokensCount registersSize =>
      TxSerBox.init value ergoTreeSize creationHeight tokensCount registersSize
  | .addTree chunk => do let _ ← TxSerBox.addTree chunk
  | .addMinersFeeTree isMainnet => TxSerBox.addMinersFeeTree isMainnet
  | .addChangeTree rawPublicKey => TxSerBox.addChangeTree rawPublicKey
  | .addTokens input table => do let _ ← TxSerBox.addTokens input table
  | .addRegisters chunk => do let _ ← TxSerBox.addRegisters chunk
  | .idHash txId boxIndex => do let _ ← TxSerBox.idHash blake2b256 txId boxIndex

/-- After some calls, whether they succeed or fail. -/
def runs (blake2b256 : List UInt8 → ErgoId) (s : SerState (BoxCtx σ) σ) (calls : List SerBoxCall) :
    SerState (BoxCtx σ) σ := calls.foldl (fun s call => final (call.run blake2b256 s)) s

/-- The box is in its error state and stays in it: whatever calls come before, a call that does
not start a new box answers with a bad state and leaves the box, the hash and the memory of the
callbacks as they were when the error occurred. -/
structure Dead (blake2b256 : List UInt8 → ErgoId) (t : SerState (BoxCtx σ) σ) : Prop where
  state : t.ctx.state = .error
  later : ∀ (before : List SerBoxCall) (call : SerBoxCall), (∀ c ∈ before, ¬ c.Starts) →
    ¬ call.Starts → call.run blake2b256 (runs blake2b256 t before) = .error .badState t

/-- If the call fails, the box is dead. -/
def Sticky (blake2b256 : List UInt8 → ErgoId) (call : SerBoxCall) (s : SerState (BoxCtx σ) σ) : Prop :=
  ∀ e t, call.run blake2b256 s = .error e t → Dead blake2b256 t

/-- Behind some entries that are taken, one to three bytes are left of the input where another
token is expected. -/
def Torn (input : Buffer) (s : SerState (BoxCtx σ) σ) (table : TableCtx) : Prop :=
  s.ctx.state = .treeAdded ∧
    ∃ (tokens : List BoxToken) (rest : Buffer), input = tokens.flatMap BoxToken.raw ++ rest ∧
      rest ≠ [] ∧ rest.length < 4 ∧ tokens.length < s.ctx.tokensCount.toNat ∧
      (∀ token ∈ tokens, token.ref.Fits (some table)) ∧
      ∃ m, runAll (tokenEffect s.ctx) tokens s.mem = .ok () m

/-- The call ends inside the index of a token. -/
def TornEntry (s : SerState (BoxCtx σ) σ) : SerBoxCall → Prop
  | .addTokens input (some table) => Torn input s table
  | _ => False

variable {blake2b256 : List UInt8 → ErgoId} {s t : SerState (BoxCtx σ) σ} {e : BoxErr}

/-! ## The error state -/

private theorem failed_of_error {ctx : BoxCtx σ} (dead : ctx.state = .error) :
    Failable.failed ctx = ctx := by
  cases ctx
  cases dead
  rfl

private theorem require_bind_dead {α : Type} {state : BoxState}
    {next : Unit → EStateM BoxErr (SerState (BoxCtx σ) σ) α} (dead : s.ctx.state = .error)
    (other : state ≠ .error) :
    (require (s.ctx.state = state) .badState >>= next) s = .error .badState s := by
  have wrong : ¬ s.ctx.state = state := by
    rw [dead]
    exact other.symm
  apply bind_of_error
  rw [require_error]
  exact ⟨wrong, rfl, by rw [failed_of_error dead]⟩

/-- A box in its error state refuses every call on it. -/
theorem run_of_error {call : SerBoxCall} (goes : ¬ call.Starts) (dead : s.ctx.state = .error) :
    call.run blake2b256 s = .error .badState s := by
  cases call with
  | init => exact absurd trivial goes
  | addTree chunk => exact bind_of_error (require_bind_dead dead (by decide))
  | addMinersFeeTree isMainnet => exact require_bind_dead dead (by decide)
  | addChangeTree rawPublicKey => exact require_bind_dead dead (by decide)
  | addTokens input table => exact bind_of_error (require_bind_dead dead (by decide))
  | addRegisters chunk => exact bind_of_error (require_bind_dead dead (by decide))
  | idHash txId boxIndex => exact bind_of_error (require_bind_dead dead (by decide))

theorem dead_of_error (dead : t.ctx.state = .error) : Dead blake2b256 t where
  state := dead
  later := by
    intro before call goes last
    have stays : runs blake2b256 t before = t := by
      induction before with
      | nil => rfl
      | cons first before ih =>
          obtain ⟨head, tail⟩ := List.forall_mem_cons.mp goes
          rw [runs, List.foldl_cons, run_of_error head dead]
          exact ih tail
    rw [stays]
    exact run_of_error last dead

theorem dead_of_marked (marked : t.Marked) : Dead blake2b256 t := by
  obtain ⟨ctx, same⟩ := marked
  apply dead_of_error
  rw [same]
  rfl

/-! ## The entry that is too short -/

theorem marks_init {value : UInt64} {treeSize height : UInt32} {tokensCount : UInt8}
    {registersSize : UInt32} :
    Marks (TxSerBox.init value treeSize height tokensCount registersSize :
      EStateM _ (SerState (BoxCtx σ) σ) _) :=
  .bind .modifyCtx fun _ => .bind .require fun _ => .bind .require fun _ => .bind .require fun _ =>
    .bind .orFail fun _ => .bind .hashUpdate fun _ => .modifyCtx

theorem marks_idHash {txId : ErgoId} {boxIndex : UInt16} :
    Marks (TxSerBox.idHash blake2b256 txId boxIndex : EStateM _ (SerState (BoxCtx σ) σ) _) :=
  .bind .getCtx fun _ => .bind .require fun _ => .bind .hashUpdate fun _ => .bind .orFail fun _ =>
    .bind .hashUpdate fun _ => .bind .onMem fun _ => .bind .modifyCtx fun _ => .bind .get fun _ =>
      .pure

/-- A loop that fails marks the box, unless it ends inside the index of a token. -/
theorem addTokens_error {input : Buffer} {table : Option TableCtx}
    (failed : TxSerBox.addTokens input table s = .error e t) :
    t.Marked ∨ TornEntry s (.addTokens input table) := by
  have entries := @whileData_error_iff BoxErr (SerState (BoxCtx σ) σ) BoxToken UInt8
    (readToken table) BoxToken.raw (takeToken table) BoxToken.raw_ne_nil
    (fun _ _ _ _ => readToken_ok)
  rw [TxSerBox.addTokens, getCtx_bind] at failed
  cases bind_error.mp failed with
  | inl marked => exact .inl (Marks.require s e t marked)
  | inr later =>
      obtain ⟨_, u, checked, failed⟩ := later
      obtain ⟨reading, rfl⟩ := require_ok.mp checked
      cases bind_error.mp failed with
      | inl inside =>
          obtain ⟨tokens, rest, u, split, more, taken, stopped⟩ := (entries le_rfl).mp inside
          cases readToken_error stopped with
          | inl marked => exact .inl marked
          | inr short =>
              obtain ⟨known, count, cut, -⟩ := short
              obtain ⟨table, rfl⟩ := Option.isSome_iff_exists.mp known
              obtain ⟨room, fits, m, ran, rfl⟩ := takeTokens_ok.mp taken
              have left := Counter.toNat_pos8.mp count
              rw [tokensTaken, Counter.toNat_sub_ofNat8 room] at left
              exact .inr ⟨reading, tokens, rest, split, more, cut, by omega, fits, m, ran⟩
      | inr later =>
          obtain ⟨_, u, -, failed⟩ := later
          exact .inl (marks_tokensRead u e t failed)

/-- The round that finds the cut index. -/
private theorem readToken_cut {table : TableCtx} {rest : Buffer} (count : s.ctx.tokensCount ≠ 0)
    (cut : rest.length < 4) : readToken (some table) rest s = .error .badTokenIndex s := by
  have noRef : readTokenRef (some table) rest s = .error .badTokenIndex s := by
    rw [readTokenRef, bufferReadU32_eq_none.mpr cut]
    rfl
  rw [readToken, getCtx_bind, bind_of_ok (a := ()) (require_ok.mpr ⟨count, rfl⟩),
    bind_of_error noRef]

/-- A call that ends inside the index of a token fails and does not mark the box. -/
theorem addTokens_torn {input : Buffer} {table : TableCtx} (torn : Torn input s table) :
    ∃ t, TxSerBox.addTokens input (some table) s = .error .badTokenIndex t ∧
      t.ctx.state = .treeAdded := by
  have entries := @whileData_error_iff BoxErr (SerState (BoxCtx σ) σ) BoxToken UInt8
    (readToken (some table)) BoxToken.raw (takeToken (some table)) BoxToken.raw_ne_nil
    (fun _ _ _ _ => readToken_ok)
  obtain ⟨reading, tokens, rest, split, more, cut, room, fits, m, ran⟩ := torn
  have taken := takeTokens_ok.mpr ⟨room.le, fits, m, ran, rfl⟩
  have count : (tokensTaken s.ctx tokens.length).tokensCount ≠ 0 := by
    apply Counter.toNat_pos8.mpr
    rw [tokensTaken, Counter.toNat_sub_ofNat8 room.le]
    omega
  have stopped := (entries le_rfl).mpr ⟨tokens, rest, _, split, more, taken, readToken_cut count cut⟩
  have failed : TxSerBox.addTokens input (some table) s = .error .badTokenIndex
      ⟨tokensTaken s.ctx tokens.length, s.hash ++ tokens.flatMap BoxToken.bytes, m⟩ := by
    rw [TxSerBox.addTokens, getCtx_bind, bind_of_ok (a := ()) (require_ok.mpr ⟨reading, rfl⟩),
      bind_of_error stopped]
  exact ⟨_, failed, reading⟩

private theorem error_of_drop {α : Type} {call : EStateM BoxErr (SerState (BoxCtx σ) σ) α}
    (failed : (do let _ ← call : EStateM BoxErr (SerState (BoxCtx σ) σ) Unit) s = .error e t) :
    call s = .error e t := by
  cases bind_error.mp failed with
  | inl here => exact here
  | inr later =>
      obtain ⟨a, u, -, never⟩ := later
      cases never

/-- Errors of the box serializer are sticky exactly for the calls that do not end inside the
index of a token. -/
theorem box_errors_sticky_iff (blake2b256 : List UInt8 → ErgoId) (call : SerBoxCall)
    (s : SerState (BoxCtx σ) σ) : Sticky blake2b256 call s ↔ ¬ TornEntry s call := by
  constructor
  · intro sticky torn
    cases call with
    | addTokens input table =>
        cases table with
        | none => exact torn
        | some table =>
            obtain ⟨t, failed, reading⟩ := addTokens_torn torn
            have dead := (sticky .badTokenIndex t (bind_of_error failed)).state
            rw [reading] at dead
            cases dead
    | _ => exact torn
  · intro whole e t failed
    apply dead_of_marked
    cases call with
    | init => exact marks_init s e t failed
    | addTree chunk => exact marks_addTree chunk s e t (error_of_drop failed)
    | addMinersFeeTree isMainnet => exact marks_addWholeTree _ _ s e t failed
    | addChangeTree rawPublicKey => exact marks_addWholeTree _ _ s e t failed
    | addTokens input table =>
        cases addTokens_error (error_of_drop failed) with
        | inl marked => exact marked
        | inr torn => exact absurd torn whole
    | addRegisters chunk => exact marks_addRegisters chunk s e t (error_of_drop failed)
    | idHash txId boxIndex => exact marks_idHash s e t (error_of_drop failed)

/-- A box that waits for its only token. -/
def waiting : SerState (BoxCtx Unit) Unit where
  ctx := { BoxCtx.zero Unit with tokensCount := 1, state := .treeAdded }
  hash := []
  mem := ⟨[], .empty, ()⟩

/-- One byte where an index is expected: the box still waits for its token. -/
theorem box_error_not_sticky :
    ¬ Sticky (fun _ => Bytes.zero 32) (.addTokens [0] (some .zero)) waiting := by
  intro sticky
  have dead := (sticky .badTokenIndex waiting rfl).state
  cases dead

end SerBoxCall

end LedgerErgo.Ergo
