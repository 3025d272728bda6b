import LedgerErgo.Common.Gve
import LedgerErgo.Ergo.SerState

/-! # Serializer of the distinct token ids

The host sends the distinct ids of a transaction first. They are collected at the
start of the token table and hashed later, after the inputs; by then the input
frames may have appended more ids behind them.
-/

namespace LedgerErgo.Ergo

open LedgerErgo.Common LedgerErgo.Prog

/-- The error codes of `ergo_tx_serializer_table_result_e`. -/
inductive TableErr where
  | badTokenId | tooManyTokens | hasher | buffer
deriving Repr, DecidableEq

/-- The two codes that are not errors. -/
inductive Progress where
  | ok | moreData
deriving Repr, DecidableEq

/-- `ergo_tx_serializer_table_context_t`; the table it points to is in the memory. -/
structure TableCtx where
  distinctTokensCount : UInt8
  bounded : distinctTokensCount.toNat ≤ tokenMaxCount

/-- A zeroed context. -/
def TableCtx.zero : TableCtx := ⟨0, Nat.zero_le _⟩

/-- The table context has no error state. -/
instance : Failable TableCtx := ⟨id⟩

namespace TxSerTable

variable {σ : Type}

/-- Append an id to the table of the memory. -/
def pushToken (id : ErgoId) (tokensMax : Nat) (bounded : tokensMax ≤ tokenMaxCount) :
    EStateM TableErr (Mem σ) Unit := do
  let mem ← get
  if room : mem.table.count < tokensMax then
    set { mem with table := mem.table.push id (Nat.lt_of_lt_of_le room bounded) }
  else throw .tooManyTokens

/-- `parse_token`: the slot is taken even when the buffer does not hold an id. -/
def parseToken (tokens : Buffer) : EStateM TableErr (SerState TableCtx σ) Buffer := do
  let ctx ← getCtx
  match bufferReadBytes 32 tokens with
  | some (id, rest) =>
      onMem (pushToken id ctx.distinctTokensCount.toNat ctx.bounded)
      return rest
  | none =>
      onMem (pushToken (Bytes.zero 32) ctx.distinctTokensCount.toNat ctx.bounded)
      throw .badTokenId

/-- `ergo_tx_serializer_table_init` -/
def init (tokensCount : UInt8) : EStateM TableErr (SerState TableCtx σ) Unit := do
  if bounded : tokensCount.toNat ≤ tokenMaxCount then
    let s ← get
    require (s.mem.table.count = 0) .tooManyTokens
    modifyCtx fun _ => ⟨tokensCount, bounded⟩
  else throw .tooManyTokens

/-- `ergo_tx_serializer_table_is_finished` -/
def isFinished (ctx : TableCtx) (table : TokenTable) : Bool :=
  ctx.distinctTokensCount.toNat ≤ table.count

/-- `ergo_tx_serializer_table_add` -/
def add (tokens : Buffer) : EStateM TableErr (SerState TableCtx σ) Progress := do
  whileData parseToken tokens.length tokens
  let s ← get
  return if isFinished s.ctx s.mem.table then .ok else .moreData

/-- The loop of `ergo_tx_serializer_table_hash` over the slots `i, …, i + n - 1`. -/
def hashSlots (i : Nat) : Nat → EStateM TableErr (SerState TableCtx σ) Unit
  | 0 => pure ()
  | n + 1 => do
      let s ← get
      hashUpdate .hasher (s.mem.table.slot i).val
      hashSlots (i + 1) n

/-- `ergo_tx_serializer_table_hash` -/
def hash : EStateM TableErr (SerState TableCtx σ) Unit := do
  let ctx ← getCtx
  let count ← orFail (RwBuffer.scratch 10 (gvePutU32 · ctx.distinctTokensCount.toUInt32)) .buffer
  hashUpdate .hasher count
  hashSlots 0 ctx.distinctTokensCount.toNat

/-! ## What the calls do -/

/-- The bytes of the ids in a list, one after the other. -/
def idBytes (ids : List ErgoId) : List UInt8 := ids.flatMap Subtype.val

theorem length_idBytes (ids : List ErgoId) : (idBytes ids).length = 32 * ids.length := by
  induction ids with
  | nil => rfl
  | cons id ids ih =>
      rw [idBytes, List.flatMap_cons, List.length_append, id.property, ← idBytes, ih,
        List.length_cons]
      omega

theorem pushToken_ok {id : ErgoId} {tokensMax : Nat} {bounded : tokensMax ≤ tokenMaxCount}
    {m n : Mem σ} {u : Unit} :
    pushToken id tokensMax bounded m = .ok u n ↔
      ∃ room : m.table.count < tokensMax,
        { m with table := m.table.push id (Nat.lt_of_lt_of_le room bounded) } = n := by
  unfold pushToken
  by_cases room : m.table.count < tokensMax <;> simp [room]

theorem init_ok {tokensCount : UInt8} {s t : SerState TableCtx σ} {u : Unit} :
    init tokensCount s = .ok u t ↔
      ∃ bounded : tokensCount.toNat ≤ tokenMaxCount, s.mem.table.count = 0 ∧
        { s with ctx := ⟨tokensCount, bounded⟩ } = t := by
  unfold init
  by_cases bounded : tokensCount.toNat ≤ tokenMaxCount <;> simp [bounded]

/-- One round of the loop of `add`: take an id and append it. -/
def addToken (id : ErgoId) : EStateM TableErr (SerState TableCtx σ) Unit := do
  let ctx ← getCtx
  onMem (pushToken id ctx.distinctTokensCount.toNat ctx.bounded)

theorem parseToken_ok {tokens rest : Buffer} {s t : SerState TableCtx σ} :
    parseToken tokens s = .ok rest t ↔
      ∃ id : ErgoId, tokens = id.val ++ rest ∧ addToken id s = .ok () t := by
  simp only [← bufferReadBytes_eq_some, parseToken, addToken]
  cases read : bufferReadBytes 32 tokens with
  | none => simp
  | some found =>
      obtain ⟨id, after⟩ := found
      simp only [bind_ok, exists_unit, getCtx_ok, onMem_ok, pure_ok, Option.some.injEq,
        Prod.mk.injEq, and_assoc, exists_and_left, exists_eq_left']
      constructor
      · rintro ⟨_, ⟨m, pushed, rfl⟩, rfl, rfl⟩
        exact ⟨rfl, m, pushed, rfl⟩
      · rintro ⟨rfl, m, pushed, rfl⟩
        exact ⟨_, ⟨m, pushed, rfl⟩, rfl, rfl⟩

/-- The rounds of the loop together append the ids in order. -/
theorem addTokens_ok {ids : List ErgoId} {s t : SerState TableCtx σ}
    (fits : s.mem.table.count ≤ s.ctx.distinctTokensCount.toNat) :
    runAll addToken ids s = .ok () t ↔
      ∃ room : s.mem.table.count + ids.length ≤ s.ctx.distinctTokensCount.toNat,
        { s with mem := { s.mem with
          table := s.mem.table.append ids (room.trans s.ctx.bounded) } } = t := by
  induction ids generalizing s with
  | nil => simp [runAll_nil_ok, TokenTable.append, fits]
  | cons id ids ih =>
      have step : ∀ m, addToken id s = .ok () m ↔
          ∃ room : s.mem.table.count < s.ctx.distinctTokensCount.toNat,
            { s with mem := { s.mem with
              table := s.mem.table.push id (room.trans_le s.ctx.bounded) } } = m := by
        simp [addToken, pushToken_ok]
      have merge : ∀ room room' room'', (s.mem.table.push id room).append ids room' =
          s.mem.table.append (id :: ids) room'' := by
        simp [TokenTable.push, TokenTable.append]
      have count : ∀ room, (s.mem.table.push id room).count = s.mem.table.count + 1 := by
        simp [TokenTable.push, TokenTable.count]
      rw [runAll_cons_ok]
      constructor
      · rintro ⟨_, m, first, others⟩
        obtain ⟨room, rfl⟩ := (step m).mp first
        obtain ⟨room', rfl⟩ := (ih (by simpa [count] using room)).mp others
        refine ⟨?_, by rw [merge]⟩
        simp only [count, List.length_cons] at room' ⊢
        omega
      · rintro ⟨room, rfl⟩
        rw [List.length_cons] at room
        refine ⟨(), _, (step _).mpr ⟨by omega, rfl⟩, (ih ?_).mpr ⟨?_, by rw [merge]⟩⟩
        all_goals
          simp only [count]
          omega

theorem add_ok {tokens : Buffer} {s t : SerState TableCtx σ} {r : Progress}
    (fits : s.mem.table.count ≤ s.ctx.distinctTokensCount.toNat) :
    add tokens s = .ok r t ↔
      ∃ ids : List ErgoId, tokens = idBytes ids ∧
      ∃ room : s.mem.table.count + ids.length ≤ s.ctx.distinctTokensCount.toNat,
        { s with mem := { s.mem with
          table := s.mem.table.append ids (room.trans s.ctx.bounded) } } = t ∧
        (if isFinished t.ctx t.mem.table then .ok else .moreData) = r := by
  have items := @whileData_ok TableErr (SerState TableCtx σ) ErgoId UInt8 parseToken Subtype.val
    addToken (fun id => List.ne_nil_of_length_pos (by simp)) (fun _ _ _ _ => parseToken_ok)
  simp only [add, bind_ok, exists_unit, items le_rfl, get_ok, pure_ok, and_assoc, exists_and_left,
    exists_eq_left']
  constructor
  · rintro ⟨_, ⟨ids, split, pushes⟩, rfl, rfl⟩
    obtain ⟨room, rfl⟩ := (addTokens_ok fits).mp pushes
    exact ⟨ids, split, room, rfl, rfl⟩
  · rintro ⟨ids, split, room, rfl, rfl⟩
    exact ⟨_, ⟨ids, split, (addTokens_ok fits).mpr ⟨room, rfl⟩⟩, rfl, rfl⟩

theorem hashSlots_ok {i n : Nat} {s t : SerState TableCtx σ} {u : Unit} :
    hashSlots i n s = .ok u t ↔
      ∃ m, sdkCalls TableErr.hasher n s.mem = .ok () m ∧
        ⟨s.ctx, s.hash ++ idBytes ((List.range' i n).map s.mem.table.slot), m⟩ = t := by
  induction n generalizing i s with
  | zero => simp [hashSlots, sdkCalls, idBytes]
  | succ n ih =>
      simp only [hashSlots, bind_ok, exists_unit, get_ok, hashUpdate_ok, ih, sdkCalls, and_assoc,
        exists_and_left, exists_eq_left']
      constructor
      · rintro ⟨_, ⟨m, first, rfl⟩, k, others, rfl⟩
        refine ⟨k, ⟨m, first, others⟩, ?_⟩
        simp [(sdkCall_frame first).1, List.range'_succ, idBytes]
      · rintro ⟨k, ⟨m, first, others⟩, rfl⟩
        refine ⟨_, ⟨m, first, rfl⟩, k, others, ?_⟩
        simp [(sdkCall_frame first).1, List.range'_succ, idBytes]

theorem hash_ok {s t : SerState TableCtx σ} {u : Unit} :
    hash s = .ok u t ↔
      ∃ m, sdkCalls TableErr.hasher (s.ctx.distinctTokensCount.toNat + 1) s.mem = .ok () m ∧
        ⟨s.ctx, s.hash ++ vlq s.ctx.distinctTokensCount.toNat ++
          idBytes ((List.range s.ctx.distinctTokensCount.toNat).map s.mem.table.slot), m⟩ = t := by
  simp only [hash, bind_ok, exists_unit, getCtx_ok, scratch_gvePutU32, orFail_ok,
    Option.some.injEq, hashUpdate_ok, hashSlots_ok, sdkCalls, List.range_eq_range',
    UInt8.toNat_toUInt32, and_assoc, exists_and_left, exists_eq_left']
  constructor
  · rintro ⟨_, ⟨m, first, rfl⟩, k, others, rfl⟩
    exact ⟨k, ⟨m, first, others⟩, by rw [(sdkCall_frame first).1]⟩
  · rintro ⟨k, ⟨m, first, others⟩, rfl⟩
    exact ⟨_, ⟨m, first, rfl⟩, k, others, by rw [(sdkCall_frame first).1]⟩

end TxSerTable

end LedgerErgo.Ergo
