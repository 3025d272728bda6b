import LedgerErgo.Commands.SignTx.Session

/-! # The amounts of a session are exact

A session begins with an operation that was just initialized. In every session the code
accepts, the amounts of the operation are the totals of what was sent, as numbers without
a bound, and the tokens are counted under the ids that were hashed.
-/

namespace LedgerErgo.SignTx

open LedgerErgo.Common LedgerErgo.Ergo LedgerErgo.Prog
open TxSerTable (idBytes)

/-- The operation before it is initialized. -/
def Op.zero (supply : Supply) : Op := ⟨.zero, supply⟩

section Sessions

variable {sdk : Sdk} {path : Bip32Path} {networkId : UInt8} {supply : Supply} {s t : Op}

/-- The initialization leaves the amounts, the output and the token table as they are. -/
theorem init_frame {s t : Op} {u : Unit} (ok : init sdk path networkId s = .ok u t) :
    t.ctx.state = .initialized ∧ t.ctx.networkId = networkId ∧ t.ctx.mem = s.ctx.mem ∧
      t.ctx.tokensTable = s.ctx.tokensTable := by
  simp only [init, bind_ok, exists_unit, ensure_ok, modifyOp_ok, zoom_ok] at ok
  obtain ⟨_, ⟨-, rfl⟩, _, ⟨-, rfl⟩, _, ⟨m, quiet, rfl⟩, inited, _, ⟨v, -, rfl⟩, _, ⟨-, rfl⟩, rfl⟩ :=
    ok
  obtain ⟨table, cb⟩ := sdkCalls_frame quiet
  exact ⟨rfl, rfl, cb, table⟩

/-- A session begins. -/
theorem Session.begin (begun : init sdk path networkId (.zero supply) = .ok () s) :
    Session sdk s.ctx.txHash networkId [] s := by
  obtain ⟨state, network, mem, table⟩ := init_frame begun
  have books : Books .empty s.mem := by
    have empty : Books .empty ⟨s.supply.faults, TokenTable.empty, OpCtx.zero.mem⟩ :=
      Books.empty rfl rfl
    rw [Op.mem, table, mem]
    exact empty
  refine ⟨network, books, rfl, ?_, fun started => (started state).elim, ?_, ?_⟩
  · intro _
    rw [mem]
    exact ⟨rfl, rfl, rfl⟩
  · intro here
    simp [state] at here
  · intro here
    simp [state] at here

variable [UnionLayout OpMem]

/-- The amounts of the operation are the totals of the ledger; a slot in which the table does
    not find its own id is zero. -/
structure AmountsExact (ledger : Ledger) (op : Op) : Prop where
  fee : (op.ctx.mem.amounts.fee.toNat : Int) = total ledger.fees
  value : (op.ctx.mem.amounts.value.toNat : Int) =
    total ledger.inputs - total ledger.change - total ledger.fees
  tokens : ∀ id i, op.ctx.tokensTable.findTokenIndex id = some i →
    (op.ctx.mem.amounts.tokens[i]?.getD 0).toInt =
      amountOf id ledger.inputTokens - amountOf id ledger.outputTokens
  others : ∀ i, op.ctx.tokensTable.findTokenIndex (op.ctx.tokensTable.slot i) ≠ some i →
    (op.ctx.mem.amounts.tokens[i]?.getD 0).toInt = 0

/-- In every session that is accepted the amounts are exact, and no total ever left the range
    of its number, whatever was sent in which order. -/
theorem amounts_exact {calls : List OpCall}
    (begun : init sdk path networkId (.zero supply) = .ok () s)
    (ok : runAll (OpCall.run sdk) calls s = .ok () t) :
    AmountsExact (Ledger.ofCalls calls) t ∧
      ∀ early call late, calls = early ++ call :: late →
        (Ledger.ofCalls early).StaysInRange ((Ledger.ofCalls early).postings call) := by
  obtain ⟨session, ranges⟩ := (Session.begin begun).run ok
  have books := session.books
  refine ⟨⟨?_, ?_, books.tokens.found, ?_⟩, ranges⟩
  · exact congrArg Nat.cast books.fee
  · have value := books.value
    have same : t.mem.cb.amounts = t.ctx.mem.amounts := rfl
    rw [same] at value
    simp only [List.nil_append] at value
    omega
  · intro i alone
    apply books.tokens.zero
    intro id found
    have slot : t.ctx.tokensTable.slot i = id := (TokenTable.findTokenIndex_some found).2
    rw [slot] at alone
    exact alone found

end Sessions

namespace OneToken

/-- A layout in which the union reads as zero bytes when its other member was written. -/
local instance amountsExactLayout : UnionLayout OpMem := ⟨fun _ => .zero OpMem, fun _ => .zero OpMem⟩

/-- The number one. -/
def one : Bytes 32 := ⟨BigEndian.write 32 1, by decide⟩

/-- An SDK in which every path has the same key. -/
def sdk : Sdk where
  blake2b256 := fun _ => Bytes.zero 32
  hmacSha256 := fun _ _ => Bytes.zero 32
  deriveBip32 := fun _ => (one, Bytes.zero 32)
  scalarMult := fun _ => Bytes.zero 65
  base58Encode := fun _ => ""

/-- The first address of the first account. -/
def path : Bip32Path := ⟨[bip32Hardened 44, bip32Hardened 429, bip32Hardened 0, 0, 0], by decide⟩

/-- The operation right after its initialization. -/
def begun : Op := final (init sdk path 0 (.zero ⟨[], [], [one]⟩))

/-- An input with five units of a token, three of them sent on, and the miners fee. -/
def calls : List OpCall :=
  [.startTx 1 0 2 1, .addTokens (List.replicate 32 7), .addInput (Bytes.zero 32) 10 1 0,
    .addInputTokens (Bytes.zero 32) 0 (List.replicate 32 7 ++ u64Bytes 5),
    .output (.add 8 36 1 1 0), .output (.treeChunk (List.replicate 36 0)),
    .output (.tokens (u32Bytes 0 ++ u64Bytes 3)), .output (.add 2 105 1 0 0), .output .treeFee]

theorem begun_ok : init sdk path 0 (.zero ⟨[], [], [one]⟩) = .ok () begun :=
  eq_ok_of_succeeds (by decide +kernel)

/-- The operation after these calls. -/
def done : Op := final (runAll (OpCall.run sdk) calls begun)

theorem calls_ok : runAll (OpCall.run sdk) calls begun = .ok () done :=
  eq_ok_of_succeeds (by decide +kernel)

theorem amounts_exact_calls :
    AmountsExact (Ledger.ofCalls calls) done ∧
      ∀ early call late, calls = early ++ call :: late →
        (Ledger.ofCalls early).StaysInRange ((Ledger.ofCalls early).postings call) :=
  amounts_exact begun_ok calls_ok

end OneToken

end LedgerErgo.SignTx
