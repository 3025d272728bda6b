import LedgerErgo.Commands.SignTx.AmountsExact

/-! # Token indices and token ids

An output names its tokens by their place among the distinct ids, and the index is what is
hashed. The ids are hashed in the header, before any output. They stay the first entries of
the token table whatever the input frames append behind them, and every entry of an output
is charged and shown under the id that was hashed at its index.
-/

namespace LedgerErgo.SignTx

open LedgerErgo.Common LedgerErgo.Ergo LedgerErgo.Prog
open TxSerTable (idBytes)

/-- The entries of an output under the ids they stand for. -/
def paid (ids : List ErgoId) (entries : List BoxToken) : List InputToken :=
  entries.map fun entry => (refId ids entry.ref, entry.amount)

/-- What a call with the token entries of an output does: every entry is an index among the
    distinct ids, the indices and the amounts are hashed, and each amount is charged and shown
    where the table finds the id of that index. -/
structure EntriesAgree (ids : List ErgoId) (entries : List BoxToken) (s t : Op) : Prop where
  within : ∀ entry ∈ entries, ∃ index, entry.ref = .index index ∧ index.toNat < ids.length
  hashed : s.ctx.txHash ++ entries.flatMap BoxToken.bytes <+: t.ctx.txHash
  found : ∀ token ∈ paid ids entries, ∃ i, t.ctx.tokensTable.findTokenIndex token.1 = some i
  charged : ∀ id i, t.ctx.tokensTable.findTokenIndex id = some i →
    (t.ctx.mem.amounts.tokens[i]?.getD 0).toInt =
      (s.ctx.mem.amounts.tokens[i]?.getD 0).toInt - amountOf id (paid ids entries)
  shown : ∀ id i, t.ctx.tokensTable.findTokenIndex id = some i →
    (t.ctx.mem.output.tokens[i]?.getD 0).toNat =
      (s.ctx.mem.output.tokens[i]?.getD 0).toNat + amountOf id (paid ids entries)

/-- What holds of the distinct ids once they were sent. -/
structure IdsAgree (sdk : Sdk) [UnionLayout OpMem] (base : List UInt8) (networkId : UInt8)
    (calls : List OpCall) (ids : List ErgoId) (t : Op) : Prop where
  /-- They are the ids in the header. -/
  sent : (OpCall.upload sdk networkId calls).tokenIds = idBytes ids
  declared : (OpCall.declared calls).tokens.toNat = ids.length
  /-- The header is hashed before the first output. -/
  header : t.ctx.tx.PastHeader →
    base ++ (OpCall.upload sdk networkId calls).header (OpCall.declared calls) <+: t.ctx.txHash
  distinct : t.ctx.tx.tableCtx.distinctTokensCount.toNat = ids.length
  first : t.ctx.tokensTable.tokens.take ids.length = ids
  /-- They stay where they are. -/
  stays : ∀ more t', runAll (OpCall.run sdk) more t = .ok () t' →
    t'.ctx.tokensTable.tokens.take ids.length = ids ∧
      t'.ctx.tx.tableCtx.distinctTokensCount.toNat = ids.length
  entries : ∀ data t', addOutputTokens data t = .ok () t' →
    ∃ entries : List BoxToken, data = entries.flatMap BoxToken.raw ∧ EntriesAgree ids entries t t'

theorem amountOf_append (id : ErgoId) (tokens more : List InputToken) :
    amountOf id (tokens ++ more) = amountOf id tokens + amountOf id more := by
  simp [amountOf, total]

/-- The entries of an output are posted one after the other. -/
theorem Ledger.postAll_outputTokens {ledger : Ledger} {tokens : List InputToken} :
    (ledger.postAll (tokens.map .outputToken)).outputTokens = ledger.outputTokens ++ tokens ∧
      (ledger.postAll (tokens.map .outputToken)).boxTokens = ledger.boxTokens ++ tokens ∧
      (ledger.postAll (tokens.map .outputToken)).inputTokens = ledger.inputTokens := by
  induction tokens generalizing ledger with
  | nil => simp [postAll]
  | cons token tokens ih =>
      obtain ⟨out, box, input⟩ := @ih (ledger.post (.outputToken token))
      refine ⟨?_, ?_, input⟩
      · exact out.trans (by simp [post])
      · exact box.trans (by simp [post])

namespace Session

variable {sdk : Sdk} [UnionLayout OpMem] {base : List UInt8} {networkId : UInt8}
  {calls : List OpCall} {s t : Op} {u : Unit}

/-- A call with token entries, in the output phase. -/
theorem outputTokens {data : Buffer} (session : Session sdk base networkId calls s)
    (ok : addOutputTokens data s = .ok u t) :
    ∃ entries : List BoxToken, data = entries.flatMap BoxToken.raw ∧
      EntriesAgree (Ledger.ofCalls calls).ids entries s t := by
  have about : (OutputCall.tokens data).part s.ctx.networkId = some (.tokens data) := rfl
  have ran : OutputCall.run sdk (.tokens data) s = .ok u t := ok
  have ran' : OpCall.run sdk (.output (.tokens data)) s = .ok u t := ok
  obtain ⟨state, r, v, full, -, left⟩ := OutputCall.part_eq about ran
  have started : s.ctx.state ≠ .initialized := by simp [state]
  have grown : Grows s.ser v := (Grows.boxCall _ full).1
  obtain ⟨txState, w, call, rfl⟩ := BoxCall.full_ok.mp full
  have txState : s.ctx.tx.state = .outputsStarted := txState
  obtain ⟨known, distinct⟩ := session.ids started (by simp [txState])
  obtain ⟨-, entries, rfl, -, fits, m, -, -, rfl⟩ := TxSerBox.addTokens_ok.mp call
  have byIndex : ∀ entry ∈ entries, entry.ref.isId = false :=
    fun entry here => (fits entry here).isId
  have next := (session.step ran').1
  have ledger : Ledger.ofCalls (calls ++ [.output (.tokens (entries.flatMap BoxToken.raw))]) =
      (Ledger.ofCalls calls).postAll
        ((paid (Ledger.ofCalls calls).ids entries).map .outputToken) := by
    rw [Ledger.ofCalls_concat, Ledger.addCall, Ledger.postings, readEntries_raw byIndex le_rfl,
      paid, List.map_map]
    rfl
  have books' := next.books
  rw [ledger] at books'
  obtain ⟨out, box, input⟩ := @Ledger.postAll_outputTokens (Ledger.ofCalls calls)
    (paid (Ledger.ofCalls calls).ids entries)
  have table : t.ctx.tokensTable.Extends s.ctx.tokensTable := by
    rw [← left]
    exact grown.table
  -- the books before the call, with the table as it is after it
  have books : Books (Ledger.ofCalls calls) { s.mem with table := t.ctx.tokensTable } :=
    session.books.extend table rfl
  refine ⟨entries, rfl, ?_, ?_, ?_, ?_, ?_⟩
  · intro entry here
    have fit := fits entry here
    cases ref : entry.ref with
    | id id =>
        rw [ref] at fit
        exact fit.elim
    | index index =>
        rw [ref] at fit
        exact ⟨index, rfl, distinct ▸ fit⟩
  · rw [← left]
    simp only [OutputCall.after, Op.setSer, TxSerFull.afterBox]
    rw [← List.append_assoc]
    exact List.prefix_append _ _
  · intro token here
    apply TokenTable.findTokenIndex_of_mem
    apply books'.knownOut
    rw [out]
    exact List.mem_append_right _ here
  · intro id i found
    have before := books.tokens.found id i found
    have after := books'.tokens.found id i found
    simp only [Ledger.net, out, input, amountOf_append] at before after
    have same : t.mem.cb.amounts = t.ctx.mem.amounts := rfl
    have same' : s.mem.cb.amounts = s.ctx.mem.amounts := rfl
    rw [same] at after
    rw [same'] at before
    omega
  · intro id i found
    have before := books.boxTokens.found id i found
    have after := books'.boxTokens.found id i found
    simp only [box, amountOf_append] at before after
    have same : t.mem.cb.output = t.ctx.mem.output := rfl
    have same' : s.mem.cb.output = s.ctx.mem.output := rfl
    rw [same] at after
    rw [same'] at before
    omega

end Session

section Sessions

variable {sdk : Sdk} [UnionLayout OpMem] {path : Bip32Path} {networkId : UInt8} {supply : Supply}
  {s t : Op}

/-- In every session that is accepted the token table has at most a hundred entries, and once
    the distinct ids were sent, index and id agree. -/
theorem token_index_agrees {calls : List OpCall}
    (begun : init sdk path networkId (.zero supply) = .ok () s)
    (ok : runAll (OpCall.run sdk) calls s = .ok () t) :
    t.ctx.tokensTable.count ≤ 100 ∧
      (t.ctx.state ≠ .initialized → t.ctx.tx.state ≠ .tokensStarted →
        IdsAgree sdk s.ctx.txHash networkId calls (Ledger.ofCalls calls).ids t) := by
  have session : Session sdk s.ctx.txHash networkId calls t := ((Session.begin begun).run ok).1
  refine ⟨t.ctx.tokensTable.bounded, ?_⟩
  intro started later
  obtain ⟨-, headed⟩ := session.headed started
  obtain ⟨known, length⟩ := session.ids started later
  refine ⟨session.sent, ?_, ?_, length.symm, ?_, ?_, ?_⟩
  · rw [length]
    exact congrArg UInt8.toNat (headed.table later).distinct.symm
  · intro past
    exact (headed.past past).2
  · exact (List.prefix_iff_eq_take.mp known).symm
  · intro more t' more_ok
    have grown := OpCall.grows_run started later more_ok
    have table : t'.ctx.tokensTable.Extends t.ctx.tokensTable := grown.table
    refine ⟨?_, ?_⟩
    · exact (List.prefix_iff_eq_take.mp (known.trans table)).symm
    · rw [length]
      exact congrArg (fun ctx => ctx.distinctTokensCount.toNat) grown.distinct
  · intro data t' more_ok
    exact session.outputTokens more_ok

end Sessions

namespace OneToken

/-- A layout in which the union reads as zero bytes when its other member was written. -/
local instance tokenIndexLayout : UnionLayout OpMem := ⟨fun _ => .zero OpMem, fun _ => .zero OpMem⟩

theorem token_index_agrees_calls :
    done.ctx.tokensTable.count ≤ 100 ∧
      IdsAgree sdk begun.ctx.txHash 0 calls (Ledger.ofCalls calls).ids done := by
  have started : done.ctx.state ≠ .initialized := by decide +kernel
  have later : done.ctx.tx.state ≠ .tokensStarted := by decide +kernel
  have both := token_index_agrees begun_ok calls_ok
  exact ⟨both.1, both.2 started later⟩

end OneToken

end LedgerErgo.SignTx
