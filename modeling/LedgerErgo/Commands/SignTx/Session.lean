import LedgerErgo.Commands.SignTx.Accounting
import LedgerErgo.Commands.SignTx.OpCalls
import LedgerErgo.Ergo.Transaction

/-! # The run of a session

The ledger of a session is put together from the arguments of its calls. The invariant of a
session says that the operation keeps the books of this ledger, that the distinct ids are
the first ones of the token table, and which member of the serializer's union is in use with
which callbacks.
-/

namespace LedgerErgo.SignTx

open LedgerErgo.Common LedgerErgo.Ergo LedgerErgo.Prog
open TxSerTable (idBytes)

/-! ## What the calls carry -/

/-- The items at the start of a buffer, as many as there are rounds. -/
def readItems {α : Type} (read : Buffer → Option (α × Buffer)) : Nat → Buffer → List α
  | 0, _ => []
  | rounds + 1, input =>
      match read input with
      | none => []
      | some (item, rest) => item :: readItems read rounds rest

/-- Items that were sent are read back. -/
theorem readItems_flatMap {α : Type} {read : Buffer → Option (α × Buffer)} {encode : α → List UInt8}
    (ends : read [] = none) (consumes : ∀ a, encode a ≠ [])
    (reads : ∀ a rest, read (encode a ++ rest) = some (a, rest)) {items : List α} {rounds : Nat}
    (enough : (items.flatMap encode).length ≤ rounds) :
    readItems read rounds (items.flatMap encode) = items := by
  induction items generalizing rounds with
  | nil =>
      cases rounds with
      | zero => rfl
      | succ rounds => simp [readItems, ends]
  | cons item items ih =>
      have positive := List.length_pos_iff.mpr (consumes item)
      simp only [List.flatMap_cons, List.length_append] at enough
      obtain ⟨rounds, rfl⟩ : ∃ k, rounds = k + 1 := ⟨rounds - 1, by omega⟩
      simp only [List.flatMap_cons, readItems, reads, List.cons.injEq, true_and]
      exact ih (by omega)

/-- The next token of an input frame. -/
def readInputToken (input : Buffer) : Option (InputToken × Buffer) := do
  let (id, rest) ← bufferReadBytes 32 input
  let (amount, rest) ← bufferReadU64 rest
  return ((id, amount), rest)

/-- The ids of a payload. -/
def readIds (input : Buffer) : List ErgoId := readItems (bufferReadBytes 32) input.length input

/-- The tokens of an input frame. -/
def readTokens (input : Buffer) : List InputToken := readItems readInputToken input.length input

theorem readIds_idBytes (ids : List ErgoId) : readIds (idBytes ids) = ids :=
  readItems_flatMap rfl (fun id => List.ne_nil_of_length_pos (by simp)) bufferReadBytes_append le_rfl

theorem readTokens_bytes (tokens : List InputToken) :
    readTokens (tokens.flatMap InputToken.bytes) = tokens := by
  refine readItems_flatMap rfl ?_ ?_ le_rfl
  · intro token
    exact List.ne_nil_of_length_pos (by simp [InputToken.bytes])
  · intro token rest
    simp only [readInputToken, InputToken.bytes, List.append_assoc, bufferReadBytes_append,
      bufferReadU64_eq_some.mpr rfl, Option.bind_eq_bind, Option.bind_some, Option.pure_def]

/-! ## The ledger of a session -/

namespace Ledger

/-- The entries a call makes, with what is in the ledger when it is made. -/
def postings (ledger : Ledger) : OpCall → List Posting
  | .startTx .. | .addInputContextExtension _ | .addDataInputs _ => []
  | .addTokens data => [.ids (readIds data)]
  | .addInput _ value _ _ => [.input value]
  | .addInputTokens _ _ tokens => (readTokens tokens).map .inputToken
  | .output (.add value _ _ _ _) => [.output value]
  | .output (.treeChunk _) | .output (.registers _) => []
  | .output .treeFee => [.tree .fee ledger.value]
  | .output (.treeChange _ _) => [.tree .change ledger.value]
  | .output (.tokens data) =>
      (readEntries data.length data).map fun token =>
        .outputToken (refId ledger.ids token.ref, token.amount)

/-- The ledger after a call. -/
def addCall (ledger : Ledger) (call : OpCall) : Ledger := ledger.postAll (ledger.postings call)

/-- The ledger of a session. -/
def ofCalls (calls : List OpCall) : Ledger := calls.foldl addCall empty

theorem ofCalls_concat (calls : List OpCall) (call : OpCall) :
    ofCalls (calls ++ [call]) = (ofCalls calls).addCall call := by
  simp [ofCalls]

/-- Entries about amounts leave the ids and the value of the output. -/
theorem postAll_frame {ledger : Ledger} {postings : List Posting}
    (amounts : ∀ posting ∈ postings, ∀ l : Ledger,
      (l.post posting).ids = l.ids ∧ (l.post posting).value = l.value) :
    (ledger.postAll postings).ids = ledger.ids ∧ (ledger.postAll postings).value = ledger.value := by
  induction postings generalizing ledger with
  | nil => exact ⟨rfl, rfl⟩
  | cons posting postings ih =>
      obtain ⟨ids, value⟩ := amounts posting (by simp) ledger
      have rest := @ih (ledger.post posting) fun p here => amounts p (by simp [here])
      exact ⟨rest.1.trans ids, rest.2.trans value⟩

/-- The ids change with the distinct ids that are sent, and the value with an output. -/
theorem addCall_ids {ledger : Ledger} (call : OpCall) :
    (ledger.addCall call).ids = ledger.ids ++ (match call with
      | .addTokens data => readIds data
      | _ => []) := by
  cases call with
  | addTokens data => rfl
  | startTx | addInput | addInputContextExtension | addDataInputs =>
      simp [addCall, postings, postAll, post]
  | addInputTokens boxId frameIndex tokens =>
      rw [List.append_nil]
      refine (postAll_frame ?_).1
      intro posting here l
      obtain ⟨token, -, rfl⟩ := List.mem_map.mp here
      exact ⟨rfl, rfl⟩
  | output call =>
      cases call with
      | add | treeChunk | treeFee | treeChange | registers =>
          simp [addCall, postings, postAll, post]
      | tokens data =>
          rw [List.append_nil]
          refine (postAll_frame ?_).1
          intro posting here l
          obtain ⟨token, -, rfl⟩ := List.mem_map.mp here
          exact ⟨rfl, rfl⟩

theorem addCall_part_value {ledger : Ledger} {networkId : UInt8} {call : OutputCall} {part : BoxCall}
    (about : call.part networkId = some part) :
    (ledger.addCall (.output call)).value = ledger.value := by
  cases call with
  | add => simp [OutputCall.part] at about
  | treeChunk | treeFee | treeChange | registers => rfl
  | tokens data =>
      refine (postAll_frame ?_).2
      intro posting here l
      obtain ⟨token, -, rfl⟩ := List.mem_map.mp here
      exact ⟨rfl, rfl⟩

theorem postings_part {ledger : Ledger} {networkId : UInt8} {call : OutputCall} {part : BoxCall}
    (about : call.part networkId = some part) :
    ledger.postings (.output call) = partPostings ledger.ids ledger.value part := by
  cases call with
  | add => simp [OutputCall.part] at about
  | treeChunk | treeFee | treeChange | tokens | registers =>
      obtain rfl := Option.some.inj about
      rfl

end Ledger

namespace OpCall

variable {sdk : Sdk} {networkId : UInt8}

/-- The distinct ids are what `add_tokens` sends. -/
theorem upload_tokenIds {calls : List OpCall} (call : OpCall) :
    (upload sdk networkId (calls ++ [call])).tokenIds =
      (upload sdk networkId calls).tokenIds ++ (match call with
        | .addTokens data => data
        | _ => []) := by
  rw [upload_concat]
  cases call with
  | addTokens data => rfl
  | startTx | addInput | addInputTokens | addInputContextExtension | addDataInputs =>
      simp [full, Upload.record]
  | output call =>
      cases call with
      | add | treeChunk | treeFee | treeChange | tokens | registers =>
          simp [full, OutputCall.part, BoxCall.full, Upload.record, Upload.addToBox]

end OpCall

/-! ## The invariant -/

/-- What holds after the calls of a session, which began with these bytes in the hash. -/
structure Session (sdk : Sdk) (base : List UInt8) (networkId : UInt8) (calls : List OpCall)
    (op : Op) : Prop where
  network : op.ctx.networkId = networkId
  books : Books (Ledger.ofCalls calls) op.mem
  sent : (OpCall.upload sdk networkId calls).tokenIds = idBytes (Ledger.ofCalls calls).ids
  begun : op.ctx.state = .initialized → calls = [] ∧ op.ctx.txHash = base ∧
    op.ctx.mem.output.tokens = Vector.replicate tokenMaxCount 0
  headed : op.ctx.state ≠ .initialized → calls ≠ [] ∧
    Headed base (OpCall.declared calls) (OpCall.upload sdk networkId calls) op.ser
  input : op.ctx.state = .inputsStarted → op.ctx.tx.state = .inputsStarted →
    ∃ input, op.ctx.tx.part = .input input ∧ input.onTokenCb = some p2pkInputTokenCb
  box : op.ctx.state = .outputsStarted → ∃ box, op.ctx.tx.part = .box box ∧
    box.callbacks = outputCallbacks sdk ∧ box.value = (Ledger.ofCalls calls).value

theorem idBytes_injective {ids ids' : List ErgoId} (same : idBytes ids = idBytes ids') :
    ids = ids' := by
  have length := congrArg List.length same
  rw [TxSerTable.length_idBytes, TxSerTable.length_idBytes] at length
  refine (idBytes_append_inj ?_ (congrArg (· ++ []) same)).1
  omega

namespace Session

variable {sdk : Sdk} [UnionLayout OpMem] {base : List UInt8} {networkId : UInt8}
  {calls : List OpCall} {s t : Op} {u : Unit}

omit [UnionLayout OpMem] in
/-- After the distinct ids were sent, they are the first ones of the table. -/
theorem ids (session : Session sdk base networkId calls s) (started : s.ctx.state ≠ .initialized)
    (later : s.ctx.tx.state ≠ .tokensStarted) :
    (Ledger.ofCalls calls).ids <+: s.ctx.tokensTable.tokens ∧
      (Ledger.ofCalls calls).ids.length = s.ctx.tx.tableCtx.distinctTokensCount.toNat := by
  have table := (session.headed started).2.table later
  have filled : (OpCall.declared calls).tokens.toNat ≤ s.ctx.tokensTable.tokens.length := table.filled
  have same : (Ledger.ofCalls calls).ids =
      s.ctx.tokensTable.tokens.take (OpCall.declared calls).tokens.toNat :=
    idBytes_injective (session.sent.symm.trans table.ids)
  have distinct : s.ctx.tx.tableCtx.distinctTokensCount = (OpCall.declared calls).tokens :=
    table.distinct
  rw [same, distinct, List.length_take_of_le filled]
  exact ⟨List.take_prefix _ _, rfl⟩

omit [UnionLayout OpMem] in
/-- The ledger of the next call, as far as it is about the distinct ids. -/
private theorem sent_concat {call : OpCall} (session : Session sdk base networkId calls s)
    (other : ∀ data, call ≠ .addTokens data) :
    (OpCall.upload sdk networkId (calls ++ [call])).tokenIds =
      idBytes (Ledger.ofCalls (calls ++ [call])).ids := by
  rw [OpCall.upload_tokenIds, Ledger.ofCalls_concat, Ledger.addCall_ids, session.sent]
  cases call with
  | addTokens data => exact (other data rfl).elim
  | startTx | addInput | addInputTokens | addInputContextExtension | addDataInputs | output =>
      simp only [List.append_nil]

/-- After the first call the header is followed through the calls of the serializer. -/
private theorem headed_concat {call : OpCall} (session : Session sdk base networkId calls s)
    (started : s.ctx.state ≠ .initialized) (ok : call.run sdk s = .ok u t) :
    t.ctx.networkId = networkId ∧ t.ctx.state ≠ .initialized ∧
      Headed base (OpCall.declared (calls ++ [call])) (OpCall.upload sdk networkId (calls ++ [call]))
        t.ser := by
  obtain ⟨some, headed⟩ := session.headed started
  obtain ⟨network, started', v, ran, m, table, same⟩ := OpCall.full_ok started ok
  rw [session.network] at network ran
  refine ⟨network, started', ?_⟩
  rw [OpCall.declared_concat some, OpCall.upload_concat, same]
  exact (headed.run ran).congr table

/-- The invariant after a call that is not the first one, put together. -/
private theorem next (call : OpCall) (session : Session sdk base networkId calls s)
    (started : s.ctx.state ≠ .initialized) (ok : call.run sdk s = .ok u t)
    (books : Books ((Ledger.ofCalls calls).addCall call) t.mem)
    (sent : (OpCall.upload sdk networkId (calls ++ [call])).tokenIds =
      idBytes (Ledger.ofCalls (calls ++ [call])).ids)
    (input : t.ctx.state = .inputsStarted → t.ctx.tx.state = .inputsStarted →
      ∃ input, t.ctx.tx.part = .input input ∧ input.onTokenCb = some p2pkInputTokenCb)
    (box : t.ctx.state = .outputsStarted → ∃ box, t.ctx.tx.part = .box box ∧
      box.callbacks = outputCallbacks sdk ∧
      box.value = ((Ledger.ofCalls calls).addCall call).value) :
    Session sdk base networkId (calls ++ [call]) t := by
  obtain ⟨network, started', headed⟩ := session.headed_concat started ok
  rw [← Ledger.ofCalls_concat] at books box
  exact ⟨network, books, sent, fun state => (started' state).elim, fun _ => ⟨by simp, headed⟩,
    input, box⟩

omit [UnionLayout OpMem] in
/-- A table without entries is the zeroed one. -/
private theorem eq_empty {table : TokenTable} (none : table.count = 0) : TokenTable.empty = table := by
  obtain ⟨tokens, bounded⟩ := table
  obtain rfl : tokens = [] := List.length_eq_zero_iff.mp none
  rfl

private theorem startTx {inputs dataInputs outputs : UInt16} {tokens : UInt8}
    (session : Session sdk base networkId calls s)
    (ok : SignTx.startTx inputs dataInputs outputs tokens s = .ok u t) :
    Session sdk base networkId (calls ++ [.startTx inputs dataInputs outputs tokens]) t := by
  obtain ⟨state, v, ran, rfl⟩ := startTx_ok.mp ok
  obtain ⟨rfl, rfl, zero⟩ := session.begun state
  have headed := Headed.init ran
  obtain ⟨-, bounded, none, m, quiet, rfl⟩ := TxSerFull.init_ok.mp ran
  obtain ⟨table, cb⟩ : m.table = s.ctx.tokensTable ∧ m.cb = s.ctx.mem := sdkCalls_frame quiet
  have same : TokenTable.empty = m.table := by
    rw [table]
    exact eq_empty none
  refine ⟨session.network, Books.empty rfl ?_, rfl, ?_, ?_, ?_, ?_⟩
  · rw [cb]
    exact zero
  · intro impossible
    simp at impossible
  · intro _
    exact ⟨by simp, headed.congr (m := Op.mem _) same⟩
  · intro impossible
    simp at impossible
  · intro impossible
    simp at impossible

private theorem addTokens {data : Buffer} (session : Session sdk base networkId calls s)
    (ok : SignTx.addTokens data s = .ok u t) :
    Session sdk base networkId (calls ++ [.addTokens data]) t := by
  have ok' := ok
  obtain ⟨state, r, v, ran, rfl⟩ := serial_ok.mp ok
  have state : s.ctx.state = .txStarted := by simpa using state
  have started : s.ctx.state ≠ .initialized := by simp [state]
  have collecting : s.ser.ctx.state = .tokensStarted :=
    (TxSerFull.checkProperState_bind_ok.mp ran).1
  have before : ¬ s.ser.ctx.PastHeader := by simp [FullCtx.PastHeader, collecting]
  have phase := ((session.headed started).2.before before).1.tokensPhase collecting
  have fits : s.ser.mem.table.count ≤ s.ser.ctx.tableCtx.distinctTokensCount.toNat := by
    rw [phase.counts.2.2.2]
    exact phase.more
  obtain ⟨-, ids, rfl, room, rfl, -⟩ := (TxSerFull.addTokens_ok fits).mp ran
  refine session.next (.addTokens (idBytes ids)) started ok' ?_ ?_ ?_ ?_
  · refine Books.ids ?_ _
    exact session.books.extend (List.prefix_append _ _) rfl
  · rw [OpCall.upload_tokenIds, Ledger.ofCalls_concat, Ledger.addCall_ids, session.sent]
    simp only [readIds_idBytes]
    simp only [idBytes, List.flatMap_append]
  · intro here
    simp [Op.setSer, Op.setMem, state] at here
  · intro here
    simp [Op.setSer, Op.setMem, state] at here

private theorem addInput {boxId : ErgoId} {value : UInt64} {framesCount : UInt8}
    {extensionLength : UInt32} (session : Session sdk base networkId calls s)
    (ok : SignTx.addInput boxId value framesCount extensionLength s = .ok u t) :
    Session sdk base networkId
      (calls ++ [.addInput boxId value framesCount extensionLength]) t := by
  have ok' := ok
  obtain ⟨state, v, added, w, set, amounts, sum, rfl⟩ := addInput_ok ok
  obtain ⟨-, -, -, -, rfl⟩ := TxSerFull.addInput_ok.mp added
  obtain ⟨-, rest⟩ := TxSerFull.checkProperState_bind_ok.mp set
  obtain rfl := modifyCtx_ok.mp rest
  have started : s.ctx.state ≠ .initialized := by
    intro begun
    simp [begun] at state
  refine session.next (.addInput boxId value framesCount extensionLength) started ok' ?_ ?_ ?_ ?_
  · exact session.books.addInput sum
  · exact session.sent_concat (by simp)
  · intro _ _
    exact ⟨_, rfl, rfl⟩
  · intro here
    simp at here

private theorem addInputTokens {boxId : ErgoId} {frameIndex : UInt8} {tokens : Buffer}
    (session : Session sdk base networkId calls s)
    (ok : SignTx.addInputTokens boxId frameIndex tokens s = .ok u t) :
    Session sdk base networkId (calls ++ [.addInputTokens boxId frameIndex tokens]) t ∧
      (Ledger.ofCalls calls).StaysInRange
        ((Ledger.ofCalls calls).postings (.addInputTokens boxId frameIndex tokens)) := by
  have ok' := ok
  obtain ⟨state, r, v, ran, rfl⟩ := serial_ok.mp ok
  obtain ⟨txState, w, call, m, quiet, rfl⟩ := TxSerFull.addInputTokens_ok.mp ran
  have state : s.ctx.state = .inputsStarted := by simpa using state
  have started : s.ctx.state ≠ .initialized := by simp [state]
  have txState : s.ctx.tx.state = .inputsStarted := txState
  obtain ⟨input, part, callback⟩ := session.input state txState
  have same : s.ser.ctx.inputCtx = input := by
    have part : s.ser.ctx.part = .input input := part
    rw [FullCtx.inputCtx, part]
  rw [same] at call
  obtain ⟨known, -⟩ := session.ids started (by simp [txState])
  obtain ⟨items, rfl, ⟨-, books, range⟩, callback'⟩ :=
    Books.frame (s := { s.ser with ctx := input }) session.books known callback call
  obtain ⟨table, cb⟩ := sdkCalls_frame quiet
  have extended : m.table.Extends w.mem.table := by rw [table]
  refine ⟨session.next (.addInputTokens boxId frameIndex _) started ok' ?_ ?_ ?_ ?_, ?_⟩
  · rw [Ledger.addCall, Ledger.postings, readTokens_bytes]
    simp only [TxSerFull.afterInput]
    split <;> exact books.extend extended cb
  · exact session.sent_concat (by simp)
  · intro _ _
    refine ⟨w.ctx, ?_, callback'⟩
    simp only [TxSerFull.afterInput]
    split <;> rfl
  · intro here
    simp [Op.setSer, Op.setMem, state] at here
  · rw [Ledger.postings, readTokens_bytes]
    exact range

private theorem addInputContextExtension {data : Buffer}
    (session : Session sdk base networkId calls s)
    (ok : SignTx.addInputContextExtension data s = .ok u t) :
    Session sdk base networkId (calls ++ [.addInputContextExtension data]) t := by
  have ok' := ok
  obtain ⟨state, r, v, ran, rfl⟩ := serial_ok.mp ok
  obtain ⟨txState, w, call, m, quiet, rfl⟩ := TxSerFull.addInputContextExtension_ok.mp ran
  have state : s.ctx.state = .inputsStarted := by simpa using state
  have started : s.ctx.state ≠ .initialized := by simp [state]
  obtain ⟨input, part, callback⟩ := session.input state txState
  have same : s.ser.ctx.inputCtx = input := by
    have part : s.ser.ctx.part = .input input := part
    rw [FullCtx.inputCtx, part]
  rw [same] at call
  obtain ⟨-, -, k, hashed, rfl, -⟩ := TxSerInput.addContextExtension_ok.mp call
  obtain ⟨table, cb⟩ := sdkCall_frame hashed
  obtain ⟨table', cb'⟩ := sdkCalls_frame quiet
  have extended : m.table.Extends s.mem.table := by
    rw [table', table]
    exact .refl _
  refine session.next (.addInputContextExtension data) started ok' ?_ ?_ ?_ ?_
  · have books : Books (Ledger.ofCalls calls) m := session.books.extend extended (cb'.trans cb)
    simp only [TxSerFull.afterInput]
    split <;> exact books
  · exact session.sent_concat (by simp)
  · intro _ _
    refine ⟨TxSerInput.extensionDone input data.length, ?_, callback⟩
    simp only [TxSerFull.afterInput]
    split <;> rfl
  · intro here
    simp [Op.setSer, Op.setMem, state] at here

private theorem addDataInputs {data : Buffer} (session : Session sdk base networkId calls s)
    (ok : SignTx.addDataInputs data s = .ok u t) :
    Session sdk base networkId (calls ++ [.addDataInputs data]) t := by
  have ok' := ok
  obtain ⟨state, r, v, ran, rfl⟩ := serial_ok.mp ok
  obtain ⟨txState, ids, rfl, -, m, quiet, rest⟩ := TxSerFull.addDataInputs_ok.mp ran
  have state : s.ctx.state = .inputsStarted := by simpa using state
  have started : s.ctx.state ≠ .initialized := by simp [state]
  obtain ⟨table, cb⟩ := sdkCalls_frame quiet
  have kept : v.mem.table = s.ctx.tokensTable ∧ v.mem.cb = s.ctx.mem ∧
      v.ctx.state ≠ .inputsStarted := by
    split at rest
    · obtain ⟨n, quiet', -, rfl⟩ := rest
      obtain ⟨table', cb'⟩ := sdkCalls_frame quiet'
      exact ⟨table'.trans table, cb'.trans cb, by simp⟩
    · obtain ⟨-, rfl⟩ := rest
      exact ⟨table, cb, by simp [TxSerFull.dataInputsTaken, txState]⟩
  obtain ⟨table, cb, past⟩ := kept
  refine session.next (.addDataInputs (idBytes ids)) started ok' ?_ ?_ ?_ ?_
  · exact session.books.extend (by rw [TokenTable.Extends]; exact table ▸ List.prefix_refl _) cb
  · exact session.sent_concat (by simp)
  · intro _ here
    exact (past here).elim
  · intro here
    simp [Op.setSer, Op.setMem, state] at here

private theorem addOutput {value : UInt64} {treeSize height : UInt32} {tokensCount : UInt8}
    {registersSize : UInt32} (session : Session sdk base networkId calls s)
    (ok : SignTx.addOutput sdk value treeSize height tokensCount registersSize s = .ok u t) :
    Session sdk base networkId
      (calls ++ [.output (.add value treeSize height tokensCount registersSize)]) t := by
  have ok' := ok
  obtain ⟨state, v, added, w, set, rfl⟩ := addOutput_ok.mp ok
  obtain ⟨-, -, -, m, quiet, rfl⟩ := TxSerFull.addBox_ok.mp added
  obtain ⟨-, rest⟩ := TxSerFull.checkProperState_bind_ok.mp set
  obtain rfl := modifyCtx_ok.mp rest
  have started : s.ctx.state ≠ .initialized := by
    intro begun
    simp [begun] at state
  obtain ⟨table, cb⟩ : m.table = s.ctx.tokensTable ∧ m.cb = s.ctx.mem := sdkCalls_frame quiet
  refine session.next (.output (.add value treeSize height tokensCount registersSize)) started ok' ?_ ?_ ?_ ?_
  · have books : Books (Ledger.ofCalls calls) m :=
      session.books.extend (by rw [TokenTable.Extends]; exact table ▸ List.prefix_refl _) cb
    exact books.addOutput
  · exact session.sent_concat (by simp)
  · intro here
    simp at here
  · intro _
    exact ⟨_, rfl, rfl, rfl⟩

private theorem outputPart {call : OutputCall} {part : BoxCall}
    (session : Session sdk base networkId calls s) (about : call.part s.ctx.networkId = some part)
    (ok : call.run sdk s = .ok u t) :
    Session sdk base networkId (calls ++ [.output call]) t ∧
      (Ledger.ofCalls calls).StaysInRange ((Ledger.ofCalls calls).postings (.output call)) := by
  obtain ⟨state, r, v, ran, -, left⟩ := OutputCall.part_eq about ok
  have started : s.ctx.state ≠ .initialized := by simp [state]
  obtain ⟨box, isBox, callbacks, value⟩ := session.box state
  obtain ⟨txState, w, call', rfl⟩ := BoxCall.full_ok.mp ran
  have same : s.ser.ctx.boxCtx = box := by
    have isBox : s.ser.ctx.part = .box box := isBox
    rw [FullCtx.boxCtx, isBox]
  rw [same] at call'
  have txState : s.ctx.tx.state = .outputsStarted := txState
  obtain ⟨known, distinct⟩ := session.ids started (by simp [txState])
  obtain ⟨⟨-, books, range⟩, value'⟩ :=
    Books.part (s := { s.ser with ctx := box }) session.books known distinct.ge callbacks call'
  obtain ⟨callbacks', -⟩ := finishes_of_run (s := { s.ser with ctx := box }) callbacks call'
  have postings := (Ledger.ofCalls calls).postings_part about
  rw [← value] at postings
  have noted : (call.info sdk r w.mem.cb.output).tokens = w.mem.cb.output.tokens := by
    cases call with
    | add | tokens | registers => rfl
    | treeChunk => exact finishTree_tokens.1.trans chunkTaken_tokens.1
    | treeFee | treeChange => exact finishTree_tokens.1
  refine ⟨session.next (.output call) started ok ?_ ?_ ?_ ?_, by rw [postings]; exact range⟩
  · rw [Ledger.addCall, postings, Op.mem, ← left]
    exact books.congr rfl rfl noted
  · exact session.sent_concat (by simp)
  · rw [← left]
    intro here
    cases done : TxSerFull.isFinished (TxSerFull.afterBox s.ser.ctx w).ctx <;>
      simp [OutputCall.after, done, Op.setSer, Op.setMem, state] at here
  · intro _
    refine ⟨w.ctx, ?_, callbacks', ?_⟩
    · rw [← left]
      simp only [OutputCall.after, TxSerFull.afterBox, Op.setSer]
      split <;> rfl
    · rw [Ledger.addCall_part_value about, value', value]

/-- Every call keeps the invariant, and the totals fit after each of its entries. -/
theorem step {call : OpCall} (session : Session sdk base networkId calls s)
    (ok : call.run sdk s = .ok u t) :
    Session sdk base networkId (calls ++ [call]) t ∧
      (Ledger.ofCalls calls).StaysInRange ((Ledger.ofCalls calls).postings call) := by
  have here := session.books.inRange
  -- a call with one entry
  have one : ∀ {posting : Posting}, (Ledger.ofCalls calls).postings call = [posting] →
      Session sdk base networkId (calls ++ [call]) t →
      (Ledger.ofCalls calls).StaysInRange ((Ledger.ofCalls calls).postings call) := by
    intro posting single next
    have after := next.books.inRange
    rw [Ledger.ofCalls_concat, Ledger.addCall, single] at after
    rw [single]
    exact Ledger.staysInRange_one here after
  cases call with
  | startTx inputs dataInputs outputs tokens =>
      exact ⟨session.startTx ok, Ledger.staysInRange_nil here⟩
  | addTokens data =>
      have next := session.addTokens ok
      exact ⟨next, one rfl next⟩
  | addInput boxId value framesCount extensionLength =>
      have next := session.addInput ok
      exact ⟨next, one rfl next⟩
  | addInputTokens boxId frameIndex tokens => exact session.addInputTokens ok
  | addInputContextExtension data =>
      exact ⟨session.addInputContextExtension ok, Ledger.staysInRange_nil here⟩
  | addDataInputs data => exact ⟨session.addDataInputs ok, Ledger.staysInRange_nil here⟩
  | output call =>
      cases about : call.part s.ctx.networkId with
      | some part => exact session.outputPart about ok
      | none =>
          cases call with
          | add value treeSize height tokensCount registersSize =>
              have next := session.addOutput ok
              exact ⟨next, one rfl next⟩
          | treeChunk | treeFee | treeChange | tokens | registers => simp [OutputCall.part] at about

/-- The invariant holds along every run, and the totals fit after every entry. -/
theorem run {more : List OpCall} (session : Session sdk base networkId calls s)
    (ok : runAll (OpCall.run sdk) more s = .ok u t) :
    Session sdk base networkId (calls ++ more) t ∧
      ∀ early call late, more = early ++ call :: late →
        (Ledger.ofCalls (calls ++ early)).StaysInRange
          ((Ledger.ofCalls (calls ++ early)).postings call) := by
  induction more generalizing calls s with
  | nil =>
      obtain rfl := runAll_nil_ok.mp ok
      exact ⟨by rwa [List.append_nil], by simp⟩
  | cons call more ih =>
      obtain ⟨_, m, first, rest⟩ := runAll_cons_ok.mp ok
      obtain ⟨next, range⟩ := session.step first
      obtain ⟨session', ranges⟩ := ih next rest
      refine ⟨by simpa using session', ?_⟩
      intro early call' late split
      cases early with
      | nil =>
          obtain ⟨rfl, -⟩ := List.cons.inj split
          rw [List.append_nil]
          exact range
      | cons first early =>
          obtain ⟨rfl, tail⟩ := List.cons.inj split
          simpa using ranges early call' late tail

end Session

end LedgerErgo.SignTx
