import LedgerErgo.Commands.SignTx.SentInputs

/-! # What a session has sent

Between two calls about a transaction the operation takes notes for the screens, and the SDK is
called for them. That changes nothing of what is known about the calls. So the invariants of a
run of calls hold of the operation as the commands find it, with whatever happens in between.
-/

namespace LedgerErgo.SignTx

open LedgerErgo.Common LedgerErgo.Ergo LedgerErgo.Prog

/-! ## Notes -/

/-- The operations differ in the notes for the screens only. -/
structure SameTx (s t : OpCtx) : Prop where
  state : t.state = s.state
  schnorrKey : t.schnorrKey = s.schnorrKey
  bip32 : t.bip32 = s.bip32
  txHash : t.txHash = s.txHash
  networkId : t.networkId = s.networkId
  tokensTable : t.tokensTable = s.tokensTable
  mem : t.mem = s.mem
  tx : t.tx = s.tx

instance : Std.Refl SameTx := ⟨fun _ => ⟨rfl, rfl, rfl, rfl, rfl, rfl, rfl, rfl⟩⟩

instance : IsTrans OpCtx SameTx where
  trans _ _ _ first second := ⟨second.state.trans first.state,
    second.schnorrKey.trans first.schnorrKey, second.bip32.trans first.bip32,
    second.txHash.trans first.txHash, second.networkId.trans first.networkId,
    second.tokensTable.trans first.tokensTable, second.mem.trans first.mem, second.tx.trans first.tx⟩

section Notes

variable {sdk : Sdk} {base : List UInt8} {networkId : UInt8} {calls : List OpCall} {s t : Op}

/-- The books look at the amounts and at the tokens of the output only. -/
theorem Session.congr (session : Session sdk base networkId calls s)
    (state : t.ctx.state = s.ctx.state) (network : t.ctx.networkId = s.ctx.networkId)
    (ser : t.ctx.tx = s.ctx.tx ∧ t.ctx.txHash = s.ctx.txHash ∧
      t.ctx.tokensTable = s.ctx.tokensTable)
    (amounts : t.ctx.mem.amounts = s.ctx.mem.amounts)
    (tokens : t.ctx.mem.output.tokens = s.ctx.mem.output.tokens) :
    Session sdk base networkId calls t := by
  obtain ⟨tx, hash, table⟩ := ser
  refine ⟨network.trans session.network, session.books.congr table amounts tokens, session.sent,
    ?_, ?_, ?_, ?_⟩
  · rw [state, hash, tokens]
    exact session.begun
  · rw [state]
    intro started
    obtain ⟨some, headed⟩ := session.headed started
    have same : t.ser = ⟨s.ser.ctx, s.ser.hash, t.mem⟩ := by
      simp only [Op.ser, tx, hash]
    rw [same]
    exact ⟨some, headed.congr table⟩
  · rw [state, tx]
    exact session.input
  · rw [state, tx]
    exact session.box

theorem Variants.congr (variants : Variants sdk calls s) (same : SameTx s.ctx t.ctx) :
    Variants sdk calls t := by
  refine ⟨?_, ?_, ?_, ?_, ?_⟩
  · rw [same.state]
    exact variants.before
  · rw [same.state, same.tx]
    exact variants.started
  · rw [same.state, same.tx]
    exact variants.input
  · rw [same.state, same.tx, same.mem]
    exact variants.box
  · rw [same.state, same.mem]
    exact variants.tree

end Notes

/-! ## What was sent -/

/-- What the code leaves to the host. -/
def OpCall.Orderly (call : OpCall) (op : Op) : Prop :=
  match call with
  | .output call => call.Orderly op
  | _ => True

/-- What is known of an operation that has got these calls, which began with these bytes in the
    hash. -/
structure Uploads (sdk : Sdk) (base : List UInt8) (calls : List OpCall) (orderly : Prop) (op : Op) :
    Prop where
  session : Session sdk base op.ctx.networkId calls op
  variants : Variants sdk calls op
  inputs : InputsSent calls op
  first : calls = [] ∨ ∃ inputs dataInputs outputs tokens rest,
    calls = .startTx inputs dataInputs outputs tokens :: rest
  finished : op.ctx.state = .txFinished → op.ctx.tx.state = .finished
  stream : orderly → op.ctx.state ≠ .initialized →
    FullInv base (OpCall.declared calls) (OpCall.upload sdk op.ctx.networkId calls) op.ser

namespace Uploads

section Begin

variable {sdk : Sdk} {path : Bip32Path} {networkId : UInt8} {supply : Supply} {s t : Op}
  {base : List UInt8} {calls : List OpCall} {orderly : Prop}

/-- A session begins with a key that was drawn for it, and the commitment to it. -/
theorem signInit_of_init (begun : init sdk path networkId (.zero supply) = .ok () s) :
    ∃ m n, Schnorr.signInit sdk (sdk.deriveBip32 s.ctx.bip32).1 m = .ok true n ∧
      s.ctx.schnorrKey = n.cb.key ∧ s.ctx.txHash = n.cb.hash := by
  simp only [init, bind_ok, exists_unit, ensure_ok, modifyOp_ok, zoom_ok] at begun
  obtain ⟨_, ⟨-, rfl⟩, _, ⟨-, rfl⟩, _, ⟨m, -, rfl⟩, inited, _, ⟨v, signing, rfl⟩, _, ⟨yes, rfl⟩,
    rfl⟩ := begun
  subst yes
  exact ⟨_, v, signing, rfl, rfl⟩

theorem init_drawn (begun : init sdk path networkId (.zero supply) = .ok () s) :
    Schnorr.Drawn (sdk.deriveBip32 s.ctx.bip32).1 s.ctx.schnorrKey := by
  obtain ⟨m, n, signing, key, -⟩ := signInit_of_init begun
  rw [key]
  exact Schnorr.signInit_drawn signing

theorem begin (begun : init sdk path networkId (.zero supply) = .ok () s) :
    Uploads sdk (Schnorr.commitment sdk (sdk.deriveBip32 s.ctx.bip32).1 s.ctx.schnorrKey) [] True s := by
  have session := Session.begin begun
  obtain ⟨state, network, -, -⟩ := init_frame begun
  obtain ⟨m, n, signing, key, hash⟩ := signInit_of_init begun
  rw [hash, Schnorr.signInit_hash signing, ← key, ← network] at session
  refine ⟨session, Variants.begin begun, InputsSent.begin begun, .inl rfl, ?_,
    fun _ started => (started state).elim⟩
  intro finished
  rw [state] at finished
  cases finished

/-- Notes change nothing of what was sent. -/
theorem congr (uploads : Uploads sdk base calls orderly s) (same : SameTx s.ctx t.ctx) :
    Uploads sdk base calls orderly t := by
  have session : Session sdk base s.ctx.networkId calls t :=
    uploads.session.congr same.state same.networkId ⟨same.tx, same.txHash, same.tokensTable⟩
      (congrArg OpMem.amounts same.mem) (congrArg (·.output.tokens) same.mem)
  rw [← same.networkId] at session
  refine ⟨session, uploads.variants.congr same, uploads.inputs.congr same.state same.tx, uploads.first,
    ?_, ?_⟩
  · rw [same.state, same.tx]
    exact uploads.finished
  · intro ordered
    rw [same.state, same.networkId]
    intro started
    have inv := uploads.stream ordered started
    have ser : t.ser = ⟨s.ser.ctx, s.ser.hash, t.mem⟩ := by
      simp only [Op.ser, same.tx, same.txHash]
    rw [ser]
    exact inv.congr same.tokensTable

end Begin

section Steps

variable {sdk : Sdk} [UnionLayout OpMem] {base : List UInt8} {calls : List OpCall} {orderly : Prop}
  {s t : Op} {u : Unit} {call : OpCall}

/-- In an orderly call of the operation the calls of the serializer are orderly. -/
private theorem orderlyRun (started : s.ctx.state = .outputsStarted → s.ctx.tx.BoxStarted)
    (ordered : call.Orderly s) (ok : call.run sdk s = .ok u t) :
    OrderlyRun (call.full sdk s.ctx.networkId) s.ser := by
  have single {call : FullCall OpMem} (here : call.Orderly s.ctx.tx) : OrderlyRun [call] s.ser := by
    refine ⟨here, ?_⟩
    split <;> trivial
  cases call with
  | startTx => trivial
  | addTokens | addInputTokens | addInputContextExtension | addDataInputs => exact single trivial
  | addInput =>
      refine ⟨trivial, ?_⟩
      split
      · refine ⟨trivial, ?_⟩
        split <;> trivial
      · trivial
  | output call =>
      cases about : call.part s.ctx.networkId with
      | some part =>
          have box : s.ctx.tx.BoxStarted := started (OutputCall.part_eq about ok).1
          have full : (OpCall.output call).full sdk s.ctx.networkId = [part.full] := by
            cases call with
            | add => cases about
            | treeChunk | treeFee | treeChange | tokens | registers =>
                obtain rfl := Option.some.inj about
                rfl
          rw [full]
          cases part with
          | tree | changeTree | minersFeeTree | tokens | registers => exact single box
      | none =>
          cases call with
          | treeChunk | treeFee | treeChange | tokens | registers => cases about
          | add value size height tokens registers =>
              obtain ⟨-, v, added, -⟩ := addOutput_ok.mp ok
              obtain ⟨-, -, -, m, -, rfl⟩ := TxSerFull.addBox_ok.mp added
              refine ⟨ordered, ?_⟩
              have ran : FullCall.run (.addBox value size height tokens registers) s.ser = .ok .ok _ :=
                TxSerFull.plain_ok.mpr ⟨added, rfl⟩
              rw [ran]
              refine ⟨trivial, ?_⟩
              split <;> trivial

/-- The handler writes the path before the call, where none of the books looks. -/
theorem run_of_handle (variants : Variants sdk calls s) (ok : call.handle sdk s = .ok u t) :
    ∃ s', call.run sdk s' = .ok u t ∧ s'.ctx.state = s.ctx.state ∧
      s'.ctx.networkId = s.ctx.networkId ∧ s'.ser.ctx = s.ser.ctx ∧ s'.ser.hash = s.ser.hash ∧
      s'.mem.table = s.mem.table ∧ s'.ctx.mem.amounts = s.ctx.mem.amounts ∧
      s'.ctx.mem.output.tokens = s.ctx.mem.output.tokens := by
  cases call with
  | startTx | addTokens | addInput | addInputTokens | addInputContextExtension | addDataInputs =>
      exact ⟨s, ok, rfl, rfl, rfl, rfl, rfl, rfl, rfl⟩
  | output call =>
      cases call with
      | add | treeChunk | treeFee | tokens | registers =>
          exact ⟨s, ok, rfl, rfl, rfl, rfl, rfl, rfl, rfl⟩
      | treeChange path pubKey =>
          exact ⟨_, (variants.changeRun ok).2.2.2, rfl, rfl, rfl, rfl, rfl, rfl, rfl⟩

/-- Before the first call only the start of a transaction is accepted. -/
theorem startTx_of_initialized (begun : s.ctx.state = .initialized) (ok : call.handle sdk s = .ok u t) :
    ∃ inputs dataInputs outputs tokens, call = .startTx inputs dataInputs outputs tokens := by
  have accepted := (OpCall.handle_proceeds ok).accepted
  rw [begun] at accepted
  cases call with
  | startTx inputs dataInputs outputs tokens => exact ⟨inputs, dataInputs, outputs, tokens, rfl⟩
  | addTokens | addInput | addInputTokens | addInputContextExtension | addDataInputs =>
      simp [OpCall.states] at accepted
  | output call =>
      cases call with
      | add | treeChunk | treeFee | treeChange | tokens | registers =>
          simp [OpCall.states] at accepted

/-- In an orderly session, the hash has absorbed what was sent. -/
private theorem stream_step (uploads : Uploads sdk base calls orderly s)
    (ok : call.handle sdk s = .ok u t) (session : Session sdk base t.ctx.networkId (calls ++ [call]) t)
    (ordered : orderly ∧ call.Orderly s) (started : t.ctx.state ≠ .initialized) :
    FullInv base (OpCall.declared (calls ++ [call]))
      (OpCall.upload sdk t.ctx.networkId (calls ++ [call])) t.ser := by
  obtain ⟨s', ran, state, network, tx, hash, table, -, -⟩ := run_of_handle uploads.variants ok
  by_cases begun : s.ctx.state = .initialized
  · -- after the first call the header is not complete
    apply ((session.headed started).2.before _).1
    obtain ⟨inputs, dataInputs, outputs, tokens, rfl⟩ := startTx_of_initialized begun ok
    obtain ⟨-, v, inited, rfl⟩ := startTx_ok.mp ok
    obtain ⟨-, -, -, m, -, rfl⟩ := TxSerFull.init_ok.mp inited
    intro past
    rcases past with past | past <;>
      simp [Op.setSer, Op.setMem, Op.ser, TxSerFull.started, TxSerFull.inputsEntered] at past <;>
      split at past <;> simp at past
  · have before : FullInv base (OpCall.declared calls) (OpCall.upload sdk s.ctx.networkId calls)
        s'.ser := by
      have same : s'.ser = ⟨s.ser.ctx, s.ser.hash, s'.mem⟩ := by
        rw [← tx, ← hash]
        rfl
      rw [same]
      exact (uploads.stream ordered.1 begun).congr table
    have box : s'.ctx.state = .outputsStarted → s'.ctx.tx.BoxStarted := by
      rw [state]
      intro outputs
      obtain ⟨box, isBox, -⟩ := uploads.session.box outputs
      have same : s'.ctx.tx.part = .box box := (congrArg FullCtx.part tx).trans isBox
      rw [FullCtx.BoxStarted, same]
      trivial
    have ordered' : call.Orderly s' := by
      have same : s'.ctx.tx = s.ctx.tx := tx
      cases call with
      | startTx | addTokens | addInput | addInputTokens | addInputContextExtension
      | addDataInputs => trivial
      | output call =>
          cases call with
          | treeChunk | treeFee | treeChange | tokens | registers => trivial
          | add =>
              have noneOpen : ¬ s.ctx.tx.BoxOpen := ordered.2
              rw [← same] at noneOpen
              exact noneOpen
    rw [← state] at begun
    obtain ⟨network', -, v, full, m, table', same⟩ := OpCall.full_ok begun ran
    have after := before.run (orderlyRun box ordered' ran) full
    obtain ⟨some, -⟩ := uploads.session.headed (state ▸ begun)
    rw [OpCall.declared_concat some, OpCall.upload_concat, same, network', network]
    rw [network] at after
    exact after.congr table'

/-- A call adds to what was sent. -/
theorem step (uploads : Uploads sdk base calls orderly s) (ok : call.handle sdk s = .ok u t) :
    Uploads sdk base (calls ++ [call]) (orderly ∧ call.Orderly s) t := by
  have proceeds := OpCall.handle_proceeds ok
  obtain ⟨s', ran, state, network, tx, hash, table, amounts, tokens⟩ :=
    run_of_handle uploads.variants ok
  have session : Session sdk base t.ctx.networkId (calls ++ [call]) t := by
    rw [proceeds.kept.networkId]
    have before := uploads.session.congr state network ⟨tx, hash, table⟩ amounts tokens
    exact (before.step ran).1
  refine ⟨session, (uploads.variants.step ok).2, uploads.inputs.step ok, ?_, proceeds.finished,
    stream_step uploads ok session⟩
  rcases uploads.first with rfl | ⟨inputs, dataInputs, outputs, tokens, rest, rfl⟩
  · -- only the start of a transaction is accepted first
    have begun : s.ctx.state = .initialized := by
      by_contra started
      exact (uploads.session.headed started).1 rfl
    obtain ⟨inputs, dataInputs, outputs, tokens, rfl⟩ := startTx_of_initialized begun ok
    exact .inr ⟨inputs, dataInputs, outputs, tokens, [], rfl⟩
  · exact .inr ⟨_, _, _, _, _, rfl⟩

omit [UnionLayout OpMem] in
theorem imp {orderly' : Prop} (uploads : Uploads sdk base calls orderly s)
    (implies : orderly' → orderly) : Uploads sdk base calls orderly' s :=
  ⟨uploads.session, uploads.variants, uploads.inputs, uploads.first, uploads.finished,
    uploads.stream ∘ implies⟩

/-- Several calls in turn. -/
theorem run {more : List OpCall} (uploads : Uploads sdk base calls orderly s)
    (ok : runAll (OpCall.handle sdk) more s = .ok u t) :
    Uploads sdk base (calls ++ more)
      (orderly ∧ Guarded OpCall.Orderly (OpCall.handle sdk) more s) t := by
  induction more generalizing calls orderly s with
  | nil =>
      obtain rfl := runAll_nil_ok.mp ok
      rw [List.append_nil]
      exact uploads.imp And.left
  | cons call more ih =>
      obtain ⟨_, m, first, rest⟩ := runAll_cons_ok.mp ok
      have after := ih (uploads.step first) rest
      rw [List.append_assoc] at after
      apply after.imp
      intro ordered
      obtain ⟨before, here, later⟩ := ordered
      rw [first] at later
      exact ⟨⟨before, here⟩, later⟩

end Steps

end Uploads

/-! ## Complete transactions -/

/-- The bytes of the transaction that the calls are about. -/
def OpCall.bytes (sdk : Sdk) (networkId : UInt8) (calls : List OpCall) : List UInt8 :=
  (OpCall.upload sdk networkId calls).header (OpCall.declared calls) ++
    (OpCall.upload sdk networkId calls).boxes.flatMap (·.box.encode)

/-- The transaction that the calls were about was sent in full, and nothing was hashed but the
    commitment and what was sent. -/
structure Transmitted (sdk : Sdk) (base : List UInt8) (calls : List OpCall) (orderly : Prop)
    (op : Op) : Prop where
  first : ∃ inputs dataInputs outputs tokens rest,
    calls = .startTx inputs dataInputs outputs tokens :: rest
  header : (OpCall.upload sdk op.ctx.networkId calls).HeaderComplete (OpCall.declared calls)
  hashed : base ++ (OpCall.upload sdk op.ctx.networkId calls).header (OpCall.declared calls) <+:
    op.ctx.txHash
  /-- If the outputs came in turn, the hash is that of all of the transaction. -/
  outputs : orderly →
    (OpCall.upload sdk op.ctx.networkId calls).boxes.length = (OpCall.declared calls).outputs.toNat ∧
      (∀ record ∈ (OpCall.upload sdk op.ctx.networkId calls).boxes, record.Complete) ∧
      op.ctx.txHash = base ++ OpCall.bytes sdk op.ctx.networkId calls
  amounts : AmountsExact (Ledger.ofCalls calls) op

/-- What was sent when the operation says that the transaction is complete. -/
theorem Uploads.transmitted {sdk : Sdk} {base : List UInt8} {calls : List OpCall} {orderly : Prop}
    {op : Op} (uploads : Uploads sdk base calls orderly op) (state : op.ctx.state = .txFinished) :
    Transmitted sdk base calls orderly op := by
  have started : op.ctx.state ≠ .initialized := by simp [state]
  have finished : op.ser.ctx.state = .finished := uploads.finished state
  obtain ⟨some, headed⟩ := uploads.session.headed started
  obtain ⟨complete, hashed⟩ := headed.past (.inr finished)
  refine ⟨uploads.first.resolve_left some, complete, hashed, ?_, ?_⟩
  · intro ordered
    have phase := (uploads.stream ordered started).outputsPhase (.inr finished)
    obtain ⟨complete, count, bytes⟩ := phase.outputs.finished finished
    rw [OpCall.bytes, ← List.append_assoc]
    exact ⟨count, complete, bytes⟩
  · have books := uploads.session.books
    refine ⟨congrArg Nat.cast books.fee, ?_, books.tokens.found, ?_⟩
    · have value := books.value
      have same : op.mem.cb.amounts = op.ctx.mem.amounts := rfl
      rw [same] at value
      omega
    · intro i alone
      apply books.tokens.zero
      intro id found
      have slot : op.ctx.tokensTable.slot i = id := (TokenTable.findTokenIndex_some found).2
      rw [slot] at alone
      exact alone found

end LedgerErgo.SignTx
