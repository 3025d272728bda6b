import LedgerErgo.Commands.AttestInput.Handler
import LedgerErgo.Ergo.BoxStream

/-! # What a session attests

The host declares a box and then sends its tree, its tokens and its registers in parts. Whatever
the parts are, the box of a session that is finished is the one that was declared and sent, its id
is the one the chain knows it by, and its tokens were all kept, each of them once.
-/

namespace LedgerErgo.AttestInput

open LedgerErgo.Common LedgerErgo.Ergo LedgerErgo.Prog

/-! ## The box that is sent -/

/-- The entry of a box for a token. -/
def entry (token : InputToken) : BoxToken := ⟨.id token.1, token.2⟩

theorem entries_of_fits {tokens : List BoxToken} (fits : ∀ token ∈ tokens, token.ref.Fits none) :
    ∃ ids : List InputToken, tokens = ids.map entry := by
  induction tokens with
  | nil => exact ⟨[], rfl⟩
  | cons token tokens ih =>
      obtain ⟨here, others⟩ := List.forall_mem_cons.mp fits
      obtain ⟨ids, rfl⟩ := ih others
      obtain ⟨ref, amount⟩ := token
      cases ref with
      | id id => exact ⟨(id, amount) :: ids, rfl⟩
      | index index => exact here.elim

/-- The entries are sent as the tokens are. -/
theorem raw_entries (tokens : List InputToken) :
    (tokens.map entry).flatMap BoxToken.raw = tokens.flatMap InputToken.bytes :=
  List.flatMap_map ..

/-- The tokens can be read back from their bytes. -/
theorem tokens_of_bytes {tokens tokens' : List InputToken}
    (same : tokens.flatMap InputToken.bytes = tokens'.flatMap InputToken.bytes) : tokens = tokens' := by
  have single : SelfDelimiting (fun _ : InputToken => True) InputToken.bytes := by
    intro a b x y _ _ same
    simp only [InputToken.bytes, List.append_assoc] at same
    obtain ⟨ids, rest⟩ := List.append_inj same (by simp)
    obtain ⟨amounts, ends⟩ := List.append_inj rest (by simp)
    have amount : bufferReadU64 (u64Bytes a.2) = some (a.2, []) :=
      bufferReadU64_eq_some.mpr (List.append_nil _).symm
    rw [amounts, bufferReadU64_eq_some.mpr (List.append_nil _).symm] at amount
    have second := (Prod.mk.inj (Option.some.inj amount)).1
    exact ⟨Prod.ext (Subtype.ext ids) second.symm, ends⟩
  have length : tokens.length = tokens'.length := by
    have bytes := congrArg List.length same
    rw [InputFrame.length_tokens, InputFrame.length_tokens] at bytes
    exact Nat.eq_of_mul_eq_mul_right (by decide) bytes
  exact (single.flatMap (fun _ _ => trivial) (fun _ _ => trivial) length
    (congrArg (· ++ ([] : List UInt8)) same)).1

/-- A part of the box: its kind and its data. -/
abbrev Part := Subcommand × Buffer

/-- What was declared for a box, and the parts that were sent. -/
structure Delivery where
  params : InitParams
  parts : List Part

namespace Delivery

/-- A box that was declared. -/
def start (params : InitParams) : Delivery := ⟨params, []⟩

/-- One more part. -/
def add (d : Delivery) (kind : Subcommand) (data : Buffer) : Delivery :=
  { d with parts := d.parts ++ [(kind, data)] }

/-- What the parts of a kind carry together. -/
def sent (d : Delivery) (kind : Subcommand) : List UInt8 :=
  (d.parts.filter (·.1 = kind)).flatMap Prod.snd

/-- The box that was declared and sent, with these tokens. -/
def box (d : Delivery) (tokens : List InputToken) : Box where
  value := d.params.value
  tree := d.sent .treeChunk
  creationHeight := d.params.creationHeight
  tokens := tokens.map entry
  registers := d.sent .registers

/-- The box, next to the sizes that were declared for it. -/
def record (d : Delivery) (tokens : List InputToken) : BoxRecord where
  treeSize := d.params.ergoTreeSize
  tokensCount := d.params.tokensCount
  registersSize := d.params.registersSize
  wholeTree := false
  box := d.box tokens

/-- The id of the box: the hash of its bytes and of the place where it was created. -/
def boxId (sdk : Sdk) (d : Delivery) (tokens : List InputToken) : ErgoId :=
  sdk.blake2b256 ((d.box tokens).encode ++ (d.params.txId.val ++ vlq d.params.boxIndex.toNat))

/-- The box was sent completely, and these are its tokens. -/
structure Carries (d : Delivery) (tokens : List InputToken) : Prop where
  /-- Tree, tokens and registers have the sizes that were declared. -/
  complete : (d.record tokens).Complete
  sent : d.sent .tokens = tokens.flatMap InputToken.bytes
  distinct : (tokens.map Prod.fst).Nodup

/-- The tree was sent: it has its size, and an empty tree is one empty chunk. -/
structure TreeSent (d : Delivery) : Prop where
  some : ∃ part ∈ d.parts, part.1 = .treeChunk
  whole : (d.sent .treeChunk).length = d.params.ergoTreeSize.toNat

/-- All tokens were sent. -/
def TokensSent (d : Delivery) : Prop :=
  (d.sent .tokens).length = d.params.tokensCount.toNat * frameTokenValuePairSize

/-- The box was sent completely. -/
structure Done (d : Delivery) : Prop where
  tree : d.TreeSent
  tokens : d.TokensSent
  registers : (d.sent .registers).length = d.params.registersSize.toNat

variable {d : Delivery} {tokens more : List InputToken} {data : Buffer}

theorem Carries.unique (carries : d.Carries tokens) (carries' : d.Carries more) : tokens = more :=
  tokens_of_bytes (carries.sent.symm.trans carries'.sent)

theorem sent_add {kind kind' : Subcommand} :
    (d.add kind' data).sent kind = d.sent kind ++ if kind' = kind then data else [] := by
  by_cases same : kind' = kind <;> simp [sent, add, same]

/-- Nothing was sent of a box that was only declared. -/
theorem not_treeSent_start {params : InitParams} : ¬ (start params).TreeSent := by
  intro sent
  obtain ⟨part, here, -⟩ := sent.some
  exact absurd here List.not_mem_nil

theorem treeSent_treeChunk :
    (d.add .treeChunk data).TreeSent ↔
      (d.sent .treeChunk).length + data.length = d.params.ergoTreeSize.toNat := by
  have size : ((d.add .treeChunk data).sent .treeChunk).length =
      (d.sent .treeChunk).length + data.length := by
    rw [sent_add, if_pos rfl, List.length_append]
  constructor
  · exact fun sent => size.symm.trans sent.whole
  · exact fun whole => ⟨⟨(.treeChunk, data), by simp [add], rfl⟩, size.trans whole⟩

theorem treeSent_other {kind : Subcommand} (other : kind ≠ .treeChunk) :
    (d.add kind data).TreeSent ↔ d.TreeSent := by
  have same : (d.add kind data).sent .treeChunk = d.sent .treeChunk := by
    rw [sent_add, if_neg other, List.append_nil]
  constructor
  · rintro ⟨⟨part, here, tree⟩, whole⟩
    rw [same] at whole
    refine ⟨⟨part, ?_, tree⟩, whole⟩
    rcases List.mem_append.mp here with before | now
    · exact before
    · rw [List.mem_singleton.mp now] at tree
      exact (other tree).elim
  · rintro ⟨⟨part, here, tree⟩, whole⟩
    exact ⟨⟨part, List.mem_append_left _ here, tree⟩, by rwa [same]⟩

theorem record_treeChunk :
    (d.add .treeChunk data).record tokens = (d.record tokens).addTree data := by
  simp only [record, box, BoxRecord.addTree, sent_add]
  simp [add]

theorem record_tokens :
    (d.add .tokens data).record (tokens ++ more) =
      (d.record tokens).addTokens (more.map entry) := by
  simp only [record, box, BoxRecord.addTokens, sent_add]
  simp [add]

theorem record_registers :
    (d.add .registers data).record tokens = (d.record tokens).addRegisters data := by
  simp only [record, box, BoxRecord.addRegisters, sent_add]
  simp [add]

end Delivery

section Stream

variable [SharedLayout]

/-! ## The tokens that are kept -/

/-- The tokens so far, with their amounts. -/
def collected (mem : Mem Shared) : List InputToken := mem.table.tokens.zip mem.cb.amounts.toList

theorem collected_ids (mem : Mem Shared) : (collected mem).map Prod.fst = mem.table.tokens := by
  have bounded := mem.table.bounded
  apply List.map_fst_zip
  simpa using bounded

/-- A new token stands behind the others, and its amount next to it. -/
theorem collected_addToken {id : ErgoId} {value : UInt64} {mem : Mem Shared}
    (room : mem.table.count < tokenMaxCount) :
    collected (addToken id value mem room) = collected mem ++ [(id, value)] := by
  have within : mem.table.tokens.length < mem.cb.amounts.toList.length := by
    simpa [TokenTable.count] using room
  have split : (mem.cb.amounts.setIfInBounds mem.table.count value).toList =
      mem.cb.amounts.toList.take mem.table.tokens.length ++
        value :: mem.cb.amounts.toList.drop (mem.table.tokens.length + 1) := by
    rw [Vector.toList_setIfInBounds, List.set_eq_take_append_cons_drop, TokenTable.count,
      if_pos within]
  have front : (mem.cb.amounts.toList.take mem.table.tokens.length).length =
      mem.table.tokens.length := by
    rw [List.length_take]
    omega
  have before : mem.table.tokens.zip (mem.cb.amounts.toList.take mem.table.tokens.length) =
      collected mem := by
    have whole := List.take_append_drop mem.table.tokens.length mem.cb.amounts.toList
    have zipped : mem.table.tokens.zip mem.cb.amounts.toList =
        (mem.table.tokens ++ []).zip (mem.cb.amounts.toList.take mem.table.tokens.length ++
          mem.cb.amounts.toList.drop mem.table.tokens.length) := by
      rw [List.append_nil, whole]
    rw [collected, zipped, List.zip_append front.symm, List.zip_nil_left, List.append_nil]
  change (mem.table.tokens ++ [id]).zip
    (mem.cb.amounts.setIfInBounds mem.table.count value).toList = _
  rw [split, List.zip_append front.symm, before, List.zip_cons_cons, List.zip_nil_left]

/-! ## What the calls do to them -/

omit [SharedLayout] in
/-- The tokens are as they were. -/
def Untouched (m n : Mem Shared) : Prop := n.table = m.table ∧ n.cb = m.cb

instance : Std.Refl Untouched := ⟨fun _ => ⟨rfl, rfl⟩⟩

instance : IsTrans (Mem Shared) Untouched where
  trans _ _ _ first second := ⟨second.1.trans first.1, second.2.trans first.2⟩

section Untouched

variable {ε : Type}

omit [SharedLayout]

theorem untouched_sdkCall (err : ε) : Moves Untouched (sdkCall err : EStateM ε (Mem Shared) Unit) := by
  intro m
  obtain ⟨faults, table, cb⟩ := m
  rcases faults with _ | ⟨_ | _, rest⟩ <;> exact ⟨rfl, rfl⟩

theorem untouched_sdkCalls (err : ε) (count : Nat) :
    Moves Untouched (sdkCalls err count : EStateM ε (Mem Shared) Unit) := by
  induction count with
  | zero => exact .pure
  | succ count ih => exact .bind (untouched_sdkCall err) fun _ => ih

end Untouched

section Effects

variable {ctx : BoxCtx Shared} (callbacks : ctx.callbacks = boxCallbacks)
include callbacks

theorem untouched_endEffect : Moves Untouched (TxSerBox.endEffect ctx) := by
  unfold TxSerBox.endEffect
  rw [callbacks]
  exact .ite (.bind (untouched_sdkCall _) fun _ => .pure) .pure

theorem untouched_treeChunkEffect (len : Nat) : Moves Untouched (TxSerBox.treeChunkEffect ctx len) := by
  have done : Moves Untouched (TxSerBox.treeDoneEffect { ctx with type := .tree }) := by
    unfold TxSerBox.treeDoneEffect
    refine .bind ?_ fun _ => .bind (untouched_sdkCalls _ _) fun _ => untouched_endEffect callbacks
    rw [callbacks]
    exact .pure
  exact .bind (untouched_sdkCall _) fun _ => .ite done .pure

theorem untouched_registersEffect (len : Nat) :
    Moves Untouched (TxSerBox.registersEffect ctx len) := by
  unfold TxSerBox.registersEffect
  rw [callbacks]
  exact .bind (untouched_sdkCall _) fun _ => .ite .pure .pure

/-- A token is new, and is kept. -/
theorem tokenEffect_keeps {token : InputToken} {m n : Mem Shared} {u : Unit}
    (ok : TxSerBox.tokenEffect ctx (entry token) m = .ok u n) :
    token.1 ∉ m.table.tokens ∧ collected n = collected m ++ [token] := by
  simp only [TxSerBox.tokenEffect, TxSerBox.tokenCallback, callbacks, bind_ok, exists_unit, get_ok,
    invoke, boxCallbacks, whenSome, pure_ok] at ok
  obtain ⟨k, calls, _, _, ⟨rfl, rfl⟩, _, _, taken, -, rfl⟩ := ok
  have quiet : Untouched m k := (untouched_sdkCalls _ _).ok calls
  obtain ⟨room, new, -, rfl⟩ := boxToken_ok.mp taken
  have before : collected k = collected m := by
    rw [collected, quiet.1, quiet.2, collected]
  constructor
  · rw [← quiet.1]
    exact new
  · rw [← before]
    exact collected_addToken room

/-- The tokens of a part are new, and are kept in their order. -/
theorem tokenEffects_keep {tokens : List InputToken} {m n : Mem Shared} {u : Unit}
    (distinct : m.table.tokens.Nodup)
    (ok : runAll (TxSerBox.tokenEffect ctx) (tokens.map entry) m = .ok u n) :
    n.table.tokens.Nodup ∧ collected n = collected m ++ tokens := by
  induction tokens generalizing m with
  | nil =>
      obtain rfl := runAll_nil_ok.mp ok
      exact ⟨distinct, (List.append_nil _).symm⟩
  | cons token tokens ih =>
      obtain ⟨_, k, first, rest⟩ := runAll_cons_ok.mp ok
      obtain ⟨new, kept⟩ := tokenEffect_keeps callbacks first
      have ids : k.table.tokens = m.table.tokens ++ [token.1] := by
        rw [← collected_ids, kept, List.map_append, collected_ids]
        rfl
      have distinct' : k.table.tokens.Nodup := by
        rw [ids]
        exact List.nodup_append.mpr ⟨distinct, List.nodup_singleton _, by
          rintro id here _ there rfl
          rw [List.mem_singleton.mp there] at here
          exact new here⟩
      obtain ⟨distinct'', kept'⟩ := ih distinct' rest
      exact ⟨distinct'', by rw [kept', kept, List.append_assoc, List.singleton_append]⟩

end Effects

/-! ## The stream of a session -/

/-- The serializer works on the box that is sent. -/
structure Streams (d : Delivery) (v : SerState (BoxCtx Shared) Shared) : Prop where
  stream : BoxInv [] (d.record (collected v.mem)) v.ctx v.hash
  sent : d.sent .tokens = (collected v.mem).flatMap InputToken.bytes
  value : v.ctx.value = d.params.value
  callbacks : v.ctx.callbacks = boxCallbacks
  distinct : v.mem.table.tokens.Nodup
  few : d.params.tokensCount.toNat ≤ tokenMaxCount
  phase : v.ctx.state = .initialized ↔ ¬ d.TreeSent

/-- The call of a subcommand that sends a part. -/
def Subcommand.streamCall (cdata : Buffer) :
    Subcommand → Option (EStateM BoxErr (SerState (BoxCtx Shared) Shared) Progress)
  | .treeChunk => some (TxSerBox.addTree cdata)
  | .tokens => some (TxSerBox.addTokens cdata none)
  | .registers => some (TxSerBox.addRegisters cdata)
  | .getResponseFrame => none

theorem Untouched.collected {m n : Mem Shared} (same : Untouched m n) : collected n = collected m := by
  simp only [AttestInput.collected, same.1, same.2]

section Parts

variable {d : Delivery} {cdata : Buffer}
  {s t : SerState (BoxCtx Shared) Shared} {r : Progress}

omit [SharedLayout] in
theorem nextState_ne_initialized {ctx : BoxCtx Shared} :
    TxSerBox.nextState ctx ≠ .initialized := by
  unfold TxSerBox.nextState
  split
  · split <;> exact BoxState.noConfusion
  · exact BoxState.noConfusion

theorem Streams.treeSent (streams : Streams d s) (later : s.ctx.state ≠ .initialized) : d.TreeSent :=
  not_not.mp (mt streams.phase.mpr later)

/-- Until the tree is complete, its size is what is missing. -/
theorem Streams.size_of_initialized (streams : Streams d s) (state : s.ctx.state = .initialized) :
    s.ctx.ergoTreeSize.toNat + (d.sent .treeChunk).length = d.params.ergoTreeSize.toNat := by
  cases streams.stream with
  | initialized _ _ size => exact size
  | treeAdded other | tokensAdded other | finished other => simp [state] at other

theorem Streams.addTree (streams : Streams d s) (ok : TxSerBox.addTree cdata s = .ok r t) :
    Streams (d.add .treeChunk cdata) t := by
  have stream := streams.stream.addTree ok
  obtain ⟨accepted, m, ran, -, rfl⟩ := TxSerBox.addTree_ok.mp ok
  have same : Untouched s.mem m := (untouched_treeChunkEffect streams.callbacks _).ok ran
  have fields : (TxSerBox.treeChunkDone s.ctx cdata.length).value = s.ctx.value ∧
      (TxSerBox.treeChunkDone s.ctx cdata.length).callbacks = s.ctx.callbacks := by
    unfold TxSerBox.treeChunkDone
    split <;> exact ⟨rfl, rfl⟩
  have last : TxSerBox.LastChunk s.ctx cdata.length ↔ (d.add .treeChunk cdata).TreeSent := by
    have size := streams.size_of_initialized accepted.1
    rw [Delivery.treeSent_treeChunk, TxSerBox.LastChunk, Counter.sub_ofNat32_eq_zero accepted.2.1]
    omega
  constructor
  · rw [same.collected, Delivery.record_treeChunk]
    exact stream
  · rw [same.collected, Delivery.sent_add, if_neg Subcommand.noConfusion, List.append_nil, streams.sent]
  · exact fields.1.trans streams.value
  · exact fields.2.trans streams.callbacks
  · rw [same.1]
    exact streams.distinct
  · exact streams.few
  · rw [← last]
    unfold TxSerBox.treeChunkDone
    split
    · exact iff_of_false nextState_ne_initialized (not_not.mpr ‹_›)
    · exact iff_of_true accepted.1 ‹_›

theorem Streams.addRegisters (streams : Streams d s)
    (ok : TxSerBox.addRegisters cdata s = .ok r t) :
    Streams (d.add .registers cdata) t := by
  have stream := streams.stream.addRegisters ok
  obtain ⟨state, -, m, ran, -, rfl⟩ := TxSerBox.addRegisters_ok.mp ok
  have same : Untouched s.mem m := (untouched_registersEffect streams.callbacks _).ok ran
  have fields : (TxSerBox.registersDone s.ctx cdata.length).value = s.ctx.value ∧
      (TxSerBox.registersDone s.ctx cdata.length).callbacks = s.ctx.callbacks := by
    unfold TxSerBox.registersDone
    split <;> exact ⟨rfl, rfl⟩
  constructor
  · rw [same.collected, Delivery.record_registers]
    exact stream
  · rw [same.collected, Delivery.sent_add, if_neg Subcommand.noConfusion, List.append_nil, streams.sent]
  · exact fields.1.trans streams.value
  · exact fields.2.trans streams.callbacks
  · rw [same.1]
    exact streams.distinct
  · exact streams.few
  · have sent : d.TreeSent := streams.treeSent (by rw [state]; exact BoxState.noConfusion)
    refine iff_of_false ?_ (not_not.mpr ((Delivery.treeSent_other Subcommand.noConfusion).mpr sent))
    unfold TxSerBox.registersDone
    split
    · exact BoxState.noConfusion
    · change s.ctx.state ≠ .initialized
      rw [state]
      exact BoxState.noConfusion

theorem Streams.addTokens (streams : Streams d s)
    (ok : TxSerBox.addTokens cdata none s = .ok r t) :
    Streams (d.add .tokens cdata) t := by
  obtain ⟨state, entries, rfl, room, fits, m, ran, -, rfl⟩ := TxSerBox.addTokens_ok.mp ok
  obtain ⟨tokens, rfl⟩ := entries_of_fits fits
  have stream := streams.stream.addTokens state room
  simp only [TxSerBox.tokensEffect, bind_ok, exists_unit] at ran
  obtain ⟨k, taken, ended⟩ := ran
  obtain ⟨distinct, kept⟩ := tokenEffects_keep streams.callbacks streams.distinct taken
  have callbacks : (TxSerBox.tokensTaken s.ctx (tokens.map entry).length).callbacks = boxCallbacks :=
    streams.callbacks
  have same : Untouched k m := (untouched_endEffect callbacks).ok ended
  have all : collected m = collected s.mem ++ tokens := same.collected.trans kept
  constructor
  · rw [all, Delivery.record_tokens]
    exact stream
  · rw [all, Delivery.sent_add, if_pos rfl, raw_entries, List.flatMap_append, streams.sent]
  · exact streams.value
  · exact callbacks
  · rw [same.1]
    exact distinct
  · exact streams.few
  · have sent : d.TreeSent := streams.treeSent (by rw [state]; exact BoxState.noConfusion)
    exact iff_of_false nextState_ne_initialized
      (not_not.mpr ((Delivery.treeSent_other Subcommand.noConfusion).mpr sent))

/-- A part that is accepted goes on with the stream. -/
theorem Streams.step {kind : Subcommand} {call : EStateM BoxErr (SerState (BoxCtx Shared) Shared) Progress}
    (streams : Streams d s) (part : kind.streamCall cdata = some call)
    (ok : call s = .ok r t) : Streams (d.add kind cdata) t := by
  cases kind with
  | treeChunk =>
      obtain rfl := Option.some.inj part
      exact streams.addTree ok
  | tokens =>
      obtain rfl := Option.some.inj part
      exact streams.addTokens ok
  | registers =>
      obtain rfl := Option.some.inj part
      exact streams.addRegisters ok
  | getResponseFrame => cases part

/-- What is missing of the box, and how the serializer counts it. -/
inductive Phase (d : Delivery) (s : SerState (BoxCtx Shared) Shared) : Prop where
  | tree (state : s.ctx.state = .initialized) (missing : ¬ d.TreeSent)
      (left : s.ctx.ergoTreeSize.toNat + (d.sent .treeChunk).length = d.params.ergoTreeSize.toNat)
  | tokens (state : s.ctx.state = .treeAdded) (tree : d.TreeSent)
      (left : s.ctx.tokensCount.toNat + (collected s.mem).length = d.params.tokensCount.toNat)
      (missing : s.ctx.tokensCount ≠ 0)
  | registers (state : s.ctx.state = .tokensAdded) (tree : d.TreeSent)
      (tokens : (collected s.mem).length = d.params.tokensCount.toNat)
      (left : s.ctx.registersSize.toNat + (d.sent .registers).length = d.params.registersSize.toNat)
      (missing : s.ctx.registersSize ≠ 0)
  | finished (state : s.ctx.state = .finished) (tree : d.TreeSent)
      (tokens : (collected s.mem).length = d.params.tokensCount.toNat)
      (registers : (d.sent .registers).length = d.params.registersSize.toNat)

theorem Streams.phases (streams : Streams d s) : Phase d s := by
  have entries : (d.record (collected s.mem)).box.tokens.length = (collected s.mem).length :=
    List.length_map _
  cases streams.stream with
  | initialized state => exact .tree state (streams.phase.mp state) (streams.size_of_initialized state)
  | treeAdded state _ _ count more =>
      rw [entries] at count
      exact .tokens state (streams.treeSent (by simp [state])) count more
  | tokensAdded state _ _ tokens registers more =>
      rw [entries] at tokens
      exact .registers state (streams.treeSent (by simp [state])) tokens registers more
  | finished state _ complete =>
      have tokens := complete.tokens
      rw [entries] at tokens
      exact .finished state (streams.treeSent (by simp [state])) tokens complete.registers

theorem Streams.tokensSent_iff (streams : Streams d s) :
    d.TokensSent ↔ (collected s.mem).length = d.params.tokensCount.toNat := by
  rw [Delivery.TokensSent, streams.sent, InputFrame.length_tokens]
  exact Nat.mul_left_inj (by decide)

/-- The box is finished as soon as it was sent completely. -/
theorem Streams.finished_iff (streams : Streams d s) : s.ctx.state = .finished ↔ d.Done := by
  cases streams.phases with
  | tree state missing => exact iff_of_false (by simp [state]) fun done => missing done.tree
  | tokens state _ left missing =>
      have some := Counter.toNat_pos8.mp missing
      refine iff_of_false (by simp [state]) fun done => ?_
      have all := streams.tokensSent_iff.mp done.tokens
      omega
  | registers state _ _ left missing =>
      have some := Counter.toNat_pos32.mp missing
      refine iff_of_false (by simp [state]) fun done => ?_
      have all := done.registers
      omega
  | finished state tree tokens registers =>
      exact iff_of_true state ⟨tree, streams.tokensSent_iff.mpr tokens, registers⟩

omit [SharedLayout] in
/-- A call that waits for more data leaves the box open. -/
theorem unfinished_of_moreData {kind : Subcommand}
    {call : EStateM BoxErr (SerState (BoxCtx Shared) Shared) Progress}
    (part : kind.streamCall cdata = some call) (ok : call s = .ok .moreData t) :
    t.ctx.state ≠ .finished := by
  cases kind with
  | getResponseFrame => cases part
  | treeChunk =>
      obtain rfl := Option.some.inj part
      obtain ⟨⟨state, -⟩, m, -, more, rfl⟩ := TxSerBox.addTree_ok.mp ok
      have notLast : ¬ TxSerBox.LastChunk s.ctx cdata.length := fun last => by simp [last] at more
      simp [TxSerBox.treeChunkDone, notLast, state]
  | tokens =>
      obtain rfl := Option.some.inj part
      obtain ⟨-, entries, -, -, -, m, -, more, rfl⟩ := TxSerBox.addTokens_ok.mp ok
      have some : (TxSerBox.tokensTaken s.ctx entries.length).tokensCount ≠ 0 := fun none => by
        simp [none] at more
      simp [TxSerBox.treeDone, TxSerBox.nextState, some]
  | registers =>
      obtain rfl := Option.some.inj part
      obtain ⟨state, -, m, -, more, rfl⟩ := TxSerBox.addRegisters_ok.mp ok
      have notLast : ¬ TxSerBox.LastRegisters s.ctx cdata.length := fun last => by simp [last] at more
      simp [TxSerBox.registersDone, notLast, state]

/-- The id of a stream that is complete is that of its box. -/
theorem Streams.complete {sdk : Sdk} {boxId : ErgoId} (streams : Streams d s)
    (ok : TxSerBox.idHash sdk.blake2b256 d.params.txId d.params.boxIndex s = .ok boxId t) :
    d.Carries (collected s.mem) ∧ boxId = d.boxId sdk (collected s.mem) := by
  obtain ⟨state, m, -, id, -⟩ := TxSerBox.idHash_ok.mp ok
  have distinct : ((collected s.mem).map Prod.fst).Nodup := by
    rw [collected_ids]
    exact streams.distinct
  cases streams.stream with
  | initialized other => simp [state] at other
  | treeAdded other => simp [state] at other
  | tokensAdded other => simp [state] at other
  | finished _ bytes complete =>
      refine ⟨⟨complete, streams.sent, distinct⟩, ?_⟩
      rw [← id, bytes, List.nil_append]
      rfl

/-- The stream does not depend on which SDK calls will fail, or on the place of the amounts as long
as there are none. -/
theorem Streams.congr (streams : Streams d s) (ctx : t.ctx = s.ctx) (hash : t.hash = s.hash)
    (table : t.mem.table = s.mem.table) (amounts : t.mem.cb = s.mem.cb ∨ s.mem.table.tokens = []) :
    Streams d t := by
  have same : collected t.mem = collected s.mem := by
    cases amounts with
    | inl amounts => rw [collected, table, amounts, collected]
    | inr none => rw [collected, table, none, collected, none, List.zip_nil_left, List.zip_nil_left]
  constructor
  · rw [same, ctx, hash]
    exact streams.stream
  · rw [same]
    exact streams.sent
  · rw [ctx]
    exact streams.value
  · rw [ctx]
    exact streams.callbacks
  · rw [table]
    exact streams.distinct
  · exact streams.few
  · rw [ctx]
    exact streams.phase

end Parts

/-! ## The session -/

/-- The context is that of the box that is being sent. -/
structure Opened (d : Delivery) (app : App) : Prop where
  boxId : app.attestInputCtx.boxId = d.params.txId
  boxIndex : app.attestInputCtx.boxIndex = d.params.boxIndex
  streams : Streams d (App.ser app)

/-- The box of the session is being sent. -/
structure Sending (d : Delivery) (app : App) : Prop extends Opened d app where
  /-- The user is still asked, or no longer. -/
  state : app.attestInputCtx.state = .approved ∨
    app.attestInputCtx.state = .initialized ∧ app.ui.prompt ≠ none
  missing : ¬ d.Done
  session : app.attestInputCtx.session ≠ 0

/-- The box of the session is complete. -/
structure Delivered (sdk : Sdk) (d : Delivery) (app : App) : Prop where
  state : app.attestInputCtx.state = .finished
  done : d.Done
  carries : d.Carries app.attestInputCtx.attested
  boxId : app.attestInputCtx.boxId = d.boxId sdk app.attestInputCtx.attested
  value : app.attestInputCtx.box.value = d.params.value

section Session

variable {device : Device} {d : Delivery} {s t : App} {reply : Reply}

theorem Sending.unfinished (sending : Sending d s) : s.attestInputCtx.state ≠ .finished := by
  rcases sending.state with state | ⟨state, -⟩ <;>
  · rw [state]
    exact AttestInputState.noConfusion

/-- A box that was started has no part yet. -/
theorem opened_startBox {params : InitParams} {u : Unit} (ok : startBox params s = .ok u t) :
    Opened (.start params) t ∧ t.attestInputCtx.tokensTable.tokens = [] := by
  simp only [startBox, boxCall, bind_ok, exists_unit, modify_ok, zoom_ok, onMem_ok] at ok
  obtain ⟨_, rfl, _, ⟨v, ⟨m, fresh, rfl⟩, rfl⟩, _, rfl, _, ⟨w, inited, rfl⟩, rfl⟩ := ok
  have stream := BoxInv.init inited
  obtain ⟨limits, n, ran, rfl⟩ := TxSerBox.init_ok.mp inited
  have first := sdkCall_frame fresh
  have second := sdkCall_frame ran
  have table : n.table = TokenTable.empty := second.1.trans first.1
  have none : collected n = [] := by
    rw [collected, table]
    rfl
  refine ⟨⟨rfl, rfl, ?_⟩, congrArg TokenTable.tokens table⟩
  constructor
  · change BoxInv [] ((Delivery.start params).record (collected n)) _ _
    rw [none]
    exact stream.congr rfl rfl rfl rfl rfl
  · change [] = (collected n).flatMap InputToken.bytes
    rw [none]
    rfl
  · rfl
  · rfl
  · change n.table.tokens.Nodup
    rw [table]
    exact List.nodup_nil
  · exact limits.1
  · exact iff_of_true rfl Delivery.not_treeSent_start

/-- Only the state, the session and the data of the prompt differ. -/
structure SameBox (s t : AttestInputCtx) : Prop where
  boxId : t.boxId = s.boxId
  boxIndex : t.boxIndex = s.boxIndex
  box : t.box = s.box
  hash : t.hash = s.hash
  tokensTable : t.tokensTable = s.tokensTable

theorem Opened.congr (opened : Opened d s) (same : SameBox s.attestInputCtx t.attestInputCtx)
    (amounts : t.attestInputCtx.shared = s.attestInputCtx.shared ∨
      s.attestInputCtx.tokensTable.tokens = []) : Opened d t :=
  ⟨same.boxId.trans opened.boxId, same.boxIndex.trans opened.boxIndex,
    opened.streams.congr same.box same.hash same.tokensTable amounts⟩

/-- An approval changes nothing of the box. -/
theorem action_ok {approved : Bool} (ok : actionAttestInput approved s = .ok reply t) :
    t.currentCommand = .none ∨
      SameBox s.attestInputCtx t.attestInputCtx ∧
        t.attestInputCtx.shared = s.attestInputCtx.shared ∧ t.attestInputCtx.state = .approved ∧
          t.attestInputCtx.session = s.attestInputCtx.session := by
  cases approved with
  | false =>
      simp only [actionAttestInput, bind_ok, exists_unit, modify_ok, get_ok, Bool.false_eq_true,
        if_false, pure_ok] at ok
      obtain ⟨_, rfl, _, _, ⟨rfl, rfl⟩, _, rfl, _, rfl, -, rfl⟩ := ok
      exact .inl rfl
  | true =>
      simp only [actionAttestInput, bind_ok, exists_unit, modify_ok, get_ok, if_true, pure_ok] at ok
      obtain ⟨_, rfl, _, _, ⟨rfl, rfl⟩, _, rfl, _, rfl, _, rfl, -, rfl⟩ := ok
      exact .inr ⟨⟨rfl, rfl, rfl, rfl, rfl⟩, rfl, rfl, rfl⟩

/-- A session opens with the box that was declared, unless the user has denied it. -/
theorem sending_init {cdata : Buffer} {hasToken : Bool} {appSessionId : UInt32}
    (ok : handleInit device cdata hasToken appSessionId s = .ok reply t) :
    ∃ params rest, readInitParams cdata = some (params, rest) ∧
      (t.currentCommand = .none ∨ Sending (.start params) t) := by
  simp only [handleInit, bind_ok, exists_unit, checkReadParam_ok, checkParamsFinished, ensure_ok,
    modify_ok, Prod.exists] at ok
  obtain ⟨params, rest, _, ⟨read, rfl⟩, token, _, _, ⟨-, rfl⟩, _, ⟨-, rfl⟩, started, ran, _, rfl,
    shown⟩ := ok
  refine ⟨params, rest, read, ?_⟩
  obtain ⟨opened, empty⟩ := opened_startBox ran
  have missing : ¬ (Delivery.start params).Done := fun done => Delivery.not_treeSent_start done.tree
  have session : (App.openSession started).attestInputCtx.session ≠ 0 :=
    (sessionIdNewRandom_fresh _ _).1
  by_cases known : isKnownApplication appSessionId token
  · simp only [if_pos known, bind_ok, exists_unit, modify_ok, get_ok, pure_ok] at shown
    obtain ⟨_, rfl, _, _, ⟨rfl, rfl⟩, -, rfl⟩ := shown
    exact .inr ⟨opened.congr ⟨rfl, rfl, rfl, rfl, rfl⟩ (.inl rfl), .inl rfl, missing, session⟩
  · rw [if_neg known] at shown
    simp only [displayAccessToken, bind_ok, exists_unit, modify_ok] at shown
    obtain ⟨_, rfl, shown⟩ := shown
    cases build : device.build with
    | bagl =>
        simp only [build, bind_ok, exists_unit, modify_ok, pure_ok] at shown
        obtain ⟨_, rfl, -, rfl⟩ := shown
        exact .inr ⟨opened.congr ⟨rfl, rfl, rfl, rfl, rfl⟩ (.inr empty),
          .inr ⟨rfl, Option.some_ne_none _⟩, missing, session⟩
    | nbgl =>
        simp only [build, bind_ok, get_ok] at shown
        obtain ⟨_, _, ⟨rfl, rfl⟩, acted⟩ := shown
        refine (action_ok acted).imp_right ?_
        rintro ⟨same, -, state, named⟩
        refine ⟨opened.congr ⟨same.boxId, same.boxIndex, same.box, same.hash, same.tokensTable⟩
          (.inr empty), .inl state, missing, named ▸ session⟩

/-- A part goes on with the box, or completes it; then the number of the frames is the answer. -/
theorem sending_part {kind : Subcommand} {cdata : Buffer}
    {call : EStateM BoxErr (SerState (BoxCtx Shared) Shared) Progress} (sending : Sending d s)
    (part : kind.streamCall cdata = some call)
    (ok : checkCallBoxFinished device call s = .ok reply t) :
    reply = resOk ∧ Sending (d.add kind cdata) t ∨
      reply = .data [getFramesCount (UInt8.ofNat t.attestInputCtx.tokensTable.count)] ∧
        Delivered device.sdk (d.add kind cdata) t := by
  simp only [checkCallBoxFinished, checkState, boxCall, bind_ok, exists_unit, get_ok, ensure_ok,
    zoom_ok] at ok
  obtain ⟨_, ⟨_, _, ⟨rfl, rfl⟩, approved, rfl⟩, r, _, ⟨v, ran, rfl⟩, finished⟩ := ok
  have streams : Streams (d.add kind cdata) v := sending.streams.step part ran
  have goesOn (missing : v.ctx.state ≠ .finished) : Sending (d.add kind cdata) (App.setSer v s) :=
    ⟨⟨sending.boxId, sending.boxIndex, streams⟩, .inl approved, mt streams.finished_iff.mpr missing,
      sending.session⟩
  cases r with
  | moreData =>
      obtain ⟨rfl, rfl⟩ := pure_ok.mp finished
      exact .inl ⟨rfl, goesOn (unfinished_of_moreData part ran)⟩
  | ok =>
      simp only [checkBoxFinished, bind_ok, get_ok] at finished
      obtain ⟨_, _, ⟨rfl, rfl⟩, finished⟩ := finished
      by_cases complete : TxSerBox.isFinished v.ctx
      · have complete : TxSerBox.isFinished (App.setSer v s).attestInputCtx.box = true := complete
        simp only [if_pos complete, boxCall, bind_ok, exists_unit, zoom_ok, modify_ok, pure_ok] at finished
        obtain ⟨boxId, _, ⟨w, hashed, rfl⟩, _, rfl, rfl, rfl⟩ := finished
        right
        have boxId : (App.setSer v s).attestInputCtx.boxId = d.params.txId := sending.boxId
        have boxIndex : (App.setSer v s).attestInputCtx.boxIndex = d.params.boxIndex := sending.boxIndex
        rw [boxId, boxIndex] at hashed
        obtain ⟨carries, id⟩ := streams.complete hashed
        obtain ⟨-, m, calls, -, rfl⟩ := TxSerBox.idHash_ok.mp hashed
        have untouched : Untouched v.mem m := (untouched_sdkCalls _ _).ok calls
        rw [← untouched.collected] at carries id
        have state : v.ctx.state = .finished := of_decide_eq_true complete
        refine ⟨?_, rfl, streams.finished_iff.mp state, carries, id, streams.value⟩
        change _ = Reply.data [getFramesCount (UInt8.ofNat m.table.count)]
        rw [untouched.1]
        rfl
      · have open_ : ¬ TxSerBox.isFinished (App.setSer v s).attestInputCtx.box = true := complete
        rw [if_neg open_] at finished
        obtain ⟨rfl, rfl⟩ := pure_ok.mp finished
        exact .inl ⟨rfl, goesOn fun state => open_ (decide_eq_true state)⟩

/-- The subcommands that send a part. -/
theorem Subcommand.handle_stream {kind : Subcommand} {cdata : Buffer} {sessionKey : Bytes sessionKeyLen}
    {call : EStateM BoxErr (SerState (BoxCtx Shared) Shared) Progress}
    (part : kind.streamCall cdata = some call) :
    kind.handle device sessionKey cdata = checkCallBoxFinished device call := by
  cases kind with
  | treeChunk | tokens | registers =>
      obtain rfl := Option.some.inj part
      rfl
  | getResponseFrame => cases part

/-- A box that is complete takes no part. -/
theorem Delivered.refuses {call : EStateM BoxErr (SerState (BoxCtx Shared) Shared) Progress}
    (delivered : Delivered device.sdk d s) : checkCallBoxFinished device call s ≠ .ok reply t := by
  intro ok
  simp only [checkCallBoxFinished, checkState, bind_ok, exists_unit, get_ok, ensure_ok] at ok
  obtain ⟨_, ⟨_, _, ⟨rfl, rfl⟩, approved, -⟩, -⟩ := ok
  rw [delivered.state] at approved
  cases approved

end Session

end Stream

end LedgerErgo.AttestInput
