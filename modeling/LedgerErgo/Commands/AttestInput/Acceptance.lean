import LedgerErgo.Commands.AttestInput.Attestation

/-! # Which parts are taken

While no SDK call fails, a session takes the parts that go on with its box, and no others. It is
finished with the part that completes the box.
-/

namespace LedgerErgo.AttestInput

open LedgerErgo.Common LedgerErgo.Ergo LedgerErgo.Prog

namespace Delivery

/-- The parts that go on with the box. The tree comes in full chunks and a rest, the tokens are cut
    between two entries and the registers anywhere. -/
inductive Takes (d : Delivery) : Subcommand → Buffer → Prop where
  | treeChunk {data : Buffer} (missing : ¬ d.TreeSent)
      (room : (d.sent .treeChunk).length + data.length ≤ d.params.ergoTreeSize.toNat)
      (full : data.length < maxDataChunkLen →
        (d.sent .treeChunk).length + data.length = d.params.ergoTreeSize.toNat) :
      Takes d .treeChunk data
  | tokens {tokens more : List InputToken} (tree : d.TreeSent)
      (sent : d.sent .tokens = tokens.flatMap InputToken.bytes)
      (missing : tokens.length < d.params.tokensCount.toNat)
      (room : (tokens ++ more).length ≤ d.params.tokensCount.toNat)
      (distinct : ((tokens ++ more).map Prod.fst).Nodup) :
      Takes d .tokens (more.flatMap InputToken.bytes)
  | registers {data : Buffer} (tree : d.TreeSent) (tokens : d.TokensSent)
      (missing : (d.sent .registers).length < d.params.registersSize.toNat)
      (room : (d.sent .registers).length + data.length ≤ d.params.registersSize.toNat) :
      Takes d .registers data

end Delivery

section Stream

variable [SharedLayout] {d : Delivery} {cdata : Buffer}
  {s t : SerState (BoxCtx Shared) Shared} {r : Progress}

/-! ## A part that is taken -/

/-- A part that is accepted goes on with the box. -/
theorem Streams.takes_of_ok {kind : Subcommand}
    {call : EStateM BoxErr (SerState (BoxCtx Shared) Shared) Progress} (streams : Streams d s)
    (part : kind.streamCall cdata = some call) (ok : call s = .ok r t) : d.Takes kind cdata := by
  cases kind with
  | getResponseFrame => cases part
  | treeChunk =>
      obtain rfl := Option.some.inj part
      obtain ⟨⟨state, room, full⟩, -⟩ := TxSerBox.addTree_ok.mp ok
      have left := streams.size_of_initialized state
      refine .treeChunk (streams.phase.mp state) (by omega) fun short => ?_
      have all : ¬ cdata.length < s.ctx.ergoTreeSize.toNat := fun more => full ⟨more, short⟩
      omega
  | tokens =>
      obtain rfl := Option.some.inj part
      have next := streams.addTokens ok
      obtain ⟨state, entries, rfl, room, fits, m, ran, -, rfl⟩ := TxSerBox.addTokens_ok.mp ok
      obtain ⟨more, rfl⟩ := entries_of_fits fits
      rw [List.length_map] at room
      have bytes := raw_entries more
      have all : collected m = collected s.mem ++ more := by
        apply tokens_of_bytes
        have sent := next.sent
        rw [Delivery.sent_add, if_pos rfl, streams.sent, bytes, ← List.flatMap_append] at sent
        exact sent.symm
      have distinct : ((collected s.mem ++ more).map Prod.fst).Nodup := by
        rw [← all, collected_ids]
        exact next.distinct
      rw [bytes]
      cases streams.phases with
      | tree other | registers other | finished other => simp [state] at other
      | tokens _ tree left missing =>
          have some := Counter.toNat_pos8.mp missing
          exact .tokens tree streams.sent (by omega) (by rw [List.length_append]; omega) distinct
  | registers =>
      obtain rfl := Option.some.inj part
      obtain ⟨state, room, -⟩ := TxSerBox.addRegisters_ok.mp ok
      cases streams.phases with
      | tree other | tokens other | finished other => simp [state] at other
      | registers _ tree tokens left missing =>
          have some := Counter.toNat_pos32.mp missing
          exact .registers tree (streams.tokensSent_iff.mpr tokens) (by omega) (by omega)

section Effects

variable {ctx : BoxCtx Shared} (callbacks : ctx.callbacks = boxCallbacks)
include callbacks

theorem goes_endEffect : Goes [] (TxSerBox.endEffect ctx) := by
  have silent : ctx.callbacks.onFinished = none := by rw [callbacks]; rfl
  exact .silentIf ((Goes.sdkCall _).bind (.unset silent _)) .pure

theorem goes_treeChunkEffect (len : Nat) : Goes [] (TxSerBox.treeChunkEffect ctx len) := by
  have silent : ctx.callbacks.onType = none := by rw [callbacks]; rfl
  have ends : Goes [] (TxSerBox.endEffect { ctx with type := .tree }) := goes_endEffect callbacks
  exact (Goes.sdkCall _).bind
    (.silentIf ((Goes.unset silent _).bind ((Goes.sdkCalls _ _).bind ends)) .pure)

theorem goes_registersEffect (len : Nat) : Goes [] (TxSerBox.registersEffect ctx len) := by
  have silent : ctx.callbacks.onFinished = none := by rw [callbacks]; rfl
  exact (Goes.sdkCall _).bind (.silentIf (.unset silent _) .pure)

/-- A token that is new is kept while there is room. -/
theorem tokenEffect_goes {token : InputToken} {m : Mem Shared} (quiet : m.Quiet)
    (room : m.table.count < tokenMaxCount) (new : token.1 ∉ m.table.tokens) :
    ∃ n, TxSerBox.tokenEffect ctx (entry token) m = .ok () n ∧ n.Quiet := by
  obtain ⟨k, calls, quiet', table, -⟩ := sdkCalls_quiet BoxErr.hasher 2 quiet
  have room' : k.table.count < tokenMaxCount := table ▸ room
  refine ⟨addToken token.1 token.2 k room', ?_, quiet'⟩
  have taken : boxToken (ctx.type, token.1, token.2) k = .ok .ok (addToken token.1 token.2 k room') :=
    boxToken_ok.mpr ⟨room', table ▸ new, rfl, rfl⟩
  simp only [TxSerBox.tokenEffect, TxSerBox.tokenCallback, callbacks, bind_ok, exists_unit, get_ok,
    invoke, boxCallbacks, whenSome, pure_ok]
  exact ⟨k, calls, k, k, ⟨rfl, rfl⟩, .ok, _, taken, trivial, rfl⟩

/-- Tokens that are new are kept while there is room. -/
theorem tokenEffects_go {tokens : List InputToken} {m : Mem Shared} (quiet : m.Quiet)
    (room : (collected m ++ tokens).length ≤ tokenMaxCount)
    (distinct : ((collected m ++ tokens).map Prod.fst).Nodup) :
    ∃ n, runAll (TxSerBox.tokenEffect ctx) (tokens.map entry) m = .ok () n ∧ n.Quiet := by
  induction tokens generalizing m with
  | nil => exact ⟨m, rfl, quiet⟩
  | cons token tokens ih =>
      have count : (collected m).length = m.table.count := by
        rw [← List.length_map Prod.fst, collected_ids]
        rfl
      have here : m.table.count < tokenMaxCount := by
        simp only [List.length_append, List.length_cons] at room
        omega
      have new : token.1 ∉ m.table.tokens := by
        rw [List.map_append, collected_ids] at distinct
        exact fun before => (List.nodup_append.mp distinct).2.2 _ before _ (.head _) rfl
      obtain ⟨k, first, quiet'⟩ := tokenEffect_goes callbacks quiet here new
      have kept : collected k = collected m ++ [token] := (tokenEffect_keeps callbacks first).2
      have split : collected m ++ token :: tokens = collected k ++ tokens := by
        rw [kept, List.append_assoc, List.singleton_append]
      rw [split] at room distinct
      obtain ⟨n, rest, quiet''⟩ := ih quiet' room distinct
      exact ⟨n, runAll_cons_ok.mpr ⟨(), k, first, rest⟩, quiet''⟩

end Effects

/-- While no SDK call fails, a part that goes on with the box is accepted. -/
theorem Streams.ok_of_takes {kind : Subcommand}
    {call : EStateM BoxErr (SerState (BoxCtx Shared) Shared) Progress} (streams : Streams d s)
    (quiet : s.mem.Quiet) (part : kind.streamCall cdata = some call) (takes : d.Takes kind cdata) :
    ∃ r t, call s = .ok r t ∧ t.mem.Quiet := by
  cases takes with
  | treeChunk missing room full =>
      obtain rfl := Option.some.inj part
      have state : s.ctx.state = .initialized := streams.phase.mpr missing
      have left := streams.size_of_initialized state
      obtain ⟨m, ran, quiet', -⟩ :=
        goes_treeChunkEffect streams.callbacks cdata.length [] s.mem quiet trivial
      refine ⟨_, _, TxSerBox.addTree_ok.mpr ⟨⟨state, by omega, ?_⟩, m, ran, rfl, rfl⟩, quiet'⟩
      rintro ⟨more, short⟩
      have all := full short
      omega
  | @tokens tokens more tree sent missing room distinct =>
      obtain rfl := Option.some.inj part
      obtain rfl : collected s.mem = tokens := tokens_of_bytes (streams.sent.symm.trans sent)
      cases streams.phases with
      | tree _ none => exact (none tree).elim
      | registers _ _ all | finished _ _ all => omega
      | tokens state _ left _ =>
          have few := streams.few
          obtain ⟨k, taken, quiet'⟩ :=
            tokenEffects_go streams.callbacks quiet (room.trans few) distinct
          have ends : Goes [] (TxSerBox.endEffect (TxSerBox.tokensTaken s.ctx (more.map entry).length)) :=
            goes_endEffect streams.callbacks
          obtain ⟨m, ended, quiet'', -⟩ := ends [] k quiet' trivial
          rw [List.length_append] at room
          refine ⟨_, _, TxSerBox.addTokens_ok.mpr ⟨state, more.map entry, (raw_entries more).symm, ?_, ?_, m,
            bind_ok.mpr ⟨(), k, taken, ended⟩, rfl, rfl⟩, quiet''⟩
          · rw [List.length_map]
            omega
          · intro token here
            obtain ⟨token, -, rfl⟩ := List.mem_map.mp here
            trivial
  | registers tree tokens missing room =>
      obtain rfl := Option.some.inj part
      have all := streams.tokensSent_iff.mp tokens
      cases streams.phases with
      | tree _ none => exact (none tree).elim
      | tokens _ _ left more =>
          have some := Counter.toNat_pos8.mp more
          omega
      | finished _ _ _ done => omega
      | registers state _ _ left _ =>
          obtain ⟨m, ran, quiet', -⟩ :=
            goes_registersEffect streams.callbacks cdata.length [] s.mem quiet trivial
          exact ⟨_, _, TxSerBox.addRegisters_ok.mpr ⟨state, by omega, m, ran, rfl, rfl⟩, quiet'⟩

/-! ## The session -/

section Session

variable {device : Device} {app : App} {kind : Subcommand}
  {call : EStateM BoxErr (SerState (BoxCtx Shared) Shared) Progress}

/-- No SDK call will fail. -/
def App.Reliable (app : App) : Prop := ∀ failed ∈ app.supply.faults, failed = false

/-- The session is the one that it was. -/
structure SessionKept (s t : App) : Prop where
  command : t.currentCommand = s.currentCommand
  busy : t.isUiBusy = s.isUiBusy
  session : t.attestInputCtx.session = s.attestInputCtx.session

/-- While no SDK call fails, a part that goes on with the box is accepted, and the session stays. -/
theorem Sending.ok_of_takes (sending : Sending d app) (approved : app.attestInputCtx.state = .approved)
    (reliable : App.Reliable app) (part : kind.streamCall cdata = some call)
    (takes : d.Takes kind cdata) :
    ∃ reply next, checkCallBoxFinished device call app = .ok reply next ∧ App.Reliable next ∧
      SessionKept app next := by
  obtain ⟨r, v, ran, quiet⟩ := sending.streams.ok_of_takes reliable part takes
  have state : (checkState .approved : AppM Unit) app = .ok () app := by
    rw [checkState, get_bind]
    exact ensure_of approved
  have called : boxCall call app = .ok r (App.setSer v app) := zoom_ok.mpr ⟨v, ran, rfl⟩
  cases r with
  | moreData =>
      have goesOn : checkCallBoxFinished device call app = .ok resOk (App.setSer v app) :=
        (bind_of_ok state).trans (bind_of_ok called)
      exact ⟨_, _, goesOn, quiet, ⟨rfl, rfl, rfl⟩⟩
  | ok =>
      have goesOn : checkCallBoxFinished device call app = checkBoxFinished device (App.setSer v app) :=
        (bind_of_ok state).trans (bind_of_ok called)
      rw [goesOn, checkBoxFinished, get_bind]
      by_cases complete : TxSerBox.isFinished v.ctx
      swap
      · have open_ : ¬ TxSerBox.isFinished (App.setSer v app).attestInputCtx.box = true := complete
        rw [if_neg open_]
        exact ⟨_, _, rfl, quiet, ⟨rfl, rfl, rfl⟩⟩
      · obtain ⟨m, calls, quiet', -⟩ := sdkCalls_quiet BoxErr.hasher 3 quiet
        have hashed := TxSerBox.idHash_ok.mpr ⟨of_decide_eq_true complete, m, calls,
          Eq.refl (device.sdk.blake2b256 (v.hash ++ (app.attestInputCtx.boxId.val ++
            vlq app.attestInputCtx.boxIndex.toNat))), rfl⟩
        have called : boxCall (TxSerBox.idHash device.sdk.blake2b256 app.attestInputCtx.boxId
            app.attestInputCtx.boxIndex) (App.setSer v app) = .ok _ _ :=
          zoom_ok.mpr ⟨_, hashed, rfl⟩
        have complete : TxSerBox.isFinished (App.setSer v app).attestInputCtx.box = true := complete
        rw [if_pos complete]
        exact ⟨_, _, (bind_of_ok called).trans rfl, quiet', ⟨rfl, rfl, rfl⟩⟩

/-- A part that is accepted goes on with the box. -/
theorem Sending.takes_of_ok {reply : Reply} {next : App} (sending : Sending d app)
    (part : kind.streamCall cdata = some call)
    (ok : checkCallBoxFinished device call app = .ok reply next) : d.Takes kind cdata := by
  simp only [checkCallBoxFinished, boxCall, bind_ok, zoom_ok] at ok
  obtain ⟨_, m, checked, r, _, ⟨v, ran, -⟩, -⟩ := ok
  simp only [checkState, bind_ok, get_ok, ensure_ok] at checked
  obtain ⟨_, _, ⟨rfl, rfl⟩, -, rfl⟩ := checked
  exact sending.streams.takes_of_ok part ran

omit [SharedLayout] in
/-- A box that is complete takes no part. -/
theorem Delivery.Done.takes_nothing (done : d.Done) : ¬ d.Takes kind cdata := by
  intro takes
  cases takes with
  | treeChunk missing => exact missing done.tree
  | @tokens tokens _ _ sent missing =>
      have all := done.tokens
      rw [Delivery.TokensSent, sent, InputFrame.length_tokens, frameTokenValuePairSize] at all
      omega
  | registers _ _ missing =>
      have all := done.registers
      omega

end Session

end Stream

end LedgerErgo.AttestInput
