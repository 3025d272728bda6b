import LedgerErgo.Commands.SignTx.Ledger
import LedgerErgo.Commands.SignTx.OutputPhase

/-! # What the calls of the serializers post

While a serializer works it shows tokens and trees to the callbacks of the operation. Each
callback makes one entry in the ledger; everything else a serializer does to the shared
memory makes none.
-/

namespace LedgerErgo.SignTx

open LedgerErgo.Common LedgerErgo.Ergo LedgerErgo.Prog TxSerBox

/-- The id an entry of an output stands for. -/
def refId (ids : List ErgoId) : TokenRef → ErgoId
  | .id id => id
  | .index index => ids.getD index.toNat (Bytes.zero 32)

theorem resolve_eq {ids : List ErgoId} {table : TokenTable} {ctx : TableCtx} {ref : TokenRef}
    (first : ids <+: table.tokens) (distinct : ctx.distinctTokensCount.toNat ≤ ids.length)
    (fits : ref.Fits (some ctx)) : resolve table ref = refId ids ref := by
  cases ref with
  | id id => exact fits.elim
  | index index =>
      have within : index.toNat < ids.length := Nat.lt_of_lt_of_le fits distinct
      obtain ⟨more, same⟩ := first
      rw [resolve, refId, TokenTable.slot, ← same, List.getD_eq_getElem?_getD,
        List.getElem?_append_left within, List.getD_eq_getElem?_getD]

/-- A success makes these entries: it keeps the books, and the totals fit after each entry.
    The ids are the first ones of the table throughout. -/
def Posts {ε : Type} (ids : List ErgoId) (postings : List Posting)
    (effect : EStateM ε (Mem OpMem) Unit) : Prop :=
  ∀ ledger m u n, ids <+: m.table.tokens → Books ledger m → effect m = .ok u n →
    ids <+: n.table.tokens ∧ Books (ledger.postAll postings) n ∧ ledger.StaysInRange postings

namespace Posts

variable {ε : Type} {ids : List ErgoId} {a b : List Posting} {x y : EStateM ε (Mem OpMem) Unit}

theorem bind (first : Posts ids a x) (second : Posts ids b y) : Posts ids (a ++ b) (do x; y) := by
  intro ledger m u n known books ok
  simp only [bind_ok, exists_unit] at ok
  obtain ⟨k, early, late⟩ := ok
  obtain ⟨known', books', range⟩ := first ledger m () k known books early
  obtain ⟨known'', books'', range'⟩ := second _ k u n known' books' late
  refine ⟨known'', ?_, Ledger.staysInRange_append range range'⟩
  rw [Ledger.postAll, List.foldl_append]
  exact books''

/-- An effect that makes no entry. -/
theorem none (keeps : ∀ ledger m u n, Books ledger m → x m = .ok u n →
    n.table.Extends m.table ∧ Books ledger n) : Posts ids [] x := by
  intro ledger m u n known books ok
  obtain ⟨extended, books'⟩ := keeps ledger m u n books ok
  exact ⟨known.trans extended, books', Ledger.staysInRange_nil books.inRange⟩

/-- An effect that makes one. -/
theorem one {posting : Posting} (keeps : ∀ ledger m u n, ids <+: m.table.tokens → Books ledger m →
    x m = .ok u n → n.table.Extends m.table ∧ Books (ledger.post posting) n) :
    Posts ids [posting] x := by
  intro ledger m u n known books ok
  obtain ⟨extended, books'⟩ := keeps ledger m u n known books ok
  exact ⟨known.trans extended, books', Ledger.staysInRange_one books.inRange books'.inRange⟩

/-- An effect that touches neither the table nor what the callbacks work on. -/
theorem quiet (same : ∀ m u n, x m = .ok u n → n.table = m.table ∧ n.cb = m.cb) :
    Posts ids [] x := by
  apply none
  intro ledger m u n books ok
  obtain ⟨table, cb⟩ := same m u n ok
  have extended : n.table.Extends m.table := by rw [table]
  exact ⟨extended, books.extend extended cb⟩

theorem pure : Posts ids [] (Pure.pure () : EStateM ε (Mem OpMem) Unit) := by
  apply quiet
  intro m u n ok
  obtain ⟨-, rfl⟩ := pure_ok.mp ok
  exact ⟨rfl, rfl⟩

theorem sdkCalls (err : ε) (count : Nat) : Posts ids [] (sdkCalls err count) :=
  quiet fun _ _ _ ok => sdkCalls_frame ok

theorem sdkCall (err : ε) : Posts ids [] (sdkCall err) :=
  quiet fun _ _ _ ok => sdkCall_frame ok

theorem ite {p : Prop} [Decidable p] (yes : Posts ids a x) (no : Posts ids a y) :
    Posts ids a (if p then x else y) := by
  split
  · exact yes
  · exact no

theorem runAll {β : Type} {step : β → EStateM ε (Mem OpMem) Unit} {posting : β → Posting}
    {bs : List β} (each : ∀ b ∈ bs, Posts ids [posting b] (step b)) :
    Posts ids (bs.map posting) (runAll step bs) := by
  induction bs with
  | nil => exact pure
  | cons b bs ih =>
      exact (each b (by simp)).bind (ih fun b here => each b (by simp [here]))

end Posts

/-! ## The callbacks -/

namespace Posts

variable {ids : List ErgoId}

theorem onInputToken {ctx : InputCtx OpMem} (callback : ctx.onTokenCb = some p2pkInputTokenCb)
    (token : InputToken) : Posts ids [.inputToken token] (TxSerInput.tokenCallback ctx token) := by
  apply one
  intro ledger m u n _ books ok
  simp only [TxSerInput.tokenCallback, callback, invoke, whenSome, bind_ok, pure_ok] at ok
  obtain ⟨_, k, ran, -, rfl⟩ := ok
  refine ⟨p2pkInputTokenCb.appends _ _ _ _ ran, ?_⟩
  simp only [p2pkInputTokenCb, bind_ok, get_ok, ofExcept_ok, set_ok, Prod.exists] at ran
  obtain ⟨_, _, ⟨rfl, rfl⟩, amounts, table, _, ⟨added, rfl⟩, rfl⟩ := ran
  exact books.addInputToken added

theorem onType (type : BoxType) (value : UInt64) :
    Posts ids [.tree type value] (invoke (some p2pkOutputTypeCb) (type, value)) := by
  apply one
  intro ledger m u n _ books ok
  refine ⟨invoke_extends ok, ?_⟩
  simp only [invoke, whenSome, p2pkOutputTypeCb, boxCallback, bind_ok, get_ok, ofExcept_ok, set_ok,
    pure_ok] at ok
  obtain ⟨_, _, ⟨_, _, ⟨_, _, ⟨rfl, rfl⟩, amounts, _, ⟨added, rfl⟩, rfl⟩, -, rfl⟩, -, rfl⟩ := ok
  exact books.addTree added

theorem onToken (type : BoxType) (token : InputToken) :
    Posts ids [.outputToken token] (invoke (some p2pkOutputTokenCb) (type, token)) := by
  apply one
  intro ledger m u n _ books ok
  refine ⟨invoke_extends ok, ?_⟩
  simp only [invoke, whenSome, p2pkOutputTokenCb, boxCallback, bind_ok, get_ok, ofExcept_ok, set_ok,
    pure_ok] at ok
  obtain ⟨_, _, ⟨_, _, ⟨_, _, ⟨rfl, rfl⟩, _, _, ⟨shown, rfl⟩, _, _, ⟨charged, rfl⟩, rfl⟩, -, rfl⟩,
    -, rfl⟩ := ok
  exact books.addOutputToken shown charged

theorem onFinished (sdk : Sdk) (type : BoxType) :
    Posts ids [] (invoke (some (p2pkOutputFinishedCb sdk)) type) := by
  apply none
  intro ledger m u n books ok
  refine ⟨invoke_extends ok, ?_⟩
  simp only [invoke, whenSome, p2pkOutputFinishedCb, boxCallback, bind_ok, get_ok, modify_ok,
    pure_ok] at ok
  obtain ⟨_, _, ⟨_, _, ⟨_, _, ⟨rfl, rfl⟩, output, k, ran, rfl⟩, -, rfl⟩, -, rfl⟩ := ok
  obtain ⟨rfl, table, cb⟩ := setBoxFinished_ok ran
  refine books.congr table ?_ ?_
  · rw [cb]
  · exact finishTree_tokens.1

end Posts

/-! ## The effects of the box serializer -/

namespace Posts

variable {ids : List ErgoId} {sdk : Sdk} {ctx : BoxCtx OpMem}
  (callbacks : ctx.callbacks = outputCallbacks sdk)
include callbacks

theorem endEffect : Posts ids [] (endEffect ctx) := by
  unfold TxSerBox.endEffect
  rw [callbacks]
  exact ite ((sdkCall _).bind (onFinished sdk _)) pure

theorem treeDoneEffect : Posts ids [.tree ctx.type ctx.value] (treeDoneEffect ctx) := by
  unfold TxSerBox.treeDoneEffect
  rw [callbacks]
  exact (onType ctx.type ctx.value).bind ((sdkCalls _ 2).bind (endEffect callbacks))

theorem tokenEffect {table : TableCtx} {token : BoxToken}
    (distinct : table.distinctTokensCount.toNat ≤ ids.length)
    (fits : token.ref.Fits (some table)) :
    Posts ids [.outputToken (refId ids token.ref, token.amount)] (tokenEffect ctx token) := by
  have shown : Posts ids [.outputToken (refId ids token.ref, token.amount)]
      (tokenCallback ctx token) := by
    intro ledger m u n known books ok
    simp only [TxSerBox.tokenCallback, callbacks, bind_ok, get_ok] at ok
    obtain ⟨_, _, ⟨rfl, rfl⟩, ran⟩ := ok
    rw [resolve_eq known distinct fits] at ran
    exact onToken _ (refId ids token.ref, token.amount) ledger m u n known books ran
  exact (sdkCalls _ 2).bind shown

end Posts

/-- What a call about a part of a box of this value makes of the ledger. -/
def partPostings (ids : List ErgoId) (value : UInt64) : BoxCall → List Posting
  | .tree _ | .registers _ => []
  | .changeTree _ => [.tree .change value]
  | .minersFeeTree _ => [.tree .fee value]
  | .tokens input =>
      (readEntries input.length input).map fun token =>
        .outputToken (refId ids token.ref, token.amount)

section Calls

variable {ids : List ErgoId} {ledger : Ledger}

/-- A call about a part of a box. -/
theorem Books.part {sdk : Sdk} {call : BoxCall} {table : TableCtx}
    {s t : SerState (BoxCtx OpMem) OpMem} {r : Progress} (books : Books ledger s.mem)
    (known : ids <+: s.mem.table.tokens)
    (distinct : table.distinctTokensCount.toNat ≤ ids.length)
    (callbacks : s.ctx.callbacks = outputCallbacks sdk) (ok : call.run table s = .ok r t) :
    (ids <+: t.mem.table.tokens ∧ Books (ledger.postAll (partPostings ids s.ctx.value call)) t.mem ∧
      ledger.StaysInRange (partPostings ids s.ctx.value call)) ∧ t.ctx.value = s.ctx.value := by
  cases call with
  | tree chunk =>
      obtain ⟨-, m, ran, -, rfl⟩ := addTree_ok.mp ok
      refine ⟨?_, ?_⟩
      · have tree : Posts ids [.tree .tree s.ctx.value]
            (treeDoneEffect { s.ctx with type := .tree }) := .treeDoneEffect callbacks
        have done : Posts ids [] (treeDoneEffect { s.ctx with type := .tree }) := by
          intro ledger m u n known books ok
          obtain ⟨known', books', range⟩ := tree ledger m u n known books ok
          exact ⟨known', books', Ledger.staysInRange_nil books.inRange⟩
        exact (Posts.sdkCall _).bind (.ite done .pure) ledger _ _ _ known books ran
      · simp only [treeChunkDone]
        split <;> rfl
  | changeTree rawPubKey =>
      obtain ⟨-, m, ran, rfl⟩ := addWholeTree_ok.mp (BoxCall.run_wholeTree_ok.mp ok).1
      have done : Posts ids [.tree .change s.ctx.value]
          (treeDoneEffect { s.ctx with type := .change }) := .treeDoneEffect callbacks
      exact ⟨(Posts.sdkCall _).bind done ledger _ _ _ known books ran, rfl⟩
  | minersFeeTree isMainnet =>
      obtain ⟨-, m, ran, rfl⟩ := addWholeTree_ok.mp (BoxCall.run_wholeTree_ok.mp ok).1
      have done : Posts ids [.tree .fee s.ctx.value]
          (treeDoneEffect { s.ctx with type := .fee }) := .treeDoneEffect callbacks
      exact ⟨(Posts.sdkCall _).bind done ledger _ _ _ known books ran, rfl⟩
  | tokens input =>
      obtain ⟨-, entries, rfl, -, fit, m, ran, -, rfl⟩ := addTokens_ok.mp ok
      have byIndex : ∀ entry ∈ entries, entry.ref.isId = false :=
        fun entry here => (fit entry here).isId
      have each : ∀ entry ∈ entries, Posts ids
          [.outputToken (refId ids entry.ref, entry.amount)] (tokenEffect s.ctx entry) :=
        fun entry here => .tokenEffect callbacks distinct (fit entry here)
      have ends : Posts ids [] (endEffect (tokensTaken s.ctx entries.length)) :=
        .endEffect callbacks
      have shown : Posts ids
          (entries.map fun entry => .outputToken (refId ids entry.ref, entry.amount))
          (runAll (tokenEffect s.ctx) entries) := .runAll each
      have all := shown.bind ends
      rw [List.append_nil] at all
      refine ⟨?_, rfl⟩
      rw [partPostings, readEntries_raw byIndex le_rfl]
      exact all ledger _ _ _ known books ran
  | registers chunk =>
      obtain ⟨-, -, m, ran, -, rfl⟩ := addRegisters_ok.mp ok
      have all : Posts ids [] (registersEffect s.ctx chunk.length) := by
        unfold registersEffect
        rw [callbacks]
        exact (Posts.sdkCall _).bind (.ite (.onFinished sdk _) .pure)
      refine ⟨all ledger _ _ _ known books ran, ?_⟩
      simp only [registersDone]
      split <;> rfl

/-- A frame of tokens. -/
theorem Books.frame {boxId : ErgoId} {frameIndex : UInt8} {tokens : Buffer}
    {s t : SerState (InputCtx OpMem) OpMem} {r : Progress} (books : Books ledger s.mem)
    (known : ids <+: s.mem.table.tokens)
    (callback : s.ctx.onTokenCb = some p2pkInputTokenCb)
    (ok : TxSerInput.addTokens boxId frameIndex tokens s = .ok r t) :
    ∃ items : List InputToken, tokens = items.flatMap InputToken.bytes ∧
      (ids <+: t.mem.table.tokens ∧ Books (ledger.postAll (items.map .inputToken)) t.mem ∧
        ledger.StaysInRange (items.map .inputToken)) ∧ t.ctx.onTokenCb = some p2pkInputTokenCb := by
  obtain ⟨-, items, rfl, m, callbacks, n, calls, rfl, -⟩ := TxSerInput.addTokens_ok.mp ok
  have all : Posts ids (items.map .inputToken) (runAll (TxSerInput.tokenCallback s.ctx) items) :=
    .runAll fun token _ => .onInputToken callback token
  obtain ⟨known', books', range⟩ := all ledger _ _ _ known books callbacks
  obtain ⟨known'', books'', -⟩ := Posts.sdkCalls _ _ _ _ _ _ known' books' calls
  exact ⟨items, rfl, ⟨known'', books'', range⟩, callback⟩

end Calls

end LedgerErgo.SignTx
