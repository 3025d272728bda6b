import LedgerErgo.Commands.SignTx.OpP2pk

/-! # The books of a transaction

The ledger lists the amounts a transaction is made of, one by one, as they were sent. The
books say what the amounts of the operation have to do with it: they are the totals of
the ledger, as numbers without a bound. Every callback keeps the books.
-/

namespace LedgerErgo.SignTx

open LedgerErgo.Common LedgerErgo.Ergo LedgerErgo.Prog TxSerBox

/-- The amounts that were sent, each in order; tokens under the ids they stand for. -/
structure Ledger where
  /-- The distinct ids of the transaction. -/
  ids : List ErgoId
  inputs : List UInt64
  inputTokens : List InputToken
  change : List UInt64
  fees : List UInt64
  outputTokens : List InputToken
  /-- The value of the output that was started last. -/
  value : UInt64
  /-- The tokens of the output that was started last. -/
  boxTokens : List InputToken

/-- One entry of the ledger. -/
inductive Posting where
  | ids (ids : List ErgoId)
  | input (value : UInt64)
  | inputToken (token : InputToken)
  | output (value : UInt64)
  | tree (type : BoxType) (value : UInt64)
  | outputToken (token : InputToken)

/-- A total without a bound. -/
def total (values : List UInt64) : Nat := (values.map UInt64.toNat).sum

/-- How much of a token there is. -/
def amountOf (id : ErgoId) (tokens : List InputToken) : Nat :=
  total ((tokens.filter (·.1 = id)).map Prod.snd)

@[simp] theorem total_concat (values : List UInt64) (value : UInt64) :
    total (values ++ [value]) = total values + value.toNat := by
  simp [total]

@[simp] theorem amountOf_nil (id : ErgoId) : amountOf id [] = 0 := rfl

@[simp] theorem amountOf_concat (id : ErgoId) (tokens : List InputToken) (token : InputToken) :
    amountOf id (tokens ++ [token]) =
      amountOf id tokens + if token.1 = id then token.2.toNat else 0 := by
  by_cases same : token.1 = id
  · simp [amountOf, total, same]
  · simp [amountOf, total, same]

theorem amountOf_eq_zero {id : ErgoId} {tokens : List InputToken}
    (absent : ∀ token ∈ tokens, token.1 ≠ id) : amountOf id tokens = 0 := by
  have none : tokens.filter (·.1 = id) = [] := by
    rw [List.filter_eq_nil_iff]
    intro token here
    simpa using absent token here
  rw [amountOf, none]
  rfl

namespace Ledger

/-- Nothing was sent yet. -/
def empty : Ledger := ⟨[], [], [], [], [], [], 0, []⟩

/-- Another entry. The value of a change or fee box does not leave the wallet. -/
def post (ledger : Ledger) : Posting → Ledger
  | .ids ids => { ledger with ids := ledger.ids ++ ids }
  | .input value => { ledger with inputs := ledger.inputs ++ [value] }
  | .inputToken token => { ledger with inputTokens := ledger.inputTokens ++ [token] }
  | .output value => { ledger with value := value, boxTokens := [] }
  | .tree .change value => { ledger with change := ledger.change ++ [value] }
  | .tree .fee value => { ledger with fees := ledger.fees ++ [value] }
  | .tree .tree _ => ledger
  | .outputToken token =>
      { ledger with
        outputTokens := ledger.outputTokens ++ [token]
        boxTokens := ledger.boxTokens ++ [token] }

/-- Entry after entry. -/
def postAll (ledger : Ledger) (postings : List Posting) : Ledger := postings.foldl post ledger

/-- What goes in of a token less what comes out. -/
def net (ledger : Ledger) (id : ErgoId) : Int :=
  amountOf id ledger.inputTokens - amountOf id ledger.outputTokens

/-- The totals fit the numbers of the operation. -/
structure InRange (ledger : Ledger) : Prop where
  fees : total ledger.fees < 2 ^ 64
  covered : total ledger.change + total ledger.fees ≤ total ledger.inputs
  value : total ledger.inputs < total ledger.change + total ledger.fees + 2 ^ 64
  net : ∀ id, -2 ^ 63 ≤ ledger.net id ∧ ledger.net id < 2 ^ 63

/-- The totals fit after every entry. -/
def StaysInRange (ledger : Ledger) (postings : List Posting) : Prop :=
  ∀ done, done <+: postings → (ledger.postAll done).InRange

theorem staysInRange_nil {ledger : Ledger} (here : ledger.InRange) : ledger.StaysInRange [] := by
  intro done first
  rw [List.prefix_nil.mp first]
  exact here

theorem staysInRange_one {ledger : Ledger} {posting : Posting} (here : ledger.InRange)
    (after : (ledger.post posting).InRange) : ledger.StaysInRange [posting] := by
  intro done first
  have first : done <+: [] ++ [posting] := first
  rcases List.prefix_concat_iff.mp first with rfl | none
  · exact after
  · rw [List.prefix_nil.mp none]
    exact here

theorem staysInRange_append {ledger : Ledger} {early late : List Posting}
    (first : ledger.StaysInRange early) (second : (ledger.postAll early).StaysInRange late) :
    ledger.StaysInRange (early ++ late) := by
  intro done begins
  rcases List.prefix_or_prefix_of_prefix begins (List.prefix_append early late) with within | beyond
  · exact first done within
  · obtain ⟨more, rfl⟩ := beyond
    rw [postAll, List.foldl_append]
    exact second more ((List.prefix_append_right_inj early).mp begins)

end Ledger

/-! ## One number for each token -/

/-- The slots of an array have one number for each token: the number of an id is in the slot in
    which the table finds it, and all other slots are zero. -/
structure PerId (table : TokenTable) (slots : Nat → Int) (amount : ErgoId → Int) : Prop where
  found : ∀ id i, table.findTokenIndex id = some i → slots i = amount id
  zero : ∀ i, (∀ id, table.findTokenIndex id ≠ some i) → slots i = 0

namespace PerId

variable {table : TokenTable} {slots slots' : Nat → Int} {amount amount' : ErgoId → Int}

/-- Add to the number of one id. -/
theorem add (perId : PerId table slots amount) {id : ErgoId} {index : Nat} (more : Int)
    (found : table.findTokenIndex id = some index)
    (here : slots' index = slots index + more) (others : ∀ i ≠ index, slots' i = slots i)
    (amounts : ∀ id', amount' id' = amount id' + if id = id' then more else 0) :
    PerId table slots' amount' := by
  constructor
  · intro id' i found'
    by_cases same : id = id'
    · subst same
      obtain rfl : index = i := Option.some.inj (found.symm.trans found')
      rw [here, amounts, perId.found id index found, if_pos rfl]
    · have other : i ≠ index := by
        intro equal
        subst equal
        have slot := (TokenTable.findTokenIndex_some found).2
        have slot' := (TokenTable.findTokenIndex_some found').2
        exact same (slot.symm.trans slot')
      rw [others i other, amounts, perId.found id' i found', if_neg same, add_zero]
  · intro i unowned
    have other : i ≠ index := by
      intro equal
      exact unowned id (equal ▸ found)
    rw [others i other]
    exact perId.zero i unowned

/-- New ids have the number zero. -/
theorem extend {table' : TokenTable} (perId : PerId table slots amount)
    (extended : table'.Extends table)
    (fresh : ∀ id, id ∉ table.tokens → amount' id = 0)
    (same : ∀ id, id ∈ table.tokens → amount' id = amount id) : PerId table' slots amount' := by
  have old : ∀ id, id ∈ table.tokens → table'.findTokenIndex id = table.findTokenIndex id :=
    fun id known => extended.findTokenIndex known
  constructor
  · intro id i found
    by_cases known : id ∈ table.tokens
    · rw [same id known]
      exact perId.found id i ((old id known).symm.trans found)
    · rw [fresh id known]
      apply perId.zero
      intro id' found'
      have known' : id' ∈ table.tokens := by
        obtain ⟨within, slot⟩ := TokenTable.findTokenIndex_some found'
        rw [← slot]
        exact TokenTable.slot_mem within
      have slot := (TokenTable.findTokenIndex_some found).2
      have slot' := (TokenTable.findTokenIndex_some ((old id' known').trans found')).2
      exact known (slot ▸ slot' ▸ known')
  · intro i unowned
    apply perId.zero
    intro id found
    have known : id ∈ table.tokens := by
      obtain ⟨within, slot⟩ := TokenTable.findTokenIndex_some found
      rw [← slot]
      exact TokenTable.slot_mem within
    exact unowned id ((old id known).trans found)

end PerId

/-! ## The books -/

/-- The amounts of the operation are the totals of the ledger. -/
structure Books (ledger : Ledger) (m : Mem OpMem) : Prop where
  fee : m.cb.amounts.fee.toNat = total ledger.fees
  value : m.cb.amounts.value.toNat + total ledger.change + total ledger.fees = total ledger.inputs
  known : ∀ token ∈ ledger.inputTokens, token.1 ∈ m.table.tokens
  knownOut : ∀ token ∈ ledger.outputTokens, token.1 ∈ m.table.tokens
  knownBox : ∀ token ∈ ledger.boxTokens, token.1 ∈ m.table.tokens
  tokens : PerId m.table (fun i => (m.cb.amounts.tokens[i]?.getD 0).toInt) ledger.net
  boxTokens : PerId m.table (fun i => (m.cb.output.tokens[i]?.getD 0).toNat)
    (fun id => amountOf id ledger.boxTokens)

section Slots

variable {α : Type} {slots : PerToken α} {i j : Nat} {a zero : α}

theorem getD_set_self (within : i < tokenMaxCount) :
    (slots.setIfInBounds i a)[i]?.getD zero = a := by
  simp [within]

theorem getD_set_ne (other : j ≠ i) :
    (slots.setIfInBounds i a)[j]?.getD zero = slots[j]?.getD zero := by
  simp [Ne.symm other]

end Slots

namespace Books

variable {ledger : Ledger} {m : Mem OpMem}

theorem net_eq_zero (books : Books ledger m) {id : ErgoId} (unknown : id ∉ m.table.tokens) :
    ledger.net id = 0 := by
  have sent : amountOf id ledger.inputTokens = 0 :=
    amountOf_eq_zero fun token here same => unknown (same ▸ books.known token here)
  have spent : amountOf id ledger.outputTokens = 0 :=
    amountOf_eq_zero fun token here same => unknown (same ▸ books.knownOut token here)
  rw [Ledger.net, sent, spent]
  rfl

/-- The amounts are numbers of their types. -/
theorem inRange (books : Books ledger m) : ledger.InRange := by
  have fee := books.fee
  have value := books.value
  have feeBound := m.cb.amounts.fee.toNat_lt
  have valueBound := m.cb.amounts.value.toNat_lt
  refine ⟨by omega, by omega, by omega, ?_⟩
  intro id
  by_cases known : id ∈ m.table.tokens
  · obtain ⟨i, found⟩ := TokenTable.findTokenIndex_of_mem known
    rw [← books.tokens.found id i found]
    exact ⟨Int64.le_toInt _, Int64.toInt_lt _⟩
  · rw [books.net_eq_zero known]
    decide

/-- Nothing was sent and nothing was added up. -/
theorem empty {faults : List Bool} {table : TokenTable} {finished : Nat} {output : OutputInfo}
    (noTokens : table.tokens = []) (zero : output.tokens = Vector.replicate tokenMaxCount 0) :
    Books .empty ⟨faults, table, ⟨.init, output, finished⟩⟩ := by
  have none : ∀ id, table.findTokenIndex id = none := by
    intro id
    rw [TokenTable.findTokenIndex_none, noTokens]
    exact List.not_mem_nil
  refine ⟨rfl, rfl, ?_, ?_, ?_, ⟨?_, ?_⟩, ⟨?_, ?_⟩⟩
  · simp [Ledger.empty]
  · simp [Ledger.empty]
  · simp [Ledger.empty]
  · intro id i found
    simp [none] at found
  · intro i _
    by_cases within : i < tokenMaxCount <;> simp [Amounts.init, within]
  · intro id i found
    simp [none] at found
  · intro i _
    by_cases within : i < tokenMaxCount <;> simp [zero, within]

/-- New ids do not change the books. -/
theorem extend {m' : Mem OpMem} (books : Books ledger m) (extended : m'.table.Extends m.table)
    (same : m'.cb = m.cb) : Books ledger m' := by
  refine ⟨by rw [same]; exact books.fee, by rw [same]; exact books.value, ?_, ?_, ?_, ?_, ?_⟩
  · intro token here
    exact extended.subset (books.known token here)
  · intro token here
    exact extended.subset (books.knownOut token here)
  · intro token here
    exact extended.subset (books.knownBox token here)
  · rw [same]
    exact books.tokens.extend extended (fun id unknown => books.net_eq_zero unknown)
      (fun _ _ => rfl)
  · rw [same]
    refine books.boxTokens.extend extended ?_ (fun _ _ => rfl)
    intro id unknown
    have none : amountOf id ledger.boxTokens = 0 :=
      amountOf_eq_zero fun token here equal => unknown (equal ▸ books.knownBox token here)
    rw [none]
    rfl

/-- The books look at the amounts and at the tokens of the output. -/
theorem congr {m' : Mem OpMem} (books : Books ledger m) (table : m'.table = m.table)
    (amounts : m'.cb.amounts = m.cb.amounts) (output : m'.cb.output.tokens = m.cb.output.tokens) :
    Books ledger m' := by
  refine ⟨?_, ?_, ?_, ?_, ?_, ?_, ?_⟩
  · rw [amounts]
    exact books.fee
  · rw [amounts]
    exact books.value
  · rw [table]
    exact books.known
  · rw [table]
    exact books.knownOut
  · rw [table]
    exact books.knownBox
  · rw [table, amounts]
    exact books.tokens
  · rw [table, output]
    exact books.boxTokens

/-- The distinct ids are not amounts. -/
theorem ids (books : Books ledger m) (ids : List ErgoId) : Books (ledger.post (.ids ids)) m :=
  ⟨books.fee, books.value, books.known, books.knownOut, books.knownBox, books.tokens,
    books.boxTokens⟩

private theorem known_concat {tokens : List InputToken} {token : InputToken} {table : TokenTable}
    (known : ∀ token ∈ tokens, token.1 ∈ table.tokens) (new : token.1 ∈ table.tokens) :
    ∀ token' ∈ tokens ++ [token], token'.1 ∈ table.tokens := by
  intro token' here
  rcases List.mem_append.mp here with here | here
  · exact known token' here
  · rw [List.mem_singleton.mp here]
    exact new

/-- Add to the number of a token that the table has. -/
private theorem addTo {amounts' : Amounts} {token : InputToken} {index : Nat} {sum : Int64}
    (books : Books ledger m) (found : m.table.findTokenIndex token.1 = some index)
    (exact : checkedAddI64 (m.cb.amounts.tokens[index]?.getD 0) token.2 = some sum)
    (same : amounts' = { m.cb.amounts with
      tokens := m.cb.amounts.tokens.setIfInBounds index sum }) :
    Books (ledger.post (.inputToken token)) { m with cb := { m.cb with amounts := amounts' } } := by
  subst same
  obtain ⟨within, slot⟩ := TokenTable.findTokenIndex_some found
  have new : token.1 ∈ m.table.tokens := by
    rw [← slot]
    exact TokenTable.slot_mem within
  refine ⟨books.fee, books.value, known_concat books.known new, books.knownOut, books.knownBox, ?_,
    books.boxTokens⟩
  · refine books.tokens.add token.2.toNat found ?_ ?_ ?_
    · simp only [getD_set_self (within.trans_le m.table.bounded)]
      exact checkedAddI64_eq_some.mp exact
    · intro i other
      simp only [getD_set_ne other]
    · intro id
      simp only [Ledger.net, Ledger.post, amountOf_concat]
      split <;> push_cast <;> ring

/-- `stx_amounts_add_input_token` -/
theorem addInputToken {token : InputToken} {amounts' : Amounts} {table' : TokenTable}
    (books : Books ledger m)
    (ok : m.cb.amounts.addInputToken m.table token.1 token.2 = .ok (amounts', table')) :
    Books (ledger.post (.inputToken token))
      { m with table := table', cb := { m.cb with amounts := amounts' } } := by
  unfold Amounts.addInputToken Amounts.inputSlot at ok
  cases found : m.table.findTokenIndex token.1 with
  | some index =>
      rw [found] at ok
      cases sum : checkedAddI64 (m.cb.amounts.tokens[index]?.getD 0) token.2 with
      | none => simp [sum] at ok
      | some result =>
          simp only [sum, Except.ok.injEq, Prod.mk.injEq] at ok
          obtain ⟨amounts, rfl⟩ := ok
          exact books.addTo found sum amounts.symm
  | none =>
      rw [found] at ok
      by_cases room : m.table.count < tokenMaxCount
      · simp only [TokenTable.addToken, room, dite_true, Option.map_some] at ok
        have unknown : token.1 ∉ m.table.tokens := TokenTable.findTokenIndex_none.mp found
        have zero : (m.cb.amounts.tokens[m.table.count]?.getD 0).toInt = 0 := by
          apply books.tokens.zero
          intro id found'
          exact absurd (TokenTable.findTokenIndex_some found').1 (lt_irrefl _)
        -- so setting the new slot to zero changes nothing
        have same : m.cb.amounts.tokens.setIfInBounds m.table.count 0 = m.cb.amounts.tokens := by
          apply Vector.ext
          intro i within
          by_cases here : m.table.count = i
          · subst here
            rw [Vector.getElem_setIfInBounds_self]
            rw [Vector.getElem?_eq_getElem within] at zero
            exact (Int64.toInt_inj.mp zero).symm
          · rw [Vector.getElem_setIfInBounds_ne _ here]
        rw [same] at ok
        cases sum : checkedAddI64 (m.cb.amounts.tokens[m.table.count]?.getD 0) token.2 with
        | none => simp [sum] at ok
        | some result =>
            simp only [sum, Except.ok.injEq, Prod.mk.injEq] at ok
            obtain ⟨amounts, rfl⟩ := ok
            have extended := TokenTable.push_extends m.table token.1 room
            have books' : Books ledger { m with table := m.table.push token.1 room } :=
              books.extend extended rfl
            have found' : (m.table.push token.1 room).findTokenIndex token.1 = some m.table.count :=
              TokenTable.findTokenIndex_push unknown
            exact books'.addTo found' sum amounts.symm
      · simp [TokenTable.addToken, room] at ok

/-- `stx_amounts_add_input` -/
theorem addInput {value : UInt64} {amounts' : Amounts} (books : Books ledger m)
    (ok : m.cb.amounts.addInput value = some amounts') :
    Books (ledger.post (.input value)) { m with cb := { m.cb with amounts := amounts' } } := by
  obtain ⟨sum, exact, rfl⟩ := Option.map_eq_some_iff.mp ok
  have sum := checkedAddU64_eq_some.mp exact
  have value := books.value
  refine ⟨books.fee, ?_, books.known, books.knownOut, books.knownBox, books.tokens,
    books.boxTokens⟩
  simp only [Ledger.post, total_concat]
  omega

/-- `stx_output_info_init` -/
theorem addOutput {value : UInt64} (books : Books ledger m) :
    Books (ledger.post (.output value)) { m with cb := { m.cb with output := .init value } } := by
  refine ⟨books.fee, books.value, books.known, books.knownOut, by simp [Ledger.post], books.tokens,
    ⟨?_, ?_⟩⟩
  · intro id i found
    have within := (TokenTable.findTokenIndex_some found).1.trans_le m.table.bounded
    simp [OutputInfo.init, within, Ledger.post]
  · intro i unowned
    by_cases within : i < tokenMaxCount <;> simp [OutputInfo.init, within]

/-- `stx_amounts_add_output` -/
theorem addTree {type : BoxType} {value : UInt64} {amounts' : Amounts} (books : Books ledger m)
    (ok : m.cb.amounts.addOutput type value = .ok amounts') :
    Books (ledger.post (.tree type value)) { m with cb := { m.cb with amounts := amounts' } } := by
  have fee := books.fee
  have sum := books.value
  cases type with
  | tree =>
      obtain rfl := Except.ok.inj ok
      exact books
  | change =>
      cases left : checkedSubU64 m.cb.amounts.value value with
      | none => simp [Amounts.addOutput, left] at ok
      | some rest =>
          simp only [Amounts.addOutput, left, Except.ok.injEq] at ok
          subst ok
          have rest := checkedSubU64_eq_some.mp left
          refine ⟨fee, ?_, books.known, books.knownOut, books.knownBox, books.tokens,
            books.boxTokens⟩
          simp only [Ledger.post, total_concat]
          omega
  | fee =>
      cases left : checkedSubU64 m.cb.amounts.value value with
      | none => simp [Amounts.addOutput, left] at ok
      | some rest =>
          cases added : checkedAddU64 m.cb.amounts.fee value with
          | none => simp [Amounts.addOutput, left, added] at ok
          | some fees =>
              simp only [Amounts.addOutput, left, added, Except.ok.injEq] at ok
              subst ok
              have rest := checkedSubU64_eq_some.mp left
              have fees := checkedAddU64_eq_some.mp added
              refine ⟨?_, ?_, books.known, books.knownOut, books.knownBox, books.tokens,
                books.boxTokens⟩
              · simp only [Ledger.post, total_concat]
                omega
              · simp only [Ledger.post, total_concat]
                omega

/-- `stx_output_info_add_token` and `stx_amounts_add_output_token` -/
theorem addOutputToken {token : InputToken} {output' : OutputInfo} {amounts' : Amounts}
    (books : Books ledger m) (shown : m.cb.output.addToken m.table token.1 token.2 = .ok output')
    (charged : m.cb.amounts.addOutputToken m.table token.1 token.2 = .ok amounts') :
    Books (ledger.post (.outputToken token))
      { m with cb := { m.cb with output := output', amounts := amounts' } } := by
  cases found : m.table.findTokenIndex token.1 with
  | none => simp [Amounts.addOutputToken, found] at charged
  | some index =>
      have known : token.1 ∈ m.table.tokens := by
        by_contra unknown
        rw [TokenTable.findTokenIndex_none.mpr unknown] at found
        simp at found
      have room := (TokenTable.findTokenIndex_some found).1.trans_le m.table.bounded
      simp only [OutputInfo.addToken, OutputInfo.findTokenIndex, found] at shown
      simp only [Amounts.addOutputToken, found] at charged
      by_cases used : m.cb.output.tokens[index]?.getD 0 ≠ 0
      · simp [used] at shown
      rw [if_neg used] at shown
      obtain rfl := Except.ok.inj shown
      cases left : checkedSubI64 (m.cb.amounts.tokens[index]?.getD 0) token.2 with
      | none => simp [left] at charged
      | some rest =>
          simp only [left, Except.ok.injEq] at charged
          subst charged
          refine ⟨books.fee, books.value, books.known, known_concat books.knownOut known,
            known_concat books.knownBox known, ?_, ?_⟩
          · refine books.tokens.add (-token.2.toNat) found ?_ ?_ ?_
            · simp only [getD_set_self room]
              rw [checkedSubI64_eq_some.mp left]
              ring
            · intro i other
              simp only [getD_set_ne other]
            · intro id
              simp only [Ledger.net, Ledger.post, amountOf_concat]
              split <;> push_cast <;> ring
          · refine books.boxTokens.add token.2.toNat found ?_ ?_ ?_
            · rw [not_not] at used
              simp only [getD_set_self room, used]
              simp
            · intro i other
              simp only [getD_set_ne other]
            · intro id
              simp only [Ledger.post, amountOf_concat]
              split <;> push_cast <;> ring

end Books

end LedgerErgo.SignTx
