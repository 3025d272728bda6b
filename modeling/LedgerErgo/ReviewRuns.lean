import LedgerErgo.Commands.SignTx.AmountsExact
import LedgerErgo.Prompts
import LedgerErgo.ReviewSteps

/-! # Runs of the review

Over a whole run, a pair that could not be rendered is shown like any other one, and the pairs
are written one behind the other without a look at the size of the arrays.
-/

namespace LedgerErgo

open LedgerErgo.Common LedgerErgo.Ergo LedgerErgo.Prog LedgerErgo.Runs SignTx

/-! ## A run up to the outputs -/

namespace OneInput

/-- A device with a touch screen, on which every path has the same key. -/
def device : Device where
  build := .nbgl
  sdk := OneToken.sdk
  formats := .blank
  appName := []
  appVersion := []

/-- The application before the first command. -/
def start : App := App.init (.zero _) false ⟨[], [7], [OneToken.one]⟩

/-- The bytes of a path. -/
def pathBytes (path : List UInt32) : List UInt8 := UInt8.ofNat path.length :: path.flatMap u32Bytes

/-- A subcommand of the session, which has the id 7. -/
def subcommand (p1 : UInt8) (data : List UInt8) : Event := .apdu ⟨cla, 0x21, p1, 7, data⟩ true

/-- A session is opened, and a transaction with one input is started. -/
def opening (outputsCount : UInt8) : List Event :=
  [.apdu ⟨cla, 0x21, 0x01, 0x01, 0 :: pathBytes OneToken.path.path⟩ true,
    subcommand 0x10 [0, 1, 0, 0, 0, 0, outputsCount],
    subcommand 0x12 (List.replicate 32 0 ++ [1, 0] ++ u64Bytes 10 ++ [0] ++ List.replicate 16 0 ++
      u32Bytes 0)]

/-- An output with a tree of so many bytes. -/
def output (value : UInt64) (treeSize : UInt32) : Event :=
  subcommand 0x15 (u64Bytes value ++ u32Bytes treeSize ++ u32Bytes 1 ++ [0] ++ u32Bytes 0)

end OneInput

local instance reviewUnion : UnionLayout OpMem := ⟨fun _ => .zero OpMem, fun _ => .zero OpMem⟩

local instance reviewShared : AttestInput.SharedLayout := ⟨fun _ => .replicate _ 0, fun _ => 0⟩

/-! ## Pairs that cannot be rendered -/

section Rendered

variable {device : Device} {app k : App} {event : Event}

/-- Only the first pair of an output may fail. -/
theorem outputPairs_ok :
    (∀ write ∈ outputPairs device k, write.status = .ok) ↔
      Printable k.signTxCtx.p2pk.mem.output k.signTxCtx.p2pk.networkId k.supply.faults := by
  obtain ⟨count, screens⟩ : ∃ count, infoScreenCount k.signTxCtx.p2pk.mem.output = count + 1 := by
    unfold infoScreenCount
    split
    · exact ⟨0, rfl⟩
    · exact ⟨1 + 2 * k.signTxCtx.p2pk.mem.output.usedTokensCount, by omega⟩
  have first := printAddress_iff device k.signTxCtx.p2pk.mem.output k.signTxCtx.p2pk.networkId
    ⟨k.supply.faults, k.signTxCtx.p2pk.tokensTable, ⟨[], []⟩⟩
  have later : ∀ write ∈ (writtenPairs k.signTxCtx.p2pk.tokensTable (k.pairCounter device).toNat
      (renderOutput device k.signTxCtx.p2pk) 1 count
      (rendered (renderOutput device k.signTxCtx.p2pk 0)
        ⟨k.supply.faults, k.signTxCtx.p2pk.tokensTable, ⟨[], []⟩⟩).2.faults).1,
      write.status = .ok := by
    apply writtenPairs_ok
    intro j low high mem
    obtain ⟨screen, rfl⟩ : ∃ screen, j = screen + 1 := ⟨j - 1, by omega⟩
    exact displayOutputState_ok (by omega)
  rw [outputPairs, addedPairs, screens]
  simp only [writtenPairs, List.mem_cons, forall_eq_or_imp]
  exact ⟨fun ok => first.mp ok.1, fun printable => ⟨first.mpr printable, later⟩⟩

theorem txPairs_ok : ∀ write ∈ txPairs device app, write.status = .ok := by
  apply writtenPairs_ok
  intro j _ high mem
  exact displayTxState_ok (by omega)

variable [UnionLayout OpMem] [AttestInput.SharedLayout]

/-- A pair that cannot be rendered ends the session with an error. -/
def NoBlank (device : Device) (app : App) (event : Event) : Prop :=
  ∀ added, (next device app event).ui.writes = app.ui.writes ++ added →
    ∀ write ∈ added, write.status ≠ .ok →
      succeeds (handle device event app) = false ∧ (next device app event).currentCommand = .none

/-- The first pair of an output that is shown can be rendered. -/
def ShowsPrintable (device : Device) (app : App) (event : Event) : Prop :=
  ∀ k, ShowsOutput device app event k →
    Printable k.signTxCtx.p2pk.mem.output k.signTxCtx.p2pk.networkId k.supply.faults

/-- The pairs that an event adds, or all pairs if it starts again, are rendered. -/
theorem added_ok (printable : ShowsPrintable device app event) {added : List PairWrite}
    (writes : (next device app event).ui.writes = app.ui.writes ++ added) :
    ∀ write ∈ added, write.status = .ok := by
  rcases review_cases device app event with same | ⟨reset, hidden⟩ | ⟨k, shows⟩ | shows
  · have none : added = [] := by simpa [same.writes] using writes
    simp [none]
  · intro write here
    exact (reset.rendered write (writes ▸ List.mem_append_right _ here)).2
  · have pairs : added = outputPairs device k := by
      rw [shows.next.2.2.2.1] at writes
      exact (List.append_cancel_left writes).symm
    rw [pairs]
    exact outputPairs_ok.mpr (printable k shows)
  · have pairs : added = txPairs device app := by
      rw [shows.writes] at writes
      exact (List.append_cancel_left writes).symm
    rw [pairs]
    exact txPairs_ok

theorem noBlank_iff : NoBlank device app event ↔ ShowsPrintable device app event := by
  constructor
  · intro noBlank k shows
    obtain ⟨answered, -, -, writes, -⟩ := shows.next
    apply outputPairs_ok.mp
    intro write here
    by_contra failed
    have ended := (noBlank _ writes write here failed).1
    rw [answered] at ended
    cases ended
  · intro printable added writes write here failed
    exact absurd (added_ok printable writes write here) failed

/-- Every pair of the review was rendered. -/
def AllRendered (app : App) : Prop := ∀ write ∈ app.ui.writes, write.status = .ok

theorem allRendered_next (rendered : AllRendered app) (printable : ShowsPrintable device app event) :
    AllRendered (next device app event) := by
  intro write here
  rcases review_cases device app event with same | ⟨reset, hidden⟩ | ⟨k, shows⟩ | shows
  · exact rendered write (same.writes ▸ here)
  · exact (reset.rendered write here).2
  · have writes := shows.next.2.2.2.1
    rw [writes, List.mem_append] at here
    exact here.elim (rendered write) (added_ok printable writes write)
  · have writes := shows.writes
    rw [writes, List.mem_append] at here
    exact here.elim (rendered write) (added_ok printable writes write)

/-- In a run from the start no pair that could not be rendered stays in a review exactly if every
    output that is shown can be printed, and then the user sees rendered pairs only. -/
theorem no_blank_entry_iff (device : Device) (key : Bytes sessionKeyLen) (blindSigning : Bool)
    (supply : Supply) (events : List Event) :
    (EachStep (next device) (NoBlank device) (App.init key blindSigning supply) events ↔
      EachStep (next device) (ShowsPrintable device) (App.init key blindSigning supply) events) ∧
    (EachStep (next device) (ShowsPrintable device) (App.init key blindSigning supply) events →
      AllRendered (events.foldl (next device) (App.init key blindSigning supply))) := by
  constructor
  · exact eachStep_iff (fun _ _ (_ : True) => noBlank_iff) (fun _ _ _ _ => trivial) trivial
  · intro each
    exact each.foldl (fun _ _ => allRendered_next) fun write here => absurd here List.not_mem_nil

end Rendered

namespace OneInput

/-- A change output is announced. -/
def beforeChange : List Event := opening 1 ++ [output 10 36]

/-- Change goes to a path of ten numbers. -/
def longChange : Event :=
  subcommand 0x18 (pathBytes ([bip32Hardened 44, bip32Hardened 429, 0xFFFFFFFF, 1] ++
    List.replicate 6 0x7FFFFFFF))

/-- The application when the path is sent. -/
def changing : App := beforeChange.foldl (next device) start

/-- A change path that is too long for its text is accepted, and its pair is blank. -/
theorem long_change_path_shown :
    ¬ EachStep (next device) (NoBlank device) start (beforeChange ++ [longChange]) := by
  intro each
  have noBlank : NoBlank device changing longChange := each.last
  have writes : (next device changing longChange).ui.writes =
      changing.ui.writes ++ (next device changing longChange).ui.writes := by
    decide +kernel
  have blank : ((next device changing longChange).ui.writes.any fun write =>
      decide (write.status ≠ .ok)) = true := by
    decide +kernel
  obtain ⟨write, here, failed⟩ := List.any_eq_true.mp blank
  have accepted : succeeds (handle device longChange changing) = true := by
    decide +kernel
  have rejected := (noBlank _ writes write here (of_decide_eq_true failed)).1
  rw [accepted] at rejected
  cases rejected

end OneInput

/-! ## The arrays of the review -/

section Storage

variable {device : Device} {app k : App} {event : Event}

/-- The review is on the screen. -/
def App.Reviewing (app : App) : Prop := app.ui.prompt = some .signTx

instance (app : App) : Decidable app.Reviewing :=
  inferInstanceAs (Decidable (app.ui.prompt = some .signTx))

/-- The count of the pairs that is stored: while the review is on the screen, it is that of the
    flow that shows them. -/
def App.storedCount (device : Device) (app : App) : UInt8 :=
  if app.Reviewing then app.ui.dynamicScreenCount else app.pairCounter device

/-- In an open session the pairs are counted. -/
def Counted (device : Device) (app : App) : Prop :=
  app.currentCommand = .signTransaction → (app.storedCount device).toNat = app.ui.writes.length

variable [UnionLayout OpMem] [AttestInput.SharedLayout]

/-- So many pairs does an event add to the review. -/
inductive AddsCount (device : Device) (app : App) (event : Event) : Nat → Prop where
  | output {k : App} (shows : ShowsOutput device app event k) :
      AddsCount device app event (infoScreenCount k.signTxCtx.p2pk.mem.output)
  | summary (shows : ShowsSummary device app event) :
      AddsCount device app event (pairsCount app.signTxCtx.p2pk.mem.amounts)

/-- The arrays are not overrun, the counter is right, and what does not fit is rejected. -/
structure Stored (device : Device) (app : App) (event : Event) : Prop where
  inside : ∀ added, (next device app event).ui.writes = app.ui.writes ++ added →
    ∀ write ∈ added, write.index < nUxPairs
  counted : Counted device (next device app event)
  passed : ∀ count, AddsCount device app event count →
    (UInt8.ofNat ((app.pairCounter device).toNat + count)).toNat =
      (next device app event).ui.writes.length
  rejected : ∀ count, AddsCount device app event count →
    nUxPairs < app.ui.writes.length + count → succeeds (handle device event app) = false

/-- There is room for the pairs that the event adds. -/
def FitsReview (device : Device) (app : App) (event : Event) : Prop :=
  ∀ count, AddsCount device app event count → app.ui.writes.length + count ≤ nUxPairs

omit [UnionLayout OpMem] [AttestInput.SharedLayout] in
theorem storedCount_of_not {app : App} (hidden : ¬ app.Reviewing) :
    app.storedCount device = app.pairCounter device := if_neg hidden

/-- The pairs are counted, and the review is on the screen only if the user is asked about it. -/
def CountedInv (device : Device) (app : App) : Prop := Counted device app ∧ app.Coherent device

omit [UnionLayout OpMem] [AttestInput.SharedLayout] in
theorem CountedInv.hidden (inv : CountedInv device app) (idle : app.isUiBusy = false) :
    ¬ app.Reviewing := by
  intro reviewing
  have none := inv.2.unasked idle
  rw [App.Reviewing, none] at reviewing
  cases reviewing

omit [UnionLayout OpMem] [AttestInput.SharedLayout] in
theorem Continues.counted {cmd : Apdu} {subcommand : Subcommand} (inv : CountedInv device app)
    (continues : Continues app cmd subcommand) :
    (app.pairCounter device).toNat = app.ui.writes.length := by
  rw [← storedCount_of_not (inv.hidden continues.idle)]
  exact inv.1 continues.command

/-- The pairs that are added, in an open session. -/
theorem AddsCount.added (inv : CountedInv device app) {count : Nat}
    (adds : AddsCount device app event count) :
    (app.pairCounter device).toNat = app.ui.writes.length ∧ 0 < count ∧
      ∃ added, (next device app event).ui.writes = app.ui.writes ++ added ∧
        added.map PairWrite.index = List.range' app.ui.writes.length count := by
  cases adds with
  | output shows =>
      have added := shows.next.2.2.2.1
      obtain ⟨continues, output, ran, shown⟩ := shows
      have start := continues.counted inv
      refine ⟨start, infoScreenCount_pos, _, added, ?_⟩
      rw [outputPairs, addedPairs, index_writtenPairs, Nat.add_zero,
        (part_frame output ran).1.pairCounter, start]
  | summary shows =>
      have added := shows.writes
      obtain ⟨continues, -, -, -, -⟩ := shows
      have start := continues.counted inv
      refine ⟨start, pairsCount_pos, _, added, ?_⟩
      rw [txPairs, addedPairs, index_writtenPairs, Nat.add_zero, start]

omit [UnionLayout OpMem] [AttestInput.SharedLayout] in
theorem App.Coherent.reviewing (coherent : app.Coherent device) (reviewing : app.Reviewing) :
    app.Asking device .signTx := by
  obtain ⟨command, working⟩ | ⟨prompt, asking⟩ := coherent
  · cases working.prompt.symm.trans reviewing
  · obtain rfl := Option.some.inj (asking.prompt.symm.trans reviewing)
    exact asking

/-- The review stays on the screen until the user answers, and the answer ends the session. -/
theorem next_of_reviewing (asking : app.Asking device .signTx) (event : Event) :
    (next device app event).Reviewing ∧ SameReview app (next device app event) ∨
      (next device app event).currentCommand = .none := by
  cases event with
  | apdu cmd answer =>
      rw [next_of_busy asking.busy]
      exact .inl ⟨asking.prompt, .answered app answer⟩
  | toggleBlindSigning =>
      have shown : ¬ app.ui.prompt = none := by simp [asking.prompt]
      have stays : next device app .toggleBlindSigning = app := by
        change final (toggleBlindSigning app) = app
        rw [toggleBlindSigning, get_bind, if_neg shown]
        rfl
      rw [stays]
      exact .inl ⟨asking.prompt, refl_of _ app⟩
  | press approved =>
      obtain ⟨reply, t, answered, ended, -, -⟩ := executeAction_answers device approved app
      have pressed : handle device (.press approved) app = .ok reply t := by
        change press device approved app = _
        rw [press, get_bind, asking.prompt]
        exact answered
      rw [next_of_ok pressed]
      exact .inr ended

omit [UnionLayout OpMem] [AttestInput.SharedLayout] in
/-- The transaction is on the screen with the count of its pairs, or its session has ended. -/
theorem addTransactionScreens_ends {reply : Reply} {t : App}
    (ok : addTransactionScreens device app = .ok reply t) :
    t.Reviewing ∧ t.ui.dynamicScreenCount = UInt8.ofNat ((app.pairCounter device).toNat +
        pairsCount app.signTxCtx.p2pk.mem.amounts) ∨
      t.currentCommand = .none := by
  rw [addTransactionScreens, get_bind] at ok
  obtain ⟨_, m, -, ok⟩ := bind_ok.mp ok
  unfold App.pairCounter
  cases build : device.build with
  | bagl =>
      simp only [build] at ok
      obtain ⟨_, _, -, ok⟩ := bind_ok.mp ok
      obtain ⟨_, _, -, ok⟩ := bind_ok.mp ok
      obtain ⟨_, _, -, ok⟩ := bind_ok.mp ok
      obtain ⟨_, _, counted, ok⟩ := bind_ok.mp ok
      cases counted
      simp only [displayScreens, bind_ok, get_ok, exists_unit, ensure_ok, modify_ok, pure_ok] at ok
      obtain ⟨_, _, ⟨rfl, rfl⟩, _, ⟨-, rfl⟩, _, rfl, -, rfl⟩ := ok
      exact .inl ⟨rfl, rfl⟩
  | nbgl =>
      simp only [build] at ok
      split at ok
      · simp only [bind_ok, exists_unit, modify_ok, pure_ok] at ok
        obtain ⟨_, rfl, _, rfl, -, rfl⟩ := ok
        exact .inr rfl
      · obtain ⟨_, _, -, ok⟩ := bind_ok.mp ok
        obtain ⟨_, _, -, ok⟩ := bind_ok.mp ok
        obtain ⟨_, u, -, ok⟩ := bind_ok.mp ok
        obtain ⟨reply', t', answered, ended, -, -⟩ := executeAction_answers device app.answer u
        rw [answered] at ok
        cases ok
        exact .inr ended

theorem ShowsSummary.ends (shows : ShowsSummary device app event) :
    (next device app event).Reviewing ∧ (next device app event).ui.dynamicScreenCount =
        UInt8.ofNat ((app.pairCounter device).toNat + pairsCount app.signTxCtx.p2pk.mem.amounts) ∨
      (next device app event).currentCommand = .none := by
  obtain ⟨continues, approved, finished, room, allowed⟩ := shows
  unfold next
  rw [continues.ran]
  cases ran : Subcommand.confirm.handle device app.sessionKey _ _ with
  | error err u =>
      rw [final_orSendError ran]
      exact .inr rfl
  | ok reply u =>
      rw [orSendError_run_ok ran]
      change handleSignConfirm device _ = _ at ran
      simp only [handleSignConfirm, showConfirmScreen, bind_ok, exists_unit, checkApproved_ok, get_ok,
        ensure_ok, modify_ok] at ran
      obtain ⟨_, ⟨-, rfl⟩, _, _, ⟨rfl, rfl⟩, _, ⟨-, rfl⟩, _, rfl, ran⟩ := ran
      have ends := addTransactionScreens_ends ran
      exact ends

theorem counted_next (inv : CountedInv device app) (fits : FitsReview device app event) :
    Counted device (next device app event) := by
  intro signing
  have few : nUxPairs = 210 := rfl
  -- the counters have eight bits, which is enough for what fits into the arrays
  have counts {count : Nat} (adds : AddsCount device app event count) :
      (UInt8.ofNat ((app.pairCounter device).toNat + count)).toNat =
        (next device app event).ui.writes.length := by
    have room := fits count adds
    obtain ⟨start, -, added, writes, indices⟩ := adds.added inv
    have length : added.length = count := by simpa using congrArg List.length indices
    rw [UInt8.toNat_ofNat', writes, List.length_append, start, length]
    omega
  by_cases reviewing : app.Reviewing
  · rcases next_of_reviewing (inv.2.reviewing reviewing) event with ⟨waits, same⟩ | ended
    · have counted := inv.1 (same.signing signing)
      rw [App.storedCount, if_pos reviewing] at counted
      rw [App.storedCount, if_pos waits, same.dynamicScreenCount, same.writes, counted]
    · rw [ended] at signing
      cases signing
  rcases review_cases device app event with same | ⟨reset, hidden⟩ | ⟨k, shows⟩ | shows
  · have counted := inv.1 (same.signing signing)
    rw [storedCount_of_not reviewing] at counted
    rw [storedCount_of_not (reviewing ∘ same.hidden), same.pairCounter, same.writes, counted]
  · have small := reset.few
    rw [storedCount_of_not (reviewing ∘ hidden), reset.counter (by rw [signing]; decide),
      UInt8.toNat_ofNat']
    omega
  · obtain ⟨-, -, hidden, -, counter⟩ := shows.next
    rw [storedCount_of_not (reviewing ∘ hidden), counter]
    exact counts (.output shows)
  · rcases shows.ends with ⟨waits, count⟩ | ended
    · rw [App.storedCount, if_pos waits, count]
      exact counts (.summary shows)
    · rw [ended] at signing
      cases signing

/-- Every pair that an event adds has its place in the arrays. -/
theorem added_inside (inv : CountedInv device app) (fits : FitsReview device app event)
    {added : List PairWrite} (writes : (next device app event).ui.writes = app.ui.writes ++ added) :
    ∀ write ∈ added, write.index < nUxPairs := by
  have counts {count : Nat} (adds : AddsCount device app event count) :
      ∀ write ∈ added, write.index < nUxPairs := by
    obtain ⟨-, -, pairs, writes', indices⟩ := adds.added inv
    obtain rfl : pairs = added := List.append_cancel_left (writes'.symm.trans writes)
    intro write here
    have index : write.index ∈ List.range' app.ui.writes.length count :=
      indices ▸ List.mem_map_of_mem here
    have room := fits count adds
    rw [List.mem_range'_1] at index
    omega
  rcases review_cases device app event with same | ⟨reset, hidden⟩ | ⟨k, shows⟩ | shows
  · have none : added = [] := by simpa [same.writes] using writes
    simp [none]
  · intro write here
    rw [(reset.rendered write (writes ▸ List.mem_append_right _ here)).1]
    decide
  · exact counts (.output shows)
  · exact counts (.summary shows)

theorem stored_iff (inv : CountedInv device app) :
    Stored device app event ↔ FitsReview device app event := by
  constructor
  · intro stored count adds
    obtain ⟨-, positive, added, writes, indices⟩ := adds.added inv
    have last : app.ui.writes.length + (count - 1) ∈ added.map PairWrite.index := by
      rw [indices, List.mem_range'_1]
      omega
    obtain ⟨write, here, index⟩ := List.mem_map.mp last
    have inside := stored.inside added writes write here
    omega
  · intro fits
    refine ⟨fun added => added_inside inv fits, counted_next inv fits, ?_, ?_⟩
    · intro count adds
      have few : nUxPairs = 210 := rfl
      have room := fits count adds
      obtain ⟨start, -, added, writes, indices⟩ := adds.added inv
      have length : added.length = count := by simpa using congrArg List.length indices
      rw [UInt8.toNat_ofNat', writes, List.length_append, start, length]
      omega
    · intro count adds overrun
      exact absurd (fits count adds) (by omega)

/-- In a run from the start the arrays of the review are never overrun exactly if the pairs of each
    output that is shown, and those of the transaction, fit behind the pairs before them. -/
theorem review_stored_iff (device : Device) (key : Bytes sessionKeyLen) (blindSigning : Bool)
    (supply : Supply) (events : List Event) :
    EachStep (next device) (Stored device) (App.init key blindSigning supply) events ↔
      EachStep (next device) (FitsReview device) (App.init key blindSigning supply) events := by
  have keep (app : App) (event : Event) (inv : CountedInv device app)
      (stored : Stored device app event) : CountedInv device (next device app event) :=
    ⟨stored.counted, coherent_next inv.2⟩
  have start : CountedInv device (App.init key blindSigning supply) :=
    ⟨fun none => (by cases none), coherent_init⟩
  exact eachStep_iff (fun _ _ => stored_iff) keep start

end Storage

namespace OneInput

/-- Outputs to scripts of one byte, of which each adds two pairs. -/
def scripts : Nat → List Event
  | 0 => []
  | count + 1 => output 0 1 :: subcommand 0x16 [5] :: scripts count

/-- The arrays are full, and one more output is announced. -/
def full : List Event := opening 107 ++ scripts 105 ++ [output 0 1]

/-- The application when the tree of the last output is sent. -/
def filled : App := full.foldl (next device) start

/-- The tree of the last output. -/
def lastTree : Event := subcommand 0x16 [5]

/-- The pairs of the output behind full arrays are written behind their end. -/
theorem review_overrun :
    ¬ EachStep (next device) (Stored device) start (full ++ [lastTree]) := by
  intro each
  have stored : Stored device filled lastTree := each.last
  obtain ⟨writes, outside⟩ : (next device filled lastTree).ui.writes =
      filled.ui.writes ++ (next device filled lastTree).ui.writes.drop 210 ∧
      (((next device filled lastTree).ui.writes.drop 210).any
        fun write => decide (nUxPairs ≤ write.index)) = true := by
    decide +kernel
  obtain ⟨write, here, overrun⟩ := List.any_eq_true.mp outside
  have inside := stored.inside _ writes write here
  exact absurd (of_decide_eq_true overrun) (Nat.not_le.mpr inside)

end OneInput

end LedgerErgo
