import LedgerErgo.Commands.SignTx.OpP2pk

/-! # Silent approval of change

An output to a change path is shown unless its path was the last one shown or lies in the
account of the signing path, not far beyond it. The code compares the paths with a number
of bytes where a number of components is meant. So it finds every two paths of one length
equal, and every two paths in the same account.
-/

namespace LedgerErgo.SignTx

open LedgerErgo.Common

/-- `bip32_path_validate` for the purpose and the coin of the application. -/
abbrev ErgoPath (p : Bip32Path) (type : Bip32PathValidationType) : Prop :=
  bip32PathValidate p (bip32Hardened 44) (bip32Hardened bip32ErgoCoin) type = true

/-- What the tests of a path say about its first numbers. -/
structure AddressPath (p : Bip32Path) : Prop where
  length : 5 ≤ p.path.length
  purpose : p.at 0 = bip32Hardened 44
  coin : p.at 1 = bip32Hardened bip32ErgoCoin
  index : p.at 4 < bip32HardenedConstant

theorem addressPath_of_ge5 {p : Bip32Path} (valid : ErgoPath p .addressGe5) : AddressPath p := by
  unfold ErgoPath bip32PathValidate at valid
  split at valid
  · simp at valid
  · rename_i front
    simp only [not_or, not_not] at front
    simp only [decide_eq_true_eq, Bool.decide_and, Bool.and_eq_true] at valid
    obtain ⟨length, -, -, indices⟩ := valid
    refine ⟨length, front.2.1, front.2.2, ?_⟩
    have here : p.at 4 ∈ p.path.drop 4 := by
      have inside : 4 < p.path.length := length
      refine List.mem_drop_iff_getElem.mpr ⟨0, inside, ?_⟩
      simp [Bip32Path.at, List.getElem?_eq_getElem inside]
    simpa using List.all_eq_true.mp indices _ here

theorem addressPath_of_e5 {p : Bip32Path} (valid : ErgoPath p .addressE5) :
    AddressPath p ∧ p.path.length = 5 := by
  unfold ErgoPath bip32PathValidate at valid
  split at valid
  · simp at valid
  · rename_i front
    simp only [not_or, not_not] at front
    simp only [decide_eq_true_eq, Bool.decide_and, Bool.and_eq_true] at valid
    obtain ⟨length, -, -, index⟩ := valid
    exact ⟨⟨length.ge, front.2.1, front.2.2, index⟩, length⟩

private theorem front_of_length {p : Bip32Path} (two : 2 ≤ p.path.length) :
    ∃ rest, p.path = p.at 0 :: p.at 1 :: rest := by
  cases h : p.path with
  | nil => simp [h] at two
  | cons x path =>
      cases path with
      | nil => simp [h] at two
      | cons y path => exact ⟨path, by simp [Bip32Path.at, h]⟩

/-- The first eight bytes of a path are its purpose and its coin. -/
theorem memory_eq_of_front {p q : Bip32Path} (p2 : 2 ≤ p.path.length) (q2 : 2 ≤ q.path.length)
    (purpose : p.at 0 = q.at 0) (coin : p.at 1 = q.at 1) {count : Nat} (few : count ≤ 8) :
    p.memory count = q.memory count := by
  obtain ⟨path, hp⟩ := front_of_length p2
  obtain ⟨path', hq⟩ := front_of_length q2
  have cut : ∀ x y rest, List.take count ((u32Bytes x).reverse ++ (u32Bytes y).reverse ++ rest) =
      List.take count ((u32Bytes x).reverse ++ (u32Bytes y).reverse) :=
    fun x y rest => List.take_append_of_le_length (by simpa using few)
  simp only [Bip32Path.memory, hp, hq, purpose, coin, List.flatMap_cons, ← List.append_assoc, cut]

/-- Two address paths of at most eight numbers are equal for the code if they have one length. -/
theorem isEqual_iff_length {p q : Bip32Path} (hp : AddressPath p) (hq : AddressPath q)
    (short : p.path.length ≤ 8) :
    bip32PathIsEqual p q = true ↔ p.path.length = q.path.length := by
  have five := hp.length
  have five' := hq.length
  simp only [bip32PathIsEqual, Bool.decide_and, Bool.and_eq_true, decide_eq_true_eq]
  refine ⟨And.left, fun same => ⟨same, ?_⟩⟩
  exact memory_eq_of_front (by omega) (by omega) (hp.purpose.trans hq.purpose.symm)
    (hp.coin.trans hq.coin.symm) short

/-- Two address paths are always in the same account for the code. -/
theorem sameAccount_of_addressPath {p q : Bip32Path} (hp : AddressPath p) (hq : AddressPath q) :
    bip32PathSameAccount p q = true := by
  have five := hp.length
  have five' := hq.length
  simp only [bip32PathSameAccount, Bool.decide_and, Bool.and_eq_true, decide_eq_true_eq]
  refine ⟨by omega, by omega, ?_⟩
  exact memory_eq_of_front (by omega) (by omega) (hp.purpose.trans hq.purpose.symm)
    (hp.coin.trans hq.coin.symm) (by omega)

/-- The path goes to the same change chain as the other one, and not far beyond it. -/
def InWindow (p s : Bip32Path) : Prop := p.at 3 = s.at 3 ∧ (p.at 4).toNat < (s.at 4).toNat + 20

/-- The first three numbers are equal. -/
def SameAccount (p s : Bip32Path) : Prop := p.at 0 = s.at 0 ∧ p.at 1 = s.at 1 ∧ p.at 2 = s.at 2

/-- Change to `p` needs no approval when `s` signs and `q` was shown last. -/
def SilentlyApproved (p s q : Bip32Path) : Prop :=
  p.path.length = 5 ∧ ErgoPath p .addressE5 ∧
    (p.path = q.path ∨ SameAccount p s ∧ InWindow p s)

instance (p s : Bip32Path) : Decidable (InWindow p s) := inferInstanceAs (Decidable (_ ∧ _))

instance (p s : Bip32Path) : Decidable (SameAccount p s) := inferInstanceAs (Decidable (_ ∧ _))

instance (p s q : Bip32Path) : Decidable (SilentlyApproved p s q) :=
  inferInstanceAs (Decidable (_ ∧ _))

/-- The operation decides about a finished change output. -/
structure DecidesChange (ctx : OpCtx) : Prop where
  state : ctx.state = .outputsStarted ∨ ctx.state = .txFinished
  finished : ctx.mem.output.isFinished = true
  change : ctx.mem.output.type = .bip32
  signing : ErgoPath ctx.bip32 .addressGe5
  path : ErgoPath ctx.mem.output.bip32Path .addressGe5
  shown : ctx.lastApprovedChange = .empty ∨ ErgoPath ctx.lastApprovedChange .addressGe5

/-- What the code does: it looks at the length of the path that was shown last, and not at the
    account. -/
theorem not_shown_iff {ctx : OpCtx} (decides : DecidesChange ctx) :
    shouldShowOutputConfirmScreen ctx = false ↔
      ErgoPath ctx.mem.output.bip32Path .addressE5 ∧
        (ctx.lastApprovedChange.path.length = 5 ∨ InWindow ctx.mem.output.bip32Path ctx.bip32) := by
  have signing := addressPath_of_ge5 decides.signing
  have state : ¬ (ctx.state ≠ .outputsStarted ∧ ctx.state ≠ .txFinished) := by
    rcases decides.state with h | h <;> simp [h]
  have notFee : ctx.mem.output.type ≠ .minersFee := by simp [decides.change]
  simp only [shouldShowOutputConfirmScreen, if_neg state, decides.finished, not_true, if_false,
    if_neg notFee, if_pos decides.change]
  by_cases e5 : ErgoPath ctx.mem.output.bip32Path .addressE5
  · obtain ⟨address, five⟩ := addressPath_of_e5 e5
    have equal : bip32PathIsEqual ctx.mem.output.bip32Path ctx.lastApprovedChange = true ↔
        ctx.lastApprovedChange.path.length = 5 := by
      rcases decides.shown with none | shown
      · simp [bip32PathIsEqual, none, five, Bip32Path.empty]
      · rw [isEqual_iff_length address (addressPath_of_ge5 shown) (by omega), five, eq_comm]
    have account := sameAccount_of_addressPath address signing
    have window : ctx.mem.output.bip32Path.at 4 < ctx.bip32.at 4 + 20 ↔
        (ctx.mem.output.bip32Path.at 4).toNat < (ctx.bip32.at 4).toNat + 20 := by
      have small : (ctx.bip32.at 4).toNat < 2 ^ 31 := UInt32.lt_iff_toNat_lt.mp signing.index
      have sum : (ctx.bip32.at 4 + 20).toNat = (ctx.bip32.at 4).toNat + 20 :=
        (UInt32.toNat_add ..).trans (Nat.mod_eq_of_lt (by simp; omega))
      rw [UInt32.lt_iff_toNat_lt, sum]
    simp [e5, equal, account, InWindow, window]
    grind
  · simp [e5]

/-- The shortened comparisons answer as full ones would: five numbers shown last, or a place in
    the window, come with the very path or with the same account. -/
def ComparisonsAgree (p s q : Bip32Path) : Prop :=
  ErgoPath p .addressE5 → q.path.length = 5 ∨ InWindow p s →
    p.path = q.path ∨ SameAccount p s ∧ InWindow p s

/-- The code approves silently what should be approved silently, and nothing else, exactly for
    the paths on which the shortened comparisons agree with full ones. -/
theorem silentApproval_exact_iff {ctx : OpCtx} (decides : DecidesChange ctx) :
    (shouldShowOutputConfirmScreen ctx = false ↔
        SilentlyApproved ctx.mem.output.bip32Path ctx.bip32 ctx.lastApprovedChange) ↔
      ComparisonsAgree ctx.mem.output.bip32Path ctx.bip32 ctx.lastApprovedChange := by
  rw [not_shown_iff decides, SilentlyApproved, ComparisonsAgree]
  by_cases e5 : ErgoPath ctx.mem.output.bip32Path .addressE5
  · obtain ⟨-, five⟩ := addressPath_of_e5 e5
    have length : ctx.mem.output.bip32Path.path = ctx.lastApprovedChange.path →
        ctx.lastApprovedChange.path.length = 5 := fun same => same ▸ five
    constructor
    · intro exact _ approved
      exact (exact.mp ⟨e5, approved⟩).2.2
    · intro agree
      constructor
      · intro approved
        exact ⟨five, e5, agree e5 approved.2⟩
      · intro silent
        refine ⟨e5, ?_⟩
        rcases silent.2.2 with same | ⟨-, window⟩
        · exact .inl (length same)
        · exact .inr window
  · simp [e5]

/-- A path of the application. -/
def ergoPath (account change index : UInt32) : Bip32Path :=
  ⟨[bip32Hardened 44, bip32Hardened bip32ErgoCoin, bip32Hardened account, change, index],
    by simp [maxBip32Path]⟩

/-- A transaction signed with the first address, the change goes to `p`, and `q` was shown last. -/
def changeTo (p q : Bip32Path) : OpCtx :=
  { OpCtx.zero with
    state := .outputsStarted
    bip32 := ergoPath 0 0 0
    mem := { OpCtx.zero.mem with
      output := { OutputInfo.init 1 with
        type := .bip32
        isTreeSet := true
        isBoxFinished := true
        tree := .bip32Path p } }
    lastApprovedChange := q }

theorem silentApproval_exact_iff_nextAddress :
    (shouldShowOutputConfirmScreen (changeTo (ergoPath 0 0 1) .empty) = false ↔
        SilentlyApproved (ergoPath 0 0 1) (ergoPath 0 0 0) .empty) ↔
      ComparisonsAgree (ergoPath 0 0 1) (ergoPath 0 0 0) .empty := by
  have decides : DecidesChange (changeTo (ergoPath 0 0 1) .empty) :=
    ⟨.inl rfl, rfl, rfl, by decide, by decide, .inl rfl⟩
  exact silentApproval_exact_iff decides

/-- Change to another account is approved silently; so is change to any address once one was
    shown. -/
theorem otherAccount_silentlyApproved :
    DecidesChange (changeTo (ergoPath 7 0 3) .empty) ∧
      shouldShowOutputConfirmScreen (changeTo (ergoPath 7 0 3) .empty) = false ∧
      ¬ SilentlyApproved (ergoPath 7 0 3) (ergoPath 0 0 0) .empty ∧
    DecidesChange (changeTo (ergoPath 9 1 1000) (ergoPath 1 0 0)) ∧
      shouldShowOutputConfirmScreen (changeTo (ergoPath 9 1 1000) (ergoPath 1 0 0)) = false ∧
      ¬ SilentlyApproved (ergoPath 9 1 1000) (ergoPath 0 0 0) (ergoPath 1 0 0) :=
  ⟨⟨.inl rfl, rfl, rfl, by decide, by decide, .inl rfl⟩, by decide, by decide,
    ⟨.inl rfl, rfl, rfl, by decide, by decide, .inr (by decide)⟩, by decide, by decide⟩

end LedgerErgo.SignTx
