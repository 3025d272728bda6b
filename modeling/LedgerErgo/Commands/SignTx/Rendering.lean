import LedgerErgo.Commands.SignTx.Review
import LedgerErgo.Common.TextFacts

/-! # Which pairs can be rendered

The pairs of the transaction can always be rendered, and so can those of an output apart from
the first one. That one shows where the output goes: the path of change may be too long for its
text, and the address of any other output needs the SDK.
-/

namespace LedgerErgo.SignTx

open LedgerErgo.Common LedgerErgo.Ergo LedgerErgo.Prog

/-! ## Addresses -/

section Addresses

variable {σ : Type} {sdk : Sdk} {network : UInt8} {buffer : RwBuffer} {capacity : Nat}
  {held : List UInt8}

/-- The SDK can make an address on the network. -/
def CanAddress (network : UInt8) (faults : List Bool) : Prop :=
  Address.networkIdIsValid network = true ∧ faults.head? ≠ some true

instance (network : UInt8) (faults : List Bool) : Decidable (CanAddress network faults) :=
  inferInstanceAs (Decidable (_ ∧ _))

/-- A program that fills an array with an address, if the SDK does its part. -/
def Generates (network : UInt8) (length : Nat) (prog : EStateM Unit (Mem σ) (List UInt8)) : Prop :=
  ∀ m, (CanAddress network m.faults → ∃ bytes n, prog m = .ok bytes n ∧ bytes.length = length) ∧
    (¬ CanAddress network m.faults → ∃ n, prog m = .error () n)

theorem sdkCall_run {ε : Type} (err : ε) (m : Mem σ) :
    (m.faults.head? ≠ some true → ∃ n, sdkCall err m = .ok () n) ∧
      (m.faults.head? = some true → ∃ n, sdkCall err m = .error err n) := by
  obtain ⟨faults, table, cb⟩ := m
  cases faults with
  | nil => exact ⟨fun _ => ⟨_, rfl⟩, fun failed => by cases failed⟩
  | cons failed rest =>
      cases failed with
      | true => exact ⟨fun works => absurd rfl works, fun _ => ⟨_, rfl⟩⟩
      | false => exact ⟨fun _ => ⟨_, rfl⟩, fun failed => by cases failed⟩

/-- What is written before the checksum leaves room for it. -/
theorem generates_checksum (holds : buffer.Holds capacity held)
    (room : held.length + Address.addressChecksumLen ≤ capacity) :
    Generates network capacity (do
      ensure (Address.networkIdIsValid network) ()
      Address.writeChecksum sdk buffer : EStateM Unit (Mem σ) (List UInt8)) := by
  intro m
  by_cases valid : Address.networkIdIsValid network = true
  swap
  · have failed : (ensure (Address.networkIdIsValid network) () : EStateM Unit (Mem σ) Unit) m =
        .error () m := ensure_of_not valid
    exact ⟨fun can => absurd can.1 valid, fun _ => ⟨m, bind_of_error failed⟩⟩
  rw [bind_of_ok (ensure_of valid)]
  have hash := (sdk.blake2b256 buffer.data).property
  have length : ((sdk.blake2b256 buffer.data).val.take Address.addressChecksumLen).length =
      Address.addressChecksumLen := by
    rw [List.length_take, hash]
    rfl
  have room' := length ▸ room
  have written := holds.writeBytes_ok.mpr ⟨room', rfl⟩
  obtain ⟨works, fails⟩ := sdkCall_run () m
  constructor
  · intro can
    obtain ⟨n, called⟩ := works can.2
    refine ⟨_, n, ?_, (holds.push room').size⟩
    rw [Address.writeChecksum, bind_of_ok called]
    simp only [written, Address.orFalse_some, pure_bind]
    rfl
  · intro cannot
    have failed : m.faults.head? = some true := by
      by_contra works
      exact cannot ⟨valid, works⟩
    obtain ⟨n, called⟩ := fails failed
    exact ⟨n, bind_of_error called⟩

/-- The byte of the type and what the address is of are written in front of the checksum. -/
theorem generates_typed (array : Bytes capacity) (small : capacity < 2 ^ 32) (type : UInt8)
    (content : List UInt8) (room : content.length + 1 + Address.addressChecksumLen ≤ capacity) :
    ∃ buffer, (RwBuffer.fromArrayEmpty array.val).writeU8 type = some buffer ∧
      ∃ filled, buffer.writeBytes content = some filled ∧
        ∀ {σ : Type} {sdk : Sdk}, Generates network capacity (do
          ensure (Address.networkIdIsValid network) ()
          Address.writeChecksum sdk filled : EStateM Unit (Mem σ) (List UInt8)) := by
  have empty : (RwBuffer.fromArrayEmpty array.val).Holds capacity [] :=
    RwBuffer.Holds.fromArray array.property small
  have byte : ([] : List UInt8).length + [type].length ≤ capacity := by
    simp only [List.length_nil, List.length_singleton]
    omega
  have rest : ([] ++ [type]).length + content.length ≤ capacity := by
    simp only [List.nil_append, List.length_singleton]
    omega
  refine ⟨_, empty.writeBytes_ok.mpr ⟨byte, rfl⟩, _,
    (empty.push byte).writeBytes_ok.mpr ⟨rest, rfl⟩, ?_⟩
  intro σ sdk
  apply generates_checksum ((empty.push byte).push rest)
  simp only [List.length_append, List.nil_append, List.length_singleton]
  omega

theorem generates_pubkey {key : List UInt8} {array : Bytes Address.p2pkAddressLen} :
    Generates network Address.p2pkAddressLen
      (Address.fromCompressedPubkey sdk network key array : EStateM Unit (Mem σ) (List UInt8)) := by
  have length : (key.take 33).length ≤ 33 := List.length_take_le ..
  obtain ⟨buffer, typed, filled, keyed, generates⟩ :=
    generates_typed array (by decide) (Address.typeP2pk + network) (key.take 33)
      (by simp only [Address.addressChecksumLen, Address.p2pkAddressLen]; omega)
  simpa only [Address.fromCompressedPubkey, Address.fromKey, typed, keyed, if_true,
    Address.orFalse_some, pure_bind] using generates

theorem generates_scriptHash {hash : List UInt8} {array : Bytes Address.p2shAddressLen} :
    Generates network Address.p2shAddressLen
      (Address.fromScriptHash sdk network hash array : EStateM Unit (Mem σ) (List UInt8)) := by
  have length : (hash.take ErgoTree.p2shHashLen).length ≤ ErgoTree.p2shHashLen :=
    List.length_take_le ..
  have short : ErgoTree.p2shHashLen = 24 := rfl
  obtain ⟨buffer, typed, filled, hashed, generates⟩ :=
    generates_typed array (by decide) (Address.typeP2sh + network) (hash.take ErgoTree.p2shHashLen)
      (by simp only [Address.addressChecksumLen, Address.p2shAddressLen]; omega)
  simpa only [Address.fromScriptHash, typed, hashed, Address.orFalse_some, pure_bind] using generates

end Addresses

/-! ## Pairs -/

section Pairs

variable {m : Mem Pair} {render : RenderM Unit} {title : Text} {text : Option Text} {err : Sw}

theorem rendered_of_ok {n : Mem Pair} (ok : render m = .ok () n) : (rendered render m).1 = .ok := by
  rw [rendered, ok]

theorem rendered_of_error {n : Mem Pair} (failed : render m = .error err n) :
    (rendered render m).1 = err := by
  rw [rendered, failed]

theorem rendered_congr {other : RenderM Unit} {n : Mem Pair} (same : render m = other n) :
    rendered render m = rendered other n := by
  rw [rendered, rendered, same]

theorem setText_some (err : Sw) (m : Mem Pair) (fits : text.isSome) :
    ∃ n, setText text err m = .ok () n := by
  obtain ⟨text, rfl⟩ := Option.isSome_iff_exists.mp fits
  exact ⟨_, rfl⟩

/-- A title and a text. -/
theorem rendered_text (wrong : err ≠ .ok) :
    (rendered (do
      setTitle title
      setText text err) m).1 = .ok ↔ text.isSome = true := by
  cases text with
  | none => exact iff_of_false wrong Bool.false_ne_true
  | some text => exact iff_of_true rfl rfl

/-- The first pair of an output can be rendered. -/
def Printable (info : OutputInfo) (networkId : UInt8) (faults : List Bool) : Prop :=
  info.isFinished = true ∧
    match info.type with
    | .bip32 => PathFits info.bip32Path textLen
    | .address | .script | .scriptHash => CanAddress networkId faults
    | .minersFee => True
    | .unknown => False

variable {device : Device} {info : OutputInfo} {networkId : UInt8}

/-- A title and an address. -/
theorem rendered_address {length : Nat} {address : EStateM Unit (Mem Pair) (List UInt8)}
    (generates : Generates networkId length address) (some : length ≠ 0)
    (short : length ≤ maxEncInputSize) (fits : 5 * length + 10 ≤ 3 * textLen) :
    (rendered (do
      setTitle title
      let rawAddress ← generated address
      setText (formatB58Id rawAddress textLen) .addressFormattingFailed) m).1 = .ok ↔
      CanAddress networkId m.faults := by
  have titled : setTitle title m =
      .ok () { m with cb := { m.cb with title := clip titleLen title } } := rfl
  obtain ⟨works, fails⟩ := generates { m with cb := { m.cb with title := clip titleLen title } }
  by_cases can : CanAddress networkId m.faults
  · obtain ⟨bytes, n, ran, size⟩ := works can
    have made : generated address { m with cb := { m.cb with title := clip titleLen title } } =
        .ok bytes n := by
      rw [generated, zoom]
      simp only [id, ran]
    have nonempty : bytes ≠ [] := by
      rintro rfl
      exact some size.symm
    obtain ⟨_, written⟩ := setText_some .addressFormattingFailed n
      (formatB58Id_isSome nonempty (size ▸ short) (size ▸ fits))
    refine iff_of_true ?_ can
    rw [rendered_congr ((bind_of_ok titled).trans (bind_of_ok made)), rendered_of_ok written]
  · obtain ⟨n, ran⟩ := fails can
    have made : generated address { m with cb := { m.cb with title := clip titleLen title } } =
        .error .addressGenerationFailed n := by
      rw [generated, zoom]
      simp only [id, ran]
    refine iff_of_false ?_ can
    rw [rendered_of_error ((bind_of_ok titled).trans (bind_of_error made))]
    decide

/-- Where an output goes can be shown exactly if the output is printable. -/
theorem printAddress_iff (device : Device) (info : OutputInfo) (networkId : UInt8) (m : Mem Pair) :
    (rendered (outputInfoPrintAddress device info networkId) m).1 = .ok ↔
      Printable info networkId m.faults := by
  unfold outputInfoPrintAddress Printable
  by_cases finished : info.isFinished = true
  swap
  · rw [rendered_of_error (bind_of_error (ensure_of_not finished))]
    simp [finished]
  rw [rendered_congr (bind_of_ok (ensure_of finished))]
  cases type : info.type with
  | unknown => exact iff_of_false (fun ok : Sw.badState = .ok => by cases ok) fun can => can.2
  | minersFee => simp [rendered_text, finished]
  | bip32 => simp [rendered_text, finished, bip32PathFormat_isSome]
  | address =>
      simpa [finished] using rendered_address generates_pubkey (by decide) (by decide) (by decide)
  | script | scriptHash =>
      simpa [finished] using rendered_address generates_scriptHash (by decide) (by decide) (by decide)

/-- The index of a used element is found if there are enough of them. -/
theorem usedIndex_isSome {α : Type} {used : α → Bool} {xs : List α} {count : Nat}
    (enough : count < xs.countP used) : (usedIndex used xs count).isSome := by
  induction xs generalizing count with
  | nil => cases enough
  | cons x xs ih =>
      rw [List.countP_cons] at enough
      unfold usedIndex
      by_cases here : used x = true
      · rw [if_pos here] at enough ⊢
        cases count with
        | zero => rfl
        | succ count =>
            rw [Option.isSome_map]
            exact ih (by omega)
      · rw [if_neg here] at enough ⊢
        rw [Option.isSome_map]
        exact ih (by omega)

/-- The identifier of a token, whatever its slot holds. -/
theorem rendered_token {index : Nat} :
    (rendered (do
      setTitle title
      let mem ← get
      setText (formatHexId device.formats (mem.table.slot index).val textLen)
        .addressFormattingFailed) m).1 = .ok := by
  have fits : (formatHexId device.formats (m.table.slot index).val textLen).isSome := by
    apply formatHexId_isSome
    rw [(m.table.slot index).property]
    decide
  obtain ⟨n, written⟩ := setText_some .addressFormattingFailed
    { m with cb := { m.cb with title := clip titleLen title } } fits
  exact rendered_of_ok (n := n) written

theorem infoScreenCount_pos : 0 < infoScreenCount info := by
  unfold infoScreenCount
  split <;> omega

theorem pairsCount_pos {amounts : Amounts} : 0 < pairsCount amounts := by
  unfold pairsCount
  omega

/-- The pairs of an output behind the first one. -/
theorem displayOutputState_ok {screen : Nat} (inside : screen + 1 < infoScreenCount info) :
    (rendered (displayOutputState device info networkId (screen + 1)) m).1 = .ok := by
  cases screen with
  | zero => exact (rendered_text (by decide)).mpr (formatErgAmount_isSome (by decide))
  | succ screen =>
      have token : screen / 2 < info.usedTokensCount := by
        unfold infoScreenCount at inside
        split at inside <;> omega
      obtain ⟨index, found⟩ := Option.isSome_iff_exists.mp (usedIndex_isSome token)
      have known : info.usedTokenIndex (screen / 2) = some index := found
      rw [displayOutputState, known]
      dsimp only
      split
      · exact rendered_token
      · exact (rendered_text (by decide)).mpr rfl

/-- The pairs of the transaction. -/
theorem displayTxState_ok {path : Bip32Path} {amounts : Amounts} {screen : Nat}
    (inside : screen < pairsCount amounts) :
    (rendered (displayTxState device path amounts screen) m).1 = .ok := by
  have noScreens : ¬ screen < opScreenCount := Nat.not_lt_zero _
  rw [displayTxState, if_neg noScreens]
  cases screen with
  | zero => exact (rendered_text (by decide)).mpr (formatErgAmount_isSome (by decide))
  | succ screen =>
      have token : screen / 2 < amounts.nonZeroTokensCount := by
        simp only [pairsCount, opScreenCount] at inside
        omega
      obtain ⟨index, found⟩ := Option.isSome_iff_exists.mp (usedIndex_isSome token)
      have known : amounts.nonZeroTokenIndex (screen / 2) = some index := found
      simp only [opScreenCount, Nat.sub_zero, known]
      split
      · exact rendered_token
      · exact (rendered_text (by decide)).mpr rfl

end Pairs

end LedgerErgo.SignTx
