import LedgerErgo.AttestRuns
import LedgerErgo.Commands.AttestInput.Binding
import LedgerErgo.Commands.SignTx.InputFrames

/-! # What is spent

The signing command takes the value and the tokens of an input from frames of the attestation. As
long as no frame is forged, they are those of boxes that the application has attested, under the id
that is signed. If no two boxes with different tokens were attested under the id, they are those of
the box, all of them and in their order.
-/

namespace LedgerErgo

open LedgerErgo.Common LedgerErgo.Ergo LedgerErgo.Prog LedgerErgo.Runs AttestInput SignTx

/-! ## Frames behind the calls -/

theorem AttestInput.Delivery.HasFrame.few {sdk : Sdk} {d : Delivery} {tokens : List InputToken}
    {frame : InputFrame} (has : d.HasFrame sdk tokens frame) : frame.Few := by
  rw [InputFrame.Few, has.tokens]
  exact List.length_take_le _ _

/-- The call is made for the frame. -/
def SignTx.OpCall.OfFrame (frame : InputFrame) (call : OpCall) : Prop :=
  call = tokensCall frame ∨ ∃ extensionLength, call = inputCall frame extensionLength

/-- What a call says of an input was said by a frame of one of these boxes. -/
def SignTx.OpCall.Backed (sdk : Sdk) (shown : List Delivery) (call : OpCall) : Prop :=
  call.isInput = true → ∃ d ∈ shown, ∃ tokens frame, d.HasFrame sdk tokens frame ∧ call.OfFrame frame

theorem SignTx.OpCall.Backed.mono {sdk : Sdk} {shown shown' : List Delivery} {call : OpCall}
    (backed : call.Backed sdk shown) (more : shown ⊆ shown') : call.Backed sdk shown' := by
  intro isInput
  obtain ⟨d, here, rest⟩ := backed isInput
  exact ⟨d, more here, rest⟩

/-- The bytes of a frame that its signature is for. -/
def signedPart (cdata : Buffer) : Buffer := cdata.take (inputFrameDataLength cdata).toNat

/-- A frame that the event presents was signed by the application before. -/
def Event.Unforged (app : App) : Event → Prop
  | .apdu cmd _ => cmd.ForSigning → SignTx.Subcommand.ofByte cmd.p1 = some .inputFrame →
      signedPart cmd.data ∈ app.history.signed
  | .press _ | .toggleBlindSigning => True

private theorem mem_of_getD {α : Type} {read : Option (List α)} {a : α} (here : a ∈ read.getD []) :
    ∃ as, read = some as ∧ a ∈ as := by
  cases read with
  | none => cases here
  | some as => exact ⟨as, rfl, here⟩

/-- Only a frame is about the contents of an input. -/
theorem SignTx.Subcommand.not_input {sdk : Sdk} {cdata : Buffer} {subcommand : SignTx.Subcommand}
    (other : subcommand ≠ .inputFrame) :
    ∀ call ∈ subcommand.calls sdk cdata, call.isInput = false := by
  have single {call : OpCall} (not : call.isInput = false) : ∀ c ∈ [call], c.isInput = false := by
    intro c here
    rwa [List.mem_singleton.mp here]
  cases subcommand with
  | inputFrame => exact (other rfl).elim
  | tokenIds | inputContextExtension | dataInput | outputTreeChunk | outputMinersFeeTree | outputTokens
  | outputRegisters => exact single rfl
  | confirm => exact fun _ here => absurd here List.not_mem_nil
  | startTx =>
      intro call here
      obtain ⟨calls, read, here⟩ := mem_of_getD here
      simp only [Option.bind_eq_bind, Option.bind_eq_some_iff, Option.pure_def, Option.some.injEq,
        Prod.exists] at read
      obtain ⟨_, _, -, _, _, -, _, _, -, _, _, -, rfl⟩ := read
      exact single rfl call here
  | output =>
      intro call here
      obtain ⟨calls, read, here⟩ := mem_of_getD here
      simp only [Option.bind_eq_bind, Option.bind_eq_some_iff, Option.pure_def, Option.some.injEq,
        Prod.exists] at read
      obtain ⟨_, _, -, _, _, -, _, _, -, _, _, -, _, _, -, rfl⟩ := read
      exact single rfl call here
  | outputChangeTree =>
      intro call here
      obtain ⟨calls, read, here⟩ := mem_of_getD here
      simp only [Option.bind_eq_bind, Option.bind_eq_some_iff, Option.pure_def, Option.some.injEq,
        Prod.exists] at read
      obtain ⟨_, _, -, rfl⟩ := read
      exact single rfl call here

section Runs

variable [SharedLayout] {device : Device} {s : Attesting} {event : Event}

/-- An event that presents no forged frame makes calls that boxes stand behind. -/
theorem AttestInv.backed (inv : AttestInv device s) (unforged : event.Unforged s.app) :
    ∀ call ∈ event.calls device.sdk, call.Backed device.sdk s.shown := by
  intro call here isInput
  cases event with
  | press | toggleBlindSigning => cases here
  | apdu cmd answer =>
      rw [Event.calls] at here
      by_cases ins : cmd.ForSigning
      swap
      · rw [if_neg ins] at here
        cases here
      rw [if_pos ins] at here
      cases read : SignTx.Subcommand.ofByte cmd.p1 with
      | none =>
          rw [read] at here
          cases here
      | some subcommand =>
          rw [read] at here
          have here : call ∈ subcommand.calls device.sdk cmd.data := here
          by_cases frames : subcommand = .inputFrame
          swap
          · rw [Subcommand.not_input frames call here] at isInput
            cases isInput
          subst frames
          obtain ⟨d, known, tokens, frame, has, signed⟩ := inv.signed _ (unforged ins read)
          refine ⟨d, known, tokens, frame, has, ?_⟩
          have split : cmd.data = frame.data ++
              cmd.data.drop (inputFrameDataLength cmd.data).toNat := by
            rw [← signed]
            exact (List.take_append_drop _ _).symm
          rw [split] at here
          exact (mem_calls_inputFrame has.few here).imp_right And.right

end Runs

/-! ## Attested inputs -/

/-- The input is sent as frames of boxes with its id, and the first frame is that of its value. -/
structure SignTx.SentInput.Attested (sdk : Sdk) (shown : List Delivery) (input : SentInput) : Prop where
  box : ∃ d ∈ shown, ∃ tokens, d.Carries tokens ∧ input.boxId = d.boxId sdk tokens ∧
    input.value = d.params.value ∧
    input.framesCount.toNat = max 1 ((tokens.length + 3) / frameMaxTokensCount)
  frames : ∀ (i : Nat) (data : Buffer), input.frames[i]? = some data → ∃ d ∈ shown, ∃ tokens,
    d.Carries tokens ∧ input.boxId = d.boxId sdk tokens ∧
    readTokens data = (tokens.drop (i * frameMaxTokensCount)).take frameMaxTokensCount

/-- All boxes that were attested under the id have the same tokens. -/
def OneBox (sdk : Sdk) (shown : List Delivery) (boxId : ErgoId) : Prop :=
  ∀ d ∈ shown, ∀ d' ∈ shown, ∀ tokens tokens', d.Carries tokens → d'.Carries tokens' →
    d.boxId sdk tokens = boxId → d'.boxId sdk tokens' = boxId → tokens = tokens'

/-- Boxes that have their id in common have their tokens in common if their trees are equally long,
    as long as no hash of theirs collides. -/
theorem oneBox_of_treeSizes {sdk : Sdk} {shown : List Delivery} {boxId : ErgoId}
    (sizes : ∀ d ∈ shown, ∀ d' ∈ shown, ∀ tokens tokens', d.boxId sdk tokens = boxId →
      d'.boxId sdk tokens' = boxId → d.params.ergoTreeSize = d'.params.ergoTreeSize)
    (collisionFree : ∀ d ∈ shown, ∀ d' ∈ shown, ∀ tokens tokens',
      sdk.blake2b256 (d.stream tokens) = sdk.blake2b256 (d'.stream tokens') →
        d.stream tokens = d'.stream tokens') :
    OneBox sdk shown boxId := by
  intro d here d' here' tokens tokens' carries carries' same same'
  have equal : d.params.ergoTreeSize = d'.params.ergoTreeSize :=
    sizes d here d' here' tokens tokens' same same'
  have hashes : sdk.blake2b256 (d.stream tokens) = sdk.blake2b256 (d'.stream tokens') := by
    rw [← Delivery.boxId_eq, ← Delivery.boxId_eq, same, same']
  have streams : d.stream tokens = d'.stream tokens' :=
    collisionFree d here d' here' tokens tokens' hashes
  exact (carries.front_eq carries' equal streams).2.2

/-- The input is that of the box: its id, its value and all of its tokens. -/
def SignTx.SentInput.Spends (sdk : Sdk) (input : SentInput) (d : Delivery) : Prop :=
  d.Carries input.tokens ∧ input.boxId = d.boxId sdk input.tokens ∧ input.value = d.params.value

theorem SignTx.SentInput.Attested.spends {sdk : Sdk} {shown : List Delivery} {input : SentInput}
    (attested : input.Attested sdk shown) (complete : input.Complete)
    (one : OneBox sdk shown input.boxId) : ∃ d ∈ shown, input.Spends sdk d := by
  obtain ⟨d, known, tokens, carries, boxId, value, count⟩ := attested.box
  have length : input.frames.length = max 1 ((tokens.length + 3) / 4) := complete.trans count
  have block (i : Nat) (within : i < input.frames.length) :
      readTokens input.frames[i] = (tokens.drop (i * 4)).take 4 := by
    obtain ⟨d', known', tokens', carries', boxId', read⟩ :=
      attested.frames i _ (List.getElem?_eq_getElem within)
    obtain rfl := one d known d' known' tokens tokens' carries carries' boxId.symm boxId'.symm
    exact read
  have all : input.tokens = tokens := by
    have whole : tokens.length ≤ input.frames.length * 4 := by
      rw [length]
      omega
    exact (flatMap_of_blocks block).trans (List.take_of_length_le whole)
  exact ⟨d, known, by rwa [all], by rwa [all], value⟩

theorem SignTx.SentInput.attested_of_backed {sdk : Sdk} {shown : List Delivery} {input : SentInput}
    (complete : input.Complete) (backed : ∀ call ∈ input.calls, call.Backed sdk shown) :
    input.Attested sdk shown := by
  constructor
  · obtain ⟨d, known, tokens, frame, has, of⟩ := backed _ (.head _) rfl
    rcases of with of | ⟨length, of⟩
    · cases of
    · obtain ⟨boxId, value, framesCount, -⟩ := OpCall.addInput.inj of
      refine ⟨d, known, tokens, has.carries, boxId.trans has.boxId, value.trans has.value, ?_⟩
      rw [framesCount]
      exact has.framesCount
  · intro i data here
    have within : i < input.frames.length := (List.getElem?_eq_some_iff.mp here).1
    have call : frameCall input.boxId i data ∈ input.calls := by
      refine .tail _ (List.mem_mapIdx.mpr ⟨i, within, ?_⟩)
      rw [(List.getElem?_eq_some_iff.mp here).2]
    obtain ⟨d, known, tokens, frame, has, of⟩ := backed _ call rfl
    rcases of with of | ⟨length, of⟩
    swap
    · cases of
    obtain ⟨boxId, index, bytes⟩ := OpCall.addInputTokens.inj of
    refine ⟨d, known, tokens, has.carries, boxId.trans has.boxId, ?_⟩
    have small : (UInt8.ofNat i).toNat = i := by
      have bound := input.framesCount.toNat_lt
      have complete : input.frames.length = input.framesCount.toNat := complete
      rw [UInt8.toNat_ofNat']
      omega
    rw [bytes, readTokens_bytes, has.tokens, ← index, small]

/-! ## The machine -/

/-- The application, what its attestations have handed out, and what its last session for signing
    has done. -/
structure Vetting where
  attesting : Attesting
  signing : Signing
  /-- No frame of the session was forged. -/
  unforged : Prop

/-- The application has just started. -/
def Vetting.start (key : Bytes sessionKeyLen) (blindSigning : Bool) (supply : Supply) : Vetting :=
  ⟨.start key blindSigning supply, .start key blindSigning supply, True⟩

/-- The state after an event. -/
def Vetting.next (device : Device) [UnionLayout OpMem] [SharedLayout] (s : Vetting) (event : Event) :
    Vetting where
  attesting := s.attesting.next device event
  signing := s.signing.next device event
  unforged :=
    if succeeds (handle device event s.signing.app) then
      if event.opens = some .signTransaction then True
      else s.unforged ∧ event.Unforged s.signing.app
    else s.unforged

section Runs

variable [UnionLayout OpMem] [SharedLayout] {device : Device} {s : Vetting} {event : Event}

/-- What the session was sent was hashed and added up, and its inputs are those of attested boxes, in
    the header as in the amounts. -/
structure SpendsAttested (device : Device) (s : Vetting) : Prop where
  sent : Transmitted device.sdk (s.signing.app.commitment device) s.signing.calls s.signing.orderly
    (App.op s.signing.app)
  inOrder : s.signing.calls.filter OpCall.isInput =
    (sentInputs s.signing.calls).flatMap SentInput.calls
  boxIds : ∀ networkId, (OpCall.upload device.sdk networkId s.signing.calls).inputs.map (·.input.boxId) =
    (sentInputs s.signing.calls).map SentInput.boxId
  values : (Ledger.ofCalls s.signing.calls).inputs = (sentInputs s.signing.calls).map SentInput.value
  tokens : (Ledger.ofCalls s.signing.calls).inputTokens =
    (sentInputs s.signing.calls).flatMap SentInput.tokens
  attested : ∀ input ∈ sentInputs s.signing.calls,
    input.Complete ∧ input.Attested device.sdk s.attesting.shown
  spends : ∀ input ∈ sentInputs s.signing.calls, OneBox device.sdk s.attesting.shown input.boxId →
    ∃ d ∈ s.attesting.shown, input.Spends device.sdk d

/-- The calls of a session without forged frames have boxes behind them. -/
structure VetInv (device : Device) (s : Vetting) : Prop where
  same : s.signing.app = s.attesting.app
  attesting : AttestInv device s.attesting
  signing : SigningInv device s.signing
  backed : s.unforged → ∀ call ∈ s.signing.calls, call.Backed device.sdk s.attesting.shown

/-- What was shown stays known. -/
theorem shown_subset (s : Attesting) (event : Event) : s.shown ⊆ (s.next device event).shown := by
  intro d here
  unfold Attesting.next
  cases accepted device s.app event with
  | none => exact here
  | some call =>
      cases call with
      | opens | part => exact here
      | frame => exact .tail _ here

theorem VetInv.step (inv : VetInv device s) (event : Event) : VetInv device (s.next device event) := by
  have more : s.attesting.shown ⊆ (s.attesting.next device event).shown :=
    shown_subset s.attesting event
  refine ⟨?_, inv.attesting.step event, inv.signing.step event, ?_⟩
  · change (s.signing.next device event).app = next device s.attesting.app event
    rw [Signing.next_app, inv.same]
  · intro unforged call here
    change call ∈ (s.signing.next device event).calls at here
    unfold Signing.next at here
    simp only [Vetting.next] at unforged
    by_cases succeeded : succeeds (handle device event s.signing.app)
    swap
    · rw [if_neg succeeded] at unforged here
      exact (inv.backed unforged call here).mono more
    rw [if_pos succeeded] at unforged here
    by_cases opens : event.opens = some .signTransaction
    · rw [if_pos opens] at here
      cases here
    rw [if_neg opens] at unforged here
    rcases List.mem_append.mp here with before | now
    · exact (inv.backed unforged.1 call before).mono more
    · have honest : event.Unforged s.attesting.app := inv.same ▸ unforged.2
      exact (inv.attesting.backed honest call now).mono more

/-- What was signed spends attested boxes. -/
theorem spends_of_inv (inv : VetInv device s) (unforged : s.unforged) {signature : List UInt8}
    (signs : Signs device s.signing.app event signature) : SpendsAttested device s := by
  obtain ⟨opened, state⟩ := complete_of_signs inv.signing signs
  have sent := opened.carries.sent.inputs
  have complete := sent.after (.inr state)
  have attested (input : SentInput) (here : input ∈ sentInputs s.signing.calls) :
      input.Attested device.sdk s.attesting.shown := by
    apply SentInput.attested_of_backed (complete input here)
    intro call within
    have within : call ∈ s.signing.calls.filter OpCall.isInput := by
      rw [sent.inOrder]
      exact List.mem_flatMap.mpr ⟨input, here, within⟩
    exact inv.backed unforged call (List.mem_of_mem_filter within)
  constructor
  · exact (opened.carries.sent.transmitted state).confirmed
  · exact sent.inOrder
  · exact fun networkId => boxIds_sent device.sdk networkId s.signing.calls
  · exact values_sent s.signing.calls
  · exact sent.tokens
  · exact fun input here => ⟨complete input here, attested input here⟩
  · exact fun input here one => (attested input here).spends (complete input here) one

/-- In every run, a transaction that is signed spends attested boxes if no frame of its session was
    forged: every input was sent with all of its frames, its value and its tokens are those of boxes
    that were sent completely and have its id, and the amounts are made of them. The ids are those
    in the bytes that are signed. -/
theorem signed_inputs_attested (device : Device) (key : Bytes sessionKeyLen) (blindSigning : Bool)
    (supply : Supply) (events : List Event) :
    EachStep (Vetting.next device)
      (fun s event => ∀ signature, Signs device s.signing.app event signature → s.unforged →
        SpendsAttested device s)
      (Vetting.start key blindSigning supply) events := by
  have start : VetInv device (Vetting.start key blindSigning supply) :=
    ⟨rfl, .start, .start, fun _ _ here => absurd here List.not_mem_nil⟩
  have keep (s : Vetting) (event : Event) (inv : VetInv device s) : VetInv device (s.next device event) :=
    inv.step event
  exact eachStep_of_invariant keep
    (fun s event inv signature signs unforged => spends_of_inv inv unforged signs) start events

end Runs

end LedgerErgo
