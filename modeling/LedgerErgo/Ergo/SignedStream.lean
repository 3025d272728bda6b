import LedgerErgo.Ergo.FullRuns

/-! # What the hashed stream says about the transaction

The stream of a run is a function of what was sent: of the declared counts, the inputs,
the data inputs, the distinct ids and the boxes. In the other direction less is true.
The stream does not contain the lengths of trees, registers and context extensions, so it
can be cut into fields in more than one way. Two runs with the same stream show the same
outputs if these lengths agree, and they need not otherwise.
-/

namespace LedgerErgo.Ergo

open LedgerErgo.Common LedgerErgo.Prog
open TxSerTable (idBytes)

section Runs

variable {σ σ' : Type} [UnionLayout σ] [UnionLayout σ']

/-- `init` and then the calls. -/
def fullRun (declared : Declared) (calls : List (FullCall σ)) : TxSerFull.FullM σ Unit := do
  TxSerFull.init declared.inputs declared.dataInputs declared.outputs declared.tokens
  runAll FullCall.run calls

/-- A layout in which the union reads as zero bytes when its other member was written. -/
instance : UnionLayout Unit := ⟨fun _ => .zero Unit, fun _ => .zero Unit⟩

/-- Nothing was hashed yet, no callback is set and no SDK call fails. -/
def idle : SerState (FullCtx Unit) Unit := ⟨.zero Unit, [], ⟨[], .empty, ()⟩⟩

/-- The bytes hashed when the output phase begins are the header of what was sent: the
    counts, exactly as many inputs, data inputs and distinct ids as were declared, in the
    order of the calls, each extension with its declared size. -/
theorem header_of_outputsStarted {declared : Declared} {calls : List (FullCall σ)}
    {s t : SerState (FullCtx σ) σ} (ok : fullRun declared calls s = .ok () t)
    (reached : t.ctx.state = .outputsStarted)
    (first : ∀ k < calls.length, ∀ m, fullRun declared (calls.take k) s = .ok () m →
      m.ctx.state ≠ .outputsStarted) :
    (Upload.ofCalls calls).HeaderComplete declared ∧
      t.hash = s.hash ++ (Upload.ofCalls calls).header declared := by
  simp only [fullRun, bind_ok, exists_unit] at ok first
  obtain ⟨begun, init, rest⟩ := ok
  obtain ⟨inv, noBoxes⟩ := (FullInv.init init).run_header rfl rest
    fun k within m run => first k within m ⟨begun, init, run⟩
  have phase := inv.outputsPhase (.inl reached)
  refine ⟨phase.header, ?_⟩
  have noBoxes : (Upload.ofCalls calls).boxes = [] := noBoxes
  cases phase.outputs with
  | closed _ _ _ bytes =>
      rw [bytes, ← Upload.ofCalls, noBoxes, List.flatMap_nil, List.append_nil]
  | opened previous current _ split =>
      have impossible := split.symm.trans noBoxes
      simp at impossible

/-- A header with a distinct id, an input with an extension of two bytes and a data input. -/
def smallHeader : List (FullCall Unit) :=
  [.addTokens (List.replicate 32 1), .addInput (Bytes.zero 32) 1 2,
    .addInputTokens (Bytes.zero 32) 0 [], .addInputContextExtension [0x01, 0x00],
    .addDataInputs (List.replicate 32 2)]

theorem header_of_outputsStarted_smallHeader :
    (Upload.ofCalls smallHeader).HeaderComplete ⟨1, 1, 1, 1⟩ ∧
      (final (fullRun ⟨1, 1, 1, 1⟩ smallHeader idle)).hash =
        idle.hash ++ (Upload.ofCalls smallHeader).header ⟨1, 1, 1, 1⟩ := by
  have before : ∀ k < smallHeader.length,
      (final (fullRun ⟨1, 1, 1, 1⟩ (smallHeader.take k) idle)).ctx.state ≠ .outputsStarted := by
    decide +kernel
  refine header_of_outputsStarted (eq_ok_of_succeeds (by decide +kernel)) (by decide +kernel) ?_
  intro k within m ran
  have state := before k within
  rwa [ran] at state

/-- An orderly run that ends with the transaction finished. -/
structure FinishedRun (declared : Declared) (calls : List (FullCall σ))
    (s t : SerState (FullCtx σ) σ) : Prop where
  ok : fullRun declared calls s = .ok () t
  orderly : OrderlyRun calls
    (final (TxSerFull.init declared.inputs declared.dataInputs declared.outputs declared.tokens s))
  finished : t.ctx.state = .finished

/-- The whole stream of what was sent. -/
def Upload.encode (upload : Upload) (declared : Declared) : List UInt8 :=
  upload.header declared ++ upload.boxes.flatMap (·.box.encode)

/-- Everything was sent as declared. -/
structure Upload.Complete (upload : Upload) (declared : Declared) : Prop where
  header : upload.HeaderComplete declared
  boxes : ∀ record ∈ upload.boxes, record.Complete
  boxesCount : upload.boxes.length = declared.outputs.toNat

/-- A finished run has hashed everything that was sent, and everything was sent. -/
theorem FinishedRun.stream {declared : Declared} {calls : List (FullCall σ)}
    {s t : SerState (FullCtx σ) σ} (run : FinishedRun declared calls s t) :
    (Upload.ofCalls calls).Complete declared ∧
      t.hash = s.hash ++ (Upload.ofCalls calls).encode declared := by
  have ok := run.ok
  simp only [fullRun, bind_ok, exists_unit] at ok
  obtain ⟨begun, init, rest⟩ := ok
  have orderly := run.orderly
  rw [init, final] at orderly
  have phase := ((FullInv.init init).run orderly rest).outputsPhase (.inr run.finished)
  obtain ⟨boxes, count, bytes⟩ := phase.outputs.finished run.finished
  exact ⟨⟨phase.header, boxes, count⟩, by rw [bytes, List.append_assoc]; rfl⟩

end Runs

/-! ## Reading the stream back -/

namespace Upload

variable {upload upload' : Upload} {declared declared' : Declared}

/-- The id a token entry stands for: its own, or the one the index points to. -/
def tokenId (upload : Upload) : TokenRef → List UInt8
  | .id tokenId => tokenId.val
  | .index i => (upload.tokenIds.drop (32 * i.toNat)).take 32

/-- What a box pays: its value, its tree and its tokens with their amounts. -/
def payment (upload : Upload) (box : Box) : UInt64 × List UInt8 × List (List UInt8 × UInt64) :=
  (box.value, box.tree, box.tokens.map fun token => (upload.tokenId token.ref, token.amount))

/-- What the transaction pays, output by output. -/
def outputs (upload : Upload) : List (UInt64 × List UInt8 × List (List UInt8 × UInt64)) :=
  upload.boxes.map fun record => upload.payment record.box

/-- All token entries of the outputs are indices. -/
def ByIndex (upload : Upload) : Prop :=
  ∀ record ∈ upload.boxes, ∀ token ∈ record.box.tokens, token.ref.isId = false

theorem readEntries_index (rounds : Nat) (input : Buffer) :
    ∀ token ∈ readEntries rounds input, token.ref.isId = false := by
  induction rounds generalizing input with
  | zero => simp [readEntries]
  | succ rounds ih =>
      rw [readEntries]
      split
      · simp
      · rename_i read
        simp only [readEntry, Option.bind_eq_bind, Option.bind_eq_some_iff, Option.pure_def,
          Option.some.injEq, Prod.mk.injEq] at read
        obtain ⟨_, _, _, _, rfl, rfl⟩ := read
        simpa [TokenRef.isId] using ih _

private theorem forall_modifyLast {α : Type} {p : α → Prop} {as : List α} {f : α → α}
    (all : ∀ a ∈ as, p a) (keeps : ∀ a, p a → p (f a)) : ∀ a ∈ as.modifyLast f, p a := by
  rcases as.eq_nil_or_concat with rfl | ⟨as, a, rfl⟩
  · exact all
  · rw [List.concat_eq_append] at all ⊢
    rw [List.modifyLast_concat]
    simp only [List.mem_append, List.mem_singleton, or_imp, forall_and, forall_eq] at all ⊢
    exact ⟨all.1, keeps a all.2⟩

private theorem ByIndex.addToBox (byIndex : upload.ByIndex) (call : BoxCall) :
    (upload.addToBox call).ByIndex := by
  refine forall_modifyLast byIndex fun record all => ?_
  cases call with
  | tokens input =>
      simpa [BoxCall.record, BoxRecord.addTokens, or_imp, forall_and] using
        ⟨all, readEntries_index input.length input⟩
  | tree | changeTree | minersFeeTree | registers => exact all

theorem ByIndex.record {σ : Type} (byIndex : upload.ByIndex) (call : FullCall σ) :
    (upload.record call).ByIndex := by
  cases call with
  | addBox =>
      intro record here
      simp only [Upload.record, List.mem_append, List.mem_singleton] at here
      rcases here with here | rfl
      · exact byIndex record here
      · simp [BoxRecord.start]
  | addBoxErgoTree chunk => exact byIndex.addToBox (.tree chunk)
  | addBoxChangeTree rawPubKey => exact byIndex.addToBox (.changeTree rawPubKey)
  | addBoxMinersFeeTree isMainnet => exact byIndex.addToBox (.minersFeeTree isMainnet)
  | addBoxTokens tokens => exact byIndex.addToBox (.tokens tokens)
  | addBoxRegisters chunk => exact byIndex.addToBox (.registers chunk)
  | addTokens | addInput | addInputTokens | addInputContextExtension | addDataInputs
  | setInputCallback | setBoxCallbacks => exact byIndex

theorem byIndex_ofCalls {σ : Type} (calls : List (FullCall σ)) : (ofCalls calls).ByIndex := by
  have all : ∀ upload : Upload, upload.ByIndex → (calls.foldl Upload.record upload).ByIndex := by
    induction calls with
    | nil => exact fun _ byIndex => byIndex
    | cons call calls ih => exact fun upload byIndex => ih _ (byIndex.record call)
  exact all empty (by simp [ByIndex, empty])

theorem comparable (byIndex : upload.ByIndex) (byIndex' : upload'.ByIndex)
    (complete : upload.Complete declared) (complete' : upload'.Complete declared')
    {a b : BoxRecord} (here : a ∈ upload.boxes) (here' : b ∈ upload'.boxes) :
    a.box.Comparable b.box where
  fewTokens := by
    rw [(complete.boxes a here).tokens]
    exact a.tokensCount.toNat_lt
  fewTokens' := by
    rw [(complete'.boxes b here').tokens]
    exact b.tokensCount.toNat_lt
  kinds token ht token' ht' := (byIndex a here token ht).trans (byIndex' b here' token' ht').symm

/-- The header can be read back if the lengths of the extensions are known. -/
theorem header_append_inj (complete : upload.HeaderComplete declared)
    (complete' : upload'.HeaderComplete declared')
    (extensions : ∀ (i : Nat) a b, upload.inputs[i]? = some a → upload'.inputs[i]? = some b →
      a.input.extension.length = b.input.extension.length)
    {x y : List UInt8} (same : upload.header declared ++ x = upload'.header declared' ++ y) :
    upload.inputs.map (·.input) = upload'.inputs.map (·.input) ∧
      upload.dataInputs = upload'.dataInputs ∧ upload.tokenIds = upload'.tokenIds ∧
      declared.outputs = declared'.outputs ∧ x = y := by
  simp only [header, inputBytes, List.append_assoc] at same
  obtain ⟨inputs, same⟩ := Vlq.append_inj same
  have pairs : List.Forall₂ (fun a b : Input => a.extension.length = b.extension.length)
      (upload.inputs.map (·.input)) (upload'.inputs.map (·.input)) := by
    refine forall₂_of_getElem? ?_ ?_
    · rw [List.length_map, List.length_map, complete.inputsCount, complete'.inputsCount, inputs]
    · intro i a b ha hb
      simp only [List.getElem?_map, Option.map_eq_some_iff] at ha hb
      obtain ⟨a, ha, rfl⟩ := ha
      obtain ⟨b, hb, rfl⟩ := hb
      exact extensions i a b ha hb
  have stream : ∀ (records : List InputRecord),
      records.flatMap (·.input.encode) = (records.map (·.input)).flatMap Input.encode :=
    fun records => (List.flatMap_map ..).symm
  rw [stream, stream] at same
  obtain ⟨sameInputs, same⟩ :=
    SelfDelimiting.flatMap_of_pairs (fun _ _ _ _ => Input.append_inj) pairs same
  obtain ⟨dataInputs, same⟩ := Vlq.append_inj same
  obtain ⟨sameData, same⟩ := List.append_inj same
    (by rw [complete.dataInputs, complete'.dataInputs, dataInputs])
  obtain ⟨tokens, same⟩ := Vlq.append_inj same
  obtain ⟨sameIds, same⟩ := List.append_inj same
    (by rw [complete.tokenIds, complete'.tokenIds, tokens])
  obtain ⟨outputs, same⟩ := Vlq.append_inj same
  exact ⟨sameInputs, sameData, sameIds, UInt16.toNat_inj.mp outputs, same⟩

/-- The boxes can be read back if the lengths of the trees are known and, except for the last
    box, the lengths of the registers. -/
theorem payments_eq (upload upload' : Upload) {as bs : List Box} (length : as.length = bs.length)
    (comparable : ∀ (i : Nat) a b, as[i]? = some a → bs[i]? = some b → a.Comparable b)
    (trees : ∀ (i : Nat) a b, as[i]? = some a → bs[i]? = some b → a.tree.length = b.tree.length)
    (registers : ∀ (i : Nat) a b, i + 1 < as.length → as[i]? = some a → bs[i]? = some b →
      a.registers.length = b.registers.length)
    (same : as.flatMap Box.encode = bs.flatMap Box.encode) (ids : upload.tokenIds = upload'.tokenIds) :
    as.map upload.payment = bs.map upload'.payment := by
  have tokenIds : upload.tokenId = upload'.tokenId := by
    funext ref
    cases ref with
    | id => rfl
    | index => simp only [tokenId, ids]
  induction as generalizing bs with
  | nil => simp [List.length_eq_zero_iff.mp length.symm]
  | cons a as ih =>
      cases bs with
      | nil => simp at length
      | cons b bs =>
          simp only [List.flatMap_cons] at same
          have comparableHere := comparable 0 a b rfl rfl
          have treesHere := trees 0 a b rfl rfl
          obtain ⟨value, tree, -, tokens, -⟩ := Box.front_eq comparableHere treesHere same
          have here : upload.payment a = upload'.payment b := by
            simp only [payment, value, tree, tokens, tokenIds]
          have length : as.length = bs.length := by simpa using length
          have others : as.flatMap Box.encode = bs.flatMap Box.encode := by
            by_cases last : as = []
            · have : bs = [] := List.length_eq_zero_iff.mp (by simp [← length, last])
              rw [last, this]
            · have more : 0 + 1 < (a :: as).length := by
                simpa using List.length_pos_iff.mpr last
              exact (Box.append_inj comparableHere treesHere
                (registers 0 a b more rfl rfl) same).2
          rw [List.map_cons, List.map_cons, here, ih length
            (fun i a b ha hb => comparable (i + 1) a b ha hb)
            (fun i a b ha hb => trees (i + 1) a b ha hb)
            (fun i a b more ha hb => registers (i + 1) a b (by simpa using more) ha hb) others]

end Upload

/-- Two finished runs with the same stream pay the same outputs, if the host has cut the stream
    in the same way in both: extensions, trees and registers at the same place have the same
    length. The registers of the last box may differ in length. -/
theorem outputs_eq_of_same_stream {σ σ' : Type} [UnionLayout σ] [UnionLayout σ']
    {declared declared' : Declared} {calls : List (FullCall σ)} {calls' : List (FullCall σ')}
    {s t : SerState (FullCtx σ) σ} {s' t' : SerState (FullCtx σ') σ'} {bytes : List UInt8}
    (run : FinishedRun declared calls s t) (run' : FinishedRun declared' calls' s' t')
    (fed : t.hash = s.hash ++ bytes) (fed' : t'.hash = s'.hash ++ bytes)
    (extensions : ∀ (i : Nat) a b, (Upload.ofCalls calls).inputs[i]? = some a →
      (Upload.ofCalls calls').inputs[i]? = some b →
      a.input.extension.length = b.input.extension.length)
    (trees : ∀ (i : Nat) a b, (Upload.ofCalls calls).boxes[i]? = some a →
      (Upload.ofCalls calls').boxes[i]? = some b → a.box.tree.length = b.box.tree.length)
    (registers : ∀ (i : Nat) a b, i + 1 < (Upload.ofCalls calls).boxes.length →
      (Upload.ofCalls calls).boxes[i]? = some a → (Upload.ofCalls calls').boxes[i]? = some b →
      a.box.registers.length = b.box.registers.length) :
    (Upload.ofCalls calls).outputs = (Upload.ofCalls calls').outputs := by
  obtain ⟨complete, stream⟩ := run.stream
  obtain ⟨complete', stream'⟩ := run'.stream
  have same : (Upload.ofCalls calls).encode declared = (Upload.ofCalls calls').encode declared' :=
    (List.append_cancel_left (stream.symm.trans fed)).trans
      (List.append_cancel_left (stream'.symm.trans fed')).symm
  obtain ⟨-, -, ids, counts, boxes⟩ :=
    Upload.header_append_inj complete.header complete'.header extensions same
  have flat : ∀ records : List BoxRecord,
      records.flatMap (·.box.encode) = (records.map (·.box)).flatMap Box.encode :=
    fun records => (List.flatMap_map ..).symm
  rw [flat, flat] at boxes
  have entry : ∀ {records : List BoxRecord} {i : Nat} {box : Box},
      (records.map (·.box))[i]? = some box → ∃ record, records[i]? = some record ∧ record.box = box :=
    fun here => by simpa only [List.getElem?_map, Option.map_eq_some_iff] using here
  have payments := Upload.payments_eq (.ofCalls calls) (.ofCalls calls')
    (by rw [List.length_map, List.length_map, complete.boxesCount, complete'.boxesCount, counts])
    (fun i a b ha hb => by
      obtain ⟨_, here, rfl⟩ := entry ha
      obtain ⟨_, here', rfl⟩ := entry hb
      exact Upload.comparable (Upload.byIndex_ofCalls calls) (Upload.byIndex_ofCalls calls') complete
        complete' (List.mem_of_getElem? here) (List.mem_of_getElem? here'))
    (fun i a b ha hb => by
      obtain ⟨_, here, rfl⟩ := entry ha
      obtain ⟨_, here', rfl⟩ := entry hb
      exact trees i _ _ here here')
    (fun i a b more ha hb => by
      obtain ⟨_, here, rfl⟩ := entry ha
      obtain ⟨_, here', rfl⟩ := entry hb
      exact registers i _ _ (by simpa using more) here here')
    boxes ids
  simpa only [List.map_map, Upload.outputs, Function.comp_def] using payments

/-! ## One stream, two transactions -/

namespace Recut

/-- One input and one output, no data input and no distinct id. -/
def declared : Declared := ⟨1, 0, 1, 0⟩

/-- A box of value 1 with the tree 07 05, at height 0, without tokens and registers. -/
def longTree : List (FullCall Unit) :=
  [.addInput (Bytes.zero 32) 1 0, .addInputTokens (Bytes.zero 32) 0 [],
    .addBox 1 2 0 0 0, .addBoxErgoTree [0x07, 0x05]]

/-- A box of value 1 with the tree 07, at height 5, with the registers 00 00. -/
def shortTree : List (FullCall Unit) :=
  [.addInput (Bytes.zero 32) 1 0, .addInputTokens (Bytes.zero 32) 0 [],
    .addBox 1 1 5 0 2, .addBoxErgoTree [0x07], .addBoxRegisters [0x00, 0x00]]

theorem longTree_finished :
    FinishedRun declared longTree idle (final (fullRun declared longTree idle)) :=
  ⟨eq_ok_of_succeeds (by decide +kernel), by decide +kernel, by decide +kernel⟩

theorem shortTree_finished :
    FinishedRun declared shortTree idle (final (fullRun declared shortTree idle)) :=
  ⟨eq_ok_of_succeeds (by decide +kernel), by decide +kernel, by decide +kernel⟩

/-- The two runs hash the same bytes and pay to different trees. -/
theorem same_stream_other_outputs :
    FinishedRun declared longTree idle (final (fullRun declared longTree idle)) ∧
    FinishedRun declared shortTree idle (final (fullRun declared shortTree idle)) ∧
    (final (fullRun declared longTree idle)).hash = (final (fullRun declared shortTree idle)).hash ∧
    (Upload.ofCalls longTree).outputs ≠ (Upload.ofCalls shortTree).outputs :=
  ⟨longTree_finished, shortTree_finished, by decide +kernel, by decide⟩

/-- One input with an extension of two bytes, one distinct id, and two outputs: one with a token and
    both with registers. -/
def twoBoxes : Declared := ⟨1, 0, 2, 1⟩

/-- Every part is sent as a whole. -/
def wholeParts : List (FullCall Unit) :=
  [.addTokens (List.replicate 32 1), .addInput (Bytes.zero 32) 1 2,
    .addInputTokens (Bytes.zero 32) 0 [], .addInputContextExtension [0x01, 0x00],
    .addBox 5 260 7 1 2, .addBoxErgoTree (List.replicate 260 5),
    .addBoxTokens [0, 0, 0, 0, 0, 0, 0, 0, 0, 0, 0, 9], .addBoxRegisters [0x01, 0x04],
    .addBox 1 1 7 0 2, .addBoxErgoTree [0x07], .addBoxRegisters [0x00, 0x00]]

/-- The input has two frames, and the parts come in other pieces. -/
def cutParts : List (FullCall Unit) :=
  [.addTokens (List.replicate 32 1), .addInput (Bytes.zero 32) 2 2,
    .addInputTokens (Bytes.zero 32) 0 [], .addInputTokens (Bytes.zero 32) 1 [],
    .addInputContextExtension [0x01], .addInputContextExtension [0x00],
    .addBox 5 260 7 1 2, .addBoxErgoTree (List.replicate 255 5), .addBoxErgoTree (List.replicate 5 5),
    .addBoxTokens [0, 0, 0, 0, 0, 0, 0, 0, 0, 0, 0, 9], .addBoxRegisters [0x01],
    .addBoxRegisters [0x04],
    .addBox 1 1 7 0 2, .addBoxErgoTree [0x07], .addBoxRegisters [0x00], .addBoxRegisters [0x00]]

private theorem eq_of_map_eq {α β : Type} {f : α → β} {as bs : List α} (same : as.map f = bs.map f)
    {i : Nat} {a b : α} (ha : as[i]? = some a) (hb : bs[i]? = some b) : f a = f b := by
  have here := congrArg (·[i]?) same
  simpa only [List.getElem?_map, ha, hb, Option.map_some, Option.some.injEq] using here

/-- However the parts are cut, the outputs are the same. -/
theorem outputs_eq_of_same_stream_cutParts :
    (Upload.ofCalls wholeParts).outputs = (Upload.ofCalls cutParts).outputs := by
  have whole : FinishedRun twoBoxes wholeParts idle (final (fullRun twoBoxes wholeParts idle)) :=
    ⟨eq_ok_of_succeeds (by decide +kernel), by decide +kernel, by decide +kernel⟩
  have cut : FinishedRun twoBoxes cutParts idle (final (fullRun twoBoxes cutParts idle)) :=
    ⟨eq_ok_of_succeeds (by decide +kernel), by decide +kernel, by decide +kernel⟩
  have fed : (final (fullRun twoBoxes wholeParts idle)).hash =
      idle.hash ++ (final (fullRun twoBoxes wholeParts idle)).hash := (List.nil_append _).symm
  have same : (final (fullRun twoBoxes cutParts idle)).hash =
      idle.hash ++ (final (fullRun twoBoxes wholeParts idle)).hash := by decide +kernel
  have extensions : (Upload.ofCalls wholeParts).inputs.map (·.input.extension.length) =
      (Upload.ofCalls cutParts).inputs.map (·.input.extension.length) := by decide +kernel
  have trees : (Upload.ofCalls wholeParts).boxes.map (·.box.tree.length) =
      (Upload.ofCalls cutParts).boxes.map (·.box.tree.length) := by decide +kernel
  have registers : (Upload.ofCalls wholeParts).boxes.map (·.box.registers.length) =
      (Upload.ofCalls cutParts).boxes.map (·.box.registers.length) := by decide +kernel
  exact outputs_eq_of_same_stream whole cut fed same (fun _ _ _ => eq_of_map_eq extensions)
    (fun _ _ _ => eq_of_map_eq trees) (fun _ _ _ _ => eq_of_map_eq registers)

end Recut

end LedgerErgo.Ergo
