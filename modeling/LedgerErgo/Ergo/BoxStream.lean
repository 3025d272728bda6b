import LedgerErgo.Ergo.Transaction

/-! # The stream of one box

While a box is open, its serializer has hashed a prefix of the encoding of a box, and its
counters say how much of each part is still to come. The record of a box is what the host
has sent for it so far, next to the sizes it declared; the invariant ties the context of
the serializer and the hash to the record.
-/

namespace LedgerErgo.Ergo

open LedgerErgo.Common LedgerErgo.Prog

/-- What was declared and what was sent for a box. -/
structure BoxRecord where
  treeSize : UInt32
  tokensCount : UInt8
  registersSize : UInt32
  /-- The tree came whole, as the change or the miners fee tree. -/
  wholeTree : Bool
  box : Box

namespace BoxRecord

/-- The record of a box that was just started. -/
def start (value : UInt64) (treeSize height : UInt32) (tokensCount : UInt8)
    (registersSize : UInt32) : BoxRecord :=
  ⟨treeSize, tokensCount, registersSize, false, ⟨value, [], height, [], []⟩⟩

/-- Another chunk of the tree. -/
def addTree (record : BoxRecord) (chunk : List UInt8) : BoxRecord :=
  { record with box := { record.box with tree := record.box.tree ++ chunk } }

/-- The change or the miners fee tree. -/
def addWholeTree (record : BoxRecord) (tree : List UInt8) : BoxRecord :=
  { record.addTree tree with wholeTree := true }

/-- More tokens. -/
def addTokens (record : BoxRecord) (tokens : List BoxToken) : BoxRecord :=
  { record with box := { record.box with tokens := record.box.tokens ++ tokens } }

/-- Another chunk of the registers. -/
def addRegisters (record : BoxRecord) (chunk : List UInt8) : BoxRecord :=
  { record with box := { record.box with registers := record.box.registers ++ chunk } }

/-- The tree has the declared size, or came whole. -/
def TreeComplete (record : BoxRecord) : Prop :=
  record.wholeTree = true ∨ record.box.tree.length = record.treeSize.toNat

/-- Everything that was declared was sent. -/
structure Complete (record : BoxRecord) : Prop where
  tree : record.TreeComplete
  tokens : record.box.tokens.length = record.tokensCount.toNat
  registers : record.box.registers.length = record.registersSize.toNat

/-- The bytes of a box up to its tree. -/
def treeBytes (record : BoxRecord) : List UInt8 :=
  vlq record.box.value.toNat ++ record.box.tree

/-- The bytes of a box up to its tokens. -/
def tokenBytes (record : BoxRecord) : List UInt8 :=
  record.treeBytes ++ vlq record.box.creationHeight.toNat ++
    record.tokensCount :: record.box.tokens.flatMap BoxToken.bytes

theorem tokenBytes_of_count (record : BoxRecord)
    (tokens : record.box.tokens.length = record.tokensCount.toNat) :
    record.tokenBytes ++ blobBytes record.box.registers = record.box.encode := by
  simp [tokenBytes, treeBytes, Box.encode, tokensBytes, tokens]

end BoxRecord

variable {σ : Type}

/-- The context and the hash of a box serializer, as a function of the phase. The hash was
    `base` when the box was started. -/
inductive BoxInv (base : List UInt8) (record : BoxRecord) (ctx : BoxCtx σ) (hash : List UInt8) :
    Prop where
  | initialized (state : ctx.state = .initialized) (bytes : hash = base ++ record.treeBytes)
      (size : ctx.ergoTreeSize.toNat + record.box.tree.length = record.treeSize.toNat)
      (height : ctx.creationHeight = record.box.creationHeight)
      (count : ctx.tokensCount = record.tokensCount)
      (registers : ctx.registersSize = record.registersSize)
      (noTokens : record.box.tokens = []) (noRegisters : record.box.registers = [])
  | treeAdded (state : ctx.state = .treeAdded) (bytes : hash = base ++ record.tokenBytes)
      (tree : record.TreeComplete)
      (count : ctx.tokensCount.toNat + record.box.tokens.length = record.tokensCount.toNat)
      (more : ctx.tokensCount ≠ 0)
      (registers : ctx.registersSize = record.registersSize)
      (noRegisters : record.box.registers = [])
  | tokensAdded (state : ctx.state = .tokensAdded)
      (bytes : hash = base ++ record.tokenBytes ++ record.box.registers)
      (tree : record.TreeComplete)
      (tokens : record.box.tokens.length = record.tokensCount.toNat)
      (registers : ctx.registersSize.toNat + record.box.registers.length =
        record.registersSize.toNat)
      (more : ctx.registersSize ≠ 0)
  | finished (state : ctx.state = .finished) (bytes : hash = base ++ record.box.encode)
      (complete : record.Complete)

namespace BoxInv

open TxSerBox

variable {base hash : List UInt8} {record : BoxRecord} {ctx : BoxCtx σ}

/-- The invariant does not look at the callbacks or at the type. -/
theorem congr {ctx' : BoxCtx σ} (inv : BoxInv base record ctx hash) (state : ctx'.state = ctx.state)
    (size : ctx'.ergoTreeSize = ctx.ergoTreeSize) (height : ctx'.creationHeight = ctx.creationHeight)
    (count : ctx'.tokensCount = ctx.tokensCount)
    (registers : ctx'.registersSize = ctx.registersSize) : BoxInv base record ctx' hash := by
  cases inv with
  | initialized =>
      refine .initialized ?_ ?_ ?_ ?_ ?_ ?_ ?_ ?_ <;> simp_all
  | treeAdded => refine .treeAdded ?_ ?_ ?_ ?_ ?_ ?_ ?_ <;> simp_all
  | tokensAdded => refine .tokensAdded ?_ ?_ ?_ ?_ ?_ ?_ <;> simp_all
  | finished => refine .finished ?_ ?_ ?_ <;> simp_all

/-- What follows a complete part of a box: the next part that is not empty. -/
private theorem next (record : BoxRecord) (ctx : BoxCtx σ)
    (bytes : hash = base ++ record.tokenBytes) (tree : record.TreeComplete)
    (count : ctx.tokensCount.toNat + record.box.tokens.length = record.tokensCount.toNat)
    (registers : ctx.registersSize = record.registersSize)
    (noRegisters : record.box.registers = []) :
    BoxInv base record (treeDone ctx) (hash ++ endBytes ctx) := by
  by_cases tokens : ctx.tokensCount = 0
  · have all : record.box.tokens.length = record.tokensCount.toNat := by simpa [tokens] using count
    by_cases empty : ctx.registersSize = 0
    · refine .finished (by simp [treeDone, nextState, tokens, empty]) ?_ ⟨tree, all, ?_⟩
      · have done : endBytes ctx = [0] := by simp [endBytes, NothingLeft, tokens, empty]
        rw [bytes, done, ← BoxRecord.tokenBytes_of_count record all, noRegisters, blobBytes, if_pos rfl,
          List.append_assoc]
      · rw [noRegisters, ← registers, empty]
        rfl
    · have more : endBytes ctx = [] := by simp [endBytes, NothingLeft, empty]
      refine .tokensAdded (by simp [treeDone, nextState, tokens, empty]) ?_ tree all ?_ empty
      · rw [bytes, more, noRegisters]
      · simp [treeDone, registers, noRegisters]
  · have more : endBytes ctx = [] := by simp [endBytes, NothingLeft, tokens]
    exact .treeAdded (by simp [treeDone, nextState, tokens]) (by rw [bytes, more, List.append_nil])
      tree count tokens registers noRegisters

/-- A new box starts where the hash stands. -/
theorem init {value : UInt64} {treeSize height : UInt32} {tokensCount : UInt8}
    {registersSize : UInt32} {s t : SerState (BoxCtx σ) σ} {u : Unit}
    (ok : TxSerBox.init value treeSize height tokensCount registersSize s = .ok u t) :
    BoxInv s.hash (.start value treeSize height tokensCount registersSize) t.ctx t.hash := by
  obtain ⟨_, m, _, rfl⟩ := init_ok.mp ok
  exact .initialized rfl (by simp [BoxRecord.start, BoxRecord.treeBytes])
    (by simp [BoxRecord.start, started]) rfl rfl rfl rfl rfl

theorem addTree {chunk : Buffer} {s t : SerState (BoxCtx σ) σ} {r : Progress}
    (inv : BoxInv base record s.ctx s.hash) (ok : TxSerBox.addTree chunk s = .ok r t) :
    BoxInv base (record.addTree chunk) t.ctx t.hash := by
  obtain ⟨⟨state, fits, _⟩, m, _, _, rfl⟩ := addTree_ok.mp ok
  cases inv with
  | initialized _ bytes size height count registers noTokens noRegisters =>
      have rest := Counter.toNat_sub_ofNat32 fits
      by_cases last : LastChunk s.ctx chunk.length
      · have all : s.ctx.ergoTreeSize.toNat = chunk.length := (Counter.sub_ofNat32_eq_zero fits).mp last
        simp only [treeChunkDone, treeChunkBytes, last, if_true, treeDoneBytes, ← List.append_assoc]
        refine (next (record.addTree chunk) { s.ctx with
          ergoTreeSize := s.ctx.ergoTreeSize - UInt32.ofNat chunk.length, type := .tree }
          ?_ (.inr ?_) ?_ registers noRegisters)
        · simp [bytes, BoxRecord.addTree, BoxRecord.tokenBytes, BoxRecord.treeBytes, height, count,
            noTokens]
        · simp only [BoxRecord.addTree, List.length_append]
          omega
        · simp [BoxRecord.addTree, noTokens, count]
      · simp only [treeChunkDone, treeChunkBytes, last, if_false, List.append_nil]
        refine .initialized state ?_ ?_ height count registers noTokens noRegisters
        · simp [bytes, BoxRecord.addTree, BoxRecord.treeBytes]
        · simp only [rest, BoxRecord.addTree, List.length_append]
          omega
  | treeAdded state' => simp [state] at state'
  | tokensAdded state' => simp [state] at state'
  | finished state' => simp [state] at state'

theorem addWholeTree {type : BoxType} {tree : List UInt8} {s t : SerState (BoxCtx σ) σ} {u : Unit}
    (inv : BoxInv base record s.ctx s.hash) (ok : TxSerBox.addWholeTree type tree s = .ok u t) :
    BoxInv base (record.addWholeTree tree) t.ctx t.hash := by
  obtain ⟨state, m, _, rfl⟩ := addWholeTree_ok.mp ok
  cases inv with
  | initialized _ bytes size height count registers noTokens noRegisters =>
      simp only [treeDoneBytes, ← List.append_assoc]
      refine (next (record.addWholeTree tree) { s.ctx with type := type }
        ?_ (.inl rfl) ?_ registers noRegisters)
      · simp [bytes, BoxRecord.addWholeTree, BoxRecord.addTree, BoxRecord.tokenBytes,
          BoxRecord.treeBytes, height, count, noTokens]
      · simp [BoxRecord.addWholeTree, BoxRecord.addTree, noTokens, count]
  | treeAdded state' => simp [state] at state'
  | tokensAdded state' => simp [state] at state'
  | finished state' => simp [state] at state'

theorem addTokens {tokens : List BoxToken} {s : SerState (BoxCtx σ) σ}
    (inv : BoxInv base record s.ctx s.hash) (state : s.ctx.state = .treeAdded)
    (room : tokens.length ≤ s.ctx.tokensCount.toNat) :
    BoxInv base (record.addTokens tokens) (treeDone (tokensTaken s.ctx tokens.length))
      (s.hash ++ (tokens.flatMap BoxToken.bytes ++
        endBytes (tokensTaken s.ctx tokens.length))) := by
  cases inv with
  | initialized state' => simp [state] at state'
  | treeAdded _ bytes tree count more registers noRegisters =>
      rw [← List.append_assoc]
      refine next (record.addTokens tokens) _ ?_ tree ?_ registers noRegisters
      · simp [bytes, BoxRecord.addTokens, BoxRecord.tokenBytes, BoxRecord.treeBytes]
      · have rest := Counter.toNat_sub_ofNat8 room
        simp only [tokensTaken, rest, BoxRecord.addTokens, List.length_append]
        omega
  | tokensAdded state' => simp [state] at state'
  | finished state' => simp [state] at state'

theorem addRegisters {chunk : Buffer} {s t : SerState (BoxCtx σ) σ} {r : Progress}
    (inv : BoxInv base record s.ctx s.hash) (ok : TxSerBox.addRegisters chunk s = .ok r t) :
    BoxInv base (record.addRegisters chunk) t.ctx t.hash := by
  obtain ⟨state, fits, m, _, _, rfl⟩ := addRegisters_ok.mp ok
  cases inv with
  | initialized state' => simp [state] at state'
  | treeAdded state' => simp [state] at state'
  | tokensAdded _ bytes tree tokens registers more =>
      have rest := Counter.toNat_sub_ofNat32 fits
      by_cases last : LastRegisters s.ctx chunk.length
      · have all : s.ctx.registersSize.toNat = chunk.length := (Counter.sub_ofNat32_eq_zero fits).mp last
        have size : (record.box.registers ++ chunk).length = record.registersSize.toNat := by
          rw [List.length_append]
          omega
        have some : record.box.registers ++ chunk ≠ [] := by
          have positive := Counter.toNat_pos32.mp more
          exact List.ne_nil_of_length_pos (by rw [List.length_append]; omega)
        refine .finished (by simp [registersDone, last]) ?_ ⟨tree, tokens, size⟩
        have whole := BoxRecord.tokenBytes_of_count (record.addRegisters chunk) tokens
        rw [← whole, bytes]
        simp only [BoxRecord.addRegisters, BoxRecord.tokenBytes, BoxRecord.treeBytes, blobBytes, some,
          if_false, List.append_assoc]
      · refine .tokensAdded (by simp [registersDone, last, state]) ?_ tree tokens ?_ ?_
        · simp [bytes, BoxRecord.addRegisters, BoxRecord.tokenBytes, BoxRecord.treeBytes]
        · simp only [registersDone, last, if_false, rest, BoxRecord.addRegisters,
            List.length_append]
          omega
        · simp only [registersDone, last, if_false]
          exact last
  | finished state' => simp [state] at state'

end BoxInv

end LedgerErgo.Ergo
