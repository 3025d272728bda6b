import LedgerErgo.Ergo.BoxCall
import LedgerErgo.Ergo.Transaction
import LedgerErgo.Lib.Pieces

/-! # Delivering the parts of a box

While no SDK call fails and the callbacks accept what they are shown, the box serializer takes
a box in any legal pieces: the tree in full chunks and a rest, the tokens cut between two entries, the
registers cut anywhere. It is finished with the last piece and has hashed the box.
-/

namespace LedgerErgo.Ergo

open LedgerErgo.Common LedgerErgo.Prog TxSerBox

variable {σ : Type}

namespace BoxCall

variable [UnionLayout σ]

/-- Calls that succeed on the box succeed in the transaction, since the box is not finished
    before the last one. -/
theorem runAll_full {ctx : FullCtx σ} {calls : List BoxCall} {v w : SerState (BoxCtx σ) σ}
    (state : ctx.state = .outputsStarted) (some : calls ≠ [])
    (ok : runAll (run ctx.tableCtx) calls v = .ok () w) :
    runAll FullCall.run (calls.map full) ⟨ctx.setBoxCtx v.ctx, v.hash, v.mem⟩ =
      .ok () (TxSerFull.afterBox ctx w) := by
  induction calls generalizing v with
  | nil => exact (some rfl).elim
  | cons call calls ih =>
      obtain ⟨r, u, first, rest⟩ := runAll_cons_ok.mp ok
      have here : call.full.run ⟨ctx.setBoxCtx v.ctx, v.hash, v.mem⟩ =
          .ok r (TxSerFull.afterBox ctx u) :=
        full_ok.mpr ⟨state, u, first, rfl⟩
      refine runAll_cons_ok.mpr ⟨r, _, here, ?_⟩
      cases calls with
      | nil =>
          obtain rfl := runAll_nil_ok.mp rest
          exact runAll_nil_ok.mpr rfl
      | cons next calls =>
          obtain ⟨_, _, second, _⟩ := runAll_cons_ok.mp rest
          have more : TxSerFull.afterBox ctx u = ⟨ctx.setBoxCtx u.ctx, u.hash, u.mem⟩ := by
            rw [TxSerFull.afterBox, if_neg (state_of_run second)]
          rw [more]
          exact ih (by simp) rest

end BoxCall

/-- What is still shown of a box with a tree: the tokens that are missing, and that it is complete. -/
def partsShown (ctx : BoxCtx σ) (tokens : List BoxToken) : List (Showing σ) :=
  if NothingLeft ctx then []
  else tokens.map (ctx.callbacks.showsToken ctx.type) ++ [ctx.callbacks.showsFinished ctx.type]

theorem endShown_append {ctx : BoxCtx σ} {tokens : List BoxToken}
    (none : NothingLeft ctx → tokens = []) :
    endShown ctx ++ partsShown ctx tokens =
      tokens.map (ctx.callbacks.showsToken ctx.type) ++ [ctx.callbacks.showsFinished ctx.type] := by
  unfold endShown partsShown
  split
  · rename_i ended
    rw [none ended]
    rfl
  · rfl

/-- The tree is there: these tokens and so many bytes of registers are missing, and the next part
    that is not empty is expected. -/
structure PartsStage (v : SerState (BoxCtx σ) σ) (tokens : List BoxToken) (registers : Nat)
    (bytes : List UInt8) (later : List (Showing σ)) : Prop where
  state : v.ctx.state = nextState v.ctx
  welcomes : Welcomes (partsShown v.ctx tokens ++ later) v.mem
  tokens : v.ctx.tokensCount.toNat = tokens.length
  registers : v.ctx.registersSize.toNat = registers
  bytes : v.hash = bytes ++ endBytes v.ctx
  quiet : v.mem.Quiet

namespace PartsStage

variable {table : TableCtx} {v : SerState (BoxCtx σ) σ} {bytes : List UInt8} {later : List (Showing σ)}

/-- One call of `add_tokens` while tokens are missing. -/
private theorem addTokens_ok_of_fit {v : SerState (BoxCtx σ) σ} {piece : List BoxToken}
    (state : v.ctx.state = .treeAdded) (quiet : v.mem.Quiet)
    (welcomes : Welcomes (piece.map (v.ctx.callbacks.showsToken v.ctx.type) ++
      endShown (tokensTaken v.ctx piece.length) ++ later) v.mem)
    (room : piece.length ≤ v.ctx.tokensCount.toNat)
    (fit : ∀ token ∈ piece, token.ref.Fits (some table)) :
    ∃ r m, (BoxCall.tokens (piece.flatMap BoxToken.raw)).run table v =
        .ok r ⟨treeDone (tokensTaken v.ctx piece.length),
          v.hash ++ (piece.flatMap BoxToken.bytes ++ endBytes (tokensTaken v.ctx piece.length)), m⟩ ∧
      m.Quiet ∧ Welcomes later m := by
  obtain ⟨m, effect, quiet', welcomes'⟩ := goes_tokensEffect v.ctx piece later v.mem quiet welcomes
  exact ⟨_, m, addTokens_ok.mpr ⟨state, piece, rfl, room, fit, m, effect, rfl, rfl⟩, quiet', welcomes'⟩

/-- The token entries arrive in pieces. -/
theorem tokens_delivered {tokens : List BoxToken} {pieces : List (List BoxToken)} {registers : Nat}
    (stage : PartsStage v tokens registers bytes later) (split : Pieces tokens pieces)
    (fit : ∀ token ∈ tokens, token.ref.Fits (some table)) :
    ∃ w, runAll (BoxCall.run table)
        (pieces.map fun piece => .tokens (piece.flatMap BoxToken.raw)) v = .ok () w ∧
      PartsStage w [] registers (bytes ++ tokens.flatMap BoxToken.bytes) later := by
  rw [runAll_map]
  by_cases none : tokens = []
  · subst none
    obtain rfl := split.eq_nil
    exact ⟨v, rfl, by simpa using stage⟩
  · have count : v.ctx.tokensCount ≠ 0 :=
      Counter.toNat_pos8.mpr (by rw [stage.tokens]; exact List.length_pos_iff.mpr none)
    let during (sent : List BoxToken) (u : SerState (BoxCtx σ) σ) : Prop :=
      (u.ctx.state = .treeAdded ∧ u.ctx.callbacks = v.ctx.callbacks ∧ u.ctx.type = v.ctx.type) ∧
        Welcomes ((tokens.drop sent.length).map (v.ctx.callbacks.showsToken v.ctx.type) ++
          ([v.ctx.callbacks.showsFinished v.ctx.type] ++ later)) u.mem ∧
        u.ctx.tokensCount.toNat + sent.length = tokens.length ∧
        u.ctx.registersSize.toNat = registers ∧
        u.hash = bytes ++ sent.flatMap BoxToken.bytes ∧ u.mem.Quiet
    have start : during [] v := by
      have welcomes := stage.welcomes
      rw [partsShown, if_neg (fun left => count left.1), List.append_assoc] at welcomes
      refine ⟨⟨?_, rfl, rfl⟩, welcomes, stage.tokens, stage.registers, ?_, stage.quiet⟩
      · rw [stage.state, nextState, if_neg count]
      · rw [stage.bytes, endBytes, if_neg (fun left => count left.1)]
        rfl
    refine Pieces.runAll during ?_ ?_ split none start
    · rintro sent piece rest u ⟨⟨state, callbacks, type⟩, welcomes, left, size, hash, quiet⟩ more all
      have lengths := congrArg List.length all
      have positive := List.length_pos_iff.mpr more
      simp only [List.length_append] at lengths
      have room : piece.length ≤ u.ctx.tokensCount.toNat := by omega
      have less : (u.ctx.tokensCount - UInt8.ofNat piece.length).toNat = _ :=
        Counter.toNat_sub_ofNat8 room
      have count' : (tokensTaken u.ctx piece.length).tokensCount ≠ 0 :=
        Counter.toNat_pos8.mpr (by rw [tokensTaken, less]; omega)
      have rest' : tokens.drop (sent ++ piece).length = rest := by rw [← all, List.drop_left]
      have here : tokens.drop sent.length = piece ++ rest := by
        rw [← all, List.append_assoc, List.drop_left]
      rw [here, List.map_append, List.append_assoc] at welcomes
      have shown : Welcomes (piece.map (u.ctx.callbacks.showsToken u.ctx.type) ++
          endShown (tokensTaken u.ctx piece.length) ++
            (rest.map (v.ctx.callbacks.showsToken v.ctx.type) ++
              ([v.ctx.callbacks.showsFinished v.ctx.type] ++ later))) u.mem := by
        rw [endShown, if_neg (fun left => count' left.1), List.append_nil, callbacks, type]
        exact welcomes
      obtain ⟨r, m, ran, quiet', welcomes'⟩ := addTokens_ok_of_fit state quiet shown room
        (fun token here => fit token (by simp [← all, here]))
      refine ⟨r, _, ran, ⟨?_, callbacks, type⟩, ?_, ?_, size, ?_, quiet'⟩
      · simp only [treeDone, nextState, if_neg count']
      · rw [rest']
        exact welcomes'
      · simp only [treeDone, tokensTaken, less, List.length_append]
        omega
      · simp [hash, endBytes, NothingLeft, count']
    · rintro sent piece u ⟨⟨state, callbacks, type⟩, welcomes, left, size, hash, quiet⟩ - all
      have lengths := congrArg List.length all
      simp only [List.length_append] at lengths
      have room : piece.length ≤ u.ctx.tokensCount.toNat := by omega
      have here : tokens.drop sent.length = piece := by rw [← all, List.drop_left]
      have shown : Welcomes (piece.map (u.ctx.callbacks.showsToken u.ctx.type) ++
          endShown (tokensTaken u.ctx piece.length) ++
            (partsShown (tokensTaken u.ctx piece.length) [] ++ later)) u.mem := by
        have finished : endShown (tokensTaken u.ctx piece.length) ++
            partsShown (tokensTaken u.ctx piece.length) [] =
              [u.ctx.callbacks.showsFinished u.ctx.type] := endShown_append fun _ => rfl
        rw [List.append_assoc, ← List.append_assoc (endShown _), finished, callbacks, type, ← here]
        exact welcomes
      obtain ⟨r, m, ran, quiet', welcomes'⟩ := addTokens_ok_of_fit state quiet shown room
        (fun token here => fit token (by simp [← all, here]))
      refine ⟨r, _, ran, ⟨rfl, welcomes', ?_, size, ?_, quiet'⟩⟩
      · simp only [treeDone, tokensTaken, Counter.toNat_sub_ofNat8 room, List.length_nil]
        omega
      · rw [hash, ← all, List.flatMap_append]
        simp only [List.append_assoc]
        rfl

/-- One call of `add_registers` while registers are missing. -/
private theorem addRegisters_ok_of_fits (table : TableCtx) {v : SerState (BoxCtx σ) σ} {piece : List UInt8}
    (state : v.ctx.state = .tokensAdded) (quiet : v.mem.Quiet)
    (welcomes : Welcomes ((if LastRegisters v.ctx piece.length then
      [v.ctx.callbacks.showsFinished v.ctx.type] else []) ++ later) v.mem)
    (room : piece.length ≤ v.ctx.registersSize.toNat) :
    ∃ r m, (BoxCall.registers piece).run table v =
        .ok r ⟨registersDone v.ctx piece.length, v.hash ++ piece, m⟩ ∧ m.Quiet ∧ Welcomes later m := by
  obtain ⟨m, effect, quiet', welcomes'⟩ :=
    goes_registersEffect v.ctx piece.length later v.mem quiet welcomes
  exact ⟨_, m, addRegisters_ok.mpr ⟨state, room, m, effect, rfl, rfl⟩, quiet', welcomes'⟩

/-- The registers arrive in pieces. -/
theorem registers_delivered {registers : List UInt8} {pieces : List (List UInt8)}
    (stage : PartsStage v [] registers.length bytes later) (split : Pieces registers pieces) :
    ∃ w, runAll (BoxCall.run table) (pieces.map .registers) v = .ok () w ∧
      w.ctx.state = .finished ∧ w.hash = bytes ++ blobBytes registers ∧ w.mem.Quiet ∧
      Welcomes later w.mem := by
  have noTokens : v.ctx.tokensCount = 0 := UInt8.toNat_inj.mp stage.tokens
  have welcomes := stage.welcomes
  rw [runAll_map]
  by_cases none : registers = []
  · subst none
    obtain rfl := split.eq_nil
    have size : v.ctx.registersSize = 0 := UInt32.toNat_inj.mp stage.registers
    rw [partsShown, if_pos ⟨noTokens, size⟩] at welcomes
    refine ⟨v, rfl, ?_, ?_, stage.quiet, welcomes⟩
    · rw [stage.state, nextState, if_pos noTokens, if_pos size]
    · rw [stage.bytes, endBytes, if_pos ⟨noTokens, size⟩]
      rfl
  · have size : v.ctx.registersSize ≠ 0 :=
      Counter.toNat_pos32.mpr (by rw [stage.registers]; exact List.length_pos_iff.mpr none)
    let during (sent : List UInt8) (u : SerState (BoxCtx σ) σ) : Prop :=
      (u.ctx.state = .tokensAdded ∧ u.ctx.callbacks = v.ctx.callbacks ∧ u.ctx.type = v.ctx.type) ∧
        Welcomes ([v.ctx.callbacks.showsFinished v.ctx.type] ++ later) u.mem ∧
        u.ctx.registersSize.toNat + sent.length = registers.length ∧
        u.hash = bytes ++ sent ∧ u.mem.Quiet
    have start : during [] v := by
      rw [partsShown, if_neg (fun left => size left.2)] at welcomes
      refine ⟨⟨?_, rfl, rfl⟩, welcomes, stage.registers, ?_, stage.quiet⟩
      · rw [stage.state, nextState, if_pos noTokens, if_neg size]
      · rw [stage.bytes, endBytes, if_neg (fun left => size left.2)]
    refine Pieces.runAll during ?_ ?_ split none start
    · rintro sent piece rest u ⟨⟨state, callbacks, type⟩, welcomes, left, hash, quiet⟩ more all
      have lengths := congrArg List.length all
      have positive := List.length_pos_iff.mpr more
      simp only [List.length_append] at lengths
      have room : piece.length ≤ u.ctx.registersSize.toNat := by omega
      have notLast : ¬ LastRegisters u.ctx piece.length := fun last => by
        have := (Counter.sub_ofNat32_eq_zero room).mp last
        omega
      obtain ⟨r, m, ran, quiet', welcomes'⟩ := addRegisters_ok_of_fits table state quiet
        (by rwa [if_neg notLast]) room
      refine ⟨r, _, ran, ⟨?_, ?_, ?_⟩, welcomes', ?_, ?_, quiet'⟩
      · simp only [registersDone, if_neg notLast, state]
      · simpa only [registersDone, if_neg notLast] using callbacks
      · simpa only [registersDone, if_neg notLast] using type
      · simp only [registersDone, if_neg notLast, Counter.toNat_sub_ofNat32 room, List.length_append]
        omega
      · simp [hash]
    · rintro sent piece u ⟨⟨state, callbacks, type⟩, welcomes, left, hash, quiet⟩ - all
      have lengths := congrArg List.length all
      simp only [List.length_append] at lengths
      have room : piece.length ≤ u.ctx.registersSize.toNat := by omega
      have last : LastRegisters u.ctx piece.length :=
        (Counter.sub_ofNat32_eq_zero room).mpr (by omega)
      obtain ⟨r, m, ran, quiet', welcomes'⟩ := addRegisters_ok_of_fits table state quiet
        (by rwa [if_pos last, callbacks, type]) room
      refine ⟨r, _, ran, ?_, ?_, quiet', welcomes'⟩
      · simp only [registersDone, if_pos last]
      · rw [hash, blobBytes, if_neg none, ← all, List.append_assoc]

end PartsStage

/-- A tree in full chunks and a rest. An empty tree is one empty chunk. -/
def treeChunks (tree : List UInt8) : List (List UInt8) :=
  if tree.length ≤ maxDataChunkLen then [tree]
  else tree.take maxDataChunkLen :: treeChunks (tree.drop maxDataChunkLen)
termination_by tree.length
decreasing_by
  simp only [maxDataChunkLen, List.length_drop] at *
  omega

/-- What the callbacks are shown of a box. -/
def BoxCallbacks.shown (callbacks : BoxCallbacks σ) (type : BoxType) (box : Box) : List (Showing σ) :=
  callbacks.showsType type box.value ::
    (box.tokens.map (callbacks.showsToken type) ++ [callbacks.showsFinished type])

/-- The ways to send a tree. The change and the miners fee tree come whole, and then the size
    that was declared for the tree does not matter. -/
inductive TreeWay where
  | chunks
  | change (declaredSize : UInt32) (rawPubKey : PublicKey)
  | minersFee (declaredSize : UInt32) (isMainnet : Bool)

namespace TreeWay

/-- The size declared when the box is started. -/
def declaredSize (way : TreeWay) (tree : List UInt8) : UInt32 :=
  match way with
  | .chunks => UInt32.ofNat tree.length
  | .change declaredSize _ | .minersFee declaredSize _ => declaredSize

/-- The tree can be sent in this way. -/
def Carries (way : TreeWay) (tree : List UInt8) : Prop :=
  match way with
  | .chunks => True
  | .change declaredSize rawPubKey =>
      declaredSize ≤ maxTxDataPartLen ∧ tree = ErgoTree.generateP2pk rawPubKey
  | .minersFee declaredSize isMainnet =>
      declaredSize ≤ maxTxDataPartLen ∧ tree = ErgoTree.minersFeeTree isMainnet

/-- The calls that send the tree. -/
def calls (way : TreeWay) (tree : List UInt8) : List BoxCall :=
  match way with
  | .chunks => (treeChunks tree).map .tree
  | .change _ rawPubKey => [.changeTree rawPubKey]
  | .minersFee _ isMainnet => [.minersFeeTree isMainnet]

/-- The type that the box gets. -/
def type : TreeWay → BoxType
  | .chunks => .tree
  | .change .. => .change
  | .minersFee .. => .fee

/-- The box was started and its tree is missing. -/
structure TreeStage (v : SerState (BoxCtx σ) σ) (box : Box) (type : BoxType) (treeSize : UInt32)
    (bytes : List UInt8) (later : List (Showing σ)) : Prop where
  state : v.ctx.state = .initialized
  welcomes : Welcomes (v.ctx.callbacks.shown type box ++ later) v.mem
  value : v.ctx.value = box.value
  size : v.ctx.ergoTreeSize = treeSize
  height : v.ctx.creationHeight = box.creationHeight
  tokens : v.ctx.tokensCount.toNat = box.tokens.length
  registers : v.ctx.registersSize.toNat = box.registers.length
  bytes : v.hash = bytes
  quiet : v.mem.Quiet

variable {table : TableCtx} {v : SerState (BoxCtx σ) σ} {box : Box} {bytes : List UInt8}
  {later : List (Showing σ)}

/-- What is hashed after the tree. -/
def countBytes (box : Box) : List UInt8 :=
  vlq box.creationHeight.toNat ++ [UInt8.ofNat box.tokens.length]

private theorem treeDoneBytes_eq {c : BoxCtx σ} (height : c.creationHeight = box.creationHeight)
    (tokens : c.tokensCount.toNat = box.tokens.length) :
    treeDoneBytes c = countBytes box ++ endBytes c := by
  rw [treeDoneBytes, countBytes, height, ← tokens, UInt8.ofNat_toNat]

/-- The tree is shown, and what is shown after it is left. -/
private theorem shown_eq {c : BoxCtx σ} {type : BoxType} (value : c.value = box.value)
    (tokens : c.tokensCount.toNat = box.tokens.length) :
    treeDoneShown { c with type := type } ++ partsShown { c with type := type } box.tokens =
      c.callbacks.shown type box := by
  have none : NothingLeft { c with type := type } → box.tokens = [] := by
    intro left
    have zero : c.tokensCount = 0 := left.1
    rw [zero] at tokens
    exact List.length_eq_zero_iff.mp tokens.symm
  rw [treeDoneShown, List.cons_append, endShown_append none, value]
  rfl

theorem chunks_delivered {tree : List UInt8} (short : tree.length < 2 ^ 32)
    (stage : TreeStage v box .tree (UInt32.ofNat tree.length) bytes later) :
    ∃ w, runAll (BoxCall.run table) ((treeChunks tree).map .tree) v = .ok () w ∧
      PartsStage w box.tokens box.registers.length (bytes ++ tree ++ countBytes box) later := by
  rw [runAll_map]
  induction tree using treeChunks.induct generalizing v bytes with
  | case1 tree small =>
      have size : v.ctx.ergoTreeSize.toNat = tree.length := by
        rw [stage.size]
        exact UInt32.toNat_ofNat_of_lt' short
      have last : LastChunk v.ctx tree.length :=
        (Counter.sub_ofNat32_eq_zero size.ge).mpr size
      obtain ⟨m, effect, quiet, welcomes⟩ := goes_treeChunkEffect v.ctx tree.length
        (partsShown { v.ctx with type := .tree } box.tokens ++ later) v.mem stage.quiet (by
          rw [if_pos last, ← List.append_assoc, shown_eq stage.value stage.tokens]
          exact stage.welcomes)
      rw [treeChunks, if_pos small]
      refine ⟨_, runAll_cons_ok.mpr ⟨_, _, addTree_ok.mpr
        ⟨⟨stage.state, size.ge, by omega⟩, m, effect, rfl, rfl⟩, runAll_nil_ok.mpr rfl⟩, ?_⟩
      simp only [treeChunkDone, if_pos last]
      refine ⟨rfl, welcomes, stage.tokens, stage.registers, ?_, quiet⟩
      rw [treeChunkBytes, if_pos last, treeDoneBytes_eq stage.height stage.tokens, stage.bytes]
      simp only [List.append_assoc]
      rfl
  | case2 tree large ih =>
      have size : v.ctx.ergoTreeSize.toNat = tree.length := by
        rw [stage.size]
        exact UInt32.toNat_ofNat_of_lt' short
      have full : (tree.take maxDataChunkLen).length = maxDataChunkLen :=
        List.length_take_of_le (by omega)
      have room : (tree.take maxDataChunkLen).length ≤ v.ctx.ergoTreeSize.toNat := by omega
      have notLast : ¬ LastChunk v.ctx (tree.take maxDataChunkLen).length := fun last => by
        have := (Counter.sub_ofNat32_eq_zero room).mp last
        omega
      obtain ⟨m, effect, quiet, welcomes⟩ :=
        goes_treeChunkEffect v.ctx (tree.take maxDataChunkLen).length _ v.mem stage.quiet (by
          rw [if_neg notLast]
          exact stage.welcomes)
      have rest : v.ctx.ergoTreeSize - UInt32.ofNat (tree.take maxDataChunkLen).length =
          UInt32.ofNat (tree.drop maxDataChunkLen).length := by
        rw [← UInt32.toNat_inj, Counter.toNat_sub_ofNat32 room, size, full, List.length_drop]
        exact (UInt32.toNat_ofNat_of_lt' (Nat.lt_of_le_of_lt (Nat.sub_le ..) short)).symm
      have ctx : treeChunkDone v.ctx (tree.take maxDataChunkLen).length =
          { v.ctx with ergoTreeSize := UInt32.ofNat (tree.drop maxDataChunkLen).length } := by
        simp only [treeChunkDone, if_neg notLast, rest]
      have hashed : treeChunkBytes v.ctx (tree.take maxDataChunkLen) = tree.take maxDataChunkLen := by
        rw [treeChunkBytes, if_neg notLast, List.append_nil]
      have next : TreeStage
          ⟨treeChunkDone v.ctx (tree.take maxDataChunkLen).length,
            v.hash ++ treeChunkBytes v.ctx (tree.take maxDataChunkLen), m⟩ box .tree
          (UInt32.ofNat (tree.drop maxDataChunkLen).length) (bytes ++ tree.take maxDataChunkLen)
          later := by
        rw [ctx, hashed, stage.bytes]
        exact ⟨stage.state, welcomes, stage.value, rfl, stage.height, stage.tokens, stage.registers, rfl,
          quiet⟩
      obtain ⟨w, others, parts⟩ := ih
        (Nat.lt_of_le_of_lt (by rw [List.length_drop]; exact Nat.sub_le ..) short) next
      rw [treeChunks, if_neg large]
      refine ⟨w, runAll_cons_ok.mpr ⟨_, _, addTree_ok.mpr
        ⟨⟨stage.state, room, by omega⟩, m, effect, rfl, rfl⟩, others⟩, ?_⟩
      simpa using parts

private theorem whole_delivered (type : BoxType) (tree : List UInt8) {treeSize : UInt32}
    (stage : TreeStage v box type treeSize bytes later) :
    ∃ w, addWholeTree type tree v = .ok () w ∧
      PartsStage w box.tokens box.registers.length (bytes ++ tree ++ countBytes box) later := by
  obtain ⟨m, effect, quiet, welcomes⟩ := goes_wholeTreeEffect v.ctx type
    (partsShown { v.ctx with type := type } box.tokens ++ later) v.mem stage.quiet (by
      rw [← List.append_assoc, shown_eq stage.value stage.tokens]
      exact stage.welcomes)
  refine ⟨_, addWholeTree_ok.mpr ⟨stage.state, m, effect, rfl⟩,
    ⟨rfl, welcomes, stage.tokens, stage.registers, ?_, quiet⟩⟩
  rw [treeDoneBytes_eq stage.height stage.tokens, stage.bytes]
  simp only [List.append_assoc]
  rfl

/-- The tree arrives. -/
theorem delivered {way : TreeWay} (short : box.tree.length < 2 ^ 32) (carries : way.Carries box.tree)
    (stage : TreeStage v box way.type (way.declaredSize box.tree) bytes later) :
    ∃ w, runAll (BoxCall.run table) (way.calls box.tree) v = .ok () w ∧
      PartsStage w box.tokens box.registers.length (bytes ++ box.tree ++ countBytes box) later := by
  have single : ∀ {call : BoxCall} {w : SerState (BoxCtx σ) σ}, call.run table v = .ok .ok w →
      runAll (BoxCall.run table) [call] v = .ok () w :=
    fun ran => runAll_cons_ok.mpr ⟨_, _, ran, runAll_nil_ok.mpr rfl⟩
  cases way with
  | chunks => exact chunks_delivered short stage
  | change declaredSize rawPubKey =>
      obtain ⟨w, ran, parts⟩ :=
        whole_delivered .change (ErgoTree.generateP2pk rawPubKey) stage
      rw [carries.2]
      exact ⟨w, single (BoxCall.run_wholeTree_ok.mpr ⟨ran, rfl⟩), parts⟩
  | minersFee declaredSize isMainnet =>
      obtain ⟨w, ran, parts⟩ := whole_delivered .fee (ErgoTree.minersFeeTree isMainnet) stage
      rw [carries.2]
      exact ⟨w, single (BoxCall.run_wholeTree_ok.mpr ⟨ran, rfl⟩), parts⟩

theorem calls_ne_nil (way : TreeWay) (tree : List UInt8) : way.calls tree ≠ [] := by
  cases way with
  | chunks =>
      rw [calls, treeChunks]
      split <;> simp
  | change | minersFee => simp [calls]

end TreeWay

/-- How a box is sent. -/
structure BoxDelivery (σ : Type) where
  callbacks : Option (BoxCallbacks σ)
  way : TreeWay
  tokens : List (List BoxToken)
  registers : List (List UInt8)

namespace BoxDelivery

/-- The delivery is one of this box. -/
structure Carries (delivery : BoxDelivery σ) (box : Box) : Prop where
  way : delivery.way.Carries box.tree
  tokens : Pieces box.tokens delivery.tokens
  registers : Pieces box.registers delivery.registers

/-- The calls that send the parts of the box. -/
def parts (delivery : BoxDelivery σ) (box : Box) : List BoxCall :=
  delivery.way.calls box.tree ++
    delivery.tokens.map (fun piece => .tokens (piece.flatMap BoxToken.raw)) ++
    delivery.registers.map .registers

/-- The calls that send the box. -/
def calls (delivery : BoxDelivery σ) (box : Box) : List (FullCall σ) :=
  .addBox box.value (delivery.way.declaredSize box.tree) box.creationHeight
      (UInt8.ofNat box.tokens.length) (UInt32.ofNat box.registers.length) ::
    (delivery.callbacks.map .setBoxCallbacks).toList ++ (delivery.parts box).map BoxCall.full

/-- What the callbacks are shown. -/
def shown (delivery : BoxDelivery σ) (box : Box) : List (Showing σ) :=
  (delivery.callbacks.getD ⟨none, none, none⟩).shown delivery.way.type box

/-- The parts of a box that was started arrive. -/
theorem parts_delivered {delivery : BoxDelivery σ} {box : Box} {table : TableCtx}
    {v : SerState (BoxCtx σ) σ} {bytes : List UInt8} {later : List (Showing σ)}
    (carries : delivery.Carries box)
    (short : box.tree.length < 2 ^ 32)
    (fit : ∀ token ∈ box.tokens, token.ref.Fits (some table))
    (stage : TreeWay.TreeStage v box delivery.way.type (delivery.way.declaredSize box.tree) bytes
      later) :
    ∃ w, runAll (BoxCall.run table) (delivery.parts box) v = .ok () w ∧ w.ctx.state = .finished ∧
      w.hash = bytes ++ box.tree ++ TreeWay.countBytes box ++ box.tokens.flatMap BoxToken.bytes ++
        blobBytes box.registers ∧ w.mem.Quiet ∧ Welcomes later w.mem := by
  obtain ⟨u, tree, tokensMissing⟩ := TreeWay.delivered short carries.way stage
  obtain ⟨u', tokens, registersMissing⟩ := tokensMissing.tokens_delivered carries.tokens fit
  obtain ⟨w, registers, done⟩ := registersMissing.registers_delivered carries.registers
  refine ⟨w, ?_, done⟩
  exact runAll_append_ok.mpr ⟨u', runAll_append_ok.mpr ⟨u, tree, tokens⟩, registers⟩

theorem encode_eq (box : Box) :
    vlq box.value.toNat ++ box.tree ++ TreeWay.countBytes box ++ box.tokens.flatMap BoxToken.bytes ++
      blobBytes box.registers = box.encode := by
  simp [Box.encode, TreeWay.countBytes, tokensBytes]

/-- The box respects the limits that the code checks; its tokens are among `distinct` ids. -/
structure Sendable (box : Box) (distinct : Nat) : Prop where
  tree : box.tree.length ≤ maxTxDataPartLen.toNat
  registers : box.registers.length ≤ maxTxDataPartLen.toNat
  tokens : box.tokens.length ≤ tokenMaxCount
  indices : ∀ token ∈ box.tokens, ∃ i : UInt32, token.ref = .index i ∧ i.toNat < distinct

/-- The context of the box serializer after the first of these calls. -/
def begun (delivery : BoxDelivery σ) (box : Box) : BoxCtx σ :=
  started box.value (delivery.way.declaredSize box.tree) box.creationHeight
    (UInt8.ofNat box.tokens.length) (UInt32.ofNat box.registers.length)

/-- A box arrives when outputs are expected. -/
theorem delivered [UnionLayout σ] {delivery : BoxDelivery σ} {box : Box}
    {s : SerState (FullCtx σ) σ} {later : List (Showing σ)} (carries : delivery.Carries box)
    (sendable : Sendable box s.ctx.tableCtx.distinctTokensCount.toNat)
    (state : s.ctx.state = .outputsStarted) (more : s.ctx.outputsCount ≠ 0) (quiet : s.mem.Quiet)
    (welcomes : Welcomes (delivery.shown box ++ later) s.mem) :
    ∃ box' m, runAll FullCall.run (delivery.calls box) s =
        .ok () ⟨TxSerFull.outputEnd (s.ctx.setBoxCtx box'), s.hash ++ box.encode, m⟩ ∧ m.Quiet ∧
      Welcomes later m := by
  have tokens : (UInt8.ofNat box.tokens.length).toNat = box.tokens.length :=
    UInt8.toNat_ofNat_of_lt' (Nat.lt_of_le_of_lt sendable.tokens (by decide))
  have registers : (UInt32.ofNat box.registers.length).toNat = box.registers.length :=
    UInt32.toNat_ofNat_of_lt' (Nat.lt_of_le_of_lt sendable.registers (by decide))
  have short : box.tree.length < 2 ^ 32 := Nat.lt_of_le_of_lt sendable.tree (by decide)
  have treeSize : delivery.way.declaredSize box.tree ≤ maxTxDataPartLen := by
    have way := carries.way
    cases h : delivery.way with
    | chunks =>
        rw [TreeWay.declaredSize, UInt32.le_iff_toNat_le, UInt32.toNat_ofNat_of_lt' short]
        exact sendable.tree
    | change | minersFee =>
        rw [h] at way
        exact way.1
  obtain ⟨m, ran, quiet', -⟩ := quiet.ran 1
  have begins : FullCall.run (.addBox box.value (delivery.way.declaredSize box.tree)
      box.creationHeight (UInt8.ofNat box.tokens.length) (UInt32.ofNat box.registers.length)) s =
      .ok .ok ⟨s.ctx.setBoxCtx (delivery.begun box), s.hash ++ vlq box.value.toNat, m⟩ :=
    TxSerFull.plain_ok.mpr ⟨TxSerFull.addBox_ok.mpr ⟨state, more,
      ⟨tokens.le.trans sendable.tokens, treeSize,
        UInt32.le_iff_toNat_le.mpr (registers.le.trans sendable.registers)⟩, m, ran, rfl⟩, rfl⟩
  obtain ⟨box', callbacks, same, told⟩ : ∃ box' : BoxCtx σ,
      box'.callbacks = delivery.callbacks.getD ⟨none, none, none⟩ ∧
      { box' with callbacks := ⟨none, none, none⟩ } = delivery.begun box ∧
      runAll FullCall.run (delivery.callbacks.map FullCall.setBoxCallbacks).toList
        ⟨s.ctx.setBoxCtx (delivery.begun box), s.hash ++ vlq box.value.toNat, m⟩ =
        .ok () ⟨s.ctx.setBoxCtx box', s.hash ++ vlq box.value.toNat, m⟩ := by
    cases delivery.callbacks with
    | none => exact ⟨delivery.begun box, rfl, rfl, rfl⟩
    | some callbacks =>
        refine ⟨setCallbacks (delivery.begun box) callbacks, rfl, rfl, ?_⟩
        refine runAll_cons_ok.mpr ⟨.ok, _, TxSerFull.plain_ok.mpr
          ⟨TxSerFull.checkProperState_bind_ok.mpr ⟨state, modifyCtx_ok.mpr rfl⟩, rfl⟩, ?_⟩
        exact runAll_nil_ok.mpr rfl
  have fields := BoxCtx.mk.inj same
  have stage : TreeWay.TreeStage ⟨box', s.hash ++ vlq box.value.toNat, m⟩ box delivery.way.type
      (delivery.way.declaredSize box.tree) (s.hash ++ vlq box.value.toNat) later := by
    obtain ⟨-, value, size, height, registersSize, count, initial, -⟩ := fields
    refine ⟨initial, ?_, value, size, height, by rw [count, tokens], by rw [registersSize, registers],
      rfl, quiet'⟩
    rw [callbacks]
    exact welcomes.ran ran
  have fit : ∀ token ∈ box.tokens, token.ref.Fits (some s.ctx.tableCtx) := by
    intro token here
    obtain ⟨i, index, inside⟩ := sendable.indices token here
    rw [index]
    exact inside
  obtain ⟨w, parts, finished, hash, quiet'', welcomes'⟩ := parts_delivered carries short fit stage
  have some : delivery.parts box ≠ [] := by
    simp [BoxDelivery.parts, TreeWay.calls_ne_nil]
  refine ⟨w.ctx, w.mem, ?_, quiet'', welcomes'⟩
  refine runAll_cons_ok.mpr ⟨.ok, _, begins, runAll_append_ok.mpr ⟨_, told, ?_⟩⟩
  have all := BoxCall.runAll_full state some parts
  rw [all, TxSerFull.afterBox, if_pos finished, hash, ← encode_eq]
  simp only [List.append_assoc]

end BoxDelivery

end LedgerErgo.Ergo
