import LedgerErgo.Commands.AttestInput.Acceptance
import LedgerErgo.Ergo.BoxDelivery

/-! # Every box can be sent

A box with the sizes that were declared for it is taken in any pieces: the tree in full chunks and a
rest, the tokens cut between two entries and the registers anywhere.
-/

namespace LedgerErgo.AttestInput

open LedgerErgo.Common LedgerErgo.Ergo

namespace Delivery

/-- The parts go on with the box, one after the other. -/
inductive TakesAll : Delivery → List Part → Prop where
  | nil {d : Delivery} : TakesAll d []
  | cons {d : Delivery} {kind : Subcommand} {data : Buffer} {parts : List Part}
      (takes : d.Takes kind data) (rest : TakesAll (d.add kind data) parts) :
      TakesAll d ((kind, data) :: parts)

/-- More parts. -/
def addAll (d : Delivery) (parts : List Part) : Delivery := { d with parts := d.parts ++ parts }

/-- Parts of one kind. -/
def ofKind (kind : Subcommand) (pieces : List Buffer) : List Part := pieces.map fun data => (kind, data)

variable {d : Delivery} {parts more : List Part} {kind kind' : Subcommand} {data : Buffer}
  {pieces : List Buffer}

theorem addAll_nil : d.addAll [] = d := by
  rw [addAll, List.append_nil]

theorem addAll_cons : d.addAll ((kind, data) :: parts) = (d.add kind data).addAll parts := by
  simp [addAll, add]

theorem addAll_append : d.addAll (parts ++ more) = (d.addAll parts).addAll more := by
  simp [addAll]

theorem TakesAll.append (first : d.TakesAll parts) (second : (d.addAll parts).TakesAll more) :
    d.TakesAll (parts ++ more) := by
  induction first with
  | nil => rwa [addAll_nil] at second
  | cons takes rest ih =>
      rw [addAll_cons] at second
      exact .cons takes (ih second)

theorem sent_ofKind : (d.addAll (ofKind kind pieces)).sent kind' =
    d.sent kind' ++ if kind = kind' then pieces.flatten else [] := by
  induction pieces generalizing d with
  | nil => simp [ofKind, addAll]
  | cons data pieces ih =>
      have first : ofKind kind (data :: pieces) = (kind, data) :: ofKind kind pieces := rfl
      rw [first, addAll_cons, ih, sent_add]
      by_cases same : kind = kind' <;> simp [same]

theorem treeSent_ofKind (other : kind ≠ .treeChunk) :
    (d.addAll (ofKind kind pieces)).TreeSent ↔ d.TreeSent := by
  induction pieces generalizing d with
  | nil => simp [ofKind, addAll]
  | cons data pieces ih =>
      have first : ofKind kind (data :: pieces) = (kind, data) :: ofKind kind pieces := rfl
      rw [first, addAll_cons, ih, treeSent_other other]

/-! ## The parts of a box -/

theorem flatten_treeChunks (tree : List UInt8) : (treeChunks tree).flatten = tree := by
  induction tree using treeChunks.induct with
  | case1 tree small => rw [treeChunks, if_pos small, List.flatten_singleton]
  | case2 tree large ih => rw [treeChunks, if_neg large, List.flatten_cons, ih, List.take_append_drop]

/-- A tree is taken in full chunks and a rest. -/
theorem takesAll_tree {tree : List UInt8} (missing : ¬ d.TreeSent)
    (size : (d.sent .treeChunk).length + tree.length = d.params.ergoTreeSize.toNat) :
    d.TakesAll (ofKind .treeChunk (treeChunks tree)) ∧
      (d.addAll (ofKind .treeChunk (treeChunks tree))).TreeSent := by
  induction tree using treeChunks.induct generalizing d with
  | case1 tree small =>
      rw [treeChunks, if_pos small]
      have takes : d.Takes .treeChunk tree := .treeChunk missing size.le fun _ => size
      exact ⟨.cons takes .nil, treeSent_treeChunk.mpr size⟩
  | case2 tree large ih =>
      rw [treeChunks, if_neg large]
      have full : (tree.take maxDataChunkLen).length = maxDataChunkLen :=
        List.length_take_of_le (by omega)
      have rest : (tree.drop maxDataChunkLen).length = tree.length - maxDataChunkLen :=
        List.length_drop
      have takes : d.Takes .treeChunk (tree.take maxDataChunkLen) :=
        .treeChunk missing (by omega) fun short => by omega
      have missing' : ¬ (d.add .treeChunk (tree.take maxDataChunkLen)).TreeSent := by
        rw [treeSent_treeChunk]
        omega
      have sent : ((d.add .treeChunk (tree.take maxDataChunkLen)).sent .treeChunk).length =
          (d.sent .treeChunk).length + maxDataChunkLen := by
        rw [sent_add, if_pos rfl, List.length_append, full]
      have size' : ((d.add .treeChunk (tree.take maxDataChunkLen)).sent .treeChunk).length +
          (tree.drop maxDataChunkLen).length = d.params.ergoTreeSize.toNat := by
        omega
      obtain ⟨others, done⟩ := ih missing' size'
      exact ⟨.cons takes others, (congrArg TreeSent addAll_cons).mpr done⟩

/-- Tokens are taken in any pieces. -/
theorem takesAll_tokens {before tokens : List InputToken} {cut : List (List InputToken)}
    (tree : d.TreeSent) (sent : d.sent .tokens = before.flatMap InputToken.bytes)
    (count : (before ++ tokens).length = d.params.tokensCount.toNat)
    (distinct : ((before ++ tokens).map Prod.fst).Nodup) (split : Pieces tokens cut) :
    d.TakesAll (ofKind .tokens (cut.map fun piece => piece.flatMap InputToken.bytes)) := by
  induction cut generalizing d before tokens with
  | nil => exact .nil
  | cons piece cut ih =>
      have some : tokens ≠ [] := by
        rintro rfl
        cases split.eq_nil
      have positive := List.length_pos_iff.mpr some
      have all : before ++ tokens = before ++ piece ++ cut.flatten := by
        rw [← split.flatten, List.flatten_cons, List.append_assoc]
      have longer : before.length < (before ++ tokens).length := by
        rw [List.length_append]
        omega
      have shorter : (before ++ piece).length ≤ (before ++ tokens).length := by
        rw [all]
        exact (List.sublist_append_left (before ++ piece) cut.flatten).length_le
      rw [count] at longer shorter
      have distinct' : ((before ++ piece ++ cut.flatten).map Prod.fst).Nodup := all ▸ distinct
      have new : ((before ++ piece).map Prod.fst).Nodup := by
        rw [List.map_append] at distinct'
        exact distinct'.of_append_left
      refine .cons (.tokens tree sent longer shorter new) ?_
      by_cases final : cut = []
      · subst final
        exact .nil
      · have tree' : (d.add .tokens (piece.flatMap InputToken.bytes)).TreeSent :=
          (treeSent_other Subcommand.noConfusion).mpr tree
        have sent' : (d.add .tokens (piece.flatMap InputToken.bytes)).sent .tokens =
            (before ++ piece).flatMap InputToken.bytes := by
          rw [sent_add, if_pos rfl, List.flatMap_append, sent]
        have count' : (before ++ piece ++ cut.flatten).length = d.params.tokensCount.toNat :=
          all ▸ count
        exact ih tree' sent' count' distinct' (split.tail final)

/-- Registers are taken in any pieces. -/
theorem takesAll_registers {registers : List UInt8} {cut : List (List UInt8)} (tree : d.TreeSent)
    (tokens : d.TokensSent)
    (size : (d.sent .registers).length + registers.length = d.params.registersSize.toNat)
    (split : Pieces registers cut) : d.TakesAll (ofKind .registers cut) := by
  induction cut generalizing d registers with
  | nil => exact .nil
  | cons piece cut ih =>
      have some : registers ≠ [] := by
        rintro rfl
        cases split.eq_nil
      have positive := List.length_pos_iff.mpr some
      have lengths : registers.length = piece.length + cut.flatten.length := by
        rw [← split.flatten, List.flatten_cons, List.length_append]
      refine .cons (.registers tree tokens (by omega) (by omega)) ?_
      by_cases final : cut = []
      · subst final
        exact .nil
      · have tree' : (d.add .registers piece).TreeSent :=
          (treeSent_other Subcommand.noConfusion).mpr tree
        have tokens' : (d.add .registers piece).TokensSent := by
          rw [TokensSent, sent_add, if_neg Subcommand.noConfusion, List.append_nil]
          exact tokens
        have sent' : ((d.add .registers piece).sent .registers).length =
            (d.sent .registers).length + piece.length := by
          rw [sent_add, if_pos rfl, List.length_append]
        have size' : ((d.add .registers piece).sent .registers).length + cut.flatten.length =
            d.params.registersSize.toNat := by
          omega
        exact ih tree' tokens' size' (split.tail final)

/-- A box, and the pieces it is sent in. -/
structure Cut where
  tree : List UInt8
  tokens : List InputToken
  registers : List UInt8
  tokenPieces : List (List InputToken)
  registerPieces : List (List UInt8)

namespace Cut

variable {cut : Cut} {params : InitParams}

/-- The parts with the tokens. -/
def tokenParts (cut : Cut) : List Part :=
  ofKind .tokens (cut.tokenPieces.map fun piece => piece.flatMap InputToken.bytes)

/-- The parts that are sent. -/
def allParts (cut : Cut) : List Part :=
  ofKind .treeChunk (treeChunks cut.tree) ++
    (cut.tokenParts ++ ofKind .registers cut.registerPieces)

/-- The box has the sizes that were declared, and its tokens are distinct. -/
structure Fits (cut : Cut) (params : InitParams) : Prop where
  tree : cut.tree.length = params.ergoTreeSize.toNat
  tokens : cut.tokens.length = params.tokensCount.toNat
  registers : cut.registers.length = params.registersSize.toNat
  distinct : (cut.tokens.map Prod.fst).Nodup
  tokenPieces : Pieces cut.tokens cut.tokenPieces
  registerPieces : Pieces cut.registers cut.registerPieces

theorem flatten_tokens (fits : cut.Fits params) :
    (cut.tokenPieces.map fun piece => piece.flatMap InputToken.bytes).flatten =
      cut.tokens.flatMap InputToken.bytes := by
  rw [← fits.tokenPieces.flatten]
  induction cut.tokenPieces with
  | nil => rfl
  | cons piece pieces ih =>
      rw [List.map_cons, List.flatten_cons, List.flatten_cons, List.flatMap_append, ih]

/-- What was sent of each kind. -/
theorem sent_parts (fits : cut.Fits params) :
    ((start params).addAll cut.allParts).sent .treeChunk = cut.tree ∧
      ((start params).addAll cut.allParts).sent .tokens = cut.tokens.flatMap InputToken.bytes ∧
      ((start params).addAll cut.allParts).sent .registers = cut.registers := by
  have nothing (kind : Subcommand) : (start params).sent kind = [] := rfl
  simp only [allParts, tokenParts, addAll_append, sent_ofKind, nothing, flatten_treeChunks,
    flatten_tokens fits, fits.registerPieces.flatten]
  simp

/-- Every box that fits is taken in its pieces, and is complete then. -/
theorem takesAll (fits : cut.Fits params) :
    (start params).TakesAll cut.allParts ∧ ((start params).addAll cut.allParts).Done := by
  obtain ⟨-, tokensAll, registersAll⟩ := sent_parts fits
  have count : (cut.tokens.flatMap InputToken.bytes).length =
      params.tokensCount.toNat * frameTokenValuePairSize := by
    rw [InputFrame.length_tokens, fits.tokens]
  have size : ((start params).sent .treeChunk).length + cut.tree.length =
      (start params).params.ergoTreeSize.toNat := (Nat.zero_add _).trans fits.tree
  obtain ⟨first, tree⟩ := takesAll_tree not_treeSent_start size
  have noTokens : ((start params).addAll (ofKind .treeChunk (treeChunks cut.tree))).sent .tokens =
      ([] : List InputToken).flatMap InputToken.bytes := by
    rw [sent_ofKind, if_neg Subcommand.noConfusion]
    rfl
  have second : ((start params).addAll (ofKind .treeChunk (treeChunks cut.tree))).TakesAll
      cut.tokenParts := takesAll_tokens tree noTokens fits.tokens fits.distinct fits.tokenPieces
  have tree' : (((start params).addAll (ofKind .treeChunk (treeChunks cut.tree))).addAll
      cut.tokenParts).TreeSent := (treeSent_ofKind Subcommand.noConfusion).mpr tree
  have tokens : (((start params).addAll (ofKind .treeChunk (treeChunks cut.tree))).addAll
      cut.tokenParts).TokensSent := by
    rw [TokensSent, tokenParts, sent_ofKind, if_pos rfl, noTokens, flatten_tokens fits]
    exact count
  have noRegisters : ((((start params).addAll (ofKind .treeChunk (treeChunks cut.tree))).addAll
      cut.tokenParts).sent .registers) = [] := by
    rw [tokenParts, sent_ofKind, if_neg Subcommand.noConfusion, sent_ofKind,
      if_neg Subcommand.noConfusion]
    rfl
  have third : (((start params).addAll (ofKind .treeChunk (treeChunks cut.tree))).addAll
      cut.tokenParts).TakesAll (ofKind .registers cut.registerPieces) := by
    apply takesAll_registers tree' tokens _ fits.registerPieces
    rw [noRegisters]
    exact (Nat.zero_add _).trans fits.registers
  refine ⟨first.append (second.append third), ?_, ?_, ?_⟩
  · rw [allParts, addAll_append, addAll_append]
    exact (treeSent_ofKind Subcommand.noConfusion).mpr tree'
  · rw [TokensSent, tokensAll]
    exact count
  · rw [registersAll]
    exact fits.registers

/-- The box of the parts is the one that was cut. -/
theorem box_parts (fits : cut.Fits params) :
    ((start params).addAll cut.allParts).box cut.tokens =
      ⟨params.value, cut.tree, params.creationHeight, cut.tokens.map entry, cut.registers⟩ := by
  obtain ⟨tree, -, registers⟩ := sent_parts fits
  rw [box, tree, registers]
  rfl

end Cut

end Delivery

end LedgerErgo.AttestInput
