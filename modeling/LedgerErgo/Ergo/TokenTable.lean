import LedgerErgo.Constants
import Mathlib.Data.List.Infix
import Mathlib.Tactic

/-! # The token table

`token_table_t` is a counter and an array of `TOKEN_MAX_COUNT` slots. A table here
is the list of the slots in use; that there are never more than the array has room
for is part of the type, and the functions that extend a table show it.
-/

namespace LedgerErgo.Ergo

/-- `token_table_t`: the entries below `count`. -/
structure TokenTable where
  tokens : List ErgoId
  bounded : tokens.length ≤ tokenMaxCount

namespace TokenTable

/-- A zeroed table. -/
def empty : TokenTable := ⟨[], Nat.zero_le _⟩

instance : Inhabited TokenTable := ⟨empty⟩

/-- The field `count`. -/
def count (table : TokenTable) : Nat := table.tokens.length

/-- The slot `table->tokens[i]`; slots that were never filled are zero. -/
def slot (table : TokenTable) (i : Nat) : ErgoId := table.tokens.getD i (Bytes.zero 32)

/-- Fill the next free slot. -/
def push (table : TokenTable) (id : ErgoId) (room : table.count < tokenMaxCount) : TokenTable where
  tokens := table.tokens ++ [id]
  bounded := by simpa [count] using room

/-- Fill the next free slots. -/
def append (table : TokenTable) (ids : List ErgoId)
    (room : table.count + ids.length ≤ tokenMaxCount) : TokenTable where
  tokens := table.tokens ++ ids
  bounded := by simpa [count] using room

/-- `token_table_find_token_index`: the first slot that holds the id. -/
def findTokenIndex (table : TokenTable) (id : ErgoId) : Option Nat :=
  table.tokens.idxOf? id

/-- `token_table_add_token` -/
def addToken (table : TokenTable) (id : ErgoId) : Option (Nat × TokenTable) :=
  if room : table.count < tokenMaxCount then some (table.count, table.push id room) else none

/-- One table continues another one: the entries it had are still there. -/
def Extends (table older : TokenTable) : Prop := older.tokens <+: table.tokens

@[refl] theorem Extends.refl (table : TokenTable) : table.Extends table :=
  List.prefix_refl _

theorem Extends.trans {table middle older : TokenTable} (late : table.Extends middle)
    (early : middle.Extends older) : table.Extends older :=
  List.IsPrefix.trans early late

theorem push_extends (table : TokenTable) (id : ErgoId) (room : table.count < tokenMaxCount) :
    (table.push id room).Extends table :=
  List.prefix_append _ _

theorem addToken_extends {table next : TokenTable} {id : ErgoId} {index : Nat}
    (added : table.addToken id = some (index, next)) : next.Extends table := by
  simp only [addToken, Option.dite_none_right_eq_some, Option.some.injEq, Prod.mk.injEq] at added
  obtain ⟨room, _, rfl⟩ := added
  exact push_extends table id room

/-- The leading entries of a table survive in every table that continues it. -/
theorem Extends.take {table older : TokenTable} (extended : table.Extends older) {n : Nat}
    (within : n ≤ older.count) : table.tokens.take n = older.tokens.take n := by
  obtain ⟨more, hmore⟩ := extended
  rw [← hmore, List.take_append_of_le_length within]

theorem Extends.count_le {table older : TokenTable} (extended : table.Extends older) :
    older.count ≤ table.count :=
  extended.length_le

theorem slot_eq_getElem {table : TokenTable} {i : Nat} (within : i < table.tokens.length) :
    table.slot i = table.tokens[i] := by
  simp [slot, within]

/-- Reading the first slots one by one reads the leading entries. -/
theorem map_slot_range {table : TokenTable} {n : Nat} (within : n ≤ table.count) :
    (List.range n).map table.slot = table.tokens.take n := by
  apply List.ext_getElem
  · simpa [count] using within
  · intro i hi _
    simp only [List.length_map, List.length_range] at hi
    simp only [List.getElem_map, List.getElem_range, List.getElem_take]
    exact slot_eq_getElem (Nat.lt_of_lt_of_le hi within)

theorem findTokenIndex_some {table : TokenTable} {id : ErgoId} {i : Nat}
    (found : table.findTokenIndex id = some i) :
    i < table.count ∧ table.slot i = id := by
  rw [findTokenIndex, List.idxOf?, List.findIdx?_eq_some_iff_getElem] at found
  obtain ⟨within, here, _⟩ := found
  exact ⟨within, by rw [slot_eq_getElem within]; exact eq_of_beq here⟩

theorem findTokenIndex_none {table : TokenTable} {id : ErgoId} :
    table.findTokenIndex id = none ↔ id ∉ table.tokens := by
  simp [findTokenIndex, List.idxOf?_eq_none_iff]

theorem findTokenIndex_of_mem {table : TokenTable} {id : ErgoId} (known : id ∈ table.tokens) :
    ∃ i, table.findTokenIndex id = some i := by
  cases found : table.findTokenIndex id with
  | none => exact absurd known (findTokenIndex_none.mp found)
  | some i => exact ⟨i, rfl⟩

theorem slot_mem {table : TokenTable} {i : Nat} (within : i < table.count) :
    table.slot i ∈ table.tokens := by
  rw [slot_eq_getElem within]
  exact List.getElem_mem _

/-- An id of a table is found in the same place of every table that continues it. -/
theorem Extends.findTokenIndex {table older : TokenTable} (extended : table.Extends older)
    {id : ErgoId} (known : id ∈ older.tokens) :
    table.findTokenIndex id = older.findTokenIndex id := by
  obtain ⟨more, hmore⟩ := extended
  obtain ⟨i, found⟩ := findTokenIndex_of_mem known
  rw [found, TokenTable.findTokenIndex, ← hmore, List.idxOf?, List.findIdx?_append]
  rw [TokenTable.findTokenIndex, List.idxOf?] at found
  rw [found]
  rfl

theorem Extends.slot {table older : TokenTable} (extended : table.Extends older) {i : Nat}
    (within : i < older.count) : table.slot i = older.slot i := by
  obtain ⟨more, hmore⟩ := extended
  rw [TokenTable.slot, TokenTable.slot, ← hmore, List.getD_eq_getElem?_getD,
    List.getElem?_append_left within, List.getD_eq_getElem?_getD]

/-- A new id is found where it was put. -/
theorem findTokenIndex_push {table : TokenTable} {id : ErgoId} {room : table.count < tokenMaxCount}
    (unknown : id ∉ table.tokens) : (table.push id room).findTokenIndex id = some table.count := by
  have none : table.tokens.findIdx? (· == id) = none := findTokenIndex_none.mpr unknown
  rw [findTokenIndex, push, List.idxOf?, List.findIdx?_append, none]
  simp [count]

end TokenTable

end LedgerErgo.Ergo
