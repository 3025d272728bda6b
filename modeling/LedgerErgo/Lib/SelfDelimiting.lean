import LedgerErgo.Lib.Vlq

/-! # Encodings that show where they end

Values are written one after the other without separators. A stream can be read back
when every encoding shows where it ends: two streams that start with encoded values of
one kind agree on the value and on the rest. The rules below build such encodings from
smaller ones.
-/

namespace LedgerErgo

/-- Among the values with property `p`, an encoding that starts a stream determines the
    value and the rest of the stream. -/
def SelfDelimiting {α β : Type} (p : α → Prop) (encode : α → List β) : Prop :=
  ∀ a b x y, p a → p b → encode a ++ x = encode b ++ y → a = b ∧ x = y

namespace SelfDelimiting

variable {α γ : Type} {p : α → Prop} {encode : α → List γ}

/-- Encodings of one length, if no two values share an encoding. -/
theorem ofLength {n : Nat} (length : ∀ a, p a → (encode a).length = n)
    (injective : ∀ a b, p a → p b → encode a = encode b → a = b) : SelfDelimiting p encode := by
  intro a b x y ha hb same
  obtain ⟨left, right⟩ := List.append_inj same ((length a ha).trans (length b hb).symm)
  exact ⟨injective a b ha hb left, right⟩

/-- Lists of the same length, entry after entry. -/
theorem flatMap (each : SelfDelimiting p encode) {as bs : List α} {x y : List γ}
    (inAs : ∀ a ∈ as, p a) (inBs : ∀ b ∈ bs, p b) (length : as.length = bs.length)
    (same : as.flatMap encode ++ x = bs.flatMap encode ++ y) : as = bs ∧ x = y := by
  induction as generalizing bs with
  | nil =>
      obtain rfl : bs = [] := List.length_eq_zero_iff.mp length.symm
      exact ⟨rfl, by simpa using same⟩
  | cons a as ih =>
      cases bs with
      | nil => simp at length
      | cons b bs =>
          simp only [List.flatMap_cons, List.append_assoc] at same
          obtain ⟨rfl, rest⟩ := each a b _ _ (inAs a (by simp)) (inBs b (by simp)) same
          obtain ⟨rfl, ends⟩ := ih (fun c hc => inAs c (by simp [hc]))
            (fun c hc => inBs c (by simp [hc])) (by simpa using length) rest
          exact ⟨rfl, ends⟩

/-- Lists of the same length whose entries can be told apart pairwise: what an entry needs to
    be read back is the same in both streams. -/
theorem flatMap_of_pairs {same : α → α → Prop}
    (each : ∀ a b x y, same a b → encode a ++ x = encode b ++ y → a = b ∧ x = y)
    {as bs : List α} {x y : List γ} (pairs : List.Forall₂ same as bs)
    (stream : as.flatMap encode ++ x = bs.flatMap encode ++ y) : as = bs ∧ x = y := by
  induction pairs with
  | nil => exact ⟨rfl, by simpa using stream⟩
  | cons here _ ih =>
      simp only [List.flatMap_cons, List.append_assoc] at stream
      obtain ⟨rfl, rest⟩ := each _ _ _ _ here stream
      obtain ⟨rfl, ends⟩ := ih rest
      exact ⟨rfl, ends⟩

end SelfDelimiting

/-- Lists of one length are related entry by entry if they are at each index. -/
theorem forall₂_of_getElem? {α β : Type} {r : α → β → Prop} {as : List α} {bs : List β}
    (length : as.length = bs.length)
    (entries : ∀ (i : Nat) a b, as[i]? = some a → bs[i]? = some b → r a b) : List.Forall₂ r as bs := by
  rw [List.forall₂_iff_get]
  exact ⟨length, fun i hi hi' => entries i _ _ (by simp [hi]) (by simp [hi'])⟩

end LedgerErgo
