import Mathlib.Data.List.Basic

/-!
# Members of a list with repeated keys

A list of keyed values in which a key may occur more than once. A search for a key
sees the first of its values; deleting that one uncovers the next, and what is
appended stands behind all others of its key.
-/
namespace DspEmbedded.Lib.Members

variable {κ β : Type*} [DecidableEq κ] {key key' : κ} {l : List (κ × β)}

/-- The values under a key, in their order. -/
def valuesOf (key : κ) (l : List (κ × β)) : List β :=
  (l.filter fun m => decide (m.1 = key)).map Prod.snd

theorem find?_eq_head? (key : κ) (l : List (κ × β)) :
    (l.find? fun m => decide (m.1 = key)).map Prod.snd = (valuesOf key l).head? := by
  rw [valuesOf, List.head?_map, List.head?_filter]

theorem valuesOf_cons_self (key : κ) (v : β) (l : List (κ × β)) :
    valuesOf key ((key, v) :: l) = v :: valuesOf key l := by
  simp [valuesOf]

theorem valuesOf_cons_ne {m : κ × β} (h : m.1 ≠ key) (l : List (κ × β)) :
    valuesOf key (m :: l) = valuesOf key l := by
  simp [valuesOf, h]

/-- Deleting the first value of a key leaves the others of that key. -/
theorem valuesOf_eraseP_self (key : κ) (l : List (κ × β)) :
    valuesOf key (l.eraseP fun m => decide (m.1 = key)) = (valuesOf key l).tail := by
  induction l with
  | nil => rfl
  | cons m l ih =>
    obtain ⟨k, v⟩ := m
    by_cases h : k = key
    · subst h
      rw [List.eraseP_cons_of_pos (by simp), valuesOf_cons_self, List.tail_cons]
    · rw [List.eraseP_cons_of_neg (by simpa using h), valuesOf_cons_ne h, valuesOf_cons_ne h, ih]

theorem valuesOf_eraseP_ne (h : key' ≠ key) (l : List (κ × β)) :
    valuesOf key' (l.eraseP fun m => decide (m.1 = key)) = valuesOf key' l := by
  induction l with
  | nil => rfl
  | cons m l ih =>
    obtain ⟨k, v⟩ := m
    by_cases hk : k = key
    · subst hk
      rw [List.eraseP_cons_of_pos (by simp), valuesOf_cons_ne (Ne.symm h)]
    · rw [List.eraseP_cons_of_neg (by simpa using hk)]
      by_cases hk' : k = key'
      · subst hk'
        rw [valuesOf_cons_self, valuesOf_cons_self, ih]
      · rw [valuesOf_cons_ne hk', valuesOf_cons_ne hk', ih]

theorem valuesOf_append_self (key : κ) (l : List (κ × β)) (v : β) :
    valuesOf key (l ++ [(key, v)]) = valuesOf key l ++ [v] := by
  simp [valuesOf]

theorem valuesOf_append_ne (h : key' ≠ key) (l : List (κ × β)) (v : β) :
    valuesOf key' (l ++ [(key, v)]) = valuesOf key' l := by
  have hne : key ≠ key' := Ne.symm h
  simp [valuesOf, hne]

/-- What a search finds after the first value was deleted and another appended. -/
theorem head?_replaced (key : κ) (l : List (κ × β)) (v : β) :
    (valuesOf key ((l.eraseP fun m => decide (m.1 = key)) ++ [(key, v)])).head? =
      some ((valuesOf key l)[1]?.getD v) := by
  rw [valuesOf_append_self, valuesOf_eraseP_self, List.head?_append, List.head?_cons,
    List.head?_tail]
  cases (valuesOf key l)[1]? <;> rfl

end DspEmbedded.Lib.Members
