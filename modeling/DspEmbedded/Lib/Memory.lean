import DspEmbedded.Lib.CString

/-!
# Bytes in memory

An object in memory is a row of cells, and a cell holds the byte last stored in
it, if any. Reading a cell that does not exist or that nothing was stored in is a
fault, and so is storing outside the object. A loop gets a number of rounds;
running out of them is a fault too.
-/
namespace DspEmbedded.Lib.Memory

open CString

abbrev Cells := List (Option UInt8)

/-- An array that nothing was stored in. -/
def fresh (cap : Nat) : Cells := List.replicate cap none

/-- An array whose first cells hold `bs`. -/
def filled (cap : Nat) (bs : List UInt8) : Cells :=
  bs.map some ++ List.replicate (cap - bs.length) none

/-- The object that a string pointer points to, with its terminator. -/
def stringCells (s : CStr) : Cells := (s.bytes ++ [0]).map some

/-- `m[i]` -/
def load (m : Cells) (i : Nat) : Option UInt8 := (m[i]?).join

/-- `m[i] = v` -/
def store (m : Cells) (i : Nat) (v : UInt8) : Option Cells :=
  if i < m.length then some (m.set i (some v)) else none

/-- Consecutive stores from `i` on. -/
def storeAll (m : Cells) (i : Nat) : List UInt8 → Option Cells
  | [] => some m
  | v :: vs => (store m i v).bind fun m => storeAll m (i + 1) vs

/-- Consecutive loads of `n` bytes from `i` on. -/
def loadAll (m : Cells) (i : Nat) : Nat → Option (List UInt8)
  | 0 => some []
  | n + 1 => do
    let v ← load m i
    let vs ← loadAll m (i + 1) n
    pure (v :: vs)

/-- `strchr(m + p, c)` for a character other than NUL. -/
def strchr (m : Cells) (c : UInt8) : Nat → Nat → Option (Option Nat)
  | 0, _ => none
  | rounds + 1, p => do
    let b ← load m p
    if b = c then pure (some p) else if b = 0 then pure none else strchr m c rounds (p + 1)

/-- The offset of the NUL that ends the string at `p`. -/
def strend (m : Cells) : Nat → Nat → Option Nat
  | 0, _ => none
  | rounds + 1, p => do
    let b ← load m p
    if b = 0 then pure p else strend m rounds (p + 1)

/-! ## Arrays -/

section Arrays

variable {cap : Nat} {bs : List UInt8}

@[simp] theorem length_filled (h : bs.length ≤ cap) : (filled cap bs).length = cap := by
  simp [filled]
  omega

/-- Only what was stored can be read. -/
theorem load_filled (cap : Nat) (bs : List UInt8) (i : Nat) : load (filled cap bs) i = bs[i]? := by
  rw [load, filled, List.getElem?_append, List.length_map]
  split
  next => cases h : bs[i]? <;> simp [h]
  next hout =>
    rw [List.getElem?_eq_none (Nat.le_of_not_lt hout), List.getElem?_replicate]
    split <;> rfl

theorem store_filled (h : bs.length < cap) (v : UInt8) :
    store (filled cap bs) bs.length v = some (filled cap (bs ++ [v])) := by
  have hroom : cap - bs.length = cap - (bs ++ [v]).length + 1 := by
    rw [List.length_append, List.length_singleton]
    omega
  rw [store, if_pos (by rwa [length_filled h.le]), filled, filled,
    List.set_append_right _ _ (by rw [List.length_map]), List.length_map, Nat.sub_self, hroom,
    List.replicate_succ, List.set_cons_zero, List.map_append, List.append_assoc]
  rfl

theorem storeAll_filled {vs : List UInt8} (h : bs.length + vs.length ≤ cap) :
    storeAll (filled cap bs) bs.length vs = some (filled cap (bs ++ vs)) := by
  induction vs generalizing bs with
  | nil => rw [storeAll, List.append_nil]
  | cons v vs ih =>
    rw [List.length_cons] at h
    have hnext := @ih (bs ++ [v]) (by rw [List.length_append, List.length_singleton]; omega)
    rw [List.length_append, List.length_singleton, List.append_assoc, List.singleton_append] at hnext
    rw [storeAll, store_filled (by omega), Option.bind_some, hnext]

theorem loadAll_filled {i n : Nat} (h : i + n ≤ bs.length) :
    loadAll (filled cap bs) i n = some ((bs.drop i).take n) := by
  induction n generalizing i with
  | zero => rw [loadAll, List.take_zero]
  | succ n ih =>
    have hlt : i < bs.length := by omega
    rw [loadAll, load_filled, ih (by omega), List.drop_eq_getElem_cons hlt, List.take_succ_cons,
      List.getElem?_eq_getElem hlt]
    rfl

end Arrays

/-! ## Strings -/

section Strings

variable {s : CStr}

theorem stringCells_eq (s : CStr) : stringCells s = filled (s.length + 1) (s.bytes ++ [0]) := by
  rw [stringCells, filled, List.length_append, List.length_singleton]
  show _ = _ ++ List.replicate (s.length + 1 - (s.length + 1)) none
  rw [Nat.sub_self, List.replicate_zero, List.append_nil]

theorem length_stringCells (s : CStr) : (stringCells s).length = s.length + 1 := by
  rw [stringCells, List.length_map, List.length_append]
  rfl

theorem load_string (s : CStr) (p : Nat) : load (stringCells s) p = (s.bytes ++ [0])[p]? := by
  rw [stringCells_eq, load_filled]

theorem load_char {p : Nat} (h : p < s.length) : load (stringCells s) p = s.bytes[p]? := by
  rw [load_string, List.getElem?_append_left h]

theorem load_nul (s : CStr) : load (stringCells s) s.length = some 0 := by
  rw [load_string, CStr.length, List.getElem?_concat_length]

theorem loadAll_chars {i n : Nat} (h : i + n ≤ s.length) :
    loadAll (stringCells s) i n = some ((s.bytes.drop i).take n) := by
  have hlen : s.bytes.length = s.length := rfl
  rw [stringCells_eq, loadAll_filled (by rw [List.length_append]; omega),
    List.drop_append_of_le_length (by omega), List.take_append_of_le_length (by simp; omega)]

/-- A search ends at the character or at the terminator. -/
theorem strchr_stringCells {c : UInt8} {p rounds : Nat} (h : p ≤ s.length)
    (hrounds : s.length < p + rounds) (hc : c ≠ 0) :
    strchr (stringCells s) c rounds p =
      some (((s.bytes.drop p).findIdx? (· == c)).map (p + ·)) := by
  induction rounds generalizing p with
  | zero => omega
  | succ rounds ih =>
    rw [strchr]
    by_cases hlt : p < s.length
    · have hget : s.bytes[p]? = some s.bytes[p] := List.getElem?_eq_getElem hlt
      rw [load_char hlt, hget, List.drop_eq_getElem_cons hlt, List.findIdx?_cons]
      show (if s.bytes[p] = c then _ else _) = _
      by_cases hfound : s.bytes[p] = c
      · simp [hfound]
      · have hnul : s.bytes[p] ≠ 0 := fun hzero => s.noNul (hzero ▸ List.getElem_mem hlt)
        rw [if_neg hfound, if_neg hnul, ih hlt (by omega)]
        cases (s.bytes.drop (p + 1)).findIdx? (· == c) with
        | none => simp [hfound]
        | some j => simp [hfound, Nat.add_comm, Nat.add_left_comm]
    · obtain rfl : p = s.length := by omega
      rw [load_nul]
      show (if (0 : UInt8) = c then _ else _) = _
      rw [if_neg hc.symm, List.drop_of_length_le (show s.bytes.length ≤ s.length from le_rfl)]
      rfl

theorem strend_stringCells {p rounds : Nat} (h : p ≤ s.length) (hrounds : s.length < p + rounds) :
    strend (stringCells s) rounds p = some s.length := by
  induction rounds generalizing p with
  | zero => omega
  | succ rounds ih =>
    rw [strend]
    by_cases hlt : p < s.length
    · have hget : s.bytes[p]? = some s.bytes[p] := List.getElem?_eq_getElem hlt
      have hnul : s.bytes[p] ≠ 0 := fun hzero => s.noNul (hzero ▸ List.getElem_mem hlt)
      rw [load_char hlt, hget]
      show (if s.bytes[p] = 0 then _ else _) = _
      rw [if_neg hnul, ih hlt (by omega)]
    · obtain rfl : p = s.length := by omega
      rw [load_nul]
      rfl

end Strings

end DspEmbedded.Lib.Memory
