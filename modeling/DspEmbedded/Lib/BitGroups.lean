import Mathlib.Data.List.Basic
import Mathlib.Data.List.Induction
import Mathlib.Data.Nat.Bitwise

/-!
# Regrouping bits

Numbers of `w` bits written one behind the other, most significant bit first, and
the bit string cut into groups of another width. Left-over bits that do not fill
a group are dropped. Cutting narrow groups with zeros behind the end and reading
wide ones back gives the numbers themselves, since fewer bits are added than a
wide group needs.
-/
namespace DspEmbedded.Lib.BitGroups

variable {w w' : Nat}

/-- The low `w` bits of a number, most significant first. -/
def bits (w v : Nat) : List Bool := (List.range w).map fun i => v.testBit (w - 1 - i)

def ofBits (l : List Bool) : Nat := l.foldl (fun acc b => 2 * acc + b.toNat) 0

/-- The complete groups of `w` bits. -/
def groups (w : Nat) (l : List Bool) : List Nat :=
  (List.range (l.length / w)).map fun k => ofBits ((l.drop (w * k)).take w)

/-- Zeros up to the next multiple of `w`. -/
def pad (w : Nat) (l : List Bool) : List Bool := List.replicate ((w - l.length % w) % w) false

/-- The numbers of `w` bits that `w'`-bit numbers are cut into. -/
def regroup (w' w : Nat) (vs : List Nat) : List Nat := groups w (vs.flatMap (bits w'))

/-- The same with the last group filled up. -/
def regroupPadded (w' w : Nat) (vs : List Nat) : List Nat :=
  groups w (vs.flatMap (bits w') ++ pad w (vs.flatMap (bits w')))

@[simp] theorem length_bits (w v : Nat) : (bits w v).length = w := by simp [bits]

theorem ofBits_append (l l' : List Bool) :
    ofBits (l ++ l') = ofBits l * 2 ^ l'.length + ofBits l' := by
  induction l' using List.reverseRecOn with
  | nil => simp [ofBits]
  | append_singleton l' b ih =>
    have hstep : ∀ l : List Bool, ofBits (l ++ [b]) = 2 * ofBits l + b.toNat := by
      intro l
      rw [ofBits, List.foldl_append]
      rfl
    rw [← List.append_assoc, hstep, hstep, ih, List.length_append, List.length_singleton, pow_succ,
      ← Nat.mul_assoc]
    omega

theorem ofBits_lt (l : List Bool) : ofBits l < 2 ^ l.length := by
  induction l using List.reverseRecOn with
  | nil => decide
  | append_singleton l b ih =>
    have hb : b.toNat ≤ 1 := Bool.toNat_le b
    rw [ofBits_append, List.length_append, List.length_singleton, pow_succ]
    show ofBits l * 2 ^ 1 + (2 * 0 + b.toNat) < _
    omega

theorem bits_succ (w v : Nat) : bits (w + 1) v = bits w (v / 2) ++ [v.testBit 0] := by
  rw [bits, List.range_succ, List.map_append]
  congr 1
  · apply List.map_congr_left
    intro i hi
    have hlt := List.mem_range.mp hi
    rw [Nat.testBit_div_two]
    congr 1
    omega
  · simp

theorem ofBits_bits {v : Nat} (h : v < 2 ^ w) : ofBits (bits w v) = v := by
  induction w generalizing v with
  | zero =>
    obtain rfl : v = 0 := by omega
    rfl
  | succ w ih =>
    have hhalf : v / 2 < 2 ^ w := by
      rw [pow_succ] at h
      omega
    rw [bits_succ, ofBits_append, ih hhalf]
    show v / 2 * 2 ^ 1 + (2 * 0 + (v.testBit 0).toNat) = v
    rw [Nat.testBit_zero]
    rcases Nat.mod_two_eq_zero_or_one v with hm | hm <;> simp [hm] <;> omega

theorem bits_ofBits (l : List Bool) : bits l.length (ofBits l) = l := by
  induction l using List.reverseRecOn with
  | nil => rfl
  | append_singleton l b ih =>
    have hb : b.toNat ≤ 1 := Bool.toNat_le b
    have hvalue : ofBits (l ++ [b]) = 2 * ofBits l + b.toNat := by
      rw [ofBits_append]
      show ofBits l * 2 ^ 1 + (2 * 0 + b.toNat) = _
      omega
    rw [List.length_append, List.length_singleton, bits_succ, hvalue]
    have hhalf : (2 * ofBits l + b.toNat) / 2 = ofBits l := by omega
    rw [hhalf, ih, Nat.testBit_zero]
    cases b <;> simp

/-! ## Groups -/

theorem groups_eq_nil {l : List Bool} (h : l.length < w) : groups w l = [] := by
  rw [groups, Nat.div_eq_of_lt h]
  rfl

/-- The first group is cut off. -/
theorem groups_append (hw : 0 < w) {l : List Bool} (hl : l.length = w) (rest : List Bool) :
    groups w (l ++ rest) = ofBits l :: groups w rest := by
  have hcount : (l ++ rest).length / w = rest.length / w + 1 := by
    rw [List.length_append, hl, Nat.add_comm, Nat.add_div_right _ hw]
  rw [groups, hcount, List.range_succ_eq_map, List.map_cons, List.map_map]
  congr 1
  · rw [Nat.mul_zero, List.drop_zero, ← hl, List.take_left]
  · apply List.map_congr_left
    intro k _
    have hdrop : (l ++ rest).drop (w * (k + 1)) = rest.drop (w * k) := by
      rw [Nat.mul_succ, Nat.add_comm, ← List.drop_drop]
      congr 1
      rw [← hl, List.drop_left]
    show ofBits (((l ++ rest).drop (w * (k + 1))).take w) = _
    rw [hdrop]

theorem lt_of_mem_groups {l : List Bool} {v : Nat} (h : v ∈ groups w l) : v < 2 ^ w := by
  obtain ⟨k, -, rfl⟩ := List.mem_map.mp h
  refine (ofBits_lt _).trans_le (Nat.pow_le_pow_right (by decide) ?_)
  exact List.length_take_le _ _

theorem length_groups (w : Nat) (l : List Bool) : (groups w l).length = l.length / w := by
  simp [groups]

theorem length_flatMap_bits (w : Nat) (vs : List Nat) :
    (vs.flatMap (bits w)).length = w * vs.length := by
  induction vs with
  | nil => rfl
  | cons v vs ih =>
    rw [List.flatMap_cons, List.length_append, length_bits, ih, List.length_cons, Nat.mul_succ,
      Nat.add_comm]

/-- Numbers written in groups of their own width are read back. -/
theorem groups_flatMap_bits (hw : 0 < w) {vs : List Nat} (hvs : ∀ v ∈ vs, v < 2 ^ w)
    (rest : List Bool) : groups w (vs.flatMap (bits w) ++ rest) = vs ++ groups w rest := by
  induction vs with
  | nil => rfl
  | cons v vs ih =>
    rw [List.flatMap_cons, List.append_assoc, groups_append hw (length_bits w v),
      ofBits_bits (hvs v List.mem_cons_self), ih fun v' hv' => hvs v' (List.mem_cons_of_mem _ hv')]
    rfl

/-- A bit string of complete groups is its groups. -/
theorem flatMap_bits_groups (hw : 0 < w) {l : List Bool} (h : w ∣ l.length) :
    (groups w l).flatMap (bits w) = l := by
  obtain ⟨n, hn⟩ := h
  induction n generalizing l with
  | zero =>
    rw [Nat.mul_zero, List.length_eq_zero_iff] at hn
    rw [hn, groups_eq_nil (by simpa using hw)]
    rfl
  | succ n ih =>
    rw [Nat.mul_succ] at hn
    have hhead : (l.take w).length = w := by
      rw [List.length_take]
      omega
    have htail : (l.drop w).length = w * n := by
      rw [List.length_drop]
      omega
    have hfirst := bits_ofBits (l.take w)
    rw [hhead] at hfirst
    conv_lhs => rw [← List.take_append_drop w l]
    rw [groups_append hw hhead, List.flatMap_cons, hfirst, ih htail, List.take_append_drop]

theorem length_pad_lt (hw : 0 < w) (l : List Bool) : (pad w l).length < w := by
  rw [pad, List.length_replicate]
  exact Nat.mod_lt _ hw

theorem dvd_length_pad (hw : 0 < w) (l : List Bool) : w ∣ (l ++ pad w l).length := by
  rw [List.length_append, pad, List.length_replicate]
  have hmod := Nat.mod_lt l.length hw
  have hsplit := Nat.div_add_mod l.length w
  by_cases h0 : l.length % w = 0
  · rw [h0, Nat.sub_zero, Nat.mod_self, Nat.add_zero]
    exact Nat.dvd_of_mod_eq_zero h0
  · rw [Nat.mod_eq_of_lt (by omega)]
    refine ⟨l.length / w + 1, ?_⟩
    rw [Nat.mul_succ]
    omega

/-- **Regrouping round trip.** Wide numbers cut into padded narrow groups are
regrouped into themselves. -/
theorem regroup_regroupPadded (hw' : 0 < w') (hle : w' ≤ w) {vs : List Nat}
    (hvs : ∀ v ∈ vs, v < 2 ^ w) : regroup w' w (regroupPadded w w' vs) = vs := by
  have hw : 0 < w := by omega
  have hpad := length_pad_lt hw' (vs.flatMap (bits w))
  rw [regroup, regroupPadded, flatMap_bits_groups hw' (dvd_length_pad hw' _),
    groups_flatMap_bits hw hvs, groups_eq_nil (by omega), List.append_nil]

end DspEmbedded.Lib.BitGroups
