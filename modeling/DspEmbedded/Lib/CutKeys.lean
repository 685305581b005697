import Mathlib.Logic.Function.Basic
import DspEmbedded.Lib.SlotTable

/-!
# Tables that cut their keys

A table is given keys and stores an image of each, such as its first bytes. `given`
and `stored` say what stands at an index in use. A search compares with what is
stored, so it finds the keys again that the cut leaves alone, and no other key.
-/
namespace DspEmbedded.Lib.CutKeys

open Lib.SlotTable

variable {ι κ : Type*} {cut : κ → κ} {stored given : ι → Option κ} {find : κ → ι}

/-! ## What is stored -/

def Stores (cut : κ → κ) (stored given : ι → Option κ) : Prop :=
  ∀ i, stored i = (given i).map cut

/-- The keys of one table laid over those of another. -/
def overlay (top bottom : ι → Option κ) : ι → Option κ := fun i => (top i).or (bottom i)

/-- Every key is its own image. -/
def Whole (cut : κ → κ) (given : ι → Option κ) : Prop := ∀ i k, given i = some k → cut k = k

theorem stores_none : Stores cut (fun _ : ι => none) (fun _ => none) := fun _ => rfl

theorem whole_none : Whole cut (fun _ : ι => none) := by
  intro i k h
  cases h

theorem Stores.update [DecidableEq ι] (h : Stores cut stored given) (i : ι) (k : κ) :
    Stores cut (Function.update stored i (some (cut k))) (Function.update given i (some k)) := by
  intro j
  by_cases hj : j = i
  · subst hj
    simp only [Function.update_self, Option.map_some]
  · simp only [Function.update_of_ne hj]
    exact h j

theorem Whole.update [DecidableEq ι] (h : Whole cut given) (i : ι) {k : κ} (hk : cut k = k) :
    Whole cut (Function.update given i (some k)) := by
  intro j k' hj
  by_cases hji : j = i
  · subst hji
    rw [Function.update_self] at hj
    obtain rfl := Option.some.inj hj
    exact hk
  · rw [Function.update_of_ne hji] at hj
    exact h j k' hj

theorem Stores.overlay {stored' given' : ι → Option κ} (h : Stores cut stored given)
    (h' : Stores cut stored' given') :
    Stores cut (overlay stored stored') (overlay given given') := by
  intro i
  simp only [CutKeys.overlay, h i, h' i]
  cases given i <;> rfl

theorem Whole.overlay {given' : ι → Option κ} (h : Whole cut given) (h' : Whole cut given') :
    Whole cut (overlay given given') := by
  intro i k hk
  rcases Option.or_eq_some_iff.mp hk with htop | ⟨-, hbottom⟩
  · exact h i k htop
  · exact h' i k hbottom

/-! ## What is found -/

/-- The search returns an index with the key, or one that is not in use where no
index has it. -/
def Finds (stored : ι → Option κ) (find : κ → ι) : Prop :=
  ∀ k, stored (find k) = some k ∨ (stored (find k) = none ∧ ∀ i, stored i ≠ some k)

theorem Stores.eq_some_iff (h : Stores cut stored given) (hw : Whole cut given) (i : ι) (k : κ) :
    stored i = some k ↔ given i = some k := by
  rw [h i]
  cases hg : given i with
  | none => rfl
  | some k' => rw [Option.map_some, hw i k' hg]

/-- Where no key was cut, each is found at an index that it was given for. -/
theorem given_find (h : Stores cut stored given) (hf : Finds stored find)
    (hw : Whole cut given) {i : ι} {k : κ} (hk : given i = some k) :
    given (find k) = some k := by
  have hstored : stored i = some k := (h.eq_some_iff hw i k).mpr hk
  rcases hf k with hfound | ⟨-, habsent⟩
  · exact (h.eq_some_iff hw _ k).mp hfound
  · exact absurd hstored (habsent i)

/-- A key that the cut changes is never found where it was given. -/
theorem given_find_ne (h : Stores cut stored given) (hf : Finds stored find) {k : κ}
    (hk : cut k ≠ k) : given (find k) ≠ some k := by
  intro hgiven
  have hstored : stored (find k) = some (cut k) := by rw [h, hgiven, Option.map_some]
  rcases hf k with hfound | ⟨hnone, -⟩
  · exact hk (Option.some.inj (hstored.symm.trans hfound))
  · rw [hnone] at hstored
    cases hstored

/-- Where no key was cut, a search key matches at most one of two different ones. -/
theorem matches_apart (h : Stores cut stored given) (hw : Whole cut given) {i j : ι}
    {a b k : κ} (hi : given i = some a) (hj : given j = some b) (hne : a ≠ b)
    (hki : stored i = some k) : stored j ≠ some k := by
  intro hkj
  rw [h.eq_some_iff hw, hi] at hki
  rw [h.eq_some_iff hw, hj] at hkj
  exact hne (Option.some.inj (hki.trans hkj.symm))

/-! ## Tables of slots -/

section Slots

variable {ε : Type*} {cap : Nat} {active : ε → Bool} {key : ε → κ} {t : Table ε cap}

/-- The key of the record in use at an index. -/
def keyAt (active : ε → Bool) (key : ε → κ) (t : Table ε cap) (idx : Int) : Option κ :=
  match t.get? idx with
  | none => none
  | some e => if active e then some (key e) else none

theorem keyAt_eq_some_iff {idx : Int} {k : κ} :
    keyAt active key t idx = some k ↔
      ∃ e, t.get? idx = some e ∧ active e = true ∧ key e = k := by
  unfold keyAt
  cases t.get? idx with
  | none => simp
  | some e => simp

theorem keyAt_set {idx : Int} {old e : ε} (hget : t.get? idx = some old)
    (ha : active e = true) :
    keyAt active key (t.set idx e) = Function.update (keyAt active key t) idx (some (key e)) := by
  funext j
  simp only [keyAt, Table.get?_set hget]
  by_cases hj : j = idx
  · subst hj
    simp [ha]
  · simp [keyAt, hj]

/-- A change of the record in use that keeps its key. -/
theorem keyAt_set_same {idx : Int} {old e : ε} (hget : t.get? idx = some old)
    (ha : active old = true) (ha' : active e = true) (hk : key e = key old) :
    keyAt active key (t.set idx e) = keyAt active key t := by
  have hold : keyAt active key t idx = some (key e) :=
    keyAt_eq_some_iff.mpr ⟨old, hget, ha, hk.symm⟩
  rw [keyAt_set hget ha', ← hold, Function.update_eq_self]

theorem keyAt_fill {e : ε} (he : active e = false) :
    keyAt active key (Table.fill cap e) = fun _ => none := by
  funext i
  unfold keyAt
  split
  · rfl
  · next e' hget =>
    obtain rfl := List.eq_of_mem_replicate (Table.mem_of_get? hget)
    simp [he]

theorem finds_keyAt [DecidableEq κ] :
    Finds (keyAt active key t) fun k =>
      firstIdx (fun e => active e && decide (key e = k)) t.slots := by
  intro k
  rcases firstIdx_cases (fun e => active e && decide (key e = k)) t.slots with
    ⟨hidx, -, hnone⟩ | ⟨i, e, hidx, -, hslot, hp, -⟩
  · right
    simp only [hidx]
    refine ⟨rfl, ?_⟩
    intro i hi
    obtain ⟨e, hget, ha, hk⟩ := keyAt_eq_some_iff.mp hi
    have hno := List.find?_eq_none.mp hnone e (Table.mem_of_get? hget)
    simp [ha, hk] at hno
  · left
    simp only [hidx]
    have hmatch : active e = true ∧ key e = k := by simpa using hp
    exact keyAt_eq_some_iff.mpr ⟨e, by rw [Table.get?_ofNat, hslot], hmatch.1, hmatch.2⟩

/-- The keys of the records that a loop over the indices writes. -/
def keysOf (key : ε → κ) (g : Nat → Option ε) : Int → Option κ
  | .ofNat i => (g i).map key
  | .negSucc _ => none

variable {g : Nat → Option ε}

theorem keysOf_none (h : ∀ i, g i = none) : keysOf key g = fun _ => none := by
  funext i
  cases i with
  | negSucc i => rfl
  | ofNat i => simp [keysOf, h i]

theorem keyAt_overlay (ha : ∀ i e, g i = some e → active e = true)
    (hcap : ∀ i, cap ≤ i → g i = none) :
    keyAt active key ((List.range cap).foldl (Table.overlay g) t) =
      overlay (keysOf key g) (keyAt active key t) := by
  funext i
  cases i with
  | negSucc i => simp [overlay, keysOf, keyAt]
  | ofNat i =>
    simp only [overlay, keysOf, Int.ofNat_eq_natCast]
    by_cases hlt : i < cap
    · simp only [keyAt, Table.get?_ofNat, Table.getElem?_overlay g t cap hlt, if_pos hlt]
      cases hg : g i with
      | none => rfl
      | some e => simp [ha i e hg]
    · have hle : cap ≤ i := Nat.le_of_not_lt hlt
      simp only [hcap i hle, keyAt, Table.get?_eq_none_iff.mpr hle]
      rfl

/-- A loop that writes the records in use writes their keys. -/
theorem keysOf_eq_keyAt
    (hg : ∀ (i : Nat) e, t.get? (i : Int) = some e → g i = if active e then some e else none)
    (hcap : ∀ i, cap ≤ i → g i = none) : keysOf key g = keyAt active key t := by
  funext i
  cases i with
  | negSucc i => simp [keysOf, keyAt]
  | ofNat i =>
    simp only [keysOf, keyAt, Int.ofNat_eq_natCast]
    cases hget : t.get? (i : Int) with
    | none =>
      rw [hcap i (Table.get?_eq_none_iff.mp hget)]
      rfl
    | some e =>
      rw [hg i e hget]
      cases ha : active e with
      | false => simp [ha]
      | true => simp [ha]

end Slots

end DspEmbedded.Lib.CutKeys
