import Mathlib.Data.List.Basic
import Mathlib.Data.List.TakeWhile

/-!
# Fixed tables with an `active` flag, and the ledger inside them

A slot table is an array of constant size searched from index 0: a free slot is
the first inactive one, a record is found as the first active one that matches.
While slots are only ever filled, the active ones form a prefix, and the table
is a ledger: a list that grows at its end. `live` is that list; the lemmas turn
every search of the table into one of the ledger, and say what appending and
replacing do to a search by key.
-/
namespace DspEmbedded.Lib.SlotTable

variable {ε κ : Type*} {cap : Nat}

/-! ## First index of a list, in the convention of C -/

/-- The first index whose element satisfies `p`, or -1. -/
def firstIdx (p : ε → Bool) (l : List ε) : Int :=
  match l.findIdx? p with
  | some i => i
  | none => -1

theorem find?_of_findIdx? {p : ε → Bool} {l : List ε} {i : Nat} (h : l.findIdx? p = some i) :
    ∃ e, l[i]? = some e ∧ p e = true ∧ l.find? p = some e := by
  induction l generalizing i with
  | nil => simp at h
  | cons x l ih =>
    rw [List.findIdx?_cons] at h
    by_cases hx : p x = true
    · rw [if_pos hx] at h
      obtain rfl := Option.some.inj h
      exact ⟨x, rfl, hx, by rw [List.find?_cons_of_pos hx]⟩
    · rw [if_neg hx] at h
      obtain ⟨j, hj, rfl⟩ := Option.map_eq_some_iff.mp h
      obtain ⟨e, he, hp, hf⟩ := ih hj
      exact ⟨e, by simpa using he, hp, by rw [List.find?_cons_of_neg hx, hf]⟩

theorem find?_eq_none_of_findIdx? {p : ε → Bool} {l : List ε} (h : l.findIdx? p = none) :
    l.find? p = none := by
  rw [List.find?_eq_none]
  intro e he
  have hp := List.findIdx?_eq_none_iff.mp h e he
  simp [hp]

/-- Searches with conditions that agree on the list find the same. -/
theorem findIdx?_congr {p q : ε → Bool} {l : List ε} (h : ∀ e ∈ l, p e = q e) :
    l.findIdx? p = l.findIdx? q := by
  induction l with
  | nil => rfl
  | cons x l ih =>
    rw [List.findIdx?_cons, List.findIdx?_cons, h x List.mem_cons_self,
      ih fun e he => h e (List.mem_cons_of_mem _ he)]

theorem firstIdx_congr {p q : ε → Bool} {l : List ε} (h : ∀ e ∈ l, p e = q e) :
    firstIdx p l = firstIdx q l := by
  rw [firstIdx, firstIdx, findIdx?_congr h]

/-- A search returns -1 and finds nothing, or returns the index of what it finds. -/
theorem firstIdx_cases (p : ε → Bool) (l : List ε) :
    (firstIdx p l = -1 ∧ l.findIdx? p = none ∧ l.find? p = none) ∨
    ∃ (i : Nat) (e : ε), firstIdx p l = i ∧ l.findIdx? p = some i ∧ l[i]? = some e ∧
      p e = true ∧ l.find? p = some e := by
  cases h : l.findIdx? p with
  | none => exact .inl ⟨by simp [firstIdx, h], rfl, find?_eq_none_of_findIdx? h⟩
  | some i =>
    obtain ⟨e, he, hp, hf⟩ := find?_of_findIdx? h
    exact .inr ⟨i, e, by simp [firstIdx, h], rfl, he, hp, hf⟩

/-! ## Ledgers: search by key -/

section Ledger

variable [DecidableEq κ] (key : ε → κ)

/-- The first record with key `k`. -/
def lookup (k : κ) (l : List ε) : Option ε := l.find? fun e => decide (key e = k)

theorem lookup_mem {k : κ} {l : List ε} {e : ε} (h : lookup key k l = some e) : e ∈ l :=
  List.mem_of_find?_eq_some h

theorem lookup_eq_none_iff {k : κ} {l : List ε} :
    lookup key k l = none ↔ k ∉ l.map key := by
  simp [lookup, List.find?_eq_none, List.mem_map]

/-- A record appended at the end is found only where nothing was found before. -/
theorem lookup_append (k : κ) (l : List ε) (e : ε) :
    lookup key k (l ++ [e]) = (lookup key k l).or (if key e = k then some e else none) := by
  simp only [lookup, List.find?_append]
  congr 1
  by_cases h : key e = k <;> simp [h]

theorem lookup_append_self (l : List ε) (e : ε) :
    lookup key (key e) (l ++ [e]) = some ((lookup key (key e) l).getD e) := by
  rw [lookup_append, if_pos rfl]
  cases lookup key (key e) l <;> rfl

omit [DecidableEq κ] in
theorem map_key_set {l : List ε} {i : Nat} {e f : ε} (hi : l[i]? = some e)
    (hk : key f = key e) : (l.set i f).map key = l.map key := by
  rw [List.map_set, hk]
  apply List.ext_getElem?
  intro j
  by_cases hj : i = j
  · subst hj
    have hlt := (List.getElem?_eq_some_iff.mp hi).1
    rw [List.getElem?_set_self (by simpa using hlt), List.getElem?_map, hi, Option.map_some]
  · rw [List.getElem?_set_ne hj]

private theorem findIdx?_map_key (k : κ) (l : List ε) :
    l.findIdx? (fun e => decide (key e = k)) = (l.map key).findIdx? fun x => decide (x = k) := by
  induction l with
  | nil => rfl
  | cons x l ih => rw [List.map_cons, List.findIdx?_cons, List.findIdx?_cons, ih]

/-- Replacing a record by one of the same key moves no search. -/
theorem findIdx?_set {l : List ε} {i : Nat} {e f : ε} (hi : l[i]? = some e)
    (hk : key f = key e) (k : κ) :
    (l.set i f).findIdx? (fun e => decide (key e = k)) =
      l.findIdx? (fun e => decide (key e = k)) := by
  have hmap := map_key_set key hi hk
  have hl := findIdx?_map_key key k (l.set i f)
  rw [hmap] at hl
  exact hl.trans (findIdx?_map_key key k l).symm

theorem lookup_set {l : List ε} {i : Nat} {e f : ε} (hi : l[i]? = some e)
    (hk : key f = key e) (k : κ) :
    lookup key k (l.set i f) =
      if l.findIdx? (fun e => decide (key e = k)) = some i then some f else lookup key k l := by
  have hset := findIdx?_set key hi hk k
  cases h : l.findIdx? (fun e => decide (key e = k)) with
  | none =>
    rw [h] at hset
    simp [lookup, find?_eq_none_of_findIdx? h, find?_eq_none_of_findIdx? hset]
  | some j =>
    rw [h] at hset
    obtain ⟨a, ha, -, hfa⟩ := find?_of_findIdx? h
    obtain ⟨b, hb, -, hfb⟩ := find?_of_findIdx? hset
    rw [lookup, lookup, hfa, hfb]
    by_cases hij : j = i
    · subst hij
      have hlt := (List.getElem?_eq_some_iff.mp hi).1
      rw [if_pos rfl, ← hb, List.getElem?_set_self hlt]
    · rw [if_neg (fun he => hij (Option.some.inj he)), ← ha, ← hb,
        List.getElem?_set_ne (Ne.symm hij)]

/-- Replacing the record a search finds replaces what the search returns. -/
theorem lookup_set_self {l : List ε} {i : Nat} {e f : ε} {k : κ}
    (hf : l.findIdx? (fun e => decide (key e = k)) = some i) (hi : l[i]? = some e)
    (hk : key f = key e) : lookup key k (l.set i f) = some f := by
  rw [lookup_set key hi hk, if_pos hf]

/-- It does not change what is found under another key. -/
theorem lookup_set_ne {l : List ε} {i : Nat} {e f : ε} {k : κ} (hi : l[i]? = some e)
    (hk : key f = key e) (hne : key e ≠ k) : lookup key k (l.set i f) = lookup key k l := by
  rw [lookup_set key hi hk, if_neg]
  intro hf
  obtain ⟨a, ha, hp, -⟩ := find?_of_findIdx? hf
  rw [hi] at ha
  obtain rfl := Option.some.inj ha
  exact hne (by simpa using hp)

end Ledger

/-! ## Tables -/

/-- An array of exactly `cap` slots. -/
structure Table (ε : Type*) (cap : Nat) where
  slots : List ε
  length_eq : slots.length = cap

theorem Table.ext_slots {t u : Table ε cap} (h : t.slots = u.slots) : t = u := by
  cases t
  cases u
  simpa using h

def Table.fill (cap : Nat) (e : ε) : Table ε cap :=
  ⟨List.replicate cap e, List.length_replicate⟩

/-- The slot at a C index: nothing below 0 or from `cap` on. -/
def Table.get? (t : Table ε cap) (idx : Int) : Option ε :=
  if idx < 0 then none else t.slots[idx.toNat]?

def Table.set (t : Table ε cap) (idx : Int) (e : ε) : Table ε cap :=
  ⟨t.slots.set idx.toNat e, by rw [List.length_set, t.length_eq]⟩

@[simp] theorem Table.get?_ofNat (t : Table ε cap) (i : Nat) :
    t.get? (i : Int) = t.slots[i]? := by
  rw [Table.get?, if_neg (by omega), Int.toNat_natCast]

@[simp] theorem Table.get?_negSucc (t : Table ε cap) (i : Nat) :
    t.get? (Int.negSucc i) = none := by
  rw [Table.get?, if_pos (Int.negSucc_lt_zero i)]

theorem Table.get?_eq_none_iff {t : Table ε cap} {i : Nat} :
    t.get? (i : Int) = none ↔ cap ≤ i := by
  rw [Table.get?_ofNat, List.getElem?_eq_none_iff, t.length_eq]

theorem Table.exists_get? (t : Table ε cap) {i : Nat} (h : i < cap) :
    ∃ e, t.get? (i : Int) = some e := by
  apply Option.ne_none_iff_exists'.mp
  rw [Ne, Table.get?_eq_none_iff]
  exact Nat.not_le.mpr h

theorem Table.mem_of_get? {t : Table ε cap} {idx : Int} {e : ε} (h : t.get? idx = some e) :
    e ∈ t.slots := by
  unfold Table.get? at h
  split_ifs at h
  exact List.mem_of_getElem? h

theorem Table.lt_of_get? {t : Table ε cap} {i : Nat} {e : ε} (h : t.get? (i : Int) = some e) :
    i < cap := by
  rw [Table.get?_ofNat] at h
  rw [← t.length_eq]
  exact (List.getElem?_eq_some_iff.mp h).1

/-- A statement about all records is one about all indices. -/
theorem Table.forall_mem_iff {t : Table ε cap} {P : ε → Prop} :
    (∀ e ∈ t.slots, P e) ↔ ∀ (i : Nat) (e : ε), t.get? (i : Int) = some e → P e := by
  constructor
  · intro h i e hget
    exact h e (Table.mem_of_get? hget)
  · intro h e hmem
    obtain ⟨i, hi⟩ := List.mem_iff_getElem?.mp hmem
    exact h i e (by rw [Table.get?_ofNat, hi])

/-- What holds of all records and of the one that is written holds of all afterwards. -/
theorem forall_mem_set {P : ε → Prop} {l : List ε} {i : Nat} {e : ε} (h : ∀ x ∈ l, P x)
    (he : P e) : ∀ x ∈ l.set i e, P x := by
  intro x hx
  rcases List.mem_or_eq_of_mem_set hx with hmem | rfl
  · exact h x hmem
  · exact he

theorem Table.forall_mem_set {P : ε → Prop} {t : Table ε cap} {idx : Int} {e : ε}
    (h : ∀ x ∈ t.slots, P x) (he : P e) : ∀ x ∈ (t.set idx e).slots, P x :=
  SlotTable.forall_mem_set h he

@[simp] theorem Table.slots_set (t : Table ε cap) (idx : Int) (e : ε) :
    (t.set idx e).slots = t.slots.set idx.toNat e := rfl

/-- After a write to a slot, that slot has changed and no other. -/
theorem Table.get?_set {t : Table ε cap} {idx : Int} {old : ε} (h : t.get? idx = some old)
    (e : ε) (j : Int) : (t.set idx e).get? j = if j = idx then some e else t.get? j := by
  unfold Table.get? at h ⊢
  split_ifs at h with hneg
  have hlt := (List.getElem?_eq_some_iff.mp h).1
  by_cases hj : j = idx
  · subst hj
    rw [if_neg hneg, if_pos rfl, Table.slots_set, List.getElem?_set_self hlt]
  · rw [if_neg hj]
    split_ifs with hjneg
    · rfl
    · rw [Table.slots_set, List.getElem?_set_ne (by omega)]

theorem Table.ext_getElem? {t u : Table ε cap} (h : ∀ i < cap, t.slots[i]? = u.slots[i]?) :
    t = u := by
  apply Table.ext_slots
  apply List.ext_getElem?
  intro i
  by_cases hi : i < cap
  · exact h i hi
  · rw [List.getElem?_eq_none (by rw [t.length_eq]; omega),
      List.getElem?_eq_none (by rw [u.length_eq]; omega)]

/-- A table given slot by slot. -/
def Table.ofFn (cap : Nat) (f : Nat → ε) : Table ε cap :=
  ⟨(List.range cap).map f, by rw [List.length_map, List.length_range]⟩

theorem Table.getElem?_ofFn {f : Nat → ε} {i : Nat} (hi : i < cap) :
    (Table.ofFn cap f).slots[i]? = some (f i) := by
  simp [Table.ofFn, hi]

theorem Table.getElem?_fill {e : ε} {i : Nat} (hi : i < cap) :
    (Table.fill cap e).slots[i]? = some e := by
  simp [Table.fill, hi]

/-- One round of a loop over the indices that overwrites some slots. -/
def Table.overlay (g : Nat → Option ε) (t : Table ε cap) (j : Nat) : Table ε cap :=
  match g j with
  | some e => t.set (j : Int) e
  | none => t

/-- What every slot holds after the first `n` rounds. -/
theorem Table.getElem?_overlay (g : Nat → Option ε) (t : Table ε cap) (n : Nat) {i : Nat}
    (hi : i < cap) :
    ((List.range n).foldl (Table.overlay g) t).slots[i]? =
      if i < n then (g i).or t.slots[i]? else t.slots[i]? := by
  induction n with
  | zero => simp
  | succ n ih =>
    rw [List.range_succ, List.foldl_append, List.foldl_cons, List.foldl_nil, Table.overlay]
    cases hg : g n with
    | none =>
      simp only [ih]
      by_cases hin : i = n
      · subst hin
        simp [hg]
      · simp only [show i < n + 1 ↔ i < n by omega]
    | some e =>
      simp only [Table.slots_set, Int.toNat_natCast]
      by_cases hin : i = n
      · subst hin
        rw [List.getElem?_set_self (by rw [Table.length_eq]; exact hi), if_pos (by omega), hg]
        rfl
      · rw [List.getElem?_set_ne (Ne.symm hin), ih]
        simp only [show i < n + 1 ↔ i < n by omega]

section Live

variable (active : ε → Bool)

/-- The records in use, in the order of their slots. -/
def live (t : Table ε cap) : List ε := t.slots.takeWhile active

/-- No active slot follows an inactive one. -/
def Packed (t : Table ε cap) : Prop :=
  ∀ e ∈ t.slots.dropWhile active, active e = false

variable {active}

theorem length_live_le (t : Table ε cap) : (live active t).length ≤ cap :=
  (List.takeWhile_sublist active).length_le.trans_eq t.length_eq

theorem active_of_mem_live {t : Table ε cap} {e : ε} (h : e ∈ live active t) :
    active e = true := List.mem_takeWhile_imp h

theorem mem_slots_of_mem_live {t : Table ε cap} {e : ε} (h : e ∈ live active t) :
    e ∈ t.slots := (List.takeWhile_sublist active).subset h

theorem packed_fill {e : ε} (he : active e = false) : Packed active (Table.fill cap e) := by
  intro x hx
  have hmem := (List.dropWhile_sublist active).subset hx
  rw [List.eq_of_mem_replicate hmem]
  exact he

theorem live_fill {e : ε} (he : active e = false) : live active (Table.fill cap e) = [] := by
  simp only [live, Table.fill]
  cases cap with
  | zero => rfl
  | succ n => simp [List.replicate_succ, he]

theorem getElem?_live {t : Table ε cap} (hp : Packed active t) (i : Nat) :
    (live active t)[i]? = (t.slots[i]?).filter active := by
  have hs := List.takeWhile_append_dropWhile (p := active) (l := t.slots)
  by_cases hi : i < (live active t).length
  · have hget : t.slots[i]? = (live active t)[i]? := by
      conv_lhs => rw [← hs]
      exact List.getElem?_append_left hi
    obtain ⟨e, he⟩ : ∃ e, (live active t)[i]? = some e := ⟨_, List.getElem?_eq_getElem hi⟩
    rw [hget, he, Option.filter_some, if_pos (active_of_mem_live (List.mem_of_getElem? he))]
  · rw [List.getElem?_eq_none (Nat.le_of_not_lt hi)]
    have hget : t.slots[i]? = (t.slots.dropWhile active)[i - (live active t).length]? := by
      conv_lhs => rw [← hs]
      exact List.getElem?_append_right (Nat.le_of_not_lt hi)
    cases h : t.slots[i]? with
    | none => rfl
    | some e =>
      rw [h] at hget
      have hf := hp e (List.mem_of_getElem? hget.symm)
      simp [Option.filter_some, hf]

theorem mem_live {t : Table ε cap} (hp : Packed active t) {e : ε} (he : e ∈ t.slots)
    (ha : active e = true) : e ∈ live active t := by
  obtain ⟨i, hi⟩ := List.mem_iff_getElem?.mp he
  apply List.mem_of_getElem? (i := i)
  rw [getElem?_live hp, hi, Option.filter_some, if_pos ha]

/-- All active slots of a packed table are in the ledger. -/
theorem filter_active {t : Table ε cap} (hp : Packed active t) :
    t.slots.filter active = live active t := by
  have hhead : (live active t).filter active = live active t :=
    List.filter_eq_self.mpr fun e he => active_of_mem_live he
  have htail : (t.slots.dropWhile active).filter active = [] := by
    rw [List.filter_eq_nil_iff]
    intro e he
    simp [hp e he]
  conv_lhs => rw [← List.takeWhile_append_dropWhile (p := active) (l := t.slots)]
  rw [List.filter_append, htail, List.append_nil]
  exact hhead

/-- Counting the active slots measures the ledger. -/
theorem countP_active {t : Table ε cap} (hp : Packed active t) :
    t.slots.countP active = (live active t).length := by
  have hs := List.takeWhile_append_dropWhile (p := active) (l := t.slots)
  have hhead : (live active t).countP active = (live active t).length :=
    List.countP_eq_length.mpr fun e he => active_of_mem_live he
  have htail : (t.slots.dropWhile active).countP active = 0 := by
    rw [List.countP_eq_zero]
    intro e he
    simp [hp e he]
  conv_lhs => rw [← hs]
  rw [List.countP_append, htail, Nat.add_zero]
  exact hhead

/-- The first free slot is the one after the ledger. -/
theorem firstIdx_free (active : ε → Bool) (t : Table ε cap) :
    firstIdx (fun e => !active e) t.slots =
      if (live active t).length < cap then ((live active t).length : Int) else -1 := by
  have key : ∀ l : List ε, l.findIdx? (fun e => !active e) =
      if (l.takeWhile active).length < l.length then some (l.takeWhile active).length
      else none := by
    intro l
    induction l with
    | nil => rfl
    | cons x l ih =>
      rw [List.findIdx?_cons, List.takeWhile_cons]
      cases hx : active x with
      | false => simp
      | true =>
        simp only [Bool.not_true, Bool.false_eq_true, if_false, if_true, List.length_cons, ih]
        by_cases hl : (l.takeWhile active).length < l.length
        · rw [if_pos hl, if_pos (by omega)]
          rfl
        · rw [if_neg hl, if_neg (by omega)]
          rfl
  have hkey := key t.slots
  rw [t.length_eq] at hkey
  change _ = if (live active t).length < cap then some (live active t).length else none at hkey
  unfold firstIdx
  rw [hkey]
  by_cases h : (live active t).length < cap
  · rw [if_pos h, if_pos h]
  · rw [if_neg h, if_neg h]

/-- A search among the active slots is a search of the ledger. -/
theorem findIdx?_active {t : Table ε cap} (hp : Packed active t) (p : ε → Bool) :
    t.slots.findIdx? (fun e => active e && p e) = (live active t).findIdx? p := by
  have hs := List.takeWhile_append_dropWhile (p := active) (l := t.slots)
  have htail : (t.slots.dropWhile active).findIdx? (fun e => active e && p e) = none := by
    rw [List.findIdx?_eq_none_iff]
    intro e he
    simp [hp e he]
  have hhead : (live active t).findIdx? (fun e => active e && p e) = (live active t).findIdx? p :=
    findIdx?_congr fun e he => by rw [active_of_mem_live he, Bool.true_and]
  conv_lhs => rw [← hs]
  rw [List.findIdx?_append, htail, ← hhead]
  exact Option.or_none

theorem firstIdx_active {t : Table ε cap} (hp : Packed active t) (p : ε → Bool) :
    firstIdx (fun e => active e && p e) t.slots = firstIdx p (live active t) := by
  unfold firstIdx
  rw [findIdx?_active hp]

private theorem takeWhile_set_end {p : ε → Bool} {l : List ε} {e : ε} (he : p e = true)
    (hl : (l.takeWhile p).length < l.length) (hd : ∀ x ∈ l.dropWhile p, p x = false) :
    (l.set (l.takeWhile p).length e).takeWhile p = l.takeWhile p ++ [e] ∧
      ∀ x ∈ (l.set (l.takeWhile p).length e).dropWhile p, p x = false := by
  induction l with
  | nil => simp at hl
  | cons x l ih =>
    cases hx : p x with
    | false =>
      have hrest : ∀ y ∈ l, p y = false := by
        intro y hy
        exact hd y (by rw [List.dropWhile_cons, hx]; simp [hy])
      have hnil : l.takeWhile p = [] := by
        cases l with
        | nil => rfl
        | cons y l => simp [hrest y List.mem_cons_self]
      have hdrop : l.dropWhile p = l := by
        cases l with
        | nil => rfl
        | cons y l => simp [hrest y List.mem_cons_self]
      simp only [List.takeWhile_cons, hx, Bool.false_eq_true, if_false, List.length_nil,
        List.set_cons_zero, he, if_true, hnil, List.nil_append, List.dropWhile_cons, hdrop]
      exact ⟨trivial, hrest⟩
    | true =>
      have hl' : (l.takeWhile p).length < l.length := by
        simpa [List.takeWhile_cons, hx] using hl
      have hd' : ∀ y ∈ l.dropWhile p, p y = false := by
        intro y hy
        exact hd y (by rwa [List.dropWhile_cons, if_pos hx])
      obtain ⟨h1, h2⟩ := ih hl' hd'
      simp only [List.takeWhile_cons, hx, if_true, List.length_cons, List.set_cons_succ,
        List.dropWhile_cons, h1, List.cons_append]
      exact ⟨trivial, h2⟩

/-- Filling the first free slot appends to the ledger. -/
theorem live_set_free {t : Table ε cap} (hp : Packed active t) {e : ε}
    (he : active e = true) (hl : (live active t).length < cap) :
    live active (t.set ((live active t).length : Int) e) = live active t ++ [e] ∧
      Packed active (t.set ((live active t).length : Int) e) :=
  takeWhile_set_end he (by rw [t.length_eq]; exact hl) hp

/-- Writing a record that is not in use there leaves the ledger alone. -/
theorem live_set_unused {t : Table ε cap} (hp : Packed active t) {e : ε}
    (he : active e = false) :
    live active (t.set ((live active t).length : Int) e) = live active t ∧
      Packed active (t.set ((live active t).length : Int) e) := by
  have hsplit := List.takeWhile_append_dropWhile (p := active) (l := t.slots)
  have hset : t.slots.set (live active t).length e =
      live active t ++ (t.slots.dropWhile active).set 0 e := by
    conv_lhs => rw [← hsplit]
    rw [live, List.set_append_right _ _ le_rfl, Nat.sub_self]
  have hrest : ∀ x ∈ (t.slots.dropWhile active).set 0 e, active x = false := forall_mem_set hp he
  have hactive : ∀ x ∈ live active t, active x = true := fun x hx => active_of_mem_live hx
  have hnil : ((t.slots.dropWhile active).set 0 e).takeWhile active = [] := by
    rw [List.takeWhile_eq_nil_iff]
    intro hlt
    exact Bool.eq_false_iff.mp (hrest _ (List.get_mem _ ⟨0, hlt⟩))
  constructor
  · rw [live, Table.slots_set, Int.toNat_natCast, hset, List.takeWhile_append_of_pos hactive, hnil,
      List.append_nil]
  · intro x hx
    rw [Table.slots_set, Int.toNat_natCast, hset, List.dropWhile_append_of_pos hactive] at hx
    exact hrest x ((List.dropWhile_sublist active).subset hx)

private theorem takeWhile_set_lt {p : ε → Bool} {l : List ε} {e : ε} (he : p e = true) {i : Nat}
    (hi : i < (l.takeWhile p).length) :
    (l.set i e).takeWhile p = (l.takeWhile p).set i e ∧
      (l.set i e).dropWhile p = l.dropWhile p := by
  induction l generalizing i with
  | nil => simp at hi
  | cons x l ih =>
    cases hx : p x with
    | false => simp [hx] at hi
    | true =>
      cases i with
      | zero => simp [hx, he]
      | succ i =>
        have hi' : i < (l.takeWhile p).length := by
          simpa [List.takeWhile_cons, hx] using hi
        obtain ⟨h1, h2⟩ := ih hi'
        simp [hx, h1, h2]

/-- Replacing a record in use by another one replaces it in the ledger. -/
theorem live_set_lt {t : Table ε cap} (hp : Packed active t) {e : ε} (he : active e = true)
    {i : Nat} (hi : i < (live active t).length) :
    live active (t.set (i : Int) e) = (live active t).set i e ∧
      Packed active (t.set (i : Int) e) := by
  obtain ⟨h1, h2⟩ := takeWhile_set_lt he hi
  refine ⟨h1, fun x hx => hp x ?_⟩
  rw [Table.slots_set, Int.toNat_natCast, h2] at hx
  exact hx

/-! ## Slots by index -/

theorem get?_of_live {t : Table ε cap} {i : Nat} {e : ε} (h : (live active t)[i]? = some e) :
    t.get? (i : Int) = some e := by
  have hs := List.takeWhile_append_dropWhile (p := active) (l := t.slots)
  rw [Table.get?_ofNat, ← hs]
  have hlt := (List.getElem?_eq_some_iff.mp h).1
  exact (List.getElem?_append_left hlt).trans h

/-- An active slot is the record of the ledger at the same index. -/
theorem live_of_get? {t : Table ε cap} (hp : Packed active t) {idx : Int} {e : ε}
    (h : t.get? idx = some e) (ha : active e = true) :
    ∃ i : Nat, idx = i ∧ (live active t)[i]? = some e := by
  unfold Table.get? at h
  split_ifs at h with hneg
  refine ⟨idx.toNat, by omega, ?_⟩
  rw [getElem?_live hp, h, Option.filter_some, if_pos ha]

/-- The search for a free slot fails on a full table only, and otherwise finds
the slot behind the ledger. -/
theorem free_slot_cases {t : Table ε cap} (hp : Packed active t) :
    (cap ≤ (live active t).length ∧ t.get? (firstIdx (fun e => !active e) t.slots) = none) ∨
    ∃ old, (live active t).length < cap ∧
      firstIdx (fun e => !active e) t.slots = (live active t).length ∧
      t.get? ((live active t).length : Int) = some old ∧ active old = false := by
  have hfree := firstIdx_free active t
  by_cases hl : (live active t).length < cap
  · rw [if_pos hl] at hfree
    have hlt : (live active t).length < t.slots.length := by rwa [t.length_eq]
    refine .inr ⟨t.slots[(live active t).length], hl, hfree, ?_, ?_⟩
    · rw [Table.get?_ofNat, List.getElem?_eq_getElem hlt]
    · have hget := getElem?_live hp (live active t).length
      rw [List.getElem?_eq_none le_rfl, List.getElem?_eq_getElem hlt, Option.filter_some] at hget
      cases ha : active t.slots[(live active t).length] with
      | false => rfl
      | true => simp [ha] at hget
  · rw [if_neg hl] at hfree
    exact .inl ⟨Nat.le_of_not_lt hl, by rw [hfree]; rfl⟩

/-- A record replaced by another one in use, at an index of the ledger. -/
theorem live_set {t : Table ε cap} (hp : Packed active t) {i : Nat} {e f : ε}
    (h : (live active t)[i]? = some e) (he' : active f = true) :
    live active (t.set (i : Int) f) = (live active t).set i f ∧
      Packed active (t.set (i : Int) f) :=
  live_set_lt hp he' (List.getElem?_eq_some_iff.mp h).1

/-- Writing back what a slot holds changes nothing. -/
theorem Table.set_get? {t : Table ε cap} {idx : Int} {e : ε} (h : t.get? idx = some e) :
    t.set idx e = t := by
  unfold Table.get? at h
  split_ifs at h
  obtain ⟨hlt, hget⟩ := List.getElem?_eq_some_iff.mp h
  apply Table.ext_slots
  rw [Table.slots_set, ← hget, List.set_getElem_self]

/-- Where free slots are all alike, the ledger says what every slot holds. -/
theorem Table.getElem?_eq_live {t : Table ε cap} {free : ε} (hp : Packed active t)
    (hfree : ∀ e ∈ t.slots, active e = false → e = free) {i : Nat} (hi : i < cap) :
    t.slots[i]? = some ((live active t)[i]?.getD free) := by
  have hlt : i < t.slots.length := by rw [t.length_eq]; exact hi
  rw [getElem?_live hp, List.getElem?_eq_getElem hlt, Option.filter_some]
  cases ha : active t.slots[i] with
  | true => rfl
  | false => rw [hfree _ (List.getElem_mem hlt) ha]; rfl

/-- Packed tables whose free slots are all alike are determined by the ledger. -/
theorem Table.ext_live {t u : Table ε cap} {free : ε} (hpt : Packed active t)
    (hpu : Packed active u) (ht : ∀ e ∈ t.slots, active e = false → e = free)
    (hu : ∀ e ∈ u.slots, active e = false → e = free) (h : live active t = live active u) :
    t = u := by
  apply Table.ext_getElem?
  intro i hi
  rw [Table.getElem?_eq_live hpt ht hi, Table.getElem?_eq_live hpu hu hi, h]

end Live

/-! ## What an update leaves alone -/

/-- The tables agree in every slot but the one at `i`. -/
def SameBut (i : Nat) (t u : Table ε cap) : Prop := ∀ j ≠ i, u.slots[j]? = t.slots[j]?

/-- They differ in that slot and in no other. -/
def OnlyAt (i : Nat) (t u : Table ε cap) : Prop := u.slots[i]? ≠ t.slots[i]? ∧ SameBut i t u

section Live

variable {active : ε → Bool} {t u : Table ε cap} {free : ε}

/-- Tables whose ledgers agree in every position but one agree in every slot but one. -/
theorem sameBut_of_live (hpt : Packed active t) (hpu : Packed active u)
    (ht : ∀ e ∈ t.slots, active e = false → e = free)
    (hu : ∀ e ∈ u.slots, active e = false → e = free) {i : Nat}
    (h : ∀ j ≠ i, (live active u)[j]? = (live active t)[j]?) : SameBut i t u := by
  intro j hj
  by_cases hcap : j < cap
  · rw [Table.getElem?_eq_live hpt ht hcap, Table.getElem?_eq_live hpu hu hcap, h j hj]
  · rw [List.getElem?_eq_none (by rw [u.length_eq]; omega),
      List.getElem?_eq_none (by rw [t.length_eq]; omega)]

/-- A record appended to the ledger changes the slot behind it. -/
theorem onlyAt_of_live_append (hpt : Packed active t) (hpu : Packed active u)
    (ht : ∀ e ∈ t.slots, active e = false → e = free)
    (hu : ∀ e ∈ u.slots, active e = false → e = free) {e : ε}
    (h : live active u = live active t ++ [e]) : OnlyAt (live active t).length t u := by
  constructor
  · intro hsame
    have hget := getElem?_live hpu (live active t).length
    rw [hsame, ← getElem?_live hpt, h, List.getElem?_concat_length,
      List.getElem?_eq_none le_rfl] at hget
    cases hget
  · apply sameBut_of_live hpt hpu ht hu
    intro j hj
    rw [h, List.getElem?_append]
    split_ifs with hlt
    · rfl
    · have hout : (live active t).length + [e].length ≤ j := by
        rw [List.length_singleton]
        omega
      rw [List.getElem?_eq_none (by omega), List.getElem?_eq_none (by omega)]

/-- A record replaced in the ledger changes no slot but the one at its index. -/
theorem sameBut_of_live_set (hpt : Packed active t) (hpu : Packed active u)
    (ht : ∀ e ∈ t.slots, active e = false → e = free)
    (hu : ∀ e ∈ u.slots, active e = false → e = free) {i : Nat} {f : ε}
    (h : live active u = (live active t).set i f) : SameBut i t u := by
  apply sameBut_of_live hpt hpu ht hu
  intro j hj
  rw [h, List.getElem?_set_ne (Ne.symm hj)]

/-- One replaced by another changes that slot. -/
theorem onlyAt_of_live_set (hpt : Packed active t) (hpu : Packed active u)
    (ht : ∀ e ∈ t.slots, active e = false → e = free)
    (hu : ∀ e ∈ u.slots, active e = false → e = free) {i : Nat} {e f : ε}
    (hi : (live active t)[i]? = some e) (hne : f ≠ e)
    (h : live active u = (live active t).set i f) : OnlyAt i t u := by
  constructor
  · intro hsame
    have hget := getElem?_live hpu i
    rw [hsame, ← getElem?_live hpt, h, hi,
      List.getElem?_set_self (List.getElem?_eq_some_iff.mp hi).1] at hget
    exact hne (Option.some.inj hget)
  · exact sameBut_of_live_set hpt hpu ht hu h

end Live

/-! ## Ledgers that grow at the end and change in place -/

/-- Every record of `l` is still at its index in `l'`, related to what it was. -/
def Persists (R : ε → ε → Prop) (l l' : List ε) : Prop :=
  ∀ (i : Nat) (e : ε), l[i]? = some e → ∃ f, l'[i]? = some f ∧ R e f

section Persists

variable {R : ε → ε → Prop} {l l' l'' : List ε}

theorem Persists.refl (hR : ∀ e, R e e) (l : List ε) : Persists R l l :=
  fun _ e h => ⟨e, h, hR e⟩

theorem Persists.trans (hR : ∀ e f g, R e f → R f g → R e g) (h : Persists R l l')
    (h' : Persists R l' l'') : Persists R l l'' := by
  intro i e hi
  obtain ⟨f, hf, hef⟩ := h i e hi
  obtain ⟨g, hg, hfg⟩ := h' i f hf
  exact ⟨g, hg, hR e f g hef hfg⟩

theorem persists_append (hR : ∀ e, R e e) (l : List ε) (x : ε) : Persists R l (l ++ [x]) := by
  intro i e hi
  have hlt := (List.getElem?_eq_some_iff.mp hi).1
  exact ⟨e, by rw [List.getElem?_append_left hlt, hi], hR e⟩

theorem persists_set (hR : ∀ e, R e e) {i : Nat} {e f : ε} (hi : l[i]? = some e) (hef : R e f) :
    Persists R l (l.set i f) := by
  intro j x hj
  by_cases hij : i = j
  · subst hij
    obtain rfl := Option.some.inj (hi.symm.trans hj)
    exact ⟨f, List.getElem?_set_self (List.getElem?_eq_some_iff.mp hj).1, hef⟩
  · exact ⟨x, by rw [List.getElem?_set_ne hij, hj], hR x⟩

/-- Ledgers that persist make active slots persist. -/
theorem Persists.slots {active : ε → Bool} {t u : Table ε cap} (hp : Packed active t)
    (h : Persists R (live active t) (live active u)) {i : Nat} {e : ε}
    (hi : t.slots[i]? = some e) (ha : active e = true) :
    ∃ f, u.slots[i]? = some f ∧ active f = true ∧ R e f := by
  have hlive : (live active t)[i]? = some e := by
    rw [getElem?_live hp, hi, Option.filter_some, if_pos ha]
  obtain ⟨f, hf, hef⟩ := h i e hlive
  have hget := get?_of_live hf
  rw [Table.get?_ofNat] at hget
  exact ⟨f, hget, active_of_mem_live (List.mem_of_getElem? hf), hef⟩

end Persists

end DspEmbedded.Lib.SlotTable
