import DspEmbedded.Lib.Members
import DspEmbedded.Model.Json

/-!
# Adding a string to an object

`dsp_json_add_string` deletes the first member of the key and appends the new one.
In a parsed object a key may have more members: then the second one is what is read
afterwards. The deletion comes before the allocations, so where one of these fails
the old member is gone. All other keys read as before in every case.
-/
namespace DspEmbedded.Audit.Replace

open Lib.CString Lib.Members CJson Model Model.Json

/-! ## Replacement -/

/-- A key reads alike in both objects, into buffers of any size. -/
def ReadsAlike (obj obj' : Json) (key : CStr) : Prop :=
  ∀ cap, dspJsonGetString (some obj) (some key) cap = dspJsonGetString (some obj') (some key) cap

/-- After success the key reads the value and the others read as before; after a
failure all of them do. -/
structure Replaces (alloc : AddAlloc) (obj : Json) (key val : Option CStr) : Prop where
  success : (dspJsonAddString alloc (some obj) key val).1 = true →
    ∃ k v obj', key = some k ∧ val = some v ∧
      (dspJsonAddString alloc (some obj) key val).2 = some obj' ∧
      (∀ cap, v.length < cap → dspJsonGetString (some obj') (some k) cap = (true, v)) ∧
      ∀ k', k' ≠ k → ReadsAlike obj obj' k'
  failure : (dspJsonAddString alloc (some obj) key val).1 = false →
    ∃ obj', (dspJsonAddString alloc (some obj) key val).2 = some obj' ∧
      ∀ k', ReadsAlike obj obj' k'

/-- A second member of the key is the new value already; where an allocation fails,
it reads like the first. -/
def Replaceable (alloc : AddAlloc) (child : List (CStr × Json)) :
    Option CStr → Option CStr → Prop
  | some key, some val =>
    if alloc = .succeeds then
      ∀ second, (valuesOf key child)[1]? = some second → second.valuestring? = some val
    else
      (valuesOf key child)[0]?.bind Json.valuestring? =
        (valuesOf key child)[1]?.bind Json.valuestring?
  | _, _ => True

/-! ## Readings -/

theorem getObjectItem_eq (child : List (CStr × Json)) (key : CStr) :
    getObjectItemCaseSensitive (.object child) key = (valuesOf key child).head? :=
  find?_eq_head? key child

theorem getString_eq_true_iff {obj : Json} {key s : CStr} {cap : Nat} (h : s.length < cap) :
    dspJsonGetString (some obj) (some key) cap = (true, s) ↔
      stringItem (getObjectItemCaseSensitive obj key) = some s := by
  simp only [dspJsonGetString, if_neg (Nat.ne_of_gt (Nat.zero_lt_of_lt h))]
  cases stringItem (getObjectItemCaseSensitive obj key) with
  | none => simp
  | some t =>
    by_cases ht : cap ≤ t.length
    · simp only [if_pos ht, Prod.mk.injEq, Bool.false_eq_true, false_and, Option.some.injEq,
        false_iff]
      rintro rfl
      exact absurd h (Nat.not_lt.mpr ht)
    · simp [if_neg ht]

/-- Large buffers tell all strings apart. -/
theorem readsAlike_iff {obj obj' : Json} {key : CStr} :
    ReadsAlike obj obj' key ↔
      stringItem (getObjectItemCaseSensitive obj key) =
        stringItem (getObjectItemCaseSensitive obj' key) := by
  constructor
  · intro h
    cases hs : stringItem (getObjectItemCaseSensitive obj key) with
    | some s =>
      have hread := (getString_eq_true_iff (Nat.lt_succ_self s.length)).mpr hs
      rw [h] at hread
      exact ((getString_eq_true_iff (Nat.lt_succ_self s.length)).mp hread).symm
    | none =>
      cases hs' : stringItem (getObjectItemCaseSensitive obj' key) with
      | none => rfl
      | some s =>
        have hread := (getString_eq_true_iff (Nat.lt_succ_self s.length)).mpr hs'
        rw [← h] at hread
        rw [(getString_eq_true_iff (Nat.lt_succ_self s.length)).mp hread] at hs
        cases hs
  · intro h cap
    simp only [dspJsonGetString, h]

theorem readsAlike_of_valuesOf {child child' : List (CStr × Json)} {key : CStr}
    (h : (valuesOf key child).head? = (valuesOf key child').head?) :
    ReadsAlike (.object child) (.object child') key := by
  rw [readsAlike_iff, getObjectItem_eq, getObjectItem_eq, h]

/-! ## The two outcomes -/

/-- The members after the deletion. -/
def remaining (child : List (CStr × Json)) (key : CStr) : List (CStr × Json) :=
  child.eraseP fun m => decide (m.1 = key)

theorem addString_succeeds (child : List (CStr × Json)) (key val : CStr) :
    dspJsonAddString .succeeds (some (.object child)) (some key) (some val) =
      (true, some (.object (remaining child key ++ [(key, .string val)]))) := rfl

theorem addString_fails {alloc : AddAlloc} (h : alloc ≠ .succeeds) (child : List (CStr × Json))
    (key val : CStr) :
    dspJsonAddString alloc (some (.object child)) (some key) (some val) =
      (false, some (.object (remaining child key))) := by
  obtain ⟨createString, addItem⟩ := alloc
  cases createString <;> cases addItem
  · rfl
  · rfl
  · rfl
  · exact absurd rfl h

/-- The new value is read unless a second member hides it. -/
theorem replaced_reads_iff (child : List (CStr × Json)) (key val : CStr) :
    (∀ cap, val.length < cap →
      dspJsonGetString (some (.object (remaining child key ++ [(key, .string val)])))
        (some key) cap = (true, val)) ↔
      ∀ second, (valuesOf key child)[1]? = some second → second.valuestring? = some val := by
  have hread : ∀ cap, val.length < cap →
      (dspJsonGetString (some (.object (remaining child key ++ [(key, .string val)])))
        (some key) cap = (true, val) ↔
      ((valuesOf key child)[1]?.getD (Json.string val)).valuestring? = some val) := by
    intro cap hcap
    rw [getString_eq_true_iff hcap, getObjectItem_eq, remaining, head?_replaced]
    rfl
  constructor
  · intro h second hsecond
    have hval := (hread _ (Nat.lt_succ_self _)).mp (h _ (Nat.lt_succ_self _))
    rwa [hsecond] at hval
  · intro h cap hcap
    rw [hread cap hcap]
    cases hsecond : (valuesOf key child)[1]? with
    | none => rfl
    | some second => exact h second hsecond

theorem others_after_success {child : List (CStr × Json)} {key k' : CStr} (h : k' ≠ key)
    (val : CStr) :
    ReadsAlike (.object child) (.object (remaining child key ++ [(key, .string val)])) k' := by
  apply readsAlike_of_valuesOf
  rw [valuesOf_append_ne h, remaining, valuesOf_eraseP_ne h]

theorem others_after_failure {child : List (CStr × Json)} {key k' : CStr} (h : k' ≠ key) :
    ReadsAlike (.object child) (.object (remaining child key)) k' := by
  apply readsAlike_of_valuesOf
  rw [remaining, valuesOf_eraseP_ne h]

/-- A failed call uncovers the second member of the key. -/
theorem deleted_reads_iff (child : List (CStr × Json)) (key : CStr) :
    ReadsAlike (.object child) (.object (remaining child key)) key ↔
      (valuesOf key child)[0]?.bind Json.valuestring? =
        (valuesOf key child)[1]?.bind Json.valuestring? := by
  rw [readsAlike_iff, getObjectItem_eq, getObjectItem_eq, remaining, valuesOf_eraseP_self,
    List.head?_tail, List.head?_eq_getElem?]
  rfl

theorem replaces_null {alloc : AddAlloc} {obj : Json} {key val : Option CStr}
    (h : key = none ∨ val = none) : Replaces alloc obj key val := by
  have hnull : dspJsonAddString alloc (some obj) key val = (false, some obj) := by
    rcases h with rfl | rfl
    · rfl
    · cases key <;> rfl
  refine ⟨fun hok => ?_, fun _ => ⟨obj, by rw [hnull], fun _ _ => rfl⟩⟩
  rw [hnull] at hok
  cases hok

/-- **When a string is replaced.** For every object, all arguments and all outcomes
of the allocations. -/
theorem replaces_iff (alloc : AddAlloc) (child : List (CStr × Json)) (key val : Option CStr) :
    Replaces alloc (.object child) key val ↔ Replaceable alloc child key val := by
  cases key with
  | none => exact iff_of_true (replaces_null (.inl rfl)) trivial
  | some key =>
    cases val with
    | none => exact iff_of_true (replaces_null (.inr rfl)) trivial
    | some val =>
      by_cases halloc : alloc = .succeeds
      · subst halloc
        have hrun := addString_succeeds child key val
        simp only [Replaceable, if_true]
        rw [← replaced_reads_iff]
        constructor
        · intro h
          obtain ⟨k, v, obj', hk, hv, hobj, hread, -⟩ := h.success (by rw [hrun])
          obtain rfl := Option.some.inj hk
          obtain rfl := Option.some.inj hv
          rw [hrun] at hobj
          obtain rfl := Option.some.inj hobj
          exact hread
        · intro h
          refine ⟨fun _ => ⟨key, val, _, rfl, rfl, by rw [hrun], h, ?_⟩, fun hfail => ?_⟩
          · intro k' hk'
            exact others_after_success hk' val
          · rw [hrun] at hfail
            cases hfail
      · have hrun := addString_fails halloc child key val
        simp only [Replaceable, halloc, if_false]
        rw [← deleted_reads_iff]
        constructor
        · intro h
          obtain ⟨obj', hobj, hall⟩ := h.failure (by rw [hrun])
          rw [hrun] at hobj
          obtain rfl := Option.some.inj hobj
          exact hall key
        · intro h
          refine ⟨fun hok => ?_, fun _ => ⟨_, by rw [hrun], ?_⟩⟩
          · rw [hrun] at hok
            cases hok
          · intro k'
            by_cases hk' : k' = key
            · exact hk' ▸ h
            · exact others_after_failure hk'

/-- The member of a body whose process id stands in it twice. -/
def twoIds : List (CStr × Json) :=
  [(Jsonld.fieldProcessId, .string (CStr.lit "p")), (Jsonld.fieldProcessId, .string (CStr.lit "q"))]

def oneId : List (CStr × Json) := [(Jsonld.fieldProcessId, .string (CStr.lit "p"))]

theorem parse_twoIds : ∃ text, dspJsonParse (some text) = some (.object twoIds) := by
  obtain ⟨a, ha⟩ : ∃ a, cJSONPrintUnformatted (.object twoIds) = some a := by
    simp [cJSONPrintUnformatted, printValue, printMembers, twoIds]
  exact ⟨⟨a, printValue_noNul _ ha⟩, cJSONParse_print ha (Nat.le_of_ble_eq_true rfl) _ rfl⟩

theorem parse_oneId : ∃ text, dspJsonParse (some text) = some (.object oneId) := by
  obtain ⟨a, ha⟩ : ∃ a, cJSONPrintUnformatted (.object oneId) = some a := by
    simp [cJSONPrintUnformatted, printValue, printMembers, oneId]
  exact ⟨⟨a, printValue_noNul _ ha⟩, cJSONParse_print ha (Nat.le_of_ble_eq_true rfl) _ rfl⟩

/-- A call that succeeds leaves the second id to be read, one that fails for lack of
memory has deleted the id. -/
theorem replace_counterexample :
    (∃ text, dspJsonParse (some text) = some (.object twoIds)) ∧
      ¬ Replaces .succeeds (.object twoIds) (some Jsonld.fieldProcessId)
        (some (CStr.lit "r")) ∧
    (∃ text, dspJsonParse (some text) = some (.object oneId)) ∧
      ¬ Replaces ⟨false, true⟩ (.object oneId) (some Jsonld.fieldProcessId)
        (some (CStr.lit "r")) := by
  refine ⟨parse_twoIds, ?_, parse_oneId, ?_⟩
  · intro h
    obtain ⟨k, v, obj', hk, hv, hobj, hread, -⟩ := h.success rfl
    obtain rfl := Option.some.inj hk
    obtain rfl := Option.some.inj hv
    obtain rfl := Option.some.inj hobj
    exact absurd (hread 8 (by decide)) (by decide)
  · intro h
    obtain ⟨obj', hobj, hall⟩ := h.failure rfl
    obtain rfl := Option.some.inj hobj
    exact absurd (hall Jsonld.fieldProcessId 8) (by decide)

end DspEmbedded.Audit.Replace
