import DspEmbedded.CJson.RoundTrip
import DspEmbedded.Model.Jsonld

/-!
# `dsp_json.c`

The wrapper around cJSON. A `cJSON *` or `const char *` that may be NULL is an
`Option`; a `char` array that the C code passes as `buf` and `cap` comes back as
the string it holds, empty after a failure. Allocation succeeds, except that
`dspJsonAddString` is told the outcome of its own two allocations.
-/
namespace DspEmbedded.Model.Json

open Lib.CString CJson

/-! ## Parsing and reading -/

def dspJsonParse (text : Option CStr) : Option Json :=
  match text with
  | none => none
  | some text => cJSONParse text

/-- `cJSON_IsString(item)` and the string, for an item that may be NULL. -/
def stringItem (item : Option Json) : Option CStr := item.bind Json.valuestring?

/-- A string that does not fit is not copied at all. -/
def dspJsonGetString (obj : Option Json) (key : Option CStr) (cap : Nat) : Bool × CStr :=
  match obj, key with
  | some obj, some key =>
    if cap = 0 then (false, CStr.empty)
    else
      match stringItem (getObjectItemCaseSensitive obj key) with
      | none => (false, CStr.empty)
      | some valuestring =>
        if cap ≤ valuestring.length then (false, CStr.empty) else (true, valuestring)
  | _, _ => (false, CStr.empty)

def dspJsonGetType (obj : Option Json) (cap : Nat) : Bool × CStr :=
  dspJsonGetString obj (some Jsonld.fieldType) cap

def dspJsonGetContext (obj : Option Json) (cap : Nat) : Bool × CStr :=
  dspJsonGetString obj (some Jsonld.fieldContext) cap

/-! ## Building -/

/-- The outcomes of `cJSON_CreateString` and of the key copy in
`cJSON_AddItemToObject`. -/
structure AddAlloc where
  createString : Bool
  addItem : Bool
  deriving DecidableEq, Repr

def AddAlloc.succeeds : AddAlloc := ⟨true, true⟩

def dspJsonNewObject : Json := .object []

/-- The old member is deleted before the new one is allocated. -/
def dspJsonAddString (alloc : AddAlloc) (obj : Option Json) (key val : Option CStr) :
    Bool × Option Json :=
  match obj, key, val with
  | some obj, some key, some val =>
    let obj := deleteItemFromObjectCaseSensitive obj key
    if alloc.createString then
      if alloc.addItem then (true, some (addItemToObject obj key (.string val)))
      else (false, some obj)
    else (false, some obj)
  | obj, _, _ => (false, obj)

/-! ## Printing -/

def dspJsonPrint (obj : Option Json) (cap : Nat) : Bool × CStr :=
  match obj with
  | none => (false, CStr.empty)
  | some obj =>
    if cap = 0 then (false, CStr.empty)
    else
      match cJSONPrintUnformatted obj with
      | none => (false, CStr.empty)
      | some tmp =>
        if cap ≤ (CStr.ofBytes tmp).length then (false, CStr.empty)
        else (true, CStr.ofBytes tmp)

/-! ## Lemmas -/

/-- What `dsp_json_get_string` leaves in a buffer of `cap` bytes is the string
member, if it is there and fits. -/
theorem getString_snd (obj : Json) (key : CStr) {cap : Nat} (hcap : 0 < cap) :
    (dspJsonGetString (some obj) (some key) cap).2 =
      match stringItem (getObjectItemCaseSensitive obj key) with
      | none => CStr.empty
      | some s => if s.length < cap then s else CStr.empty := by
  simp only [dspJsonGetString, Nat.ne_of_gt hcap, if_false]
  cases stringItem (getObjectItemCaseSensitive obj key) with
  | none => rfl
  | some s =>
    by_cases h : s.length < cap
    · simp only [if_neg (Nat.not_le.mpr h), if_pos h]
    · simp only [if_pos (Nat.not_lt.mp h), if_neg h]

theorem getString_length (obj : Option Json) (key : Option CStr) {cap : Nat} (hcap : 0 < cap) :
    (dspJsonGetString obj key cap).2.length < cap := by
  rcases obj with _ | obj
  · simpa [dspJsonGetString, CStr.empty, CStr.length] using hcap
  rcases key with _ | key
  · simpa [dspJsonGetString, CStr.empty, CStr.length] using hcap
  rw [getString_snd obj key hcap]
  split
  · simpa [CStr.empty, CStr.length] using hcap
  · split
    · assumption
    · simpa [CStr.empty, CStr.length] using hcap

/-- A key that the object does not have yet is appended. -/
theorem addString_fresh {child : List (CStr × Json)} {key : CStr} (val : CStr)
    (h : ∀ m ∈ child, m.1 ≠ key) :
    dspJsonAddString .succeeds (some (.object child)) (some key) (some val) =
      (true, some (.object (child ++ [(key, .string val)]))) := by
  have herase : child.eraseP (fun m => decide (m.1 = key)) = child := by
    apply List.eraseP_of_forall_not
    intro m hm
    simpa using h m hm
  simp only [dspJsonAddString, deleteItemFromObjectCaseSensitive, herase, AddAlloc.succeeds,
    if_true, addItemToObject]

/-- A printed text that fits is what the buffer holds. -/
theorem print_ok {obj : Json} {text : List UInt8} (hp : cJSONPrintUnformatted obj = some text)
    (hnul : (0 : UInt8) ∉ text) {cap : Nat} (hlen : text.length < cap) :
    dspJsonPrint (some obj) cap = (true, ⟨text, hnul⟩) := by
  have hof : CStr.ofBytes text = ⟨text, hnul⟩ := CStr.ofBytes_bytes ⟨text, hnul⟩
  simp only [dspJsonPrint, hp, hof, CStr.length, if_neg (Nat.not_le.mpr hlen),
    if_neg (Nat.ne_of_gt (Nat.zero_lt_of_lt hlen))]

/-- One that does not fit leaves the buffer empty. -/
theorem print_tooSmall {obj : Json} {text : List UInt8}
    (hp : cJSONPrintUnformatted obj = some text) (hnul : (0 : UInt8) ∉ text) {cap : Nat}
    (hcap : 0 < cap) (hlen : cap ≤ text.length) :
    dspJsonPrint (some obj) cap = (false, CStr.empty) := by
  have hof : CStr.ofBytes text = ⟨text, hnul⟩ := CStr.ofBytes_bytes ⟨text, hnul⟩
  simp only [dspJsonPrint, hp, hof, CStr.length, if_pos hlen, if_neg (Nat.ne_of_gt hcap)]

end DspEmbedded.Model.Json
