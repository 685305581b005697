import DspEmbedded.Lib.CString

/-!
# The id segment of a path

`extract_neg_id` and `extract_xfer_id` are one function with two prefixes: the
bytes behind the prefix up to the next slash, cut to what the buffer holds.
-/
namespace DspEmbedded.Model.PathId

open Lib.CString

/-- The byte `'/'`. -/
def slash : UInt8 := 47

def extractId (pathPrefix : CStr) (uri : Option CStr) (cap : Nat) : CStr :=
  match uri with
  | none => CStr.empty
  | some uri =>
    if strncmp uri.bytes pathPrefix.bytes pathPrefix.length ≠ 0 then CStr.empty
    else
      let start := uri.drop pathPrefix.length
      let len := (start.bytes.takeWhile (· != slash)).length
      start.take (if cap ≤ len then cap - 1 else len)

def negPrefix : CStr := CStr.lit "/negotiations/"

def xferPrefix : CStr := CStr.lit "/transfers/"

def extractNegId (uri : Option CStr) (cap : Nat) : CStr := extractId negPrefix uri cap

def extractXferId (uri : Option CStr) (cap : Nat) : CStr := extractId xferPrefix uri cap

theorem extractId_length_lt (pathPrefix : CStr) (uri : Option CStr) {cap : Nat} (hcap : 0 < cap) :
    (extractId pathPrefix uri cap).length < cap := by
  have hempty : CStr.empty.length < cap := hcap
  unfold extractId
  split
  · exact hempty
  · split
    · exact hempty
    · refine Nat.lt_of_le_of_lt (CStr.length_take_le _ _) ?_
      split <;> omega

theorem takeWhile_length_take {p : UInt8 → Bool} (l : List UInt8) {n : Nat}
    (h : n ≤ (l.takeWhile p).length) : l.take n = (l.takeWhile p).take n := by
  obtain ⟨t, ht⟩ := List.takeWhile_prefix p (l := l)
  conv_lhs => rw [← ht]
  exact List.take_append_of_le_length h

theorem extractId_bytes {pathPrefix uri : CStr} (h : pathPrefix.bytes <+: uri.bytes) {cap : Nat}
    (hcap : 0 < cap) :
    (extractId pathPrefix (some uri) cap).bytes =
      ((uri.bytes.drop pathPrefix.length).takeWhile (· != slash)).take (cap - 1) := by
  have hcmp : ¬ strncmp uri.bytes pathPrefix.bytes pathPrefix.length ≠ 0 :=
    not_not.mpr ((strncmp_prefix_iff uri pathPrefix).mpr h)
  by_cases hle : cap ≤ ((uri.drop pathPrefix.length).bytes.takeWhile (· != slash)).length
  · simp only [extractId, if_neg hcmp, if_pos hle, CStr.bytes_take]
    exact takeWhile_length_take _ (by omega)
  · simp only [extractId, if_neg hcmp, if_neg hle, CStr.bytes_take]
    rw [takeWhile_length_take _ le_rfl, List.take_of_length_le le_rfl]
    exact (List.take_of_length_le (Nat.le_sub_one_of_lt (Nat.lt_of_not_le hle))).symm

/-- The whole segment behind the prefix, up to the next slash or the end; empty for
other paths. -/
def pathSegment (pathPrefix uri : CStr) : CStr :=
  if pathPrefix.bytes.isPrefixOf uri.bytes then
    let start := uri.drop pathPrefix.length
    start.take (start.bytes.takeWhile (· != slash)).length
  else CStr.empty

/-- Paths with another prefix have no id. -/
theorem extractId_other {pathPrefix uri : CStr} (h : ¬ pathPrefix.bytes <+: uri.bytes)
    (cap : Nat) : extractId pathPrefix (some uri) cap = CStr.empty := by
  have hcmp : strncmp uri.bytes pathPrefix.bytes pathPrefix.length ≠ 0 :=
    fun he => h ((strncmp_prefix_iff uri pathPrefix).mp he)
  simp only [extractId, if_pos hcmp]

/-- The id is the segment as far as the buffer holds it. -/
theorem extractId_eq_take (pathPrefix uri : CStr) {cap : Nat} (hcap : 0 < cap) :
    extractId pathPrefix (some uri) cap = (pathSegment pathPrefix uri).take (cap - 1) := by
  apply CStr.ext_bytes
  rw [CStr.bytes_take]
  by_cases h : pathPrefix.bytes <+: uri.bytes
  · have hpre : pathPrefix.bytes.isPrefixOf uri.bytes = true := List.isPrefixOf_iff_prefix.mpr h
    rw [extractId_bytes h hcap, pathSegment, if_pos hpre, CStr.bytes_take,
      takeWhile_length_take _ le_rfl, List.take_of_length_le le_rfl]
    rfl
  · have hpre : ¬ pathPrefix.bytes.isPrefixOf uri.bytes = true :=
      fun he => h (List.isPrefixOf_iff_prefix.mp he)
    rw [extractId_other h, pathSegment, if_neg hpre]
    exact List.take_nil.symm

/-- No id has a slash in it. -/
theorem slash_not_mem_extractId (pathPrefix uri : CStr) {cap : Nat} (hcap : 0 < cap) :
    slash ∉ (extractId pathPrefix (some uri) cap).bytes := by
  by_cases h : pathPrefix.bytes <+: uri.bytes
  · rw [extractId_bytes h hcap]
    intro hmem
    have hne := List.mem_takeWhile_imp (List.mem_of_mem_take hmem)
    simp at hne
  · rw [extractId_other h]
    simp [CStr.empty]

/-- The path of a resource: prefix, id, and a suffix such as `/agree`. -/
def resourcePath (pathPrefix id suffix : CStr) : CStr := pathPrefix ++ (id ++ suffix)

/-- An id that fits and has no slash in it is read back from its path. -/
theorem extractId_resourcePath {pathPrefix id suffix : CStr} {cap : Nat} (hlen : id.length < cap)
    (hid : slash ∉ id.bytes) (hsuffix : suffix.bytes = [] ∨ ∃ t, suffix.bytes = slash :: t) :
    extractId pathPrefix (some (resourcePath pathPrefix id suffix)) cap = id := by
  apply CStr.ext_bytes
  have hpre : pathPrefix.bytes <+: (resourcePath pathPrefix id suffix).bytes :=
    List.prefix_append _ _
  rw [extractId_bytes hpre (Nat.zero_lt_of_lt hlen)]
  have hdrop : (resourcePath pathPrefix id suffix).bytes.drop pathPrefix.length =
      id.bytes ++ suffix.bytes := List.drop_left
  have hall : ∀ b ∈ id.bytes, (b != slash) = true := by
    intro b hb
    have hne : b ≠ slash := fun he => hid (he ▸ hb)
    simpa using hne
  have hwhile : (id.bytes ++ suffix.bytes).takeWhile (· != slash) = id.bytes := by
    rw [List.takeWhile_append_of_pos hall]
    rcases hsuffix with hs | ⟨t, hs⟩ <;> simp [hs]
  rw [hdrop, hwhile]
  exact List.take_of_length_le (Nat.le_sub_one_of_lt hlen)

end DspEmbedded.Model.PathId
