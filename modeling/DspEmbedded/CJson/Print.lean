import DspEmbedded.CJson.Parse

/-!
# The unformatted cJSON printer

`cJSON_PrintUnformatted` with every `ensure` succeeding. The text of a number
comes from `sprintf` on its `double`, which the tree does not keep, so a tree
with a number in it has no text here; no message that is sent contains one.
-/
namespace DspEmbedded.CJson

open Lib.CString

/-- A digit as `sprintf("%04x")` writes it. -/
def hexLower (n : Nat) : UInt8 := if n < 10 then UInt8.ofNat (48 + n) else UInt8.ofNat (87 + n)

/-- What `print_string_ptr` writes for one byte. -/
def escapeByte (b : UInt8) : List UInt8 :=
  if 31 < b ∧ b ≠ 34 ∧ b ≠ 92 then [b]
  else if b = 92 then [92, 92]
  else if b = 34 then [92, 34]
  else if b = 8 then [92, 98]
  else if b = 12 then [92, 102]
  else if b = 10 then [92, 110]
  else if b = 13 then [92, 114]
  else if b = 9 then [92, 116]
  else [92, 117, 48, 48, hexLower (b.toNat / 16), hexLower (b.toNat % 16)]

/-- `print_string_ptr`. -/
def printString (s : CStr) : List UInt8 := 34 :: (s.bytes.flatMap escapeByte ++ [34])

/-- The comma between two children. -/
def separator {α : Type*} (rest : List α) : List UInt8 := if rest.isEmpty then [] else [44]

mutual

/-- `print_value`. -/
def printValue : Json → Option (List UInt8)
  | .null => some litNull
  | .bool false => some litFalse
  | .bool true => some litTrue
  | .number _ => none
  | .string s => some (printString s)
  | .array child => (printElements child).map fun body => 91 :: (body ++ [93])
  | .object child => (printMembers child).map fun body => 123 :: (body ++ [125])

/-- The loop of `print_array`. -/
def printElements : List Json → Option (List UInt8)
  | [] => some []
  | v :: rest =>
    match printValue v, printElements rest with
    | some a, some b => some (a ++ (separator rest ++ b))
    | _, _ => none

/-- The loop of `print_object`. -/
def printMembers : List (CStr × Json) → Option (List UInt8)
  | [] => some []
  | (key, v) :: rest =>
    match printValue v, printMembers rest with
    | some a, some b => some (printString key ++ (58 :: (a ++ (separator rest ++ b))))
    | _, _ => none

end

/-- `cJSON_PrintUnformatted`, but for trees with a number in them, which have no text here. -/
def cJSONPrintUnformatted (item : Json) : Option (List UInt8) := printValue item

theorem escapeByte_length_le (b : UInt8) : (escapeByte b).length ≤ 6 := by
  unfold escapeByte
  split_ifs <;> simp

theorem escapeByte_noNul {b : UInt8} (h : b ≠ 0) : (0 : UInt8) ∉ escapeByte b := by
  have hex : ∀ n, n < 16 → hexLower n ≠ 0 := by decide
  unfold escapeByte
  split_ifs with h1 <;> simp only [List.mem_cons, List.not_mem_nil, or_false, not_or]
  · exact Ne.symm h
  all_goals try decide
  have hb : b.toNat < 256 := b.toNat_lt
  exact ⟨by decide, by decide, by decide, by decide, (hex _ (by omega)).symm,
    (hex _ (by omega)).symm⟩

/-- A string of `n` bytes prints to at most `6n+2`. -/
theorem printString_length_le (s : CStr) : (printString s).length ≤ 6 * s.length + 2 := by
  have key : ∀ l : List UInt8, (l.flatMap escapeByte).length ≤ 6 * l.length := by
    intro l
    induction l with
    | nil => simp
    | cons b l ih =>
      have hb := escapeByte_length_le b
      simp only [List.flatMap_cons, List.length_append, List.length_cons]
      omega
  have h := key s.bytes
  simp only [printString, List.length_cons, List.length_append, List.length_nil, CStr.length]
  omega

theorem printString_noNul (s : CStr) : (0 : UInt8) ∉ printString s := by
  simp only [printString, List.mem_cons, List.mem_append, List.mem_flatMap, List.not_mem_nil,
    or_false, not_or, not_exists, not_and]
  refine ⟨by decide, fun b hb => ?_, by decide⟩
  exact escapeByte_noNul fun h => s.noNul (h ▸ hb)

theorem printElements_cons {v : Json} {rest : List Json} {a : List UInt8}
    (h : printElements (v :: rest) = some a) :
    ∃ x y, printValue v = some x ∧ printElements rest = some y ∧
      a = x ++ (separator rest ++ y) := by
  unfold printElements at h
  split at h
  · next x y hx hy => exact ⟨x, y, hx, hy, (Option.some.inj h).symm⟩
  · cases h

theorem printMembers_cons {key : CStr} {v : Json} {rest : List (CStr × Json)} {a : List UInt8}
    (h : printMembers ((key, v) :: rest) = some a) :
    ∃ x y, printValue v = some x ∧ printMembers rest = some y ∧
      a = printString key ++ (58 :: (x ++ (separator rest ++ y))) := by
  unfold printMembers at h
  split at h
  · next x y hx hy => exact ⟨x, y, hx, hy, (Option.some.inj h).symm⟩
  · cases h

theorem separator_noNul {α : Type*} (rest : List α) : (0 : UInt8) ∉ separator rest := by
  cases rest with
  | nil => simp [separator]
  | cons x rest => simp [separator]

mutual

/-- A printed text is a C string: the escapes leave no NUL in it. -/
theorem printValue_noNul : ∀ (t : Json) {a : List UInt8}, printValue t = some a → (0 : UInt8) ∉ a
  | .null, a, h => by
    obtain rfl := Option.some.inj h
    decide
  | .bool false, a, h => by
    obtain rfl := Option.some.inj h
    decide
  | .bool true, a, h => by
    obtain rfl := Option.some.inj h
    decide
  | .number l, a, h => by cases h
  | .string s, a, h => by
    obtain rfl := Option.some.inj h
    exact printString_noNul s
  | .array child, a, h => by
    obtain ⟨body, hbody, rfl⟩ := Option.map_eq_some_iff.mp h
    simpa using printElements_noNul child hbody
  | .object child, a, h => by
    obtain ⟨body, hbody, rfl⟩ := Option.map_eq_some_iff.mp h
    simpa using printMembers_noNul child hbody

theorem printElements_noNul : ∀ (l : List Json) {a : List UInt8}, printElements l = some a →
    (0 : UInt8) ∉ a
  | [], a, h => by
    obtain rfl := Option.some.inj h
    simp
  | v :: rest, a, h => by
    obtain ⟨x, y, hx, hy, rfl⟩ := printElements_cons h
    have hv := printValue_noNul v hx
    have hrest := printElements_noNul rest hy
    simp [hv, hrest, separator_noNul]

theorem printMembers_noNul : ∀ (l : List (CStr × Json)) {a : List UInt8},
    printMembers l = some a → (0 : UInt8) ∉ a
  | [], a, h => by
    obtain rfl := Option.some.inj h
    simp
  | (key, v) :: rest, a, h => by
    obtain ⟨x, y, hx, hy, rfl⟩ := printMembers_cons h
    have hv := printValue_noNul v hx
    have hrest := printMembers_noNul rest hy
    simp [hv, hrest, separator_noNul, printString_noNul]

end

end DspEmbedded.CJson
