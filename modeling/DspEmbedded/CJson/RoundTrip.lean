import DspEmbedded.CJson.Print

/-!
# What is printed is read back

The parser undoes the printer on every tree without numbers that is nested no
deeper than the parser follows, whatever stands behind the text. Strings may
hold any byte but NUL: quotes, backslashes and control characters come back.
-/
namespace DspEmbedded.CJson

open Lib.CString

/-! ## Strings -/

theorem scanString_cons {b : UInt8} (h34 : b ≠ 34) (h92 : b ≠ 92) (t : List UInt8) :
    scanString (b :: t) = (scanString t).map fun r => (b :: r.1, r.2) := by
  rw [scanString.eq_def]
  simp [h34, h92]

theorem scanString_escape (c : UInt8) (t : List UInt8) :
    scanString (92 :: c :: t) = (scanString t).map fun r => (92 :: c :: r.1, r.2) := by
  rw [scanString.eq_def]
  simp

theorem unescape_cons {b : UInt8} (h : b ≠ 92) (t : List UInt8) :
    unescape (b :: t) = (unescape t).map (b :: ·) := by
  rw [unescape.eq_def]
  simp [h]

/-- The letters that stand behind a backslash for one byte, each with its byte. -/
def shortEscapes : List (UInt8 × UInt8) :=
  [(98, 8), (102, 12), (110, 10), (114, 13), (116, 9), (34, 34), (92, 92)]

theorem unescape_short {e b : UInt8} (h : (e, b) ∈ shortEscapes) (t : List UInt8) :
    unescape (92 :: e :: t) = (unescape t).map (b :: ·) := by
  rw [unescape.eq_def]
  simp only [shortEscapes, List.mem_cons, Prod.mk.injEq, List.not_mem_nil, or_false] at h
  rcases h with h | h | h | h | h | h | h
  all_goals
    obtain ⟨rfl, rfl⟩ := h
    rfl

theorem escapeByte_short {e b : UInt8} (h : (e, b) ∈ shortEscapes) : escapeByte b = [92, e] := by
  simp only [shortEscapes, List.mem_cons, Prod.mk.injEq, List.not_mem_nil, or_false] at h
  rcases h with h | h | h | h | h | h | h
  all_goals
    obtain ⟨rfl, rfl⟩ := h
    rfl

/-- A `\u` escape whose code is not half of a surrogate pair. -/
theorem unescape_hex {a b c d : UInt8} (h : parseHex4 a b c d < 0xD800) (t : List UInt8) :
    unescape (92 :: 117 :: a :: b :: c :: d :: t) =
      (unescape t).map (utf8Encode (parseHex4 a b c d) ++ ·) := by
  have hlow : ¬ (0xDC00 ≤ parseHex4 a b c d ∧ parseHex4 a b c d ≤ 0xDFFF) := by omega
  have hhigh : ¬ (0xD800 ≤ parseHex4 a b c d ∧ parseHex4 a b c d ≤ 0xDBFF) := by omega
  rw [unescape.eq_def]
  simp [hlow, hhigh]

theorem hexLower_cases {n : Nat} (h : n < 16) :
    hexLower n ≠ 34 ∧ hexLower n ≠ 92 ∧ hexDigit? (hexLower n) = some n := by
  have key : ∀ n, n < 16 →
      hexLower n ≠ 34 ∧ hexLower n ≠ 92 ∧ hexDigit? (hexLower n) = some n := by decide
  exact key n h

/-- The eight shapes of an escape: itself, a letter behind a backslash, or a
four digit code for the remaining control characters. -/
theorem escapeByte_cases (b : UInt8) :
    (escapeByte b = [b] ∧ b ≠ 34 ∧ b ≠ 92) ∨
    (∃ e, escapeByte b = [92, e] ∧ ∀ t, unescape (92 :: e :: t) = (unescape t).map (b :: ·)) ∨
    (escapeByte b = [92, 117, 48, 48, hexLower (b.toNat / 16), hexLower (b.toNat % 16)] ∧
      b.toNat < 32) := by
  by_cases h0 : 31 < b ∧ b ≠ 34 ∧ b ≠ 92
  · exact .inl ⟨if_pos h0, h0.2.1, h0.2.2⟩
  by_cases hshort : ∃ e, (e, b) ∈ shortEscapes
  · obtain ⟨e, he⟩ := hshort
    exact .inr (.inl ⟨e, escapeByte_short he, unescape_short he⟩)
  · have hne : ∀ e v, (e, v) ∈ shortEscapes → b ≠ v := by
      intro e v hv heq
      exact hshort ⟨e, heq ▸ hv⟩
    have h34 := hne 34 34 (by decide)
    have h92 := hne 92 92 (by decide)
    refine .inr (.inr ⟨?_, ?_⟩)
    · rw [escapeByte, if_neg h0, if_neg h92, if_neg h34, if_neg (hne 98 8 (by decide)),
        if_neg (hne 102 12 (by decide)), if_neg (hne 110 10 (by decide)),
        if_neg (hne 114 13 (by decide)), if_neg (hne 116 9 (by decide))]
    · have hle : ¬ 31 < b := fun h => h0 ⟨h, h34, h92⟩
      have hnat : ¬ 31 < b.toNat := hle
      omega

theorem scanString_escapeByte (b : UInt8) (t : List UInt8) :
    scanString (escapeByte b ++ t) =
      (scanString t).map fun r => (escapeByte b ++ r.1, r.2) := by
  rcases escapeByte_cases b with ⟨h, h34, h92⟩ | ⟨e, h, -⟩ | ⟨h, hb⟩
  · rw [h]
    exact scanString_cons h34 h92 t
  · rw [h]
    exact scanString_escape e t
  · obtain ⟨hi1, hi2, -⟩ := hexLower_cases (n := b.toNat / 16) (by omega)
    obtain ⟨lo1, lo2, -⟩ := hexLower_cases (n := b.toNat % 16) (by omega)
    rw [h]
    simp only [List.cons_append, List.nil_append]
    rw [scanString_escape, scanString_cons (by decide) (by decide),
      scanString_cons (by decide) (by decide), scanString_cons hi1 hi2, scanString_cons lo1 lo2]
    simp only [Option.map_map, Function.comp_def]

theorem unescape_escapeByte (b : UInt8) (t : List UInt8) :
    unescape (escapeByte b ++ t) = (unescape t).map (b :: ·) := by
  rcases escapeByte_cases b with ⟨h, -, h92⟩ | ⟨e, h, he⟩ | ⟨h, hb⟩
  · rw [h]
    exact unescape_cons h92 t
  · rw [h]
    exact he t
  · obtain ⟨-, -, hi⟩ := hexLower_cases (n := b.toNat / 16) (by omega)
    obtain ⟨-, -, lo⟩ := hexLower_cases (n := b.toNat % 16) (by omega)
    have hhex : parseHex4 48 48 (hexLower (b.toNat / 16)) (hexLower (b.toNat % 16)) = b.toNat := by
      have hzero : hexDigit? 48 = some 0 := by decide
      simp only [parseHex4, hzero, hi, lo]
      omega
    have hutf : utf8Encode b.toNat = [b] := by
      unfold utf8Encode
      rw [if_pos (by omega), UInt8.ofNat_toNat]
    rw [h]
    simp only [List.cons_append, List.nil_append]
    rw [unescape_hex (by omega), hhex, hutf]
    rfl

theorem scanString_flatMap (s rest : List UInt8) :
    scanString (s.flatMap escapeByte ++ 34 :: rest) = some (s.flatMap escapeByte, rest) := by
  induction s with
  | nil =>
    rw [scanString.eq_def]
    simp
  | cons b s ih =>
    rw [List.flatMap_cons, List.append_assoc, scanString_escapeByte, ih]
    rfl

theorem unescape_flatMap (s : List UInt8) : unescape (s.flatMap escapeByte) = some s := by
  induction s with
  | nil => rfl
  | cons b s ih =>
    rw [List.flatMap_cons, unescape_escapeByte, ih]
    rfl

theorem parseString_printString (s : CStr) (rest : List UInt8) :
    parseString (printString s ++ rest) = some (s, rest) := by
  have hscan := scanString_flatMap s.bytes rest
  simp only [printString, List.cons_append, List.append_assoc, List.nil_append, parseString,
    Ne, not_true_eq_false, if_false, hscan, unescape_flatMap, Option.map_some, CStr.ofBytes_bytes]

/-! ## Values -/

theorem bufferSkipWhitespace_cons {b : UInt8} (h : 32 < b) (t : List UInt8) :
    bufferSkipWhitespace (b :: t) = b :: t := by
  cases t with
  | nil => rfl
  | cons c t =>
    have hle : ¬ b ≤ 32 := by
      have h' : 32 < b.toNat := h
      intro hb
      have hb' : b.toNat ≤ 32 := hb
      omega
    simp [bufferSkipWhitespace, hle]

mutual

/-- How many arrays and objects deep a tree is. -/
def nesting : Json → Nat
  | .array child => nestingElements child + 1
  | .object child => nestingMembers child + 1
  | _ => 0

def nestingElements : List Json → Nat
  | [] => 0
  | v :: rest => max (nesting v) (nestingElements rest)

def nestingMembers : List (CStr × Json) → Nat
  | [] => 0
  | (_, v) :: rest => max (nesting v) (nestingMembers rest)

end

/-- No value starts with white space. -/
theorem printValue_head {t : Json} {a : List UInt8} (h : printValue t = some a) :
    ∃ b a', a = b :: a' ∧ 32 < b ∧ b ≠ 93 ∧ b ≠ 125 := by
  cases t with
  | null => exact ⟨110, _, (Option.some.inj h).symm, by decide, by decide, by decide⟩
  | bool v =>
    cases v with
    | false => exact ⟨102, _, (Option.some.inj h).symm, by decide, by decide, by decide⟩
    | true => exact ⟨116, _, (Option.some.inj h).symm, by decide, by decide, by decide⟩
  | number l => cases h
  | string s => exact ⟨34, _, (Option.some.inj h).symm, by decide, by decide, by decide⟩
  | array child =>
    obtain ⟨body, -, rfl⟩ := Option.map_eq_some_iff.mp h
    exact ⟨91, _, rfl, by decide, by decide, by decide⟩
  | object child =>
    obtain ⟨body, -, rfl⟩ := Option.map_eq_some_iff.mp h
    exact ⟨123, _, rfl, by decide, by decide, by decide⟩

theorem bufferSkipWhitespace_printValue {t : Json} {a : List UInt8} (h : printValue t = some a)
    (rest : List UInt8) : bufferSkipWhitespace (a ++ rest) = a ++ rest := by
  obtain ⟨b, a', rfl, hb, -, -⟩ := printValue_head h
  exact bufferSkipWhitespace_cons hb _

mutual

/-- The induction is on the tree; the fuel covers the printed text, the nesting
limit what is left of the depth. -/
theorem parseValue_printValue : ∀ (t : Json) {a : List UInt8}, printValue t = some a →
    ∀ (fuel depth : Nat) (rest : List UInt8), 2 * a.length < fuel →
      depth + nesting t ≤ nestingLimit → parseValue fuel depth (a ++ rest) = some (t, rest)
  | .null, a, h, fuel, depth, rest, hf, _ => by
    obtain rfl := Option.some.inj h
    obtain ⟨fuel, rfl⟩ := Nat.exists_eq_add_one.mpr (Nat.zero_lt_of_lt hf)
    simp [parseValue, litNull]
  | .bool false, a, h, fuel, depth, rest, hf, _ => by
    obtain rfl := Option.some.inj h
    obtain ⟨fuel, rfl⟩ := Nat.exists_eq_add_one.mpr (Nat.zero_lt_of_lt hf)
    simp [parseValue, litNull, litFalse]
  | .bool true, a, h, fuel, depth, rest, hf, _ => by
    obtain rfl := Option.some.inj h
    obtain ⟨fuel, rfl⟩ := Nat.exists_eq_add_one.mpr (Nat.zero_lt_of_lt hf)
    simp [parseValue, litNull, litFalse, litTrue]
  | .number l, a, h, _, _, _, _, _ => by cases h
  | .string s, a, h, fuel, depth, rest, hf, _ => by
    obtain rfl := Option.some.inj h
    obtain ⟨fuel, rfl⟩ := Nat.exists_eq_add_one.mpr (Nat.zero_lt_of_lt hf)
    have hs := parseString_printString s rest
    simp only [printString, List.cons_append, List.append_assoc, List.nil_append] at hs ⊢
    simp [parseValue, litNull, litFalse, litTrue, hs]
  | .array child, a, h, fuel, depth, rest, hf, hd => by
    obtain ⟨body, hbody, rfl⟩ := Option.map_eq_some_iff.mp h
    obtain ⟨fuel, rfl⟩ := Nat.exists_eq_add_one.mpr (Nat.zero_lt_of_lt hf)
    simp only [nesting] at hd
    have hlim : ¬ nestingLimit ≤ depth := by omega
    simp only [List.length_cons, List.length_append, List.length_nil] at hf
    cases child with
    | nil =>
      obtain rfl := Option.some.inj hbody
      have hws : bufferSkipWhitespace (93 :: rest) = 93 :: rest :=
        bufferSkipWhitespace_cons (by decide) rest
      simp [parseValue, litNull, litFalse, litTrue, isDigit, hlim, hws]
    | cons v vs =>
      have ih := parseElements_printElements (v :: vs) (by simp) hbody fuel (depth + 1) rest
        (by omega) (by omega)
      obtain ⟨x, y, hx, -, rfl⟩ := printElements_cons hbody
      obtain ⟨b, x', rfl, hb, hb93, -⟩ := printValue_head hx
      simp only [List.cons_append, List.append_assoc] at ih ⊢
      have hws := bufferSkipWhitespace_cons hb
        (x' ++ (separator vs ++ (y ++ 93 :: rest)))
      simp [parseValue, litNull, litFalse, litTrue, isDigit, hlim, hws, hb93, ih]
  | .object child, a, h, fuel, depth, rest, hf, hd => by
    obtain ⟨body, hbody, rfl⟩ := Option.map_eq_some_iff.mp h
    obtain ⟨fuel, rfl⟩ := Nat.exists_eq_add_one.mpr (Nat.zero_lt_of_lt hf)
    simp only [nesting] at hd
    have hlim : ¬ nestingLimit ≤ depth := by omega
    simp only [List.length_cons, List.length_append, List.length_nil] at hf
    cases child with
    | nil =>
      obtain rfl := Option.some.inj hbody
      have hws : bufferSkipWhitespace (125 :: rest) = 125 :: rest :=
        bufferSkipWhitespace_cons (by decide) rest
      simp [parseValue, litNull, litFalse, litTrue, isDigit, hlim, hws]
    | cons m ms =>
      obtain ⟨key, v⟩ := m
      have ih := parseMembers_printMembers ((key, v) :: ms) (by simp) hbody fuel (depth + 1) rest
        (by omega) (by omega)
      obtain ⟨x, y, -, -, rfl⟩ := printMembers_cons hbody
      simp only [printString, List.cons_append, List.append_assoc] at ih ⊢
      have hws := bufferSkipWhitespace_cons (b := 34) (by decide)
        (key.bytes.flatMap escapeByte ++
          ([34] ++ (58 :: (x ++ (separator ms ++ (y ++ 125 :: rest))))))
      simp only [List.nil_append, List.cons_append] at hws ih ⊢
      simp [parseValue, litNull, litFalse, litTrue, isDigit, hlim, hws, ih]

theorem parseElements_printElements : ∀ (l : List Json), l ≠ [] →
    ∀ {a : List UInt8}, printElements l = some a →
    ∀ (fuel depth : Nat) (rest : List UInt8), 2 * a.length + 1 < fuel →
      depth + nestingElements l ≤ nestingLimit →
      parseElements fuel depth (a ++ 93 :: rest) = some (l, rest)
  | [], hne, _, _, _, _, _, _, _ => absurd rfl hne
  | v :: vs, _, a, h, fuel, depth, rest, hf, hd => by
    obtain ⟨x, y, hx, hy, rfl⟩ := printElements_cons h
    obtain ⟨fuel, rfl⟩ := Nat.exists_eq_add_one.mpr (Nat.zero_lt_of_lt hf)
    simp only [List.length_append] at hf
    simp only [nestingElements] at hd
    have hws := bufferSkipWhitespace_printValue hx (separator vs ++ (y ++ 93 :: rest))
    have hv := parseValue_printValue v hx fuel depth (separator vs ++ (y ++ 93 :: rest))
      (by omega) (by omega)
    simp only [List.append_assoc, parseElements, hws, hv]
    cases vs with
    | nil =>
      obtain rfl := Option.some.inj hy
      simp [separator, bufferSkipWhitespace_cons (b := 93) (by decide) rest]
    | cons w ws =>
      have ih := parseElements_printElements (w :: ws) (by simp) hy fuel depth rest
        (by simp only [separator, List.isEmpty_cons, Bool.false_eq_true, if_false,
              List.length_cons, List.length_nil] at hf; omega)
        (by omega)
      have hcomma := bufferSkipWhitespace_cons (b := 44) (by decide) (y ++ 93 :: rest)
      simp [separator, hcomma, ih]

theorem parseMembers_printMembers : ∀ (l : List (CStr × Json)), l ≠ [] →
    ∀ {a : List UInt8}, printMembers l = some a →
    ∀ (fuel depth : Nat) (rest : List UInt8), 2 * a.length + 1 < fuel →
      depth + nestingMembers l ≤ nestingLimit →
      parseMembers fuel depth (a ++ 125 :: rest) = some (l, rest)
  | [], hne, _, _, _, _, _, _, _ => absurd rfl hne
  | (key, v) :: ms, _, a, h, fuel, depth, rest, hf, hd => by
    obtain ⟨x, y, hx, hy, rfl⟩ := printMembers_cons h
    obtain ⟨fuel, rfl⟩ := Nat.exists_eq_add_one.mpr (Nat.zero_lt_of_lt hf)
    simp only [List.length_append, List.length_cons] at hf
    simp only [nestingMembers] at hd
    have hkey := parseString_printString key (58 :: (x ++ (separator ms ++ (y ++ 125 :: rest))))
    have hkeyws : bufferSkipWhitespace
        (printString key ++ (58 :: (x ++ (separator ms ++ (y ++ 125 :: rest))))) =
        printString key ++ (58 :: (x ++ (separator ms ++ (y ++ 125 :: rest)))) :=
      bufferSkipWhitespace_cons (by decide) _
    have hcolon := bufferSkipWhitespace_cons (b := 58) (by decide)
      (x ++ (separator ms ++ (y ++ 125 :: rest)))
    have hws := bufferSkipWhitespace_printValue hx (separator ms ++ (y ++ 125 :: rest))
    have hv := parseValue_printValue v hx fuel depth (separator ms ++ (y ++ 125 :: rest))
      (by omega) (by omega)
    simp only [List.append_assoc, List.cons_append, parseMembers, hkeyws, hkey, hcolon, Ne,
      not_true_eq_false, if_false, hws, hv]
    cases ms with
    | nil =>
      obtain rfl := Option.some.inj hy
      simp [separator, bufferSkipWhitespace_cons (b := 125) (by decide) rest]
    | cons m ms =>
      have ih := parseMembers_printMembers (m :: ms) (by simp) hy fuel depth rest
        (by simp only [separator, List.isEmpty_cons, Bool.false_eq_true, if_false,
              List.length_cons, List.length_nil] at hf; omega)
        (by omega)
      have hcomma := bufferSkipWhitespace_cons (b := 44) (by decide) (y ++ 125 :: rest)
      simp [separator, hcomma, ih]

end

/-- `cJSON_Parse` undoes `cJSON_PrintUnformatted`. -/
theorem cJSONParse_print {t : Json} {a : List UInt8} (h : cJSONPrintUnformatted t = some a)
    (hn : nesting t ≤ nestingLimit) (s : CStr) (hs : s.bytes = a) : cJSONParse s = some t := by
  obtain ⟨b, a', rfl, hb, -, -⟩ := printValue_head h
  have hbom : skipUtf8Bom (b :: a' ++ [0]) = b :: a' ++ [0] := by
    unfold skipUtf8Bom
    rw [if_neg]
    intro hboth
    obtain ⟨-, h3⟩ := hboth
    have hb' : b = 0xEF := by
      have hhead := congrArg List.head? h3
      simpa using hhead
    have hfirst : ∀ t : Json, ∀ c a'', printValue t = some (c :: a'') → c ≠ 0xEF := by
      intro t c a'' ht
      cases t with
      | null => obtain ⟨rfl, -⟩ := List.cons.inj (Option.some.inj ht); decide
      | bool v => cases v <;> (obtain ⟨rfl, -⟩ := List.cons.inj (Option.some.inj ht); decide)
      | number l => cases ht
      | string s => obtain ⟨rfl, -⟩ := List.cons.inj (Option.some.inj ht); decide
      | array child =>
        obtain ⟨body, -, he⟩ := Option.map_eq_some_iff.mp ht
        obtain ⟨rfl, -⟩ := List.cons.inj he
        decide
      | object child =>
        obtain ⟨body, -, he⟩ := Option.map_eq_some_iff.mp ht
        obtain ⟨rfl, -⟩ := List.cons.inj he
        decide
    exact hfirst t b a' h hb'
  have hws := bufferSkipWhitespace_printValue h [0]
  have hv := parseValue_printValue t h (2 * (b :: a' ++ [0]).length + 1) 0 [0]
    (by simp only [List.length_append, List.length_cons, List.length_nil]; omega) (by omega)
  simp only [cJSONParse, parsePrefix, hs, hbom, hws, hv, Option.map_some]

end DspEmbedded.CJson
