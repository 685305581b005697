import DspEmbedded.CJson.Tree

/-!
# The cJSON parser

`parse_buffer` is a position in a text of known length; here it is the list of
bytes from that position to the end, the terminating NUL included, since
`cJSON_Parse` passes `strlen(value) + 1` as the length. Allocation succeeds.
A parse function returns the value and the bytes after it, or nothing.

The two mutually recursive loops take fuel; `parseValue_fuel` shows that more
than twice the length of the text changes nothing.
-/
namespace DspEmbedded.CJson

open Lib.CString

/-- `CJSON_NESTING_LIMIT`. -/
def nestingLimit : Nat := 1000

/-! ## White space and byte order mark -/

/-- `buffer_skip_whitespace`: everything up to 32 is skipped, the NUL at the end
too, but the position never leaves the buffer: it steps back onto the last byte. -/
def bufferSkipWhitespace : List UInt8 → List UInt8
  | [] => []
  | [b] => [b]
  | b :: b' :: rest => if b ≤ 32 then bufferSkipWhitespace (b' :: rest) else b :: b' :: rest

/-- `skip_utf8_bom`, at the start of the text. -/
def skipUtf8Bom (inp : List UInt8) : List UInt8 :=
  if 4 < inp.length ∧ inp.take 3 = [0xEF, 0xBB, 0xBF] then inp.drop 3 else inp

/-! ## Numbers -/

def isDigit (b : UInt8) : Bool := 48 ≤ b && b ≤ 57

/-- The bytes that `parse_number` copies before it calls `strtod`. -/
def isNumberByte (b : UInt8) : Bool :=
  isDigit b || b == 43 || b == 45 || b == 101 || b == 69 || b == 46

/-- The length of the exponent that `strtod` takes at the start of `s`, if it has
at least one digit. -/
def exponentLength (s : List UInt8) : Nat :=
  match s with
  | [] => 0
  | e :: rest =>
    if e = 101 ∨ e = 69 then
      let sign := match rest with
        | c :: _ => if c = 43 ∨ c = 45 then 1 else 0
        | [] => 0
      let digits := ((rest.drop sign).takeWhile isDigit).length
      if digits = 0 then 0 else 1 + sign + digits
    else 0

/-- The length of the decimal prefix that `strtod` converts: a sign, digits with
at most one point among them, an exponent. 0 when there is no digit. -/
def strtodLength (s : List UInt8) : Nat :=
  let sign := match s with
    | c :: _ => if c = 43 ∨ c = 45 then 1 else 0
    | [] => 0
  let whole := ((s.drop sign).takeWhile isDigit).length
  let afterWhole := s.drop (sign + whole)
  let point := match afterWhole with
    | c :: _ => if c = 46 then 1 else 0
    | [] => 0
  let fraction := if point = 0 then 0 else ((afterWhole.drop 1).takeWhile isDigit).length
  if whole + fraction = 0 then 0
  else
    let mantissa := sign + whole + point + fraction
    mantissa + exponentLength (s.drop mantissa)

/-- `parse_number`. -/
def parseNumber (inp : List UInt8) : Option (Json × List UInt8) :=
  let n := strtodLength (inp.takeWhile isNumberByte)
  if n = 0 then none else some (.number (inp.take n), inp.drop n)

/-! ## Strings -/

def hexDigit? (b : UInt8) : Option Nat :=
  if 48 ≤ b ∧ b ≤ 57 then some (b.toNat - 48)
  else if 65 ≤ b ∧ b ≤ 70 then some (10 + b.toNat - 65)
  else if 97 ≤ b ∧ b ≤ 102 then some (10 + b.toNat - 97)
  else none

/-- `parse_hex4`: 0 when one of the four is no hexadecimal digit. -/
def parseHex4 (a b c d : UInt8) : Nat :=
  match hexDigit? a, hexDigit? b, hexDigit? c, hexDigit? d with
  | some w, some x, some y, some z => ((w * 16 + x) * 16 + y) * 16 + z
  | _, _, _, _ => 0

/-- The encoding half of `utf16_literal_to_utf8`. -/
def utf8Encode (codepoint : Nat) : List UInt8 :=
  if codepoint < 0x80 then [UInt8.ofNat codepoint]
  else if codepoint < 0x800 then
    [UInt8.ofNat (0xC0 + codepoint / 64), UInt8.ofNat (0x80 + codepoint % 64)]
  else if codepoint < 0x10000 then
    [UInt8.ofNat (0xE0 + codepoint / 4096), UInt8.ofNat (0x80 + codepoint / 64 % 64),
      UInt8.ofNat (0x80 + codepoint % 64)]
  else
    [UInt8.ofNat (0xF0 + codepoint / 262144), UInt8.ofNat (0x80 + codepoint / 4096 % 64),
      UInt8.ofNat (0x80 + codepoint / 64 % 64), UInt8.ofNat (0x80 + codepoint % 64)]

/-- The first loop of `parse_string`: the bytes up to the closing quote, each
backslash taken together with the byte after it, and the bytes behind the quote. -/
def scanString : List UInt8 → Option (List UInt8 × List UInt8)
  | [] => none
  | b :: rest =>
    if b = 34 then some ([], rest)
    else if b = 92 then
      match rest with
      | [] => none
      | c :: rest' => (scanString rest').map fun r => (92 :: c :: r.1, r.2)
    else (scanString rest).map fun r => (b :: r.1, r.2)

/-- The second loop of `parse_string`, over the bytes between the quotes. A `\u`
whose digits are broken counts as a NUL, and may swallow half of an escape; a
backslash left over at the end then escapes the closing quote. -/
def unescape : List UInt8 → Option (List UInt8)
  | [] => some []
  | b :: rest =>
    if b ≠ 92 then (unescape rest).map (b :: ·)
    else
      match rest with
      | [] => some [34]
      | e :: rest' =>
        if e = 98 then (unescape rest').map (8 :: ·)
        else if e = 102 then (unescape rest').map (12 :: ·)
        else if e = 110 then (unescape rest').map (10 :: ·)
        else if e = 114 then (unescape rest').map (13 :: ·)
        else if e = 116 then (unescape rest').map (9 :: ·)
        else if e = 34 ∨ e = 92 ∨ e = 47 then (unescape rest').map (e :: ·)
        else if e = 117 then
          match rest' with
          | h1 :: h2 :: h3 :: h4 :: tail =>
            let first := parseHex4 h1 h2 h3 h4
            if 0xDC00 ≤ first ∧ first ≤ 0xDFFF then none
            else if 0xD800 ≤ first ∧ first ≤ 0xDBFF then
              match tail with
              | s :: u :: g1 :: g2 :: g3 :: g4 :: tail' =>
                let second := parseHex4 g1 g2 g3 g4
                if s ≠ 92 ∨ u ≠ 117 then none
                else if second < 0xDC00 ∨ 0xDFFF < second then none
                else
                  let codepoint := 0x10000 + (first % 1024 * 1024 + second % 1024)
                  (unescape tail').map (utf8Encode codepoint ++ ·)
              | _ => none
            else (unescape tail).map (utf8Encode first ++ ·)
          | _ => none
        else none

/-- `parse_string`, at an opening quote. -/
def parseString (inp : List UInt8) : Option (CStr × List UInt8) :=
  match inp with
  | [] => none
  | b :: rest =>
    if b ≠ 34 then none
    else
      match scanString rest with
      | none => none
      | some (seg, after) => (unescape seg).map fun out => (CStr.ofBytes out, after)

/-! ## Values -/

/-- The three literals that `parse_value` compares first. -/
def litNull : List UInt8 := [110, 117, 108, 108]
def litFalse : List UInt8 := [102, 97, 108, 115, 101]
def litTrue : List UInt8 := [116, 114, 117, 101]

mutual

/-- `parse_value`. -/
def parseValue : Nat → Nat → List UInt8 → Option (Json × List UInt8)
  | 0, _, _ => none
  | fuel + 1, depth, inp =>
    if litNull.isPrefixOf inp then some (.null, inp.drop 4)
    else if litFalse.isPrefixOf inp then some (.bool false, inp.drop 5)
    else if litTrue.isPrefixOf inp then some (.bool true, inp.drop 4)
    else
      match inp with
      | [] => none
      | b :: rest =>
        if b = 34 then (parseString inp).map fun r => (.string r.1, r.2)
        else if b = 45 ∨ isDigit b then parseNumber inp
        else if b = 91 then
          -- parse_array
          if nestingLimit ≤ depth then none
          else
            match bufferSkipWhitespace rest with
            | [] => none
            | c :: tail =>
              if c = 93 then some (.array [], tail)
              else (parseElements fuel (depth + 1) (c :: tail)).map fun r => (.array r.1, r.2)
        else if b = 123 then
          -- parse_object
          if nestingLimit ≤ depth then none
          else
            match bufferSkipWhitespace rest with
            | [] => none
            | c :: tail =>
              if c = 125 then some (.object [], tail)
              else (parseMembers fuel (depth + 1) (c :: tail)).map fun r => (.object r.1, r.2)
        else none

/-- The loop of `parse_array`, from behind the `[` or a comma to behind the `]`. -/
def parseElements : Nat → Nat → List UInt8 → Option (List Json × List UInt8)
  | 0, _, _ => none
  | fuel + 1, depth, inp =>
    match parseValue fuel depth (bufferSkipWhitespace inp) with
    | none => none
    | some (v, after) =>
      match bufferSkipWhitespace after with
      | [] => none
      | c :: tail =>
        if c = 44 then (parseElements fuel depth tail).map fun r => (v :: r.1, r.2)
        else if c = 93 then some ([v], tail)
        else none

/-- The loop of `parse_object`, from behind the `{` or a comma to behind the `}`. -/
def parseMembers : Nat → Nat → List UInt8 → Option (List (CStr × Json) × List UInt8)
  | 0, _, _ => none
  | fuel + 1, depth, inp =>
    match parseString (bufferSkipWhitespace inp) with
    | none => none
    | some (key, after) =>
      match bufferSkipWhitespace after with
      | [] => none
      | colon :: behind =>
        if colon ≠ 58 then none
        else
          match parseValue fuel depth (bufferSkipWhitespace behind) with
          | none => none
          | some (v, after') =>
            match bufferSkipWhitespace after' with
            | [] => none
            | c :: tail =>
              if c = 44 then (parseMembers fuel depth tail).map fun r => ((key, v) :: r.1, r.2)
              else if c = 125 then some ([(key, v)], tail)
              else none

end

/-- `cJSON_ParseWithLengthOpts` without the demand for a NUL behind the value:
the value and the bytes that follow it. -/
def parsePrefix (value : CStr) : Option (Json × List UInt8) :=
  let inp := value.bytes ++ [0]
  parseValue (2 * inp.length + 1) 0 (bufferSkipWhitespace (skipUtf8Bom inp))

/-- `cJSON_Parse`. What follows the first value is not looked at. -/
def cJSONParse (value : CStr) : Option Json := (parsePrefix value).map (·.1)

/-! ## The fuel is never used up -/

theorem bufferSkipWhitespace_length_le (inp : List UInt8) :
    (bufferSkipWhitespace inp).length ≤ inp.length := by
  fun_induction bufferSkipWhitespace inp with
  | case1 => exact le_rfl
  | case2 => exact le_rfl
  | case3 b b' rest _ ih =>
    simp only [List.length_cons] at ih ⊢
    omega
  | case4 => exact le_rfl

/-- Rebuilding the value of a parse leaves the rest of the text alone. -/
theorem map_fst_eq_some {α β : Type} {o : Option (α × List UInt8)} {f : α → β} {v : β}
    {after : List UInt8} (h : (o.map fun r => (f r.1, r.2)) = some (v, after)) :
    ∃ x, o = some (x, after) := by
  obtain ⟨⟨x, mid⟩, hr, he⟩ := Option.map_eq_some_iff.mp h
  obtain ⟨-, rfl⟩ := Prod.mk.inj he
  exact ⟨x, hr⟩

/-- The string loop stops behind the closing quote. -/
theorem scanString_length_lt {inp seg after : List UInt8}
    (h : scanString inp = some (seg, after)) : after.length < inp.length := by
  fun_induction scanString inp generalizing seg after with
  | case1 => cases h
  | case2 rest =>
    obtain ⟨-, rfl⟩ := Prod.mk.inj (Option.some.inj h)
    simp
  | case3 => cases h
  | case4 c rest' _ ih =>
    obtain ⟨seg', hr⟩ := map_fst_eq_some (f := fun x => 92 :: c :: x) h
    have hlt := ih hr
    simp only [List.length_cons]
    omega
  | case5 b rest _ _ ih =>
    obtain ⟨seg', hr⟩ := map_fst_eq_some (f := fun x => b :: x) h
    have hlt := ih hr
    simp only [List.length_cons]
    omega

theorem parseString_length_lt {inp after : List UInt8} {s : CStr}
    (h : parseString inp = some (s, after)) : after.length < inp.length := by
  unfold parseString at h
  split at h
  · cases h
  · next b rest =>
    split_ifs at h
    split at h
    · cases h
    · next seg after' hscan =>
      obtain ⟨out, -, he⟩ := Option.map_eq_some_iff.mp h
      obtain ⟨-, rfl⟩ := Prod.mk.inj he
      have hlt := scanString_length_lt hscan
      simp only [List.length_cons]
      omega

theorem parseNumber_length_lt {inp after : List UInt8} {v : Json}
    (h : parseNumber inp = some (v, after)) : after.length < inp.length := by
  unfold parseNumber at h
  simp only at h
  split_ifs at h with hn
  obtain ⟨-, rfl⟩ := Prod.mk.inj (Option.some.inj h)
  cases inp with
  | nil => exact absurd rfl hn
  | cons b rest =>
    simp only [List.length_drop, List.length_cons]
    omega

theorem drop_length_lt (lit : List UInt8) {inp : List UInt8} (hne : 0 < lit.length)
    (h : lit.isPrefixOf inp = true) : (inp.drop lit.length).length < inp.length := by
  have hle := (List.isPrefixOf_iff_prefix.mp h).length_le
  rw [List.length_drop]
  omega

theorem parseValue_length_lt {fuel depth : Nat}
    (ihe : ∀ inp l after, parseElements fuel (depth + 1) inp = some (l, after) →
      after.length < inp.length)
    (ihm : ∀ inp l after, parseMembers fuel (depth + 1) inp = some (l, after) →
      after.length < inp.length)
    {inp after : List UInt8} {v : Json}
    (h : parseValue (fuel + 1) depth inp = some (v, after)) : after.length < inp.length := by
  rw [parseValue.eq_def] at h
  cases inp with
  | nil => cases h
  | cons b rest =>
    have hws := bufferSkipWhitespace_length_le rest
    simp only at h
    by_cases h1 : litNull.isPrefixOf (b :: rest) = true
    · rw [if_pos h1] at h
      obtain ⟨-, rfl⟩ := Prod.mk.inj (Option.some.inj h)
      exact drop_length_lt litNull (by decide) h1
    rw [if_neg h1] at h
    by_cases h2 : litFalse.isPrefixOf (b :: rest) = true
    · rw [if_pos h2] at h
      obtain ⟨-, rfl⟩ := Prod.mk.inj (Option.some.inj h)
      exact drop_length_lt litFalse (by decide) h2
    rw [if_neg h2] at h
    by_cases h3 : litTrue.isPrefixOf (b :: rest) = true
    · rw [if_pos h3] at h
      obtain ⟨-, rfl⟩ := Prod.mk.inj (Option.some.inj h)
      exact drop_length_lt litTrue (by decide) h3
    rw [if_neg h3] at h
    split_ifs at h
    · obtain ⟨s, hs⟩ := map_fst_eq_some h
      exact parseString_length_lt hs
    · exact parseNumber_length_lt h
    · split at h
      · cases h
      · next c tail hc =>
        rw [hc] at hws
        simp only [List.length_cons] at hws ⊢
        split_ifs at h
        · obtain ⟨-, rfl⟩ := Prod.mk.inj (Option.some.inj h)
          omega
        · obtain ⟨l', hl⟩ := map_fst_eq_some h
          have hlt := ihe _ _ _ hl
          simp only [List.length_cons] at hlt
          omega
    · split at h
      · cases h
      · next c tail hc =>
        rw [hc] at hws
        simp only [List.length_cons] at hws ⊢
        split_ifs at h
        · obtain ⟨-, rfl⟩ := Prod.mk.inj (Option.some.inj h)
          omega
        · obtain ⟨l', hl⟩ := map_fst_eq_some h
          have hlt := ihm _ _ _ hl
          simp only [List.length_cons] at hlt
          omega

theorem parseElements_length_lt {fuel depth : Nat}
    (ihv : ∀ inp v after, parseValue fuel depth inp = some (v, after) →
      after.length < inp.length)
    (ihe : ∀ inp l after, parseElements fuel depth inp = some (l, after) →
      after.length < inp.length)
    {inp after : List UInt8} {l : List Json}
    (h : parseElements (fuel + 1) depth inp = some (l, after)) : after.length < inp.length := by
  rw [parseElements] at h
  have hws := bufferSkipWhitespace_length_le inp
  split at h
  · cases h
  · next v mid hv =>
    have hlt := ihv _ _ _ hv
    have hmid := bufferSkipWhitespace_length_le mid
    split at h
    · cases h
    · next c tail hc =>
      rw [hc] at hmid
      simp only [List.length_cons] at hmid
      split_ifs at h
      · obtain ⟨l', hl⟩ := map_fst_eq_some h
        have htail := ihe _ _ _ hl
        omega
      · obtain ⟨-, rfl⟩ := Prod.mk.inj (Option.some.inj h)
        omega

theorem parseMembers_length_lt {fuel depth : Nat}
    (ihv : ∀ inp v after, parseValue fuel depth inp = some (v, after) →
      after.length < inp.length)
    (ihm : ∀ inp l after, parseMembers fuel depth inp = some (l, after) →
      after.length < inp.length)
    {inp after : List UInt8} {l : List (CStr × Json)}
    (h : parseMembers (fuel + 1) depth inp = some (l, after)) : after.length < inp.length := by
  rw [parseMembers] at h
  have hws := bufferSkipWhitespace_length_le inp
  split at h
  · cases h
  · next key mid hkey =>
    have hlt := parseString_length_lt hkey
    have hmid := bufferSkipWhitespace_length_le mid
    split at h
    · cases h
    · next colon behind hcolon =>
      rw [hcolon] at hmid
      simp only [List.length_cons] at hmid
      have hbehind := bufferSkipWhitespace_length_le behind
      split_ifs at h
      split at h
      · cases h
      · next v mid' hv =>
        have hltv := ihv _ _ _ hv
        have hmid' := bufferSkipWhitespace_length_le mid'
        split at h
        · cases h
        · next c tail hc =>
          rw [hc] at hmid'
          simp only [List.length_cons] at hmid'
          split_ifs at h
          · obtain ⟨l', hl⟩ := map_fst_eq_some h
            have htail := ihm _ _ _ hl
            omega
          · obtain ⟨-, rfl⟩ := Prod.mk.inj (Option.some.inj h)
            omega

/-- A value, and every element or member list, takes at least one byte. -/
theorem parse_length_lt (fuel : Nat) :
    (∀ depth inp v after, parseValue fuel depth inp = some (v, after) →
      after.length < inp.length) ∧
    (∀ depth inp l after, parseElements fuel depth inp = some (l, after) →
      after.length < inp.length) ∧
    (∀ depth inp l after, parseMembers fuel depth inp = some (l, after) →
      after.length < inp.length) := by
  induction fuel with
  | zero =>
    refine ⟨?_, ?_, ?_⟩
    · intro depth inp v after h; cases h
    · intro depth inp v after h; cases h
    · intro depth inp v after h; cases h
  | succ fuel ih =>
    obtain ⟨ihv, ihe, ihm⟩ := ih
    refine ⟨?_, ?_, ?_⟩
    · intro depth inp v after h
      exact parseValue_length_lt (ihe (depth + 1)) (ihm (depth + 1)) h
    · intro depth inp l after h
      exact parseElements_length_lt (ihv depth) (ihe depth) h
    · intro depth inp l after h
      exact parseMembers_length_lt (ihv depth) (ihm depth) h

theorem parseValue_fuel_succ {fuel depth : Nat}
    (ihe : ∀ inp, 2 * inp.length + 1 < fuel →
      parseElements (fuel + 1) (depth + 1) inp = parseElements fuel (depth + 1) inp)
    (ihm : ∀ inp, 2 * inp.length + 1 < fuel →
      parseMembers (fuel + 1) (depth + 1) inp = parseMembers fuel (depth + 1) inp)
    {inp : List UInt8} (h : 2 * inp.length < fuel + 1) :
    parseValue (fuel + 2) depth inp = parseValue (fuel + 1) depth inp := by
  conv_lhs => rw [parseValue.eq_def]
  conv_rhs => rw [parseValue.eq_def]
  cases inp with
  | nil => rfl
  | cons b rest =>
    have hws := bufferSkipWhitespace_length_le rest
    simp only [List.length_cons] at h
    cases hc : bufferSkipWhitespace rest with
    | nil => simp only [hc]
    | cons c tail =>
      rw [hc] at hws
      simp only [hc, ihe (c :: tail) (by omega), ihm (c :: tail) (by omega)]

theorem parseElements_fuel_succ {fuel depth : Nat}
    (ihv : ∀ inp, 2 * inp.length < fuel →
      parseValue (fuel + 1) depth inp = parseValue fuel depth inp)
    (ihe : ∀ inp, 2 * inp.length + 1 < fuel →
      parseElements (fuel + 1) depth inp = parseElements fuel depth inp)
    {inp : List UInt8} (h : 2 * inp.length + 1 < fuel + 1) :
    parseElements (fuel + 2) depth inp = parseElements (fuel + 1) depth inp := by
  conv_lhs => rw [parseElements]
  conv_rhs => rw [parseElements]
  have hws := bufferSkipWhitespace_length_le inp
  rw [ihv _ (by omega)]
  cases hv : parseValue fuel depth (bufferSkipWhitespace inp) with
  | none => rfl
  | some r =>
    obtain ⟨v, mid⟩ := r
    have hlt := (parse_length_lt fuel).1 _ _ _ _ hv
    have hmid := bufferSkipWhitespace_length_le mid
    cases hc : bufferSkipWhitespace mid with
    | nil => simp only [hc]
    | cons c tail =>
      rw [hc] at hmid
      simp only [List.length_cons] at hmid
      simp only [hc, ihe tail (by omega)]

theorem parseMembers_fuel_succ {fuel depth : Nat}
    (ihv : ∀ inp, 2 * inp.length < fuel →
      parseValue (fuel + 1) depth inp = parseValue fuel depth inp)
    (ihm : ∀ inp, 2 * inp.length + 1 < fuel →
      parseMembers (fuel + 1) depth inp = parseMembers fuel depth inp)
    {inp : List UInt8} (h : 2 * inp.length + 1 < fuel + 1) :
    parseMembers (fuel + 2) depth inp = parseMembers (fuel + 1) depth inp := by
  conv_lhs => rw [parseMembers]
  conv_rhs => rw [parseMembers]
  have hws := bufferSkipWhitespace_length_le inp
  cases hkey : parseString (bufferSkipWhitespace inp) with
  | none => rfl
  | some r =>
    obtain ⟨key, mid⟩ := r
    have hlt := parseString_length_lt hkey
    have hmid := bufferSkipWhitespace_length_le mid
    cases hcolon : bufferSkipWhitespace mid with
    | nil => simp only [hcolon]
    | cons colon behind =>
      rw [hcolon] at hmid
      simp only [List.length_cons] at hmid
      have hbehind := bufferSkipWhitespace_length_le behind
      have hval := ihv (bufferSkipWhitespace behind) (by omega)
      cases hv : parseValue fuel depth (bufferSkipWhitespace behind) with
      | none => simp only [hcolon, hval, hv]
      | some r =>
        obtain ⟨v, mid'⟩ := r
        have hltv := (parse_length_lt fuel).1 _ _ _ _ hv
        have hmid' := bufferSkipWhitespace_length_le mid'
        cases hc : bufferSkipWhitespace mid' with
        | nil => simp only [hcolon, hval, hv, hc]
        | cons c tail =>
          rw [hc] at hmid'
          simp only [List.length_cons] at hmid'
          simp only [hcolon, hval, hv, hc, ihm tail (by omega)]

/-- Fuel beyond twice the length changes nothing. -/
theorem parse_fuel_succ (fuel : Nat) :
    (∀ depth inp, 2 * inp.length < fuel →
      parseValue (fuel + 1) depth inp = parseValue fuel depth inp) ∧
    (∀ depth inp, 2 * inp.length + 1 < fuel →
      parseElements (fuel + 1) depth inp = parseElements fuel depth inp) ∧
    (∀ depth inp, 2 * inp.length + 1 < fuel →
      parseMembers (fuel + 1) depth inp = parseMembers fuel depth inp) := by
  induction fuel with
  | zero =>
    refine ⟨?_, ?_, ?_⟩
    · intro depth inp h; omega
    · intro depth inp h; omega
    · intro depth inp h; omega
  | succ fuel ih =>
    obtain ⟨ihv, ihe, ihm⟩ := ih
    refine ⟨?_, ?_, ?_⟩
    · intro depth inp h
      exact parseValue_fuel_succ (ihe (depth + 1)) (ihm (depth + 1)) h
    · intro depth inp h
      exact parseElements_fuel_succ (ihv depth) (ihe depth) h
    · intro depth inp h
      exact parseMembers_fuel_succ (ihv depth) (ihm depth) h

/-- More than twice the length of the text is as good as any fuel. -/
theorem parseValue_fuel {fuel : Nat} (depth : Nat) {inp : List UInt8}
    (h : 2 * inp.length < fuel) :
    parseValue fuel depth inp = parseValue (2 * inp.length + 1) depth inp := by
  induction fuel, (h : 2 * inp.length + 1 ≤ fuel) using Nat.le_induction with
  | base => rfl
  | succ fuel hle ih => rw [(parse_fuel_succ fuel).1 depth inp hle, ih]

end DspEmbedded.CJson
