import DspEmbedded.CJson.RoundTrip

/-!
# A text and the same text with more behind it

A value that the parser finds in a text is found again when more bytes follow,
unless it is a number that the text cuts off. Inside an array or an object a number
never is: the parser goes on only at a comma or a closing bracket.
-/
namespace DspEmbedded.CJson

open Lib.CString

/-! ## White space -/

theorem bufferSkipWhitespace_step (b : UInt8) {l : List UInt8} (h : l ≠ []) :
    bufferSkipWhitespace (b :: l) = if b ≤ 32 then bufferSkipWhitespace l else b :: l := by
  cases l with
  | nil => exact absurd rfl h
  | cons b' rest => rw [bufferSkipWhitespace]

/-- The parser stops at the NUL behind the text, or goes on at a byte of the text. -/
theorem bufferSkipWhitespace_cases {x tail : List UInt8} {c : UInt8}
    (h : bufferSkipWhitespace (x ++ [0]) = c :: tail) :
    (c = 0 ∧ tail = []) ∨
    ∃ y, tail = y ++ [0] ∧ ∀ t, t ≠ [] → bufferSkipWhitespace (x ++ t) = c :: (y ++ t) := by
  induction x with
  | nil =>
    obtain ⟨rfl, rfl⟩ := List.cons.inj h
    exact .inl ⟨rfl, rfl⟩
  | cons b x ih =>
    rw [List.cons_append, bufferSkipWhitespace_step b (by simp)] at h
    by_cases hb : b ≤ 32
    · rw [if_pos hb] at h
      refine (ih h).imp_right ?_
      intro hex
      obtain ⟨y, hy, hext⟩ := hex
      refine ⟨y, hy, ?_⟩
      intro t ht
      rw [List.cons_append, bufferSkipWhitespace_step b (by simp [ht]), if_pos hb]
      exact hext t ht
    · rw [if_neg hb] at h
      obtain ⟨rfl, rfl⟩ := List.cons.inj h
      refine .inr ⟨x, rfl, ?_⟩
      intro t ht
      rw [List.cons_append, bufferSkipWhitespace_step b (by simp [ht]), if_neg hb]

theorem bufferSkipWhitespace_extends {x tail : List UInt8} {c : UInt8}
    (h : bufferSkipWhitespace (x ++ [0]) = c :: tail) (hc : c ≠ 0) :
    ∃ y, tail = y ++ [0] ∧ ∀ t, t ≠ [] → bufferSkipWhitespace (x ++ t) = c :: (y ++ t) :=
  (bufferSkipWhitespace_cases h).resolve_left fun hnul => hc hnul.1

/-! ## Numbers -/

/-- The text goes on with a byte that is no part of a number. -/
def Delimited (y : List UInt8) : Prop := ∃ b rest, y = b :: rest ∧ isNumberByte b = false

theorem isNumberByte_space {b : UInt8} (h : b ≤ 32) : isNumberByte b = false := by
  have hall : ∀ n, n ≤ 32 → isNumberByte (UInt8.ofNat n) = false := by decide
  have hbyte := hall b.toNat h
  rwa [UInt8.ofNat_toNat] at hbyte

/-- What the parser goes on at behind a value delimits it. -/
theorem delimited_of_skip {y tail : List UInt8} {c : UInt8}
    (h : bufferSkipWhitespace (y ++ [0]) = c :: tail) (hc : c ≠ 0)
    (hnum : isNumberByte c = false) : Delimited y := by
  cases y with
  | nil =>
    obtain ⟨rfl, -⟩ := List.cons.inj h
    exact absurd rfl hc
  | cons b y =>
    refine ⟨b, y, rfl, ?_⟩
    rw [List.cons_append, bufferSkipWhitespace_step b (by simp)] at h
    by_cases hb : b ≤ 32
    · exact isNumberByte_space hb
    · rw [if_neg hb] at h
      obtain ⟨rfl, -⟩ := List.cons.inj h
      exact hnum

theorem exponentLength_le (s : List UInt8) : exponentLength s ≤ s.length := by
  cases s with
  | nil => exact le_rfl
  | cons e rest =>
    simp only [exponentLength]
    have hle (n : Nat) : ((rest.drop n).takeWhile isDigit).length ≤ (rest.drop n).length :=
      (List.takeWhile_prefix isDigit).length_le
    simp only [List.length_drop] at hle
    split_ifs with he hd
    · exact Nat.zero_le _
    · split at hd
      · next c rest' =>
        have hle' := hle (if c = 43 ∨ c = 45 then 1 else 0)
        simp only [List.length_cons] at hle' ⊢
        omega
      · exact absurd rfl hd
    · exact Nat.zero_le _

theorem strtodLength_le (s : List UInt8) : strtodLength s ≤ s.length := by
  unfold strtodLength
  extract_lets sign whole afterWhole point fraction mantissa
  have hsign : sign ≤ s.length := by
    cases s with
    | nil => exact le_rfl
    | cons c rest =>
      show (if c = 43 ∨ c = 45 then 1 else 0) ≤ (c :: rest).length
      split_ifs <;> simp
  have hwhole : whole ≤ s.length - sign := by
    have hle := (List.takeWhile_prefix isDigit (l := s.drop sign)).length_le
    rwa [List.length_drop] at hle
  have hafter : afterWhole.length = s.length - (sign + whole) := List.length_drop
  clear_value afterWhole
  have hpoint : point ≤ 1 ∧ point ≤ afterWhole.length := by
    unfold point
    split
    · split_ifs <;> simp
    · exact ⟨Nat.zero_le _, Nat.zero_le _⟩
  have hfraction : fraction ≤ afterWhole.length - point := by
    unfold fraction
    split_ifs with h
    · exact Nat.zero_le _
    · have hle := (List.takeWhile_prefix isDigit (l := afterWhole.drop 1)).length_le
      rw [List.length_drop] at hle
      omega
  have hexp := exponentLength_le (s.drop mantissa)
  rw [List.length_drop] at hexp
  split_ifs
  · exact Nat.zero_le _
  · have hmantissa : mantissa = sign + whole + point + fraction := rfl
    omega

/-- A digit, or a point and a digit. -/
def startsDigits : List UInt8 → Bool
  | [] => false
  | d :: rest => isDigit d || (d == 46 && rest.head?.any isDigit)

theorem startsDigits_append {s : List UInt8} (t : List UInt8) (h : startsDigits s = true) :
    startsDigits (s ++ t) = true := by
  rcases s with _ | ⟨d, _ | ⟨d', s⟩⟩
  · cases h
  · simp only [startsDigits, List.head?_nil, Option.any_none, Bool.and_false, Bool.or_false] at h
    simp [startsDigits, h]
  · exact h

theorem takeWhile_isDigit_length_eq_zero (l : List UInt8) :
    (l.takeWhile isDigit).length = 0 ↔ l.head?.any isDigit = false := by
  cases l with
  | nil => simp
  | cons d l => by_cases hd : isDigit d = true <;> simp [hd]

/-- No digits before or behind the point. -/
theorem digits_eq_zero_iff {body afterWhole : List UInt8}
    (h : afterWhole = body.drop (body.takeWhile isDigit).length) :
    let whole := (body.takeWhile isDigit).length
    let point := match afterWhole with
      | c :: _ => if c = 46 then 1 else 0
      | [] => 0
    let fraction := if point = 0 then 0 else ((afterWhole.drop 1).takeWhile isDigit).length
    whole + fraction = 0 ↔ startsDigits body = false := by
  subst h
  cases body with
  | nil => simp [startsDigits]
  | cons d rest =>
    by_cases hd : isDigit d = true
    · simp [startsDigits, hd]
    · have hwhole : (d :: rest).takeWhile isDigit = [] := List.takeWhile_cons_of_neg hd
      simp only [hwhole, List.length_nil, List.drop_zero, Nat.zero_add, startsDigits, hd,
        Bool.false_or, List.drop_one, List.tail_cons]
      by_cases hpoint : d = 46
      · simpa only [hpoint, if_true, beq_self_eq_true, Bool.true_and, Nat.one_ne_zero, if_false] using
          takeWhile_isDigit_length_eq_zero rest
      · simp [hpoint]

/-- `strtod` converts a number exactly when digits follow the sign. -/
theorem strtodLength_eq_zero_iff (b : UInt8) (s : List UInt8) :
    strtodLength (b :: s) = 0 ↔
      startsDigits (if b = 43 ∨ b = 45 then s else b :: s) = false := by
  unfold strtodLength
  extract_lets sign whole afterWhole point fraction mantissa
  have hbody : (b :: s).drop sign = if b = 43 ∨ b = 45 then s else b :: s := by
    show (b :: s).drop (if b = 43 ∨ b = 45 then 1 else 0) = _
    split_ifs <;> rfl
  have hmantissa : mantissa = sign + whole + point + fraction := rfl
  have hzero : (if whole + fraction = 0 then 0
      else mantissa + exponentLength ((b :: s).drop mantissa)) = 0 ↔ whole + fraction = 0 := by
    split_ifs <;> omega
  have hafter : afterWhole = ((b :: s).drop sign).drop whole := List.drop_drop.symm
  rw [hzero, ← hbody]
  exact digits_eq_zero_iff hafter

theorem takeWhile_nul (x : List UInt8) :
    (x ++ [0]).takeWhile isNumberByte = x.takeWhile isNumberByte := by
  have hnul : [(0 : UInt8)].takeWhile isNumberByte = [] := by decide
  rw [List.takeWhile_append, hnul, List.append_nil]
  split_ifs with hlen
  · exact (((List.takeWhile_prefix isNumberByte).eq_of_length hlen)).symm
  · rfl

/-- Where the number ends, in the text and with more behind it. -/
theorem parseNumber_extends {x after : List UInt8} {v : Json}
    (h : parseNumber (x ++ [0]) = some (v, after)) :
    ∃ l y, v = .number l ∧ after = y ++ [0] ∧
      (Delimited y → ∀ t, parseNumber (x ++ t) = some (v, y ++ t)) := by
  simp only [parseNumber, takeWhile_nul] at h
  split_ifs at h with hn
  obtain ⟨rfl, rfl⟩ := Prod.mk.inj (Option.some.inj h)
  have hle : strtodLength (x.takeWhile isNumberByte) ≤ x.length :=
    Nat.le_trans (strtodLength_le _) (List.takeWhile_prefix isNumberByte).length_le
  refine ⟨_, x.drop (strtodLength (x.takeWhile isNumberByte)), rfl,
    List.drop_append_of_le_length hle, ?_⟩
  intro hdel t
  obtain ⟨b, rest, hy, hb⟩ := hdel
  have hmem : b ∈ x := List.mem_of_mem_drop (by rw [hy]; exact List.mem_cons_self)
  have hwhile : (x ++ t).takeWhile isNumberByte = x.takeWhile isNumberByte := by
    rw [List.takeWhile_append, if_neg]
    intro hlen
    have hself := (List.takeWhile_prefix isNumberByte).eq_of_length hlen
    rw [← hself] at hmem
    rw [List.mem_takeWhile_imp hmem] at hb
    cases hb
  simp only [parseNumber, hwhile, if_neg hn, List.take_append_of_le_length hle,
    List.drop_append_of_le_length hle]

/-- Behind the first byte a number may be longer in a longer text, but stays a number. -/
theorem parseNumber_number {b : UInt8} (hb : b = 45 ∨ isDigit b = true) {x after : List UInt8}
    {v : Json} (h : parseNumber (b :: x ++ [0]) = some (v, after)) (t : List UInt8) :
    ∃ l rest, parseNumber (b :: x ++ t) = some (.number l, rest) := by
  have hnum : isNumberByte b = true := by
    rcases hb with rfl | hd
    · decide
    · simp [isNumberByte, hd]
  simp only [parseNumber, takeWhile_nul] at h
  split_ifs at h with hn
  have hpre : x.takeWhile isNumberByte <+: (x ++ t).takeWhile isNumberByte := by
    rw [List.takeWhile_append]
    split_ifs with hlen
    · rw [(List.takeWhile_prefix isNumberByte).eq_of_length hlen]
      exact List.prefix_append _ _
    · exact List.prefix_rfl
  obtain ⟨more, hmore⟩ := hpre
  have hne : strtodLength ((b :: x ++ t).takeWhile isNumberByte) ≠ 0 := by
    rw [List.takeWhile_cons_of_pos hnum, strtodLength_eq_zero_iff, Bool.not_eq_false] at hn
    rw [List.cons_append, List.takeWhile_cons_of_pos hnum, ← hmore, Ne, strtodLength_eq_zero_iff,
      Bool.not_eq_false]
    have happend := startsDigits_append more hn
    split_ifs at happend ⊢
    · exact happend
    · exact happend
  exact ⟨_, _, if_neg hne⟩

/-! ## Strings -/

theorem scanString_extends {x seg after : List UInt8}
    (h : scanString (x ++ [0]) = some (seg, after)) :
    ∃ y, after = y ++ [0] ∧ ∀ t, scanString (x ++ t) = some (seg, y ++ t) := by
  fun_induction scanString x generalizing seg after with
  | case1 => cases h
  | case2 rest =>
    have hscan (l : List UInt8) : scanString (34 :: l) = some ([], l) := by
      rw [scanString.eq_def]
      rfl
    simp only [List.cons_append, hscan] at h ⊢
    obtain ⟨rfl, rfl⟩ := Prod.mk.inj (Option.some.inj h)
    exact ⟨rest, rfl, fun _ => rfl⟩
  | case3 => cases h
  | case4 c rest _ ih =>
    simp only [List.cons_append, scanString_escape] at h ⊢
    obtain ⟨⟨seg', mid⟩, hmid, he⟩ := Option.map_eq_some_iff.mp h
    obtain ⟨rfl, rfl⟩ := Prod.mk.inj he
    obtain ⟨y, hy, hext⟩ := ih hmid
    exact ⟨y, hy, fun t => by rw [hext t, Option.map_some]⟩
  | case5 b rest hquote hslash ih =>
    simp only [List.cons_append, scanString_cons hquote hslash] at h ⊢
    obtain ⟨⟨seg', mid⟩, hmid, he⟩ := Option.map_eq_some_iff.mp h
    obtain ⟨rfl, rfl⟩ := Prod.mk.inj he
    obtain ⟨y, hy, hext⟩ := ih hmid
    exact ⟨y, hy, fun t => by rw [hext t, Option.map_some]⟩

theorem parseString_extends {x after : List UInt8} {s : CStr}
    (h : parseString (x ++ [0]) = some (s, after)) :
    ∃ y, after = y ++ [0] ∧ ∀ t, parseString (x ++ t) = some (s, y ++ t) := by
  cases x with
  | nil => cases h
  | cons b x =>
    simp only [List.cons_append, parseString] at h ⊢
    split_ifs at h ⊢ with hb
    cases hscan : scanString (x ++ [0]) with
    | none =>
      rw [hscan] at h
      cases h
    | some r =>
      obtain ⟨seg, mid⟩ := r
      obtain ⟨y, rfl, hext⟩ := scanString_extends hscan
      rw [hscan] at h
      obtain ⟨out, hout, he⟩ := Option.map_eq_some_iff.mp h
      obtain ⟨rfl, rfl⟩ := Prod.mk.inj he
      refine ⟨y, rfl, ?_⟩
      intro t
      simp only [hext t, hout]
      rfl

/-! ## Values -/

theorem lit_extends {lit x : List UInt8} (h : lit.isPrefixOf (x ++ [0]) = true)
    (hnul : (0 : UInt8) ∉ lit) : ∃ y, x = lit ++ y := by
  rcases List.prefix_concat_iff.mp (List.isPrefixOf_iff_prefix.mp h) with heq | ⟨y, hy⟩
  · exact absurd (by rw [heq]; simp) hnul
  · exact ⟨y, hy.symm⟩

theorem parseValue_lit (fuel depth : Nat) (l : List UInt8) :
    parseValue (fuel + 1) depth (litNull ++ l) = some (.null, l) ∧
    parseValue (fuel + 1) depth (litFalse ++ l) = some (.bool false, l) ∧
    parseValue (fuel + 1) depth (litTrue ++ l) = some (.bool true, l) := by
  simp [parseValue, litNull, litFalse, litTrue]

theorem parseValue_string (fuel depth : Nat) (l : List UInt8) :
    parseValue (fuel + 1) depth (34 :: l) =
      (parseString (34 :: l)).map fun r => (.string r.1, r.2) := by
  simp [parseValue, litNull, litFalse, litTrue]

theorem parseValue_number (fuel depth : Nat) {b : UInt8} (hb : b = 45 ∨ isDigit b = true)
    (l : List UInt8) : parseValue (fuel + 1) depth (b :: l) = parseNumber (b :: l) := by
  have hne : b ≠ 110 ∧ b ≠ 102 ∧ b ≠ 116 ∧ b ≠ 34 := by
    refine ⟨?_, ?_, ?_, ?_⟩ <;> (intro he; subst he; revert hb; decide)
  obtain ⟨h1, h2, h3, h4⟩ := hne
  simp [parseValue, litNull, litFalse, litTrue, h1.symm, h2.symm, h3.symm, h4, hb]

theorem parseValue_array (fuel : Nat) {depth : Nat} (hd : ¬ nestingLimit ≤ depth)
    {l tail : List UInt8} {c : UInt8} (hc : bufferSkipWhitespace l = c :: tail) :
    parseValue (fuel + 1) depth (91 :: l) =
      (if c = 93 then some ([], tail) else parseElements fuel (depth + 1) (c :: tail)).map
        fun r => (.array r.1, r.2) := by
  by_cases h : c = 93 <;> simp [parseValue, litNull, litFalse, litTrue, isDigit, hd, hc, h]

theorem parseValue_object (fuel : Nat) {depth : Nat} (hd : ¬ nestingLimit ≤ depth)
    {l tail : List UInt8} {c : UInt8} (hc : bufferSkipWhitespace l = c :: tail) :
    parseValue (fuel + 1) depth (123 :: l) =
      (if c = 125 then some ([], tail) else parseMembers fuel (depth + 1) (c :: tail)).map
        fun r => (.object r.1, r.2) := by
  by_cases h : c = 125 <;> simp [parseValue, litNull, litFalse, litTrue, isDigit, hd, hc, h]

theorem parseValue_nul (fuel depth : Nat) (tail : List UInt8) :
    parseValue fuel depth (0 :: tail) = none := by
  cases fuel with
  | zero => rfl
  | succ fuel => simp [parseValue, litNull, litFalse, litTrue, isDigit]

theorem parseElements_nul (fuel depth : Nat) : parseElements fuel depth [0] = none := by
  cases fuel with
  | zero => rfl
  | succ fuel => rw [parseElements, bufferSkipWhitespace, parseValue_nul]

theorem parseMembers_nul (fuel depth : Nat) : parseMembers fuel depth [0] = none := by
  cases fuel with
  | zero => rfl
  | succ fuel => rw [parseMembers]; rfl

theorem parseString_nul (tail : List UInt8) : parseString (0 :: tail) = none := rfl

/-- A parse that succeeds on `x` takes the same value, and stops at the same place,
with any text behind `x`. -/
def Extends {α : Type} (parse : List UInt8 → Option (α × List UInt8)) (x : List UInt8) (v : α)
    (y : List UInt8) : Prop :=
  ∀ t, t ≠ [] → parse (x ++ t) = some (v, y ++ t)

/-- White space before a value is skipped alike. -/
theorem skip_extends {α : Type} {parse : List UInt8 → Option (α × List UInt8)}
    (hnil : parse [] = none) (hnul : ∀ tail, parse (0 :: tail) = none) {x after : List UInt8}
    {v : α} (h : parse (bufferSkipWhitespace (x ++ [0])) = some (v, after)) :
    ∃ x', parse (x' ++ [0]) = some (v, after) ∧
      ∀ t, t ≠ [] → bufferSkipWhitespace (x ++ t) = x' ++ t := by
  cases hskip : bufferSkipWhitespace (x ++ [0]) with
  | nil =>
    rw [hskip, hnil] at h
    cases h
  | cons c tail =>
    rw [hskip] at h
    have hc : c ≠ 0 := by
      intro he
      rw [he, hnul] at h
      cases h
    obtain ⟨y, rfl, hext⟩ := bufferSkipWhitespace_extends hskip hc
    exact ⟨c :: y, h, hext⟩

/-- Behind a value: a comma and the rest of the loop, or the closing bracket. -/
theorem separator_extends {α : Type} {loop : List UInt8 → Option (List α × List UInt8)}
    (ih : ∀ x l after, loop (x ++ [0]) = some (l, after) →
      ∃ y, after = y ++ [0] ∧ Extends loop x l y)
    {close c : UInt8} (hclose : close ≠ 0) (hnum : isNumberByte close = false)
    {f : List α → List α} {last l : List α} {y tail after : List UInt8}
    (hc : bufferSkipWhitespace (y ++ [0]) = c :: tail)
    (h : (if c = 44 then (loop tail).map fun r => (f r.1, r.2)
      else if c = close then some (last, tail) else none) = some (l, after)) :
    Delimited y ∧ ∃ w, after = w ++ [0] ∧ ∀ t, t ≠ [] →
      ∃ tail', bufferSkipWhitespace (y ++ t) = c :: tail' ∧
        (if c = 44 then (loop tail').map fun r => (f r.1, r.2)
          else if c = close then some (last, tail') else none) = some (l, w ++ t) := by
  split_ifs at h ⊢ with hcomma hend
  · subst hcomma
    obtain ⟨z, rfl, hnext⟩ := bufferSkipWhitespace_extends hc (by decide)
    obtain ⟨⟨rest, after'⟩, hrest, he⟩ := Option.map_eq_some_iff.mp h
    obtain ⟨rfl, rfl⟩ := Prod.mk.inj he
    obtain ⟨w, rfl, hloop⟩ := ih z rest after' hrest
    refine ⟨delimited_of_skip hc (by decide) (by decide), w, rfl, ?_⟩
    intro t ht
    exact ⟨z ++ t, hnext t ht, by rw [hloop t ht, Option.map_some]⟩
  · subst hend
    obtain ⟨z, rfl, hnext⟩ := bufferSkipWhitespace_extends hc hclose
    obtain ⟨rfl, rfl⟩ := Prod.mk.inj (Option.some.inj h)
    exact ⟨delimited_of_skip hc hclose hnum, z, rfl, fun t ht => ⟨z ++ t, hnext t ht, rfl⟩⟩

theorem parseElements_extends {fuel depth : Nat}
    (ihv : ∀ x v after, parseValue fuel depth (x ++ [0]) = some (v, after) →
      ∃ y, after = y ++ [0] ∧ (Delimited y → Extends (parseValue fuel depth) x v y))
    (ihe : ∀ x l after, parseElements fuel depth (x ++ [0]) = some (l, after) →
      ∃ y, after = y ++ [0] ∧ Extends (parseElements fuel depth) x l y)
    {x after : List UInt8} {l : List Json}
    (h : parseElements (fuel + 1) depth (x ++ [0]) = some (l, after)) :
    ∃ y, after = y ++ [0] ∧ Extends (parseElements (fuel + 1) depth) x l y := by
  rw [parseElements] at h
  cases hv : parseValue fuel depth (bufferSkipWhitespace (x ++ [0])) with
  | none =>
    rw [hv] at h
    cases h
  | some r =>
    obtain ⟨v, mid⟩ := r
    obtain ⟨x', hx', hskip⟩ :=
      skip_extends (by cases fuel <;> rfl) (parseValue_nul fuel depth) hv
    obtain ⟨y, rfl, hval⟩ := ihv x' v mid hx'
    rw [hv] at h
    simp only at h
    cases hc : bufferSkipWhitespace (y ++ [0]) with
    | nil =>
      rw [hc] at h
      cases h
    | cons c tail =>
      rw [hc] at h
      obtain ⟨hdel, w, rfl, hnext⟩ := separator_extends ihe (by decide) (by decide) hc h
      refine ⟨w, rfl, ?_⟩
      intro t ht
      obtain ⟨tail', hc', hl⟩ := hnext t ht
      simp only [parseElements, hskip t ht, hval hdel t ht, hc']
      exact hl

theorem parseMembers_extends {fuel depth : Nat}
    (ihv : ∀ x v after, parseValue fuel depth (x ++ [0]) = some (v, after) →
      ∃ y, after = y ++ [0] ∧ (Delimited y → Extends (parseValue fuel depth) x v y))
    (ihm : ∀ x l after, parseMembers fuel depth (x ++ [0]) = some (l, after) →
      ∃ y, after = y ++ [0] ∧ Extends (parseMembers fuel depth) x l y)
    {x after : List UInt8} {l : List (CStr × Json)}
    (h : parseMembers (fuel + 1) depth (x ++ [0]) = some (l, after)) :
    ∃ y, after = y ++ [0] ∧ Extends (parseMembers (fuel + 1) depth) x l y := by
  rw [parseMembers] at h
  cases hkey : parseString (bufferSkipWhitespace (x ++ [0])) with
  | none =>
    rw [hkey] at h
    cases h
  | some r =>
    obtain ⟨key, mid⟩ := r
    obtain ⟨x', hx', hskip⟩ := skip_extends rfl parseString_nul hkey
    obtain ⟨k, rfl, hstr⟩ := parseString_extends hx'
    rw [hkey] at h
    simp only at h
    cases hcolon : bufferSkipWhitespace (k ++ [0]) with
    | nil =>
      rw [hcolon] at h
      cases h
    | cons colon behind =>
      rw [hcolon] at h
      simp only at h
      split_ifs at h with h58
      rw [ne_eq, not_not] at h58
      subst h58
      obtain ⟨u, rfl, hbehind⟩ := bufferSkipWhitespace_extends hcolon (by decide)
      cases hv : parseValue fuel depth (bufferSkipWhitespace (u ++ [0])) with
      | none =>
        rw [hv] at h
        cases h
      | some r =>
        obtain ⟨v, mid'⟩ := r
        obtain ⟨u', hu', hskipv⟩ :=
          skip_extends (by cases fuel <;> rfl) (parseValue_nul fuel depth) hv
        obtain ⟨y, rfl, hval⟩ := ihv u' v mid' hu'
        rw [hv] at h
        simp only at h
        cases hc : bufferSkipWhitespace (y ++ [0]) with
        | nil =>
          rw [hc] at h
          cases h
        | cons c tail =>
          rw [hc] at h
          obtain ⟨hdel, w, rfl, hnext⟩ := separator_extends ihm (by decide) (by decide) hc h
          refine ⟨w, rfl, ?_⟩
          intro t ht
          obtain ⟨tail', hc', hl⟩ := hnext t ht
          simp only [parseMembers, hskip t ht, hstr t, hbehind t ht, ne_eq, not_true_eq_false,
            if_false, hskipv t ht, hval hdel t ht, hc']
          exact hl

/-- What stands between two brackets, behind the white space after the first. -/
theorem brackets_extends {α : Type} {loop : List UInt8 → Option (List α × List UInt8)}
    (hnul : loop [0] = none)
    (ih : ∀ x l after, loop (x ++ [0]) = some (l, after) →
      ∃ y, after = y ++ [0] ∧ Extends loop x l y)
    {close c : UInt8} (hclose : close ≠ 0) {x tail after : List UInt8} {l : List α}
    (hc : bufferSkipWhitespace (x ++ [0]) = c :: tail)
    (h : (if c = close then some ([], tail) else loop (c :: tail)) = some (l, after)) :
    ∃ y, after = y ++ [0] ∧ ∀ t, t ≠ [] → ∃ tail', bufferSkipWhitespace (x ++ t) = c :: tail' ∧
      (if c = close then some ([], tail') else loop (c :: tail')) = some (l, y ++ t) := by
  rcases bufferSkipWhitespace_cases hc with ⟨rfl, rfl⟩ | ⟨z, rfl, hnext⟩
  · rw [if_neg hclose.symm, hnul] at h
    cases h
  · split_ifs at h ⊢ with hc'
    · obtain ⟨rfl, rfl⟩ := Prod.mk.inj (Option.some.inj h)
      exact ⟨z, rfl, fun t ht => ⟨z ++ t, hnext t ht, rfl⟩⟩
    · obtain ⟨y, rfl, hloop⟩ := ih (c :: z) l after h
      exact ⟨y, rfl, fun t ht => ⟨z ++ t, hnext t ht, hloop t ht⟩⟩

theorem literal_extends {fuel depth : Nat} {lit x after : List UInt8} {v w : Json}
    (hlit : ∀ l, parseValue (fuel + 1) depth (lit ++ l) = some (w, l))
    (hpre : lit.isPrefixOf (x ++ [0]) = true) (hnul : (0 : UInt8) ∉ lit)
    (h : parseValue (fuel + 1) depth (x ++ [0]) = some (v, after)) :
    ∃ y, after = y ++ [0] ∧ Extends (parseValue (fuel + 1) depth) x v y := by
  obtain ⟨y, rfl⟩ := lit_extends hpre hnul
  rw [List.append_assoc, hlit] at h
  obtain ⟨rfl, rfl⟩ := Prod.mk.inj (Option.some.inj h)
  refine ⟨y, rfl, ?_⟩
  intro t _
  rw [List.append_assoc, hlit]

theorem parseValue_extends {fuel depth : Nat}
    (ihe : ∀ x l after, parseElements fuel (depth + 1) (x ++ [0]) = some (l, after) →
      ∃ y, after = y ++ [0] ∧ Extends (parseElements fuel (depth + 1)) x l y)
    (ihm : ∀ x l after, parseMembers fuel (depth + 1) (x ++ [0]) = some (l, after) →
      ∃ y, after = y ++ [0] ∧ Extends (parseMembers fuel (depth + 1)) x l y)
    {x after : List UInt8} {v : Json}
    (h : parseValue (fuel + 1) depth (x ++ [0]) = some (v, after)) :
    ∃ y, after = y ++ [0] ∧
      (Delimited y ∨ (∀ l, v ≠ .number l) → Extends (parseValue (fuel + 1) depth) x v y) := by
  cases x with
  | nil =>
    rw [List.nil_append, parseValue_nul] at h
    cases h
  | cons b x =>
    have hvalue := h
    rw [parseValue.eq_def] at h
    simp only at h
    by_cases h1 : litNull.isPrefixOf (b :: x ++ [0]) = true
    · obtain ⟨y, hy, hext⟩ :=
        literal_extends (fun l => (parseValue_lit fuel depth l).1) h1 (by decide) hvalue
      exact ⟨y, hy, fun _ => hext⟩
    rw [if_neg h1] at h
    by_cases h2 : litFalse.isPrefixOf (b :: x ++ [0]) = true
    · obtain ⟨y, hy, hext⟩ :=
        literal_extends (fun l => (parseValue_lit fuel depth l).2.1) h2 (by decide) hvalue
      exact ⟨y, hy, fun _ => hext⟩
    rw [if_neg h2] at h
    by_cases h3 : litTrue.isPrefixOf (b :: x ++ [0]) = true
    · obtain ⟨y, hy, hext⟩ :=
        literal_extends (fun l => (parseValue_lit fuel depth l).2.2) h3 (by decide) hvalue
      exact ⟨y, hy, fun _ => hext⟩
    rw [if_neg h3] at h
    simp only [List.cons_append] at h
    split_ifs at h with hquote hnum harr hdepth hobj hdepth
    · subst hquote
      obtain ⟨⟨s, after'⟩, hs, he⟩ := Option.map_eq_some_iff.mp h
      obtain ⟨rfl, rfl⟩ := Prod.mk.inj he
      obtain ⟨y, rfl, hext⟩ := parseString_extends (x := 34 :: x) hs
      refine ⟨y, rfl, ?_⟩
      intro _ t _
      have hstr := hext t
      rw [List.cons_append] at hstr ⊢
      rw [parseValue_string, hstr, Option.map_some]
    · obtain ⟨l, y, rfl, rfl, hext⟩ := parseNumber_extends (x := b :: x) h
      refine ⟨y, rfl, ?_⟩
      intro hcase
      rcases hcase with hdel | hne
      · intro t _
        have hnumber := hext hdel t
        rw [List.cons_append] at hnumber ⊢
        rw [parseValue_number fuel depth hnum, hnumber]
      · exact absurd rfl (hne l)
    · subst harr
      cases hc : bufferSkipWhitespace (x ++ [0]) with
      | nil =>
        rw [hc] at h
        cases h
      | cons c tail =>
        rw [List.cons_append, parseValue_array fuel hdepth hc] at hvalue
        obtain ⟨⟨l, after'⟩, hl, he⟩ := Option.map_eq_some_iff.mp hvalue
        obtain ⟨rfl, rfl⟩ := Prod.mk.inj he
        obtain ⟨y, rfl, hext⟩ :=
          brackets_extends (parseElements_nul fuel (depth + 1)) ihe (by decide) hc hl
        refine ⟨y, rfl, ?_⟩
        intro _ t ht
        obtain ⟨tail', hc', hl'⟩ := hext t ht
        rw [List.cons_append, parseValue_array fuel hdepth hc', hl', Option.map_some]
    · subst hobj
      cases hc : bufferSkipWhitespace (x ++ [0]) with
      | nil =>
        rw [hc] at h
        cases h
      | cons c tail =>
        rw [List.cons_append, parseValue_object fuel hdepth hc] at hvalue
        obtain ⟨⟨l, after'⟩, hl, he⟩ := Option.map_eq_some_iff.mp hvalue
        obtain ⟨rfl, rfl⟩ := Prod.mk.inj he
        obtain ⟨y, rfl, hext⟩ :=
          brackets_extends (parseMembers_nul fuel (depth + 1)) ihm (by decide) hc hl
        refine ⟨y, rfl, ?_⟩
        intro _ t ht
        obtain ⟨tail', hc', hl'⟩ := hext t ht
        rw [List.cons_append, parseValue_object fuel hdepth hc', hl', Option.map_some]

/-- The induction is on the fuel; behind a value that is not the last thing in the
text the parser goes on at a delimiter. -/
theorem parse_extends (fuel : Nat) :
    (∀ depth x v after, parseValue fuel depth (x ++ [0]) = some (v, after) →
      ∃ y, after = y ++ [0] ∧
        (Delimited y ∨ (∀ l, v ≠ .number l) → Extends (parseValue fuel depth) x v y)) ∧
    (∀ depth x l after, parseElements fuel depth (x ++ [0]) = some (l, after) →
      ∃ y, after = y ++ [0] ∧ Extends (parseElements fuel depth) x l y) ∧
    (∀ depth x l after, parseMembers fuel depth (x ++ [0]) = some (l, after) →
      ∃ y, after = y ++ [0] ∧ Extends (parseMembers fuel depth) x l y) := by
  induction fuel with
  | zero =>
    refine ⟨?_, ?_, ?_⟩
    · intro depth x v after h; cases h
    · intro depth x l after h; cases h
    · intro depth x l after h; cases h
  | succ fuel ih =>
    obtain ⟨ihv, ihe, ihm⟩ := ih
    have ihd (depth : Nat) : ∀ x v after, parseValue fuel depth (x ++ [0]) = some (v, after) →
        ∃ y, after = y ++ [0] ∧ (Delimited y → Extends (parseValue fuel depth) x v y) := by
      intro x v after h
      obtain ⟨y, hy, hext⟩ := ihv depth x v after h
      exact ⟨y, hy, fun hdel => hext (.inl hdel)⟩
    refine ⟨?_, ?_, ?_⟩
    · intro depth x v after h
      exact parseValue_extends (ihe (depth + 1)) (ihm (depth + 1)) h
    · intro depth x l after h
      exact parseElements_extends (ihd depth) (ihe depth) h
    · intro depth x l after h
      exact parseMembers_extends (ihd depth) (ihm depth) h

/-! ## Texts -/

/-- A byte order mark in front is skipped alike. -/
theorem skipUtf8Bom_extends {α : Type} {parse : List UInt8 → Option α}
    (hnul : parse [0] = none) (hmark : ∀ tail, parse (0xEF :: tail) = none)
    {x : List UInt8} {r : α} (h : parse (skipUtf8Bom (x ++ [0])) = some r) :
    ∃ x', parse (x' ++ [0]) = some r ∧ ∀ t, t ≠ [] → skipUtf8Bom (x ++ t) = x' ++ t := by
  by_cases hbom : 4 < (x ++ [0]).length ∧ (x ++ [0]).take 3 = [0xEF, 0xBB, 0xBF]
  · have hlen : 4 < x.length + 1 := by simpa using hbom.1
    have hdrop (t : List UInt8) : (x ++ t).drop 3 = x.drop 3 ++ t :=
      List.drop_append_of_le_length (by omega)
    have htake (t : List UInt8) : (x ++ t).take 3 = x.take 3 :=
      List.take_append_of_le_length (by omega)
    rw [skipUtf8Bom, if_pos hbom, hdrop] at h
    refine ⟨x.drop 3, h, ?_⟩
    intro t ht
    have hpos := List.length_pos_iff.mpr ht
    rw [htake] at hbom
    rw [skipUtf8Bom, if_pos ⟨by rw [List.length_append]; omega, (htake t).trans hbom.2⟩, hdrop]
  · rw [skipUtf8Bom, if_neg hbom] at h
    cases x with
    | nil =>
      rw [List.nil_append, hnul] at h
      cases h
    | cons c x =>
      have hc : c ≠ 0xEF := by
        intro he
        rw [List.cons_append, he, hmark] at h
        cases h
      refine ⟨c :: x, h, ?_⟩
      intro t _
      rw [skipUtf8Bom, if_neg]
      intro hskipped
      have htake := hskipped.2
      rw [List.cons_append, List.take_succ_cons] at htake
      exact hc (List.cons.inj htake).1

theorem skipUtf8Bom_length_le (inp : List UInt8) : (skipUtf8Bom inp).length ≤ inp.length := by
  unfold skipUtf8Bom
  split_ifs
  · rw [List.length_drop]
    omega
  · exact le_rfl

/-- Fuel for a longer text is enough for this one. -/
theorem parsePrefix_fuel (value : CStr) {fuel : Nat} (h : 2 * (value.bytes ++ [0]).length < fuel) :
    parsePrefix value =
      parseValue fuel 0 (bufferSkipWhitespace (skipUtf8Bom (value.bytes ++ [0]))) := by
  have hws := bufferSkipWhitespace_length_le (skipUtf8Bom (value.bytes ++ [0]))
  have hbom := skipUtf8Bom_length_le (value.bytes ++ [0])
  have hle : 2 * (bufferSkipWhitespace (skipUtf8Bom (value.bytes ++ [0]))).length < fuel := by
    omega
  rw [parsePrefix, parseValue_fuel 0 (by omega), parseValue_fuel 0 hle]

/-- Only `parse_number` makes numbers. -/
theorem parseValue_number_inv {fuel depth : Nat} {x after l : List UInt8}
    (h : parseValue (fuel + 1) depth (x ++ [0]) = some (.number l, after)) :
    ∃ b x', x = b :: x' ∧ (b = 45 ∨ isDigit b = true) ∧
      parseNumber (x ++ [0]) = some (.number l, after) := by
  cases x with
  | nil =>
    rw [List.nil_append, parseValue_nul] at h
    cases h
  | cons b x =>
    rw [parseValue.eq_def] at h
    simp only at h
    by_cases h1 : litNull.isPrefixOf (b :: x ++ [0]) = true
    · rw [if_pos h1] at h
      cases h
    rw [if_neg h1] at h
    by_cases h2 : litFalse.isPrefixOf (b :: x ++ [0]) = true
    · rw [if_pos h2] at h
      cases h
    rw [if_neg h2] at h
    by_cases h3 : litTrue.isPrefixOf (b :: x ++ [0]) = true
    · rw [if_pos h3] at h
      cases h
    rw [if_neg h3] at h
    simp only [List.cons_append] at h
    by_cases hquote : b = 34
    · rw [if_pos hquote] at h
      obtain ⟨r, -, he⟩ := Option.map_eq_some_iff.mp h
      cases he
    rw [if_neg hquote] at h
    by_cases hnum : b = 45 ∨ isDigit b = true
    · rw [if_pos hnum] at h
      exact ⟨b, x, rfl, hnum, h⟩
    rw [if_neg hnum] at h
    split_ifs at h with harr hdepth hobj hdepth
    · split at h
      · cases h
      · split_ifs at h
        · cases h
        · obtain ⟨r, -, he⟩ := Option.map_eq_some_iff.mp h
          cases he
    · split at h
      · cases h
      · split_ifs at h
        · cases h
        · obtain ⟨r, -, he⟩ := Option.map_eq_some_iff.mp h
          cases he

/-- A text that parses goes on parsing when it is continued: to the same value, or to
another number. -/
theorem cJSONParse_prefix {a b : CStr} {v : Json} (hpre : a.bytes <+: b.bytes)
    (h : cJSONParse a = some v) :
    cJSONParse b = some v ∨ ∃ l l', v = .number l ∧ cJSONParse b = some (.number l') := by
  obtain ⟨s, hs⟩ := hpre
  obtain ⟨⟨v', after⟩, hparse, rfl⟩ := Option.map_eq_some_iff.mp h
  have hb : parsePrefix b = parseValue (2 * (b.bytes ++ [0]).length + 1) 0
      (bufferSkipWhitespace (skipUtf8Bom (a.bytes ++ (s ++ [0])))) := by
    rw [← List.append_assoc, hs]
    rfl
  have hfuel : 2 * (a.bytes ++ [0]).length < 2 * (b.bytes ++ [0]).length + 1 := by
    rw [← hs]
    simp only [List.length_append]
    omega
  rw [parsePrefix_fuel a hfuel] at hparse
  clear hfuel
  generalize 2 * (b.bytes ++ [0]).length = fuel at hparse hb
  have hmark (tail : List UInt8) :
      parseValue (fuel + 1) 0 (bufferSkipWhitespace (0xEF :: tail)) = none := by
    rw [bufferSkipWhitespace_cons (by decide)]
    simp [parseValue, litNull, litFalse, litTrue, isDigit]
  let parse (l : List UInt8) := parseValue (fuel + 1) 0 (bufferSkipWhitespace l)
  obtain ⟨x, hx, hbom⟩ :=
    @skipUtf8Bom_extends _ parse (parseValue_nul _ 0 []) hmark _ _ hparse
  obtain ⟨x', hx', hskip⟩ := skip_extends rfl (parseValue_nul (fuel + 1) 0) hx
  have ht : s ++ [0] ≠ [] := by simp
  rw [hbom _ ht, hskip _ ht] at hb
  obtain ⟨y, -, hext⟩ := (parse_extends (fuel + 1)).1 0 x' v' after hx'
  by_cases hnum : ∀ l, v' ≠ .number l
  · left
    rw [cJSONParse, hb, hext (.inr hnum) _ ht]
    rfl
  · right
    push Not at hnum
    obtain ⟨l, rfl⟩ := hnum
    obtain ⟨c, x'', rfl, hc, hnumber⟩ := parseValue_number_inv hx'
    obtain ⟨l', rest, hl'⟩ := parseNumber_number hc hnumber (s ++ [0])
    refine ⟨l, l', rfl, ?_⟩
    rw [cJSONParse, hb, List.cons_append, parseValue_number fuel 0 hc]
    rw [List.cons_append] at hl'
    rw [hl']
    rfl

end DspEmbedded.CJson
