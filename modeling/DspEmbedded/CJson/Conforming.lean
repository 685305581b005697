import DspEmbedded.CJson.Grammar
import DspEmbedded.Lib.JsonSearch

/-!
# Texts of RFC 8259

Every value in the notation of RFC 8259 is a value of the wider grammar, so that a
parse that succeeds on it takes it whole. Nothing is said about success: an
unpaired surrogate and a deep nesting are refused.
-/
namespace DspEmbedded.CJson

open Lib.CString Lib.JsonText Lib.JsonSearch

/-! ## Strings -/

theorem scanString_plain {bs : List UInt8} (hquote : 34 ∉ bs) (hslash : 92 ∉ bs)
    (l : List UInt8) : scanString (bs ++ l) = (scanString l).map fun r => (bs ++ r.1, r.2) := by
  induction bs with
  | nil => simp
  | cons b bs ih =>
    rw [List.mem_cons, not_or] at hquote hslash
    rw [List.cons_append, scanString_cons (Ne.symm hquote.1) (Ne.symm hslash.1),
      ih hquote.2 hslash.2, Option.map_map]
    rfl

theorem hexByte_ne_backslash (d : HexDigit) : d.byte ≠ 92 := by
  obtain ⟨v, upper⟩ := d
  revert v upper
  decide

theorem scanString_element (e : Element) (l : List UInt8) :
    scanString (e.bytes ++ l) = (scanString l).map fun r => (e.bytes ++ r.1, r.2) := by
  cases e with
  | plain c => exact scanString_plain (notMem_bytes_plain (.inl rfl)) (notMem_bytes_plain (.inr rfl)) l
  | escape e => exact scanString_escape e.letter l
  | unicode d0 d1 d2 d3 =>
    have hhex := @scanString_plain [d0.byte, d1.byte, d2.byte, d3.byte]
      (by simp [(hexByte_ne _).symm]) (by simp [(hexByte_ne_backslash _).symm]) l
    have hescape := scanString_escape 117 ([d0.byte, d1.byte, d2.byte, d3.byte] ++ l)
    rw [hhex, Option.map_map] at hescape
    exact hescape

theorem scanString_raw (s : Spelling) (t : List UInt8) :
    scanString (raw s ++ 34 :: t) = some (raw s, t) := by
  induction s with
  | nil =>
    rw [raw_nil, List.nil_append, scanString.eq_def]
    rfl
  | cons e s ih =>
    rw [raw_cons, List.append_assoc, scanString_element, ih]
    rfl

theorem isString_tok (s : Spelling) (t : List UInt8) : IsString (Tok.str s).bytes t :=
  ⟨raw s, rfl, scanString_raw s t⟩

/-! ## Numbers -/

theorem isDigit_digitByte (d : Fin 10) : isDigit (digitByte d) = true := by
  revert d
  decide

/-- Digits up to a byte that is none. -/
theorem takeWhile_digits (ds : List (Fin 10)) {l : List UInt8}
    (h : ∀ b ∈ l.head?, isDigit b = false) :
    (ds.map digitByte ++ l).takeWhile isDigit = ds.map digitByte := by
  have hrest : l.takeWhile isDigit = [] := by
    cases l with
    | nil => rfl
    | cons b l => exact List.takeWhile_cons_of_neg (by rw [h b rfl]; decide)
  rw [List.takeWhile_append_of_pos, hrest, List.append_nil]
  intro b hb
  obtain ⟨d, -, rfl⟩ := List.mem_map.mp hb
  exact isDigit_digitByte d

theorem digitByte_ne (d : Fin 10) : digitByte d ≠ 43 ∧ digitByte d ≠ 45 := by
  revert d
  decide

theorem exponentLength_bytes (x : Exponent) : exponentLength x.bytes = x.bytes.length := by
  have hcount : ((x.more.map digitByte).takeWhile isDigit).length = x.more.length := by
    have hdigits := takeWhile_digits x.more (l := []) (by simp)
    rw [List.append_nil] at hdigits
    rw [hdigits, List.length_map]
  have hfirst := isDigit_digitByte x.first
  have hnosign := digitByte_ne x.first
  obtain ⟨upper, sign, first, more⟩ := x
  rcases sign with _ | _ | _ <;> cases upper <;>
    simp [Exponent.bytes, exponentLength, hfirst, hnosign.1, hnosign.2, hcount] <;> omega

/-- The point with its digits, or nothing. -/
def pointBytes (frac : List (Fin 10)) : List UInt8 :=
  if frac = [] then [] else 46 :: frac.map digitByte

/-- `strtod` converts a sign, digits, a point with digits and an exponent. -/
theorem strtodLength_eq {sgn e : List UInt8} {whole frac : List (Fin 10)}
    (hsgn : sgn = [] ∨ sgn = [45]) (hwhole : whole ≠ [])
    (he : ∀ b ∈ e.head?, isDigit b = false ∧ b ≠ 46) (hexp : exponentLength e = e.length) :
    strtodLength (sgn ++ (whole.map digitByte ++ (pointBytes frac ++ e))) =
      sgn.length + whole.length + (pointBytes frac).length + e.length := by
  have hdigit : ∀ b ∈ e.head?, isDigit b = false := fun b hb => (he b hb).1
  have hbehind : ∀ b ∈ (pointBytes frac ++ e).head?, isDigit b = false := by
    rw [pointBytes]
    split
    · exact hdigit
    · intro b hb
      obtain rfl : 46 = b := by simpa using hb
      decide
  unfold strtodLength
  extract_lets sign digits afterWhole point fraction mantissa
  have hsign : sign = sgn.length := by
    obtain ⟨d, ds, rfl⟩ := List.exists_cons_of_ne_nil hwhole
    rcases hsgn with rfl | rfl
    · exact if_neg (not_or.mpr (digitByte_ne d))
    · rfl
  have hdigits : digits = whole.length := by
    show (List.takeWhile isDigit (List.drop sign _)).length = _
    rw [hsign, List.drop_left, takeWhile_digits whole hbehind, List.length_map]
  have hafter : afterWhole = pointBytes frac ++ e := by
    show List.drop (sign + digits) _ = _
    rw [hsign, hdigits, ← List.drop_drop, List.drop_left]
    exact List.drop_left' (List.length_map _)
  have hpoint : point + fraction = (pointBytes frac).length := by
    clear_value afterWhole
    subst hafter
    unfold fraction point
    by_cases hfrac : frac = []
    · have hnone : pointBytes frac = [] := if_pos hfrac
      rw [hnone, List.nil_append]
      cases e with
      | nil => rfl
      | cons b e =>
        have hb : b ≠ 46 := (he b rfl).2
        simp [hb]
    · have hsome : pointBytes frac = 46 :: frac.map digitByte := if_neg hfrac
      rw [hsome]
      simp only [List.cons_append, if_true, List.drop_one, List.tail_cons, Nat.one_ne_zero, if_false,
        takeWhile_digits frac hdigit]
      simp [Nat.add_comm]
  have hpos : 0 < whole.length := List.length_pos_iff.mpr hwhole
  have hmantissa : mantissa = sgn.length + whole.length + (pointBytes frac).length := by
    show sign + digits + point + fraction = _
    omega
  have hend : List.drop mantissa (sgn ++ (whole.map digitByte ++ (pointBytes frac ++ e))) = e := by
    rw [hmantissa, ← List.append_assoc, ← List.append_assoc]
    exact List.drop_left' (by simp [Nat.add_assoc])
  rw [if_neg (by omega), hend, hexp, hmantissa]

theorem isNumberByte_digits (ds : List (Fin 10)) :
    ∀ b ∈ ds.map digitByte, isNumberByte b = true := by
  intro b hb
  obtain ⟨d, -, rfl⟩ := List.mem_map.mp hb
  simp [isNumberByte, isDigit_digitByte d]

theorem isNumberByte_exponent (x : Exponent) : ∀ b ∈ x.bytes, isNumberByte b = true := by
  obtain ⟨upper, sign, first, more⟩ := x
  intro b hb
  have hdigits := isNumberByte_digits (first :: more) b
  simp only [Exponent.bytes, List.mem_cons, List.mem_append] at hb
  rcases hb with rfl | hsign | hb
  · cases upper <;> rfl
  · rcases sign with _ | _ | _
    · cases hsign
    · obtain rfl := List.mem_singleton.mp hsign
      rfl
    · obtain rfl := List.mem_singleton.mp hsign
      rfl
  · exact hdigits hb

/-- A number with its parts named. -/
theorem number_bytes (n : Number) : ∃ sgn e, n.bytes =
      sgn ++ (n.int.map digitByte ++ (pointBytes n.frac ++ e)) ∧
    (sgn = [] ∨ sgn = [45]) ∧ (∀ b ∈ e.head?, isDigit b = false ∧ b ≠ 46) ∧
    exponentLength e = e.length ∧ ∀ b ∈ e, isNumberByte b = true := by
  have hsgn : (if n.negative then [45] else []) = ([] : List UInt8) ∨
      (if n.negative then [45] else []) = ([45] : List UInt8) := by
    cases n.negative
    · exact .inl rfl
    · exact .inr rfl
  rw [Number.bytes, Number.tail]
  cases n.exp with
  | none => exact ⟨_, [], rfl, hsgn, by simp, rfl, by simp⟩
  | some x =>
    refine ⟨_, x.bytes, rfl, hsgn, ?_, exponentLength_bytes x, isNumberByte_exponent x⟩
    intro b hb
    rw [Exponent.bytes, List.head?_cons, Option.mem_some_iff] at hb
    subst hb
    cases x.upper <;> decide

theorem isNumberByte_number (n : Number) : ∀ b ∈ n.bytes, isNumberByte b = true := by
  obtain ⟨sgn, e, hbytes, hsgn, -, -, hnum⟩ := number_bytes n
  rw [hbytes]
  intro b hb
  simp only [List.mem_append] at hb
  rcases hb with hb | hb | hb | hb
  · rcases hsgn with rfl | rfl
    · simp at hb
    · obtain rfl := List.mem_singleton.mp hb
      rfl
  · exact isNumberByte_digits _ b hb
  · rw [pointBytes] at hb
    split at hb
    · simp at hb
    · rcases List.mem_cons.mp hb with rfl | hb
      · rfl
      · exact isNumberByte_digits _ b hb
  · exact hnum b hb

theorem isNumber_tok (n : Number) {t : List UInt8} (ht : Delimited t) : IsNumber n.bytes t := by
  obtain ⟨sgn, e, hbytes, hsgn, he, hexp, -⟩ := number_bytes n
  have hall := isNumberByte_number n
  have hwhile : (n.bytes ++ t).takeWhile isNumberByte = n.bytes := by
    obtain ⟨b, rest, rfl, hb⟩ := ht
    rw [List.takeWhile_append_of_pos hall, List.takeWhile_cons_of_neg (by rw [hb]; decide),
      List.append_nil]
  have hlen : strtodLength n.bytes = n.bytes.length := by
    rw [hbytes, strtodLength_eq hsgn n.int_ne_nil he hexp]
    simp only [List.length_append, List.length_map]
    omega
  have hfirst : ∃ b digits, n.bytes = b :: digits ∧ (b = 45 ∨ isDigit b = true) := by
    obtain ⟨d, ds, hint⟩ := List.exists_cons_of_ne_nil n.int_ne_nil
    rw [hbytes, hint]
    rcases hsgn with rfl | rfl
    · exact ⟨_, _, rfl, .inr (isDigit_digitByte d)⟩
    · exact ⟨_, _, rfl, .inl rfl⟩
  obtain ⟨b, digits, hcons, hb⟩ := hfirst
  refine ⟨b, digits, hcons, hb, ?_⟩
  have hpos : ¬n.bytes.length = 0 := by simp [hcons]
  simp only [parseNumber, hwhile, hlen, if_neg hpos, List.take_left, List.drop_left]

/-! ## Values -/

theorem blank_spaces (ws : List Ws) : Blank (bytesOf (spaceToks ws)) := by
  intro b hb
  obtain ⟨tok, htok, hb⟩ := List.mem_flatMap.mp hb
  obtain ⟨w, -, rfl⟩ := List.mem_map.mp htok
  obtain rfl := List.mem_singleton.mp hb
  cases w <;> decide

theorem Blank.delimited {w t : List UInt8} (h : Blank w) (ht : Delimited t) :
    Delimited (w ++ t) := by
  cases w with
  | nil => exact ht
  | cons b w => exact ⟨b, w ++ t, rfl, isNumberByte_space (h b List.mem_cons_self)⟩

theorem delimited_cons {b : UInt8} (h : isNumberByte b = false) (t : List UInt8) :
    Delimited (b :: t) := ⟨b, t, rfl, h⟩

@[simp] theorem bytesOf_append (a b : List Tok) : bytesOf (a ++ b) = bytesOf a ++ bytesOf b :=
  List.flatMap_append

theorem bytesOf_punct (p : Punct) (toks : List Tok) :
    bytesOf (.punct p :: toks) = p.byte :: bytesOf toks := rfl

theorem bytesOf_str (s : Spelling) (toks : List Tok) :
    bytesOf (.str s :: toks) = (Tok.str s).bytes ++ bytesOf toks := rfl

theorem bytesOf_value (v : Value) (tail : List Tok) :
    bytesOf (v.toks tail) = bytesOf (v.toks []) ++ bytesOf tail := by
  rw [toks_value, bytesOf_append]

mutual

/-- Every value of RFC 8259 is one of the grammar. -/
theorem isValue_value (v : Value) {t : List UInt8} (ht : Delimited t) :
    IsValue (bytesOf (v.toks [])) t := by
  match v with
  | .literal .null => exact .literal (.inl rfl)
  | .literal .false => exact .literal (.inr (.inl rfl))
  | .literal .true => exact .literal (.inr (.inr rfl))
  | .number n =>
    have hbytes : bytesOf [.number n] = n.bytes := List.append_nil _
    rw [Value.toks, hbytes]
    exact .number (isNumber_tok n ht)
  | .string s =>
    have hbytes : bytesOf [.str s] = (Tok.str s).bytes := List.append_nil _
    rw [Value.toks, hbytes]
    exact .string (isString_tok s t)
  | .emptyArray inner =>
    rw [Value.toks, bytesOf_punct, bytesOf_append]
    exact .emptyArray (blank_spaces inner)
  | .array items =>
    rw [Value.toks, bytesOf_punct, toks_items, bytesOf_append]
    exact .array (isElements_items items (delimited_cons (by decide) t))
  | .emptyObject inner =>
    rw [Value.toks, bytesOf_punct, bytesOf_append]
    exact .emptyObject (blank_spaces inner)
  | .object members =>
    rw [Value.toks, bytesOf_punct, toks_members, bytesOf_append]
    exact .object (isMembers_members members (delimited_cons (by decide) t))

theorem isElements_items (items : Items) {t : List UInt8} (ht : Delimited t) :
    IsElements (bytesOf (items.toks [])) t := by
  match items with
  | .last before value after =>
    rw [Items.toks, List.append_nil, bytesOf_append, bytesOf_value]
    exact .last (blank_spaces before) (isValue_value value ((blank_spaces after).delimited ht))
      (blank_spaces after)
  | .cons before value after rest =>
    have hcomma := delimited_cons (b := 44) (by decide) (bytesOf (rest.toks []) ++ t)
    rw [Items.toks, bytesOf_append, bytesOf_value, bytesOf_append, bytesOf_punct]
    exact .cons (blank_spaces before)
      (isValue_value value ((blank_spaces after).delimited hcomma)) (blank_spaces after)
      (isElements_items rest ht)

theorem isMembers_members (members : Members) {t : List UInt8} (ht : Delimited t) :
    IsMembers (bytesOf (members.toks [])) t := by
  match members with
  | .last before key beforeColon afterColon value after =>
    rw [Members.toks, List.append_nil, bytesOf_append, bytesOf_str, bytesOf_append, bytesOf_punct,
      bytesOf_append, bytesOf_value]
    exact .last (blank_spaces before) (isString_tok key _) (blank_spaces beforeColon)
      (blank_spaces afterColon) (isValue_value value ((blank_spaces after).delimited ht))
      (blank_spaces after)
  | .cons before key beforeColon afterColon value after rest =>
    have hcomma := delimited_cons (b := 44) (by decide) (bytesOf (rest.toks []) ++ t)
    rw [Members.toks, bytesOf_append, bytesOf_str, bytesOf_append, bytesOf_punct, bytesOf_append,
      bytesOf_value, bytesOf_append, bytesOf_punct]
    exact .cons (blank_spaces before) (isString_tok key _) (blank_spaces beforeColon)
      (blank_spaces afterColon) (isValue_value value ((blank_spaces after).delimited hcomma))
      (blank_spaces after) (isMembers_members rest ht)

end

/-! ## No text has a NUL in it -/

theorem element_noNul (e : Element) : (0 : UInt8) ∉ e.bytes := by
  cases e with
  | plain c =>
    intro h
    have hcontrol := c.notControl
    rw [eq_of_mem_utf8 h (by decide)] at hcontrol
    exact absurd hcontrol (by decide)
  | escape e => cases e <;> decide
  | unicode d0 d1 d2 d3 =>
    have hhex : ∀ d : HexDigit, (0 : UInt8) ≠ d.byte := by
      rintro ⟨v, upper⟩
      revert v upper
      decide
    simp [Element.bytes, hhex]

theorem tok_noNul (tok : Tok) : (0 : UInt8) ∉ tok.bytes := by
  cases tok with
  | ws w => cases w <;> decide
  | punct p => cases p <;> decide
  | literal w => cases w <;> decide
  | number n =>
    intro h
    exact absurd (isNumberByte_number n 0 h) (by decide)
  | str s =>
    have hraw : (0 : UInt8) ∉ raw s := by
      intro h
      obtain ⟨e, -, he⟩ := List.mem_flatMap.mp h
      exact element_noNul e he
    simp [Tok.bytes, hraw]

theorem text_noNul (t : Text) : (0 : UInt8) ∉ t.bytes := by
  intro h
  obtain ⟨tok, -, htok⟩ := List.mem_flatMap.mp h
  exact tok_noNul tok htok

end DspEmbedded.CJson
