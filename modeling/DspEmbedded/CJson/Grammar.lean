import DspEmbedded.CJson.Extend

/-!
# What the parser takes for a value

A grammar of the texts that cJSON reads, wider than that of RFC 8259: every byte up
to 32 separates tokens, a number is whatever `strtod` converts, and a string ends at
the first quote that no backslash takes along. A derivation is about the bytes of
a value in front of a given rest, since only the rest shows where a number ends.
What is parsed is derived, and what is derived is where a parse that succeeds stops.
-/
namespace DspEmbedded.CJson

open Lib.CString

/-! ## The grammar -/

/-- What `buffer_skip_whitespace` skips. -/
def Blank (w : List UInt8) : Prop := ∀ b ∈ w, b ≤ 32

/-- A string with its quotes, in front of `t`. -/
def IsString (s t : List UInt8) : Prop :=
  ∃ seg, s = 34 :: (seg ++ [34]) ∧ scanString (seg ++ 34 :: t) = some (seg, t)

/-- All that `parse_number` converts in front of `t`. -/
def IsNumber (n t : List UInt8) : Prop :=
  ∃ b digits, n = b :: digits ∧ (b = 45 ∨ isDigit b = true) ∧
    parseNumber (n ++ t) = some (.number n, t)

mutual

inductive IsValue : List UInt8 → List UInt8 → Prop where
  | literal {w t : List UInt8} (h : w = litNull ∨ w = litFalse ∨ w = litTrue) : IsValue w t
  | string {s t : List UInt8} (h : IsString s t) : IsValue s t
  | number {n t : List UInt8} (h : IsNumber n t) : IsValue n t
  | emptyArray {w t : List UInt8} (h : Blank w) : IsValue (91 :: (w ++ [93])) t
  | array {l t : List UInt8} (h : IsElements l (93 :: t)) : IsValue (91 :: (l ++ [93])) t
  | emptyObject {w t : List UInt8} (h : Blank w) : IsValue (123 :: (w ++ [125])) t
  | object {l t : List UInt8} (h : IsMembers l (125 :: t)) : IsValue (123 :: (l ++ [125])) t

/-- What stands between two brackets. -/
inductive IsElements : List UInt8 → List UInt8 → Prop where
  | last {w v w' t : List UInt8} (before : Blank w) (value : IsValue v (w' ++ t))
      (after : Blank w') : IsElements (w ++ (v ++ w')) t
  | cons {w v w' rest t : List UInt8} (before : Blank w)
      (value : IsValue v (w' ++ 44 :: (rest ++ t))) (after : Blank w')
      (more : IsElements rest t) : IsElements (w ++ (v ++ (w' ++ 44 :: rest))) t

/-- What stands between two braces. -/
inductive IsMembers : List UInt8 → List UInt8 → Prop where
  | last {w k u u' v w' t : List UInt8} (before : Blank w)
      (key : IsString k (u ++ 58 :: (u' ++ (v ++ (w' ++ t))))) (beforeColon : Blank u)
      (afterColon : Blank u') (value : IsValue v (w' ++ t)) (after : Blank w') :
      IsMembers (w ++ (k ++ (u ++ 58 :: (u' ++ (v ++ w'))))) t
  | cons {w k u u' v w' rest t : List UInt8} (before : Blank w)
      (key : IsString k (u ++ 58 :: (u' ++ (v ++ (w' ++ 44 :: (rest ++ t))))))
      (beforeColon : Blank u) (afterColon : Blank u')
      (value : IsValue v (w' ++ 44 :: (rest ++ t))) (after : Blank w')
      (more : IsMembers rest t) :
      IsMembers (w ++ (k ++ (u ++ 58 :: (u' ++ (v ++ (w' ++ 44 :: rest)))))) t

end

/-! ## First bytes -/

/-- A byte that a value may start with. -/
def startsValue (b : UInt8) : Bool :=
  b == 110 || b == 102 || b == 116 || b == 34 || b == 45 || isDigit b || b == 91 || b == 123

theorem startsValue_cases {b : UInt8} (h : startsValue b = true) :
    32 < b ∧ b ≠ 93 ∧ b ≠ 125 ∧ b ≠ 0xEF := by
  have hall : ∀ n < 256, startsValue (UInt8.ofNat n) = true →
      32 < UInt8.ofNat n ∧ UInt8.ofNat n ≠ 93 ∧ UInt8.ofNat n ≠ 125 ∧ UInt8.ofNat n ≠ 0xEF := by
    decide +kernel
  have hb := hall b.toNat b.toNat_lt
  rw [UInt8.ofNat_toNat] at hb
  exact hb h

theorem IsValue.head {v t : List UInt8} (h : IsValue v t) :
    ∃ b rest, v = b :: rest ∧ startsValue b = true := by
  cases h with
  | literal h =>
    rcases h with rfl | rfl | rfl
    · exact ⟨110, _, rfl, rfl⟩
    · exact ⟨102, _, rfl, rfl⟩
    · exact ⟨116, _, rfl, rfl⟩
  | string h =>
    obtain ⟨seg, rfl, -⟩ := h
    exact ⟨34, _, rfl, rfl⟩
  | number h =>
    obtain ⟨b, digits, rfl, hb, -⟩ := h
    refine ⟨b, digits, rfl, ?_⟩
    rcases hb with rfl | hd
    · rfl
    · simp [startsValue, hd]
  | emptyArray => exact ⟨91, _, rfl, rfl⟩
  | array => exact ⟨91, _, rfl, rfl⟩
  | emptyObject => exact ⟨123, _, rfl, rfl⟩
  | object => exact ⟨123, _, rfl, rfl⟩

theorem Blank.append {w w' : List UInt8} (h : Blank w) (h' : Blank w') : Blank (w ++ w') := by
  intro b hb
  rcases List.mem_append.mp hb with hb | hb
  · exact h b hb
  · exact h' b hb

/-- White space is skipped up to a byte that is none. -/
theorem skip_blank {w : List UInt8} (h : Blank w) {c : UInt8} (hc : 32 < c) (t : List UInt8) :
    bufferSkipWhitespace (w ++ c :: t) = c :: t := by
  induction w with
  | nil => exact bufferSkipWhitespace_cons hc t
  | cons b w ih =>
    rw [List.cons_append, bufferSkipWhitespace_step b (by simp), if_pos (h b List.mem_cons_self)]
    exact ih fun b' hb' => h b' (List.mem_cons_of_mem _ hb')

theorem skip_value {w v t : List UInt8} (h : Blank w) (hv : IsValue v t) :
    bufferSkipWhitespace (w ++ (v ++ t)) = v ++ t := by
  obtain ⟨b, rest, rfl, hb⟩ := hv.head
  exact skip_blank h (startsValue_cases hb).1 _

/-- What is skipped is white space. -/
theorem skip_split (inp : List UInt8) : ∃ w, inp = w ++ bufferSkipWhitespace inp ∧ Blank w := by
  fun_induction bufferSkipWhitespace inp with
  | case1 => exact ⟨[], rfl, by simp [Blank]⟩
  | case2 b => exact ⟨[], rfl, by simp [Blank]⟩
  | case3 b b' rest hb ih =>
    obtain ⟨w, hw, hblank⟩ := ih
    refine ⟨b :: w, by rw [List.cons_append, ← hw], fun c hc => ?_⟩
    rcases List.mem_cons.mp hc with rfl | hc
    · exact hb
    · exact hblank c hc
  | case4 => exact ⟨[], rfl, by simp [Blank]⟩

/-! ## What is parsed is derived -/

theorem scanString_split {inp seg after : List UInt8} (h : scanString inp = some (seg, after)) :
    inp = seg ++ 34 :: after := by
  fun_induction scanString inp generalizing seg after with
  | case1 => cases h
  | case2 rest =>
    obtain ⟨rfl, rfl⟩ := Prod.mk.inj (Option.some.inj h)
    rfl
  | case3 => cases h
  | case4 c rest' _ ih =>
    obtain ⟨⟨seg', mid⟩, hmid, he⟩ := Option.map_eq_some_iff.mp h
    obtain ⟨rfl, rfl⟩ := Prod.mk.inj he
    rw [ih hmid]
    rfl
  | case5 b rest _ _ ih =>
    obtain ⟨⟨seg', mid⟩, hmid, he⟩ := Option.map_eq_some_iff.mp h
    obtain ⟨rfl, rfl⟩ := Prod.mk.inj he
    rw [ih hmid]
    rfl

theorem parseString_derived {inp after : List UInt8} {s : CStr}
    (h : parseString inp = some (s, after)) : ∃ k, inp = k ++ after ∧ IsString k after := by
  cases inp with
  | nil => cases h
  | cons b rest =>
    simp only [parseString] at h
    split_ifs at h with hb
    obtain rfl : b = 34 := not_not.mp hb
    cases hscan : scanString rest with
    | none =>
      rw [hscan] at h
      cases h
    | some r =>
      obtain ⟨seg, after'⟩ := r
      rw [hscan] at h
      obtain ⟨out, -, he⟩ := Option.map_eq_some_iff.mp h
      obtain ⟨-, rfl⟩ := Prod.mk.inj he
      have hsplit := scanString_split hscan
      refine ⟨34 :: (seg ++ [34]), by rw [hsplit]; simp, seg, rfl, ?_⟩
      rw [← hsplit]
      exact hscan

theorem parseNumber_derived {b : UInt8} (hb : b = 45 ∨ isDigit b = true) {rest after : List UInt8}
    {v : Json} (h : parseNumber (b :: rest) = some (v, after)) :
    ∃ n, b :: rest = n ++ after ∧ IsNumber n after := by
  have hcall := h
  simp only [parseNumber] at h
  split_ifs at h with hn
  obtain ⟨rfl, rfl⟩ := Prod.mk.inj (Option.some.inj h)
  obtain ⟨k, hk⟩ := Nat.exists_eq_succ_of_ne_zero hn
  refine ⟨_, (List.take_append_drop _ _).symm, b, rest.take k, ?_, hb, ?_⟩
  · rw [hk, List.take_succ_cons]
  · rw [List.take_append_drop]
    exact hcall

theorem lit_derived {lit inp : List UInt8} (h : lit.isPrefixOf inp = true) :
    inp = lit ++ inp.drop lit.length := by
  obtain ⟨t, rfl⟩ := List.isPrefixOf_iff_prefix.mp h
  rw [List.drop_left]

/-- The white space in front of a loop's next item goes to that item. -/
theorem parseElements_derived {fuel depth : Nat}
    (ihv : ∀ inp v after, parseValue fuel depth inp = some (v, after) →
      ∃ w, inp = w ++ after ∧ IsValue w after)
    (ihe : ∀ inp l after, parseElements fuel depth inp = some (l, after) →
      ∃ w, inp = w ++ 93 :: after ∧ IsElements w (93 :: after))
    {inp after : List UInt8} {l : List Json}
    (h : parseElements (fuel + 1) depth inp = some (l, after)) :
    ∃ w, inp = w ++ 93 :: after ∧ IsElements w (93 :: after) := by
  rw [parseElements] at h
  obtain ⟨w, hinp, hw⟩ := skip_split inp
  cases hv : parseValue fuel depth (bufferSkipWhitespace inp) with
  | none =>
    rw [hv] at h
    cases h
  | some r =>
    obtain ⟨v, mid⟩ := r
    obtain ⟨u, hu, hvalue⟩ := ihv _ _ _ hv
    obtain ⟨w', hmid, hw'⟩ := skip_split mid
    rw [hv] at h
    simp only at h
    cases hc : bufferSkipWhitespace mid with
    | nil =>
      rw [hc] at h
      cases h
    | cons c tail =>
      rw [hc] at h hmid
      simp only at h
      split_ifs at h with hcomma hclose
      · subst hcomma
        obtain ⟨⟨more, after'⟩, hmore, he⟩ := Option.map_eq_some_iff.mp h
        obtain ⟨-, rfl⟩ := Prod.mk.inj he
        obtain ⟨rest, rfl, hrest⟩ := ihe _ _ _ hmore
        rw [hmid] at hvalue hu
        exact ⟨_, by rw [hinp, hu]; simp, .cons hw hvalue hw' hrest⟩
      · subst hclose
        obtain ⟨-, rfl⟩ := Prod.mk.inj (Option.some.inj h)
        rw [hmid] at hvalue hu
        exact ⟨_, by rw [hinp, hu]; simp, .last hw hvalue hw'⟩

theorem parseMembers_derived {fuel depth : Nat}
    (ihv : ∀ inp v after, parseValue fuel depth inp = some (v, after) →
      ∃ w, inp = w ++ after ∧ IsValue w after)
    (ihm : ∀ inp l after, parseMembers fuel depth inp = some (l, after) →
      ∃ w, inp = w ++ 125 :: after ∧ IsMembers w (125 :: after))
    {inp after : List UInt8} {l : List (CStr × Json)}
    (h : parseMembers (fuel + 1) depth inp = some (l, after)) :
    ∃ w, inp = w ++ 125 :: after ∧ IsMembers w (125 :: after) := by
  rw [parseMembers] at h
  obtain ⟨w, hinp, hw⟩ := skip_split inp
  cases hkey : parseString (bufferSkipWhitespace inp) with
  | none =>
    rw [hkey] at h
    cases h
  | some r =>
    obtain ⟨key, behind⟩ := r
    obtain ⟨k, hk, hstring⟩ := parseString_derived hkey
    obtain ⟨u, hbehind, hu⟩ := skip_split behind
    rw [hkey] at h
    simp only at h
    cases hcolon : bufferSkipWhitespace behind with
    | nil =>
      rw [hcolon] at h
      cases h
    | cons colon rest =>
      rw [hcolon] at h hbehind
      simp only at h
      split_ifs at h with h58
      obtain rfl : colon = 58 := not_not.mp h58
      obtain ⟨u', hrest, hu'⟩ := skip_split rest
      cases hv : parseValue fuel depth (bufferSkipWhitespace rest) with
      | none =>
        rw [hv] at h
        cases h
      | some r =>
        obtain ⟨v, mid⟩ := r
        obtain ⟨x, hx, hvalue⟩ := ihv _ _ _ hv
        obtain ⟨w', hmid, hw'⟩ := skip_split mid
        rw [hv] at h
        simp only at h
        cases hc : bufferSkipWhitespace mid with
        | nil =>
          rw [hc] at h
          cases h
        | cons c tail =>
          rw [hc] at h hmid
          simp only at h
          split_ifs at h with hcomma hclose
          · subst hcomma
            obtain ⟨⟨more, after'⟩, hmore, he⟩ := Option.map_eq_some_iff.mp h
            obtain ⟨-, rfl⟩ := Prod.mk.inj he
            obtain ⟨more, rfl, hderived⟩ := ihm _ _ _ hmore
            rw [hmid] at hvalue hx
            rw [hbehind, hrest, hx] at hstring
            exact ⟨_, by rw [hinp, hk, hbehind, hrest, hx]; simp,
              .cons hw hstring hu hu' hvalue hw' hderived⟩
          · subst hclose
            obtain ⟨-, rfl⟩ := Prod.mk.inj (Option.some.inj h)
            rw [hmid] at hvalue hx
            rw [hbehind, hrest, hx] at hstring
            exact ⟨_, by rw [hinp, hk, hbehind, hrest, hx]; simp,
              .last hw hstring hu hu' hvalue hw'⟩

/-- What stands between two brackets; the white space behind the first is skipped
before the loop starts. -/
theorem brackets_derived {α : Type} {loop : List UInt8 → Option (List α × List UInt8)}
    {IsItems : List UInt8 → List UInt8 → Prop} {close : UInt8}
    (ih : ∀ inp l after, loop inp = some (l, after) →
      ∃ w, inp = w ++ close :: after ∧ IsItems w (close :: after))
    (hblank : ∀ w l t, Blank w → IsItems l t → IsItems (w ++ l) t)
    {rest after : List UInt8} {l : List α} {c : UInt8} {tail : List UInt8}
    (hc : bufferSkipWhitespace rest = c :: tail)
    (h : (if c = close then some ([], tail) else loop (c :: tail)) = some (l, after)) :
    ∃ w, rest = w ++ close :: after ∧ (Blank w ∨ IsItems w (close :: after)) := by
  obtain ⟨w, hrest, hw⟩ := skip_split rest
  rw [hc] at hrest
  split_ifs at h with hclose
  · obtain ⟨-, rfl⟩ := Prod.mk.inj (Option.some.inj h)
    exact ⟨w, by rw [hrest, hclose], .inl hw⟩
  · obtain ⟨items, hitems, hderived⟩ := ih _ _ _ h
    exact ⟨w ++ items, by rw [hrest, hitems, List.append_assoc], .inr (hblank _ _ _ hw hderived)⟩

theorem IsElements.blank {w l t : List UInt8} (hw : Blank w) (h : IsElements l t) :
    IsElements (w ++ l) t := by
  cases h with
  | last before value after =>
    rw [← List.append_assoc]
    exact .last (hw.append before) value after
  | cons before value after more =>
    rw [← List.append_assoc]
    exact .cons (hw.append before) value after more

theorem IsMembers.blank {w l t : List UInt8} (hw : Blank w) (h : IsMembers l t) :
    IsMembers (w ++ l) t := by
  cases h with
  | last before key beforeColon afterColon value after =>
    rw [← List.append_assoc]
    exact .last (hw.append before) key beforeColon afterColon value after
  | cons before key beforeColon afterColon value after more =>
    rw [← List.append_assoc]
    exact .cons (hw.append before) key beforeColon afterColon value after more

theorem parseValue_derived {fuel depth : Nat}
    (ihe : ∀ inp l after, parseElements fuel (depth + 1) inp = some (l, after) →
      ∃ w, inp = w ++ 93 :: after ∧ IsElements w (93 :: after))
    (ihm : ∀ inp l after, parseMembers fuel (depth + 1) inp = some (l, after) →
      ∃ w, inp = w ++ 125 :: after ∧ IsMembers w (125 :: after))
    {inp after : List UInt8} {v : Json}
    (h : parseValue (fuel + 1) depth inp = some (v, after)) :
    ∃ w, inp = w ++ after ∧ IsValue w after := by
  have hvalue := h
  rw [parseValue.eq_def] at h
  simp only at h
  by_cases h1 : litNull.isPrefixOf inp = true
  · have hinp := lit_derived h1
    rw [hinp, (parseValue_lit fuel depth _).1] at hvalue
    obtain ⟨-, rfl⟩ := Prod.mk.inj (Option.some.inj hvalue)
    exact ⟨litNull, hinp, .literal (.inl rfl)⟩
  rw [if_neg h1] at h
  by_cases h2 : litFalse.isPrefixOf inp = true
  · have hinp := lit_derived h2
    rw [hinp, (parseValue_lit fuel depth _).2.1] at hvalue
    obtain ⟨-, rfl⟩ := Prod.mk.inj (Option.some.inj hvalue)
    exact ⟨litFalse, hinp, .literal (.inr (.inl rfl))⟩
  rw [if_neg h2] at h
  by_cases h3 : litTrue.isPrefixOf inp = true
  · have hinp := lit_derived h3
    rw [hinp, (parseValue_lit fuel depth _).2.2] at hvalue
    obtain ⟨-, rfl⟩ := Prod.mk.inj (Option.some.inj hvalue)
    exact ⟨litTrue, hinp, .literal (.inr (.inr rfl))⟩
  rw [if_neg h3] at h
  cases inp with
  | nil => cases h
  | cons b rest =>
    simp only at h
    split_ifs at h with hquote hnum harr hdepth hobj hdepth
    · obtain ⟨⟨s, after'⟩, hs, he⟩ := Option.map_eq_some_iff.mp h
      obtain ⟨-, rfl⟩ := Prod.mk.inj he
      obtain ⟨k, hk, hstring⟩ := parseString_derived hs
      exact ⟨k, hk, .string hstring⟩
    · obtain ⟨n, hn, hnumber⟩ := parseNumber_derived hnum h
      exact ⟨n, hn, .number hnumber⟩
    · subst harr
      cases hc : bufferSkipWhitespace rest with
      | nil =>
        rw [hc] at h
        cases h
      | cons c tail =>
        rw [parseValue_array fuel hdepth hc] at hvalue
        obtain ⟨⟨l, after'⟩, hl, he⟩ := Option.map_eq_some_iff.mp hvalue
        obtain ⟨-, rfl⟩ := Prod.mk.inj he
        obtain ⟨w, rfl, hw | hitems⟩ :=
          brackets_derived ihe (fun _ _ _ => IsElements.blank) hc hl
        · exact ⟨_, by simp, .emptyArray hw⟩
        · exact ⟨_, by simp, .array hitems⟩
    · subst hobj
      cases hc : bufferSkipWhitespace rest with
      | nil =>
        rw [hc] at h
        cases h
      | cons c tail =>
        rw [parseValue_object fuel hdepth hc] at hvalue
        obtain ⟨⟨l, after'⟩, hl, he⟩ := Option.map_eq_some_iff.mp hvalue
        obtain ⟨-, rfl⟩ := Prod.mk.inj he
        obtain ⟨w, rfl, hw | hitems⟩ :=
          brackets_derived ihm (fun _ _ _ => IsMembers.blank) hc hl
        · exact ⟨_, by simp, .emptyObject hw⟩
        · exact ⟨_, by simp, .object hitems⟩

/-- Whatever a parse returns, it has read a value of the grammar. -/
theorem parse_derived (fuel : Nat) :
    (∀ depth inp v after, parseValue fuel depth inp = some (v, after) →
      ∃ w, inp = w ++ after ∧ IsValue w after) ∧
    (∀ depth inp l after, parseElements fuel depth inp = some (l, after) →
      ∃ w, inp = w ++ 93 :: after ∧ IsElements w (93 :: after)) ∧
    (∀ depth inp l after, parseMembers fuel depth inp = some (l, after) →
      ∃ w, inp = w ++ 125 :: after ∧ IsMembers w (125 :: after)) := by
  induction fuel with
  | zero =>
    refine ⟨?_, ?_, ?_⟩
    · intro depth inp v after h; cases h
    · intro depth inp v after h; cases h
    · intro depth inp v after h; cases h
  | succ fuel ih =>
    obtain ⟨ihv, ihe, ihm⟩ := ih
    refine ⟨?_, ?_, ?_⟩
    · intro depth inp v after h
      exact parseValue_derived (ihe (depth + 1)) (ihm (depth + 1)) h
    · intro depth inp l after h
      exact parseElements_derived (ihv depth) (ihe depth) h
    · intro depth inp l after h
      exact parseMembers_derived (ihv depth) (ihm depth) h

/-! ## Where a parse stops -/

theorem parseString_stops {k t after : List UInt8} {s : CStr} (hk : IsString k t)
    (h : parseString (k ++ t) = some (s, after)) : after = t := by
  obtain ⟨seg, rfl, hscan⟩ := hk
  have htext : 34 :: (seg ++ [34]) ++ t = 34 :: (seg ++ 34 :: t) := by simp
  rw [htext] at h
  simp only [parseString, ne_eq, not_true_eq_false, if_false, hscan] at h
  obtain ⟨out, -, he⟩ := Option.map_eq_some_iff.mp h
  exact (Prod.mk.inj he).2.symm

theorem parseElements_stops {fuel depth : Nat}
    (ihv : ∀ w t v after, IsValue w t → parseValue fuel depth (w ++ t) = some (v, after) →
      after = t)
    (ihe : ∀ w t l after, IsElements w (93 :: t) →
      parseElements fuel depth (w ++ 93 :: t) = some (l, after) → after = t)
    {w t after : List UInt8} {l : List Json} (hw : IsElements w (93 :: t))
    (h : parseElements (fuel + 1) depth (w ++ 93 :: t) = some (l, after)) : after = t := by
  cases hw with
  | @last w x w' _ before value behind =>
    have htext : w ++ (x ++ w') ++ 93 :: t = w ++ (x ++ (w' ++ 93 :: t)) := by simp
    rw [htext, parseElements, skip_value before value] at h
    cases hv : parseValue fuel depth (x ++ (w' ++ 93 :: t)) with
    | none =>
      rw [hv] at h
      cases h
    | some r =>
      obtain ⟨v, mid⟩ := r
      obtain rfl := ihv _ _ _ _ value hv
      rw [hv] at h
      simp only [skip_blank behind (show (32 : UInt8) < 93 by decide)] at h
      cases h
      rfl
  | @cons w x w' rest _ before value behind more =>
    have htext : w ++ (x ++ (w' ++ 44 :: rest)) ++ 93 :: t =
        w ++ (x ++ (w' ++ 44 :: (rest ++ 93 :: t))) := by simp
    rw [htext, parseElements, skip_value before value] at h
    cases hv : parseValue fuel depth (x ++ (w' ++ 44 :: (rest ++ 93 :: t))) with
    | none =>
      rw [hv] at h
      cases h
    | some r =>
      obtain ⟨v, mid⟩ := r
      obtain rfl := ihv _ _ _ _ value hv
      rw [hv] at h
      simp only [skip_blank behind (show (32 : UInt8) < 44 by decide), if_true] at h
      obtain ⟨⟨l', after'⟩, hl, he⟩ := Option.map_eq_some_iff.mp h
      obtain ⟨-, rfl⟩ := Prod.mk.inj he
      exact ihe _ _ _ _ more hl

theorem skip_string {w k t : List UInt8} (h : Blank w) (hk : IsString k t) :
    bufferSkipWhitespace (w ++ (k ++ t)) = k ++ t := skip_value h (.string hk)

theorem parseMembers_stops {fuel depth : Nat}
    (ihv : ∀ w t v after, IsValue w t → parseValue fuel depth (w ++ t) = some (v, after) →
      after = t)
    (ihm : ∀ w t l after, IsMembers w (125 :: t) →
      parseMembers fuel depth (w ++ 125 :: t) = some (l, after) → after = t)
    {w t after : List UInt8} {l : List (CStr × Json)} (hw : IsMembers w (125 :: t))
    (h : parseMembers (fuel + 1) depth (w ++ 125 :: t) = some (l, after)) : after = t := by
  cases hw with
  | @last w k u u' x w' _ before key beforeColon afterColon value behind =>
    have htext : w ++ (k ++ (u ++ 58 :: (u' ++ (x ++ w')))) ++ 125 :: t =
        w ++ (k ++ (u ++ 58 :: (u' ++ (x ++ (w' ++ 125 :: t))))) := by simp
    rw [htext, parseMembers, skip_string before key] at h
    cases hkey : parseString (k ++ (u ++ 58 :: (u' ++ (x ++ (w' ++ 125 :: t))))) with
    | none =>
      rw [hkey] at h
      cases h
    | some r =>
      obtain ⟨name, mid⟩ := r
      obtain rfl := parseString_stops key hkey
      rw [hkey] at h
      simp only [skip_blank beforeColon (show (32 : UInt8) < 58 by decide), ne_eq,
        not_true_eq_false, if_false, skip_value afterColon value] at h
      cases hv : parseValue fuel depth (x ++ (w' ++ 125 :: t)) with
      | none =>
        rw [hv] at h
        cases h
      | some r =>
        obtain ⟨v, mid⟩ := r
        obtain rfl := ihv _ _ _ _ value hv
        rw [hv] at h
        simp only [skip_blank behind (show (32 : UInt8) < 125 by decide)] at h
        cases h
        rfl
  | @cons w k u u' x w' rest _ before key beforeColon afterColon value behind more =>
    have htext : w ++ (k ++ (u ++ 58 :: (u' ++ (x ++ (w' ++ 44 :: rest))))) ++ 125 :: t =
        w ++ (k ++ (u ++ 58 :: (u' ++ (x ++ (w' ++ 44 :: (rest ++ 125 :: t)))))) := by simp
    rw [htext, parseMembers, skip_string before key] at h
    cases hkey : parseString
        (k ++ (u ++ 58 :: (u' ++ (x ++ (w' ++ 44 :: (rest ++ 125 :: t)))))) with
    | none =>
      rw [hkey] at h
      cases h
    | some r =>
      obtain ⟨name, mid⟩ := r
      obtain rfl := parseString_stops key hkey
      rw [hkey] at h
      simp only [skip_blank beforeColon (show (32 : UInt8) < 58 by decide), ne_eq,
        not_true_eq_false, if_false, skip_value afterColon value] at h
      cases hv : parseValue fuel depth (x ++ (w' ++ 44 :: (rest ++ 125 :: t))) with
      | none =>
        rw [hv] at h
        cases h
      | some r =>
        obtain ⟨v, mid⟩ := r
        obtain rfl := ihv _ _ _ _ value hv
        rw [hv] at h
        simp only [skip_blank behind (show (32 : UInt8) < 44 by decide), if_true] at h
        obtain ⟨⟨l', after'⟩, hl, he⟩ := Option.map_eq_some_iff.mp h
        obtain ⟨-, rfl⟩ := Prod.mk.inj he
        exact ihm _ _ _ _ more hl

/-- Behind an opening bracket the parser goes on at the first item. -/
theorem IsElements.skip {l t : List UInt8} (h : IsElements l t) :
    ∃ l' c tail, IsElements l' t ∧ bufferSkipWhitespace (l ++ t) = c :: tail ∧
      l' ++ t = c :: tail ∧ c ≠ 93 := by
  have hnone : Blank [] := by simp [Blank]
  cases h with
  | @last w v w' _ before value after =>
    obtain ⟨b, rest, rfl, hb⟩ := value.head
    exact ⟨_, b, rest ++ (w' ++ t), .last hnone value after,
      by simpa using skip_value before value, by simp, (startsValue_cases hb).2.1⟩
  | @cons w v w' rest' _ before value after more =>
    obtain ⟨b, rest, rfl, hb⟩ := value.head
    exact ⟨_, b, rest ++ (w' ++ 44 :: (rest' ++ t)), .cons hnone value after more,
      by simpa using skip_value before value, by simp, (startsValue_cases hb).2.1⟩

theorem IsMembers.skip {l t : List UInt8} (h : IsMembers l t) :
    ∃ l' c tail, IsMembers l' t ∧ bufferSkipWhitespace (l ++ t) = c :: tail ∧
      l' ++ t = c :: tail ∧ c ≠ 125 := by
  have hnone : Blank [] := by simp [Blank]
  cases h with
  | @last w k u u' v w' _ before key beforeColon afterColon value after =>
    have hskip := skip_string before key
    obtain ⟨seg, rfl, -⟩ := id key
    exact ⟨_, 34, _, .last hnone key beforeColon afterColon value after,
      by simpa using hskip, by simp, by decide⟩
  | @cons w k u u' v w' rest _ before key beforeColon afterColon value after more =>
    have hskip := skip_string before key
    obtain ⟨seg, rfl, -⟩ := id key
    exact ⟨_, 34, _, .cons hnone key beforeColon afterColon value after more,
      by simpa using hskip, by simp, by decide⟩

theorem depth_of_open {fuel depth : Nat} {b : UInt8} (hb : b = 91 ∨ b = 123) {l after : List UInt8}
    {v : Json} (h : parseValue (fuel + 1) depth (b :: l) = some (v, after)) :
    ¬nestingLimit ≤ depth := by
  intro hdeep
  rcases hb with rfl | rfl <;>
    simp [parseValue, litNull, litFalse, litTrue, isDigit, hdeep] at h

theorem parseValue_stops {fuel depth : Nat}
    (ihe : ∀ w t l after, IsElements w (93 :: t) →
      parseElements fuel (depth + 1) (w ++ 93 :: t) = some (l, after) → after = t)
    (ihm : ∀ w t l after, IsMembers w (125 :: t) →
      parseMembers fuel (depth + 1) (w ++ 125 :: t) = some (l, after) → after = t)
    {w t after : List UInt8} {v : Json} (hw : IsValue w t)
    (h : parseValue (fuel + 1) depth (w ++ t) = some (v, after)) : after = t := by
  cases hw with
  | literal hlit =>
    obtain ⟨hnull, hfalse, htrue⟩ := parseValue_lit fuel depth t
    rcases hlit with rfl | rfl | rfl
    · rw [hnull] at h
      cases h
      rfl
    · rw [hfalse] at h
      cases h
      rfl
    · rw [htrue] at h
      cases h
      rfl
  | string hs =>
    obtain ⟨seg, rfl, hscan⟩ := id hs
    rw [List.cons_append, parseValue_string] at h
    obtain ⟨⟨s, after'⟩, hparse, he⟩ := Option.map_eq_some_iff.mp h
    obtain ⟨-, rfl⟩ := Prod.mk.inj he
    exact parseString_stops hs hparse
  | number hn =>
    obtain ⟨b, digits, rfl, hb, hparse⟩ := hn
    rw [List.cons_append, parseValue_number fuel depth hb, ← List.cons_append, hparse] at h
    cases h
    rfl
  | @emptyArray u _ hblank =>
    have htext : 91 :: (u ++ [93]) ++ t = 91 :: (u ++ 93 :: t) := by simp
    rw [htext] at h
    have hdepth := depth_of_open (.inl rfl) h
    rw [parseValue_array fuel hdepth (skip_blank hblank (by decide) t), if_pos rfl] at h
    cases h
    rfl
  | @array l _ hitems =>
    have htext : 91 :: (l ++ [93]) ++ t = 91 :: (l ++ 93 :: t) := by simp
    rw [htext] at h
    have hdepth := depth_of_open (.inl rfl) h
    obtain ⟨l', c, tail, hitems', hskip, hfirst, hc⟩ := hitems.skip
    rw [parseValue_array fuel hdepth hskip, if_neg hc, ← hfirst] at h
    obtain ⟨⟨items, after'⟩, hparse, he⟩ := Option.map_eq_some_iff.mp h
    obtain ⟨-, rfl⟩ := Prod.mk.inj he
    exact ihe _ _ _ _ hitems' hparse
  | @emptyObject u _ hblank =>
    have htext : 123 :: (u ++ [125]) ++ t = 123 :: (u ++ 125 :: t) := by simp
    rw [htext] at h
    have hdepth := depth_of_open (.inr rfl) h
    rw [parseValue_object fuel hdepth (skip_blank hblank (by decide) t), if_pos rfl] at h
    cases h
    rfl
  | @object l _ hitems =>
    have htext : 123 :: (l ++ [125]) ++ t = 123 :: (l ++ 125 :: t) := by simp
    rw [htext] at h
    have hdepth := depth_of_open (.inr rfl) h
    obtain ⟨l', c, tail, hitems', hskip, hfirst, hc⟩ := hitems.skip
    rw [parseValue_object fuel hdepth hskip, if_neg hc, ← hfirst] at h
    obtain ⟨⟨items, after'⟩, hparse, he⟩ := Option.map_eq_some_iff.mp h
    obtain ⟨-, rfl⟩ := Prod.mk.inj he
    exact ihm _ _ _ _ hitems' hparse

/-- A parse that succeeds on a value of the grammar stops right behind it. -/
theorem parse_stops (fuel : Nat) :
    (∀ depth w t v after, IsValue w t → parseValue fuel depth (w ++ t) = some (v, after) →
      after = t) ∧
    (∀ depth w t l after, IsElements w (93 :: t) →
      parseElements fuel depth (w ++ 93 :: t) = some (l, after) → after = t) ∧
    (∀ depth w t l after, IsMembers w (125 :: t) →
      parseMembers fuel depth (w ++ 125 :: t) = some (l, after) → after = t) := by
  induction fuel with
  | zero =>
    refine ⟨?_, ?_, ?_⟩
    · intro depth w t v after _ h; cases h
    · intro depth w t l after _ h; cases h
    · intro depth w t l after _ h; cases h
  | succ fuel ih =>
    obtain ⟨ihv, ihe, ihm⟩ := ih
    refine ⟨?_, ?_, ?_⟩
    · intro depth w t v after hw h
      exact parseValue_stops (ihe (depth + 1)) (ihm (depth + 1)) hw h
    · intro depth w t l after hw h
      exact parseElements_stops (ihv depth) (ihe depth) hw h
    · intro depth w t l after hw h
      exact parseMembers_stops (ihv depth) (ihm depth) hw h

/-! ## The first value of a text -/

/-- The byte order mark of UTF-8. -/
def byteOrderMark : List UInt8 := [0xEF, 0xBB, 0xBF]

/-- What the parser passes over in front of the value. -/
def Skipped (front : List UInt8) : Prop :=
  ∃ mark w, front = mark ++ w ∧ (mark = [] ∨ mark = byteOrderMark) ∧ Blank w

/-- The text cut around its first value. -/
structure FirstValue (text : CStr) (front value back : List UInt8) : Prop where
  bytes_eq : text.bytes = front ++ (value ++ back)
  skipped : Skipped front
  derived : IsValue value (back ++ [0])

/-- There the parser starts. -/
theorem FirstValue.start {text : CStr} {front value back : List UInt8}
    (h : FirstValue text front value back) :
    bufferSkipWhitespace (skipUtf8Bom (text.bytes ++ [0])) = value ++ (back ++ [0]) := by
  obtain ⟨mark, w, rfl, hmark, hw⟩ := h.skipped
  obtain ⟨b, rest, hvalue, hb⟩ := h.derived.head
  have htext : text.bytes ++ [0] = mark ++ (w ++ (value ++ (back ++ [0]))) := by
    rw [h.bytes_eq]
    simp
  have hskip := skip_value hw h.derived
  rw [htext]
  rcases hmark with rfl | rfl
  · have hfirst : ∃ c tail, w ++ (value ++ (back ++ [0])) = c :: tail ∧ c ≠ 0xEF := by
      cases w with
      | nil => exact ⟨b, _, by rw [hvalue]; rfl, (startsValue_cases hb).2.2.2⟩
      | cons c w =>
        refine ⟨c, _, rfl, ?_⟩
        rintro rfl
        exact absurd (hw _ List.mem_cons_self) (by decide)
    obtain ⟨c, tail, hcons, hc⟩ := hfirst
    have hnomark : ¬(4 < (c :: tail).length ∧ (c :: tail).take 3 = [0xEF, 0xBB, 0xBF]) := by
      rw [List.take_succ_cons]
      exact fun hbom => hc (List.cons.inj hbom.2).1
    rw [hcons] at hskip
    rw [List.nil_append, hcons, skipUtf8Bom, if_neg hnomark, hskip]
  · have hlen : 0 < value.length := by simp [hvalue]
    have hmark : 4 < (byteOrderMark ++ (w ++ (value ++ (back ++ [0])))).length ∧
        (byteOrderMark ++ (w ++ (value ++ (back ++ [0])))).take 3 = [0xEF, 0xBB, 0xBF] := by
      refine ⟨?_, rfl⟩
      simp only [List.length_append, byteOrderMark, List.length_cons, List.length_nil]
      omega
    rw [skipUtf8Bom, if_pos hmark]
    exact hskip

theorem skip_ne_nil {inp : List UInt8} (h : inp ≠ []) : bufferSkipWhitespace inp ≠ [] := by
  fun_induction bufferSkipWhitespace inp with
  | case1 => exact h
  | case2 => exact h
  | case3 b b' rest hb ih => exact ih (by simp)
  | case4 => exact h

/-- The mark is skipped, or nothing is. -/
theorem skipUtf8Bom_split (inp : List UInt8) :
    ∃ mark, inp = mark ++ skipUtf8Bom inp ∧ (mark = [] ∨ mark = byteOrderMark) ∧
      (inp ≠ [] → skipUtf8Bom inp ≠ []) := by
  unfold skipUtf8Bom
  split
  next h =>
    refine ⟨byteOrderMark, ?_, .inr rfl, fun _ => ?_⟩
    · rw [byteOrderMark, ← h.2, List.take_append_drop]
    · intro hnil
      have hlen := congrArg List.length hnil
      rw [List.length_drop, List.length_nil] at hlen
      omega
  next => exact ⟨[], rfl, .inl rfl, id⟩

/-- A text that parses has a first value, and the parse stops behind it. -/
theorem exists_firstValue {text : CStr} {v : Json} {after : List UInt8}
    (h : parsePrefix text = some (v, after)) :
    ∃ front value back, FirstValue text front value back ∧ after = back ++ [0] := by
  obtain ⟨mark, hbom, hmark, hne⟩ := skipUtf8Bom_split (text.bytes ++ [0])
  obtain ⟨w, hskip, hw⟩ := skip_split (skipUtf8Bom (text.bytes ++ [0]))
  have hrest : bufferSkipWhitespace (skipUtf8Bom (text.bytes ++ [0])) ≠ [] :=
    skip_ne_nil (hne (by simp))
  rw [parsePrefix] at h
  generalize bufferSkipWhitespace (skipUtf8Bom (text.bytes ++ [0])) = inp at h hskip hrest
  rw [hskip, ← List.append_assoc] at hbom
  -- the NUL is the last byte of what is left
  obtain ⟨x, rfl⟩ : ∃ x, inp = x ++ [0] := by
    refine ⟨inp.dropLast, ?_⟩
    have hlast : inp.getLast hrest = 0 := by
      have heq := congrArg List.getLast? hbom
      rw [List.getLast?_append_of_ne_nil _ hrest, List.getLast?_eq_some_getLast hrest,
        List.getLast?_concat] at heq
      exact (Option.some.inj heq).symm
    rw [← hlast, List.dropLast_append_getLast]
  rw [← List.append_assoc, List.append_left_inj] at hbom
  obtain ⟨y, rfl, -⟩ := (parse_extends _).1 0 x v after h
  obtain ⟨value, hvalue, hderived⟩ := (parse_derived _).1 _ _ _ _ h
  rw [← List.append_assoc, List.append_left_inj] at hvalue
  exact ⟨mark ++ w, value, y, ⟨by rw [hbom, hvalue], ⟨mark, w, rfl, hmark, hw⟩, hderived⟩, rfl⟩

/-- A text that parses has one first value only. -/
theorem FirstValue.unique {text : CStr} (hparse : cJSONParse text ≠ none)
    {front value back front' value' back' : List UInt8} (h : FirstValue text front value back)
    (h' : FirstValue text front' value' back') :
    front = front' ∧ value = value' ∧ back = back' := by
  obtain ⟨v, hv⟩ := Option.ne_none_iff_exists'.mp hparse
  obtain ⟨⟨v', after⟩, hcut, -⟩ := Option.map_eq_some_iff.mp hv
  have hcall := hcut
  rw [parsePrefix, h.start] at hcut
  rw [parsePrefix, h'.start] at hcall
  have hback : back ++ [0] = back' ++ [0] :=
    ((parse_stops _).1 _ _ _ _ _ h.derived hcut).symm.trans
      ((parse_stops _).1 _ _ _ _ _ h'.derived hcall)
  have hstart := h.start.symm.trans h'.start
  rw [hback, List.append_left_inj] at hstart
  subst hstart
  obtain rfl := List.append_cancel_right hback
  have hbytes := h.bytes_eq.symm.trans h'.bytes_eq
  exact ⟨List.append_cancel_right hbytes, rfl, rfl⟩

end DspEmbedded.CJson
