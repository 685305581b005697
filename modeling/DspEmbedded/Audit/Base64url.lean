import DspEmbedded.Lib.BitGroups
import DspEmbedded.Model.Jwt

/-!
# Base64url without padding

What the decoder of `dsp_jwt.c` accepts and writes, in terms of the alphabet as a
list and of bit strings: the 6-bit values of the characters one behind the other,
cut into bytes. The loop takes four characters to three bytes, so the argument
goes by groups, with one case for each length of the rest.
-/
namespace DspEmbedded.Audit.Base64url

open Lib.BitGroups Model.Jwt

/-! ## The encoding -/

/-- The URL-safe alphabet in the order of the values. -/
def alphabet : List UInt8 :=
  (List.range 26).map (fun n => UInt8.ofNat (65 + n)) ++
    (List.range 26).map (fun n => UInt8.ofNat (97 + n)) ++
    (List.range 10).map (fun n => UInt8.ofNat (48 + n)) ++ [45, 95]

def sixBits (c : UInt8) : Nat := alphabet.idxOf c

/-- The bytes that a string of characters stands for; left-over bits are ignored. -/
def decoded (cs : List UInt8) : List UInt8 :=
  (regroup 6 8 (cs.map sixBits)).map UInt8.ofNat

def encode (bytes : List UInt8) : List UInt8 :=
  (regroupPadded 8 6 (bytes.map UInt8.toNat)).map fun v => alphabet.getD v 0

/-- `INT_MAX`. -/
def intMax : Nat := 2 ^ 31 - 1

/-- What the decoder accepts into a buffer with room for `room` bytes. -/
structure Accepted (cs : List UInt8) (room : Nat) : Prop where
  chars : ∀ c ∈ cs, c ∈ alphabet
  length : cs.length % 4 ≠ 1
  fits : 3 * cs.length / 4 ≤ room

theorem forall_byte {P : UInt8 → Prop} (h : ∀ n < 256, P (UInt8.ofNat n)) (c : UInt8) : P c := by
  have hc := h c.toNat c.toNat_lt
  rwa [UInt8.ofNat_toNat] at hc

theorem sixBits_lt {c : UInt8} (h : c ∈ alphabet) : sixBits c < 2 ^ 6 :=
  List.idxOf_lt_length_of_mem h

theorem getD_sixBits {c : UInt8} (h : c ∈ alphabet) : alphabet.getD (sixBits c) 0 = c := by
  have hlt := List.idxOf_lt_length_of_mem h
  rw [sixBits, List.getD_eq_getElem _ _ hlt, List.getElem_idxOf]

theorem sixBits_getD : ∀ v < 64, sixBits (alphabet.getD v 0) = v ∧ alphabet.getD v 0 ∈ alphabet := by
  decide +kernel

theorem charToVal_getD : ∀ v < 64, b64urlCharToVal (alphabet.getD v 0) = v := by decide +kernel

theorem charToVal_cases (c : UInt8) :
    b64urlCharToVal c = -1 ∨
      (b64urlCharToVal c).toNat < 64 ∧ alphabet.getD (b64urlCharToVal c).toNat 0 = c := by
  revert c
  exact forall_byte (by decide +kernel)

theorem charToVal_eq (c : UInt8) :
    b64urlCharToVal c = if c ∈ alphabet then (sixBits c : Int) else -1 := by
  split_ifs with h
  · conv_lhs => rw [← getD_sixBits h]
    exact charToVal_getD _ (sixBits_lt h)
  · rcases charToVal_cases c with hneg | ⟨hlt, hchar⟩
    · exact hneg
    · have hmem := (sixBits_getD _ hlt).2
      rw [hchar] at hmem
      exact absurd hmem h

theorem charToVal_neg (c : UInt8) : b64urlCharToVal c < 0 ↔ c ∉ alphabet := by
  rw [charToVal_eq]
  split_ifs with h
  · simp [h]
  · simp [h]

theorem toNat_charToVal {c : UInt8} (h : c ∈ alphabet) : (b64urlCharToVal c).toNat = sixBits c := by
  rw [charToVal_eq, if_pos h, Int.toNat_natCast]

/-! ## Bits of one group -/

section Bits

variable {v0 v1 v2 v3 : Nat}

theorem testBit_six {v : Nat} (h : v < 2 ^ 6) {i : Nat} (hi : 6 ≤ i) : v.testBit i = false :=
  Nat.testBit_lt_two_pow (h.trans_le (Nat.pow_le_pow_right (by decide) hi))

theorem bits_byte0 (h1 : v1 < 2 ^ 6) :
    bits 6 v0 ++ bits 6 v1 = bits 8 ((v0 <<< 2 ||| v1 >>> 4) % 256) ++ (bits 6 v1).drop 2 := by
  have hhigh := fun i hi => testBit_six h1 (i := i) hi
  simp [bits, List.range_succ, Nat.testBit_mod_two_pow _ 8, hhigh]

theorem bits_byte1 (h2 : v2 < 2 ^ 6) :
    (bits 6 v1).drop 2 ++ bits 6 v2 =
      bits 8 ((v1 <<< 4 ||| v2 >>> 2) % 256) ++ (bits 6 v2).drop 4 := by
  have hhigh := fun i hi => testBit_six h2 (i := i) hi
  simp [bits, List.range_succ, Nat.testBit_mod_two_pow _ 8, hhigh]

theorem bits_byte2 (h3 : v3 < 2 ^ 6) :
    (bits 6 v2).drop 4 ++ bits 6 v3 = bits 8 ((v2 <<< 6 ||| v3) % 256) := by
  have hhigh := fun i hi => testBit_six h3 (i := i) hi
  simp [bits, List.range_succ, Nat.testBit_mod_two_pow _ 8, hhigh]

end Bits

/-! ## Groups of characters -/

section Chars

variable {c0 c1 c2 c3 : UInt8}

theorem toNat_byte0 (h0 : c0 ∈ alphabet) (h1 : c1 ∈ alphabet) :
    (byte0 (b64urlCharToVal c0) (b64urlCharToVal c1)).toNat =
      (sixBits c0 <<< 2 ||| sixBits c1 >>> 4) % 256 := by
  rw [byte0, UInt8.toNat_ofNat', toNat_charToVal h0, toNat_charToVal h1]

theorem toNat_byte1 (h1 : c1 ∈ alphabet) (h2 : c2 ∈ alphabet) :
    (byte1 (b64urlCharToVal c1) (b64urlCharToVal c2)).toNat =
      (sixBits c1 <<< 4 ||| sixBits c2 >>> 2) % 256 := by
  rw [byte1, UInt8.toNat_ofNat', toNat_charToVal h1, toNat_charToVal h2]

theorem toNat_byte2 (h2 : c2 ∈ alphabet) (h3 : c3 ∈ alphabet) :
    (byte2 (b64urlCharToVal c2) (b64urlCharToVal c3)).toNat =
      (sixBits c2 <<< 6 ||| sixBits c3) % 256 := by
  rw [byte2, UInt8.toNat_ofNat', toNat_charToVal h2, toNat_charToVal h3]

/-- Bytes whose bits begin a string of bits are its first groups. -/
theorem decoded_eq {cs : List UInt8} {bytes : List UInt8} {rest : List Bool}
    (h : (cs.map sixBits).flatMap (bits 6) = (bytes.map UInt8.toNat).flatMap (bits 8) ++ rest) :
    decoded cs = bytes ++ (groups 8 rest).map UInt8.ofNat := by
  have hlt : ∀ v ∈ bytes.map UInt8.toNat, v < 2 ^ 8 := by
    intro v hv
    obtain ⟨b, -, rfl⟩ := List.mem_map.mp hv
    exact b.toNat_lt
  have hback : (bytes.map UInt8.toNat).map UInt8.ofNat = bytes := by
    rw [List.map_map]
    exact List.map_id'' (fun b => UInt8.ofNat_toNat) bytes
  rw [decoded, regroup, h, groups_flatMap_bits (by decide) hlt, List.map_append, hback]

/-- The bytes of a complete group. -/
def groupBytes (c0 c1 c2 c3 : UInt8) : List UInt8 :=
  [byte0 (b64urlCharToVal c0) (b64urlCharToVal c1), byte1 (b64urlCharToVal c1) (b64urlCharToVal c2),
    byte2 (b64urlCharToVal c2) (b64urlCharToVal c3)]

@[simp] theorem length_groupBytes : (groupBytes c0 c1 c2 c3).length = 3 := rfl

/-- A complete group comes first. -/
theorem decoded_group (h0 : c0 ∈ alphabet) (h1 : c1 ∈ alphabet) (h2 : c2 ∈ alphabet)
    (h3 : c3 ∈ alphabet) (rest : List UInt8) :
    decoded (c0 :: c1 :: c2 :: c3 :: rest) = groupBytes c0 c1 c2 c3 ++ decoded rest := by
  refine @decoded_eq _ _ ((rest.map sixBits).flatMap (bits 6)) ?_
  simp only [groupBytes, List.map_cons, List.map_nil, List.flatMap_cons, List.flatMap_nil, List.append_nil,
    toNat_byte0 h0 h1, toNat_byte1 h1 h2, toNat_byte2 h2 h3]
  have h01 := @bits_byte0 (sixBits c0) _ (sixBits_lt h1)
  have h12 := @bits_byte1 (sixBits c1) _ (sixBits_lt h2)
  have h23 := @bits_byte2 (sixBits c2) _ (sixBits_lt h3)
  rw [← List.append_assoc, h01, List.append_assoc, ← List.append_assoc (List.drop 2 _), h12,
    List.append_assoc, ← List.append_assoc (List.drop 4 _), h23]
  simp only [List.append_assoc]

theorem decoded_two (h0 : c0 ∈ alphabet) (h1 : c1 ∈ alphabet) :
    decoded [c0, c1] = [byte0 (b64urlCharToVal c0) (b64urlCharToVal c1)] := by
  have h01 := @bits_byte0 (sixBits c0) _ (sixBits_lt h1)
  have heq := @decoded_eq [c0, c1] [byte0 (b64urlCharToVal c0) (b64urlCharToVal c1)]
    ((bits 6 (sixBits c1)).drop 2) <| by
      simp only [List.map_cons, List.map_nil, List.flatMap_cons, List.flatMap_nil,
        List.append_nil, toNat_byte0 h0 h1, h01]
  rw [heq, groups_eq_nil (by simp), List.map_nil, List.append_nil]

theorem decoded_three (h0 : c0 ∈ alphabet) (h1 : c1 ∈ alphabet) (h2 : c2 ∈ alphabet) :
    decoded [c0, c1, c2] =
      [byte0 (b64urlCharToVal c0) (b64urlCharToVal c1),
        byte1 (b64urlCharToVal c1) (b64urlCharToVal c2)] := by
  have h01 := @bits_byte0 (sixBits c0) _ (sixBits_lt h1)
  have h12 := @bits_byte1 (sixBits c1) _ (sixBits_lt h2)
  have heq := @decoded_eq [c0, c1, c2]
    [byte0 (b64urlCharToVal c0) (b64urlCharToVal c1),
      byte1 (b64urlCharToVal c1) (b64urlCharToVal c2)]
    ((bits 6 (sixBits c2)).drop 4) <| by
      simp only [List.map_cons, List.map_nil, List.flatMap_cons, List.flatMap_nil,
        List.append_nil, toNat_byte0 h0 h1, toNat_byte1 h1 h2]
      rw [← List.append_assoc, h01, List.append_assoc, h12, List.append_assoc]
  rw [heq, groups_eq_nil (by simp), List.map_nil, List.append_nil]

end Chars

theorem length_decoded (cs : List UInt8) : (decoded cs).length = 3 * cs.length / 4 := by
  rw [decoded, List.length_map, regroup, length_groups, length_flatMap_bits, List.length_map]
  omega

/-! ## Memory -/

/-- The next character, and what is left after it. -/
theorem next_char {src : List UInt8} {srcLen i : Nat} (hsrc : srcLen ≤ src.length)
    (hi : i < srcLen) :
    ∃ c, charVal src i = some (b64urlCharToVal c) ∧
      (src.take srcLen).drop i = c :: (src.take srcLen).drop (i + 1) := by
  have hlt : i < (src.take srcLen).length := by
    rw [List.length_take]
    omega
  refine ⟨(src.take srcLen)[i], ?_, List.drop_eq_getElem_cons hlt⟩
  rw [charVal, List.getElem_take, List.getElem?_eq_getElem (by omega)]
  rfl

/-- Bytes stored in the room that is left take the place of what was there. -/
theorem storeAll_append (done : List UInt8) {old vs : List UInt8} (h : vs.length ≤ old.length) :
    storeAll (done ++ old) done.length vs = some (done ++ vs ++ old.drop vs.length) := by
  induction vs generalizing done old with
  | nil => simp [storeAll]
  | cons v vs ih =>
    cases old with
    | nil => simp at h
    | cons x old =>
      have hstore : store (done ++ x :: old) done.length v = some ((done ++ [v]) ++ old) := by
        rw [store, if_pos (by simp), List.set_append_right _ _ le_rfl, Nat.sub_self]
        simp
      have hnext := ih (done ++ [v]) (show vs.length ≤ old.length by simpa using h)
      rw [List.length_append, List.length_singleton] at hnext
      rw [storeAll, hstore, Option.bind_some, hnext]
      simp

/-- The buffer has its length and everything from `cap` on as before. -/
def Untouched (cap : Nat) (dst dst' : List UInt8) : Prop :=
  dst'.length = dst.length ∧ dst'.drop cap = dst.drop cap

theorem Untouched.refl (cap : Nat) (dst : List UInt8) : Untouched cap dst dst := ⟨rfl, rfl⟩

theorem Untouched.trans {cap : Nat} {a b c : List UInt8} (h : Untouched cap a b)
    (h' : Untouched cap b c) : Untouched cap a c := ⟨h'.1.trans h.1, h'.2.trans h.2⟩

theorem untouched_append {cap : Nat} {done old vs : List UInt8} (h : vs.length ≤ old.length)
    (hcap : done.length + vs.length ≤ cap) :
    Untouched cap (done ++ old) (done ++ vs ++ old.drop vs.length) := by
  constructor
  · simp only [List.length_append, List.length_drop]
    omega
  · rw [List.drop_append, List.drop_eq_nil_of_le (by rw [List.length_append]; omega),
      List.drop_append, List.drop_eq_nil_of_le (by omega : done.length ≤ cap), List.drop_drop,
      List.length_append]
    congr 2
    omega

/-! ## The loop -/

/-- The result for the characters `cs`, with the bytes `done` already written. -/
def Outcome (cap : Nat) (cs done old : List UInt8) (res : Option (Int × List UInt8)) : Prop :=
  (Accepted cs (cap - done.length) ∧
    res = some (toInt (done.length + 3 * cs.length / 4),
      done ++ decoded cs ++ old.drop (3 * cs.length / 4))) ∨
  (¬ Accepted cs (cap - done.length) ∧
    ∃ dst', res = some (-1, dst') ∧ Untouched cap (done ++ old) dst')

theorem Outcome.refused {cap : Nat} {cs done old : List UInt8}
    (h : ¬ Accepted cs (cap - done.length)) :
    Outcome cap cs done old (some (-1, done ++ old)) := .inr ⟨h, _, rfl, .refl _ _⟩

/-- A rest of two or three characters whose bytes are `vs`. -/
theorem outcome_tail {cap : Nat} {cs done old vs : List UInt8} (hcs : ∀ c ∈ cs, c ∈ alphabet)
    (hmod : cs.length % 4 ≠ 1) (hvs : decoded cs = vs) (hdone : done.length ≤ cap)
    (hcap : cap ≤ (done ++ old).length) :
    Outcome cap cs done old
      (if cap < done.length + vs.length then some (-1, done ++ old)
      else (storeAll (done ++ old) done.length vs).map
        fun dst => (toInt (done.length + vs.length), dst)) := by
  have hlen : vs.length = 3 * cs.length / 4 := by rw [← hvs, length_decoded]
  rw [List.length_append] at hcap
  split_ifs with hroom
  · apply Outcome.refused
    intro h
    have hfits := h.fits
    omega
  · left
    refine ⟨⟨hcs, hmod, by omega⟩, ?_⟩
    rw [storeAll_append done (by omega), Option.map_some, hvs, ← hlen]

/-- A character outside the alphabet, anywhere. -/
theorem Outcome.bad_char {cap : Nat} {cs done old : List UInt8} {c : UInt8} (hmem : c ∈ cs)
    (hc : c ∉ alphabet) : Outcome cap cs done old (some (-1, done ++ old)) :=
  .refused fun h => hc (h.chars c hmem)

theorem decodeTail_outcome {src done old : List UInt8} {srcLen cap i : Nat}
    (hsrc : srcLen ≤ src.length) (hi : i ≤ srcLen) (hlast : srcLen < i + 4)
    (hdone : done.length ≤ cap) (hcap : cap ≤ (done ++ old).length) :
    Outcome cap ((src.take srcLen).drop i) done old
      (decodeTail src srcLen cap i done.length (done ++ old)) := by
  have hrest : ((src.take srcLen).drop i).length = srcLen - i := by
    rw [List.length_drop, List.length_take]
    omega
  have hcases : srcLen - i = 0 ∨ srcLen - i = 1 ∨ srcLen - i = 2 ∨ srcLen - i = 3 := by omega
  rw [decodeTail]
  rcases hcases with h | h | h | h
  · have hnil : (src.take srcLen).drop i = [] := List.length_eq_zero_iff.mp (hrest.trans h)
    simp only [h, Nat.zero_ne_one, if_false, OfNat.zero_ne_ofNat]
    rw [hnil]
    left
    refine ⟨⟨by simp, by decide, by simp⟩, ?_⟩
    simp [decoded, regroup, groups]
  · rw [if_pos h]
    apply Outcome.refused
    intro hacc
    have hmod := hacc.length
    omega
  · obtain ⟨c0, hc0, heq0⟩ := next_char hsrc (by omega : i < srcLen)
    obtain ⟨c1, hc1, heq1⟩ := next_char hsrc (by omega : i + 1 < srcLen)
    have hend : (src.take srcLen).drop (i + 1 + 1) = [] := by
      apply List.drop_eq_nil_of_le
      rw [List.length_take]
      omega
    rw [if_neg (by omega), if_pos h, hc0, hc1, heq0, heq1, hend]
    simp only [charToVal_neg]
    by_cases hbad : c0 ∉ alphabet ∨ c1 ∉ alphabet
    · rw [if_pos hbad]
      rcases hbad with hb | hb
      · exact .bad_char (by simp) hb
      · exact .bad_char (by simp) hb
    · rw [if_neg hbad]
      push Not at hbad
      obtain ⟨h0, h1⟩ := hbad
      exact outcome_tail (by simp [h0, h1]) (by simp) (decoded_two h0 h1) hdone hcap
  · obtain ⟨c0, hc0, heq0⟩ := next_char hsrc (by omega : i < srcLen)
    obtain ⟨c1, hc1, heq1⟩ := next_char hsrc (by omega : i + 1 < srcLen)
    obtain ⟨c2, hc2, heq2⟩ := next_char hsrc (by omega : i + 1 + 1 < srcLen)
    have hend : (src.take srcLen).drop (i + 1 + 1 + 1) = [] := by
      apply List.drop_eq_nil_of_le
      rw [List.length_take]
      omega
    rw [if_neg (by omega), if_neg (by omega), if_pos h, hc0, hc1, hc2, heq0, heq1, heq2, hend]
    simp only [charToVal_neg]
    by_cases hbad : c0 ∉ alphabet ∨ c1 ∉ alphabet ∨ c2 ∉ alphabet
    · rw [if_pos hbad]
      rcases hbad with hb | hb | hb
      · exact .bad_char (by simp) hb
      · exact .bad_char (by simp) hb
      · exact .bad_char (by simp) hb
    · rw [if_neg hbad]
      push Not at hbad
      obtain ⟨h0, h1, h2⟩ := hbad
      exact outcome_tail (by simp [h0, h1, h2]) (by simp) (decoded_three h0 h1 h2) hdone hcap

/-- A group in front of what the loop does with the rest. -/
theorem Outcome.group {cap : Nat} {c0 c1 c2 c3 : UInt8} {cs done old : List UInt8}
    {res : Option (Int × List UInt8)} (h0 : c0 ∈ alphabet) (h1 : c1 ∈ alphabet)
    (h2 : c2 ∈ alphabet) (h3 : c3 ∈ alphabet) (hroom : done.length + 3 ≤ cap)
    (hcap : cap ≤ (done ++ old).length)
    (hrest : Outcome cap cs (done ++ groupBytes c0 c1 c2 c3) (old.drop 3) res) :
    Outcome cap (c0 :: c1 :: c2 :: c3 :: cs) done old res := by
  rw [List.length_append] at hcap
  have hacc : Accepted (c0 :: c1 :: c2 :: c3 :: cs) (cap - done.length) ↔
      Accepted cs (cap - (done.length + 3)) := by
    constructor
    · intro ⟨hchars, hlen, hfits⟩
      simp only [List.length_cons] at hlen hfits
      exact ⟨fun c hc => hchars c (by simp [hc]), by omega, by omega⟩
    · intro ⟨hchars, hlen, hfits⟩
      refine ⟨by simpa [h0, h1, h2, h3] using hchars, ?_, ?_⟩
      · simp only [List.length_cons]
        omega
      · simp only [List.length_cons]
        omega
  rcases hrest with ⟨hyes, rfl⟩ | ⟨hno, dst', rfl, hkept⟩
  · left
    rw [List.length_append, length_groupBytes] at hyes
    refine ⟨hacc.mpr hyes, ?_⟩
    have hcount : 3 * (c0 :: c1 :: c2 :: c3 :: cs).length / 4 = 3 + 3 * cs.length / 4 := by
      simp only [List.length_cons]
      omega
    rw [decoded_group h0 h1 h2 h3, hcount, List.length_append, length_groupBytes, List.drop_drop]
    simp only [List.append_assoc]
    congr 3
    omega
  · right
    rw [List.length_append, length_groupBytes] at hno
    refine ⟨fun h => hno (hacc.mp h), dst', rfl, ?_⟩
    refine .trans ?_ hkept
    exact untouched_append (by rw [length_groupBytes]; omega) hroom

/-- Where the loop stands after any number of groups, the rest decides. -/
theorem decodeGroups_outcome {src : List UInt8} {srcLen cap : Nat} (hsrc : srcLen ≤ src.length)
    (rounds i : Nat) (done old : List UInt8) (hrounds : srcLen < i + rounds) (hi : i ≤ srcLen)
    (hdone : done.length ≤ cap) (hcap : cap ≤ (done ++ old).length) :
    Outcome cap ((src.take srcLen).drop i) done old
      (decodeGroups src srcLen cap rounds i done.length (done ++ old)) := by
  induction rounds generalizing i done old with
  | zero => omega
  | succ rounds ih =>
    rw [decodeGroups]
    by_cases hmore : i + 3 < srcLen
    · rw [if_pos hmore]
      obtain ⟨c0, hc0, heq0⟩ := next_char hsrc (by omega : i < srcLen)
      obtain ⟨c1, hc1, heq1⟩ := next_char hsrc (by omega : i + 1 < srcLen)
      obtain ⟨c2, hc2, heq2⟩ := next_char hsrc (by omega : i + 1 + 1 < srcLen)
      obtain ⟨c3, hc3, heq3⟩ := next_char hsrc (by omega : i + 1 + 1 + 1 < srcLen)
      rw [hc0, hc1, hc2, hc3, heq0, heq1, heq2, heq3]
      simp only [charToVal_neg]
      by_cases hbad : c0 ∉ alphabet ∨ c1 ∉ alphabet ∨ c2 ∉ alphabet ∨ c3 ∉ alphabet
      · rw [if_pos hbad]
        rcases hbad with hb | hb | hb | hb
        · exact .bad_char (by simp) hb
        · exact .bad_char (by simp) hb
        · exact .bad_char (by simp) hb
        · exact .bad_char (by simp) hb
      · rw [if_neg hbad]
        push Not at hbad
        obtain ⟨h0, h1, h2, h3⟩ := hbad
        by_cases hroom : cap < done.length + 3
        · rw [if_pos hroom]
          apply Outcome.refused
          intro hacc
          have hfits := hacc.fits
          simp only [List.length_cons] at hfits
          omega
        · rw [if_neg hroom]
          have hold : 3 ≤ old.length := by
            rw [List.length_append] at hcap
            omega
          have hstored := @storeAll_append done old (groupBytes c0 c1 c2 c3) hold
          rw [groupBytes] at hstored
          rw [hstored, Option.bind_some]
          refine .group h0 h1 h2 h3 (by omega) hcap ?_
          have hnext := ih (i + 4) (done ++ groupBytes c0 c1 c2 c3) (old.drop 3) (by omega)
            (by omega) (by rw [List.length_append, length_groupBytes]; omega) (by
              simp only [List.length_append, List.length_drop, length_groupBytes] at hcap ⊢
              omega)
          rw [List.length_append, length_groupBytes] at hnext
          exact hnext
    · rw [if_neg hmore]
      exact decodeTail_outcome hsrc hi (by omega) hdone hcap

theorem toInt_eq {n : Nat} (h : n ≤ intMax) : toInt n = n := by
  have hlt : n < 2147483648 := Nat.lt_succ_of_le h
  exact Int.bmod_eq_of_le (by omega) (by omega)

theorem charVal_take {src : List UInt8} {srcLen i : Nat} (h : i < srcLen) :
    charVal (src.take srcLen) i = charVal src i := by
  rw [charVal, charVal, List.getElem?_take_of_lt h]

theorem decodeTail_take (src : List UInt8) {srcLen i : Nat} (hi : i ≤ srcLen) (cap out : Nat)
    (dst : List UInt8) :
    decodeTail (src.take srcLen) srcLen cap i out dst = decodeTail src srcLen cap i out dst := by
  rw [decodeTail, decodeTail]
  by_cases h2 : srcLen - i = 2
  · rw [charVal_take (by omega), charVal_take (by omega)]
    simp only [h2, OfNat.ofNat_ne_one, if_false, if_true]
  · by_cases h3 : srcLen - i = 3
    · rw [charVal_take (by omega), charVal_take (by omega), charVal_take (by omega)]
    · simp only [h2, h3, if_false]

/-- What stands behind the characters plays no part, nor whether anything does. -/
theorem decodeGroups_take (src : List UInt8) {srcLen i : Nat} (hi : i ≤ srcLen)
    (cap rounds out : Nat) (dst : List UInt8) :
    decodeGroups (src.take srcLen) srcLen cap rounds i out dst =
      decodeGroups src srcLen cap rounds i out dst := by
  induction rounds generalizing i out dst with
  | zero => rfl
  | succ rounds ih =>
    rw [decodeGroups, decodeGroups]
    by_cases hmore : i + 3 < srcLen
    · rw [if_pos hmore, if_pos hmore, charVal_take (by omega), charVal_take (by omega),
        charVal_take (by omega), charVal_take hmore]
      simp only [ih (by omega : i + 4 ≤ srcLen)]
    · rw [if_neg hmore, if_neg hmore, decodeTail_take src hi]

theorem decode_take (src : List UInt8) (srcLen : Nat) (dst : Option (List UInt8)) (dstCap : Nat) :
    dspJwtBase64urlDecode (some (src.take srcLen)) srcLen dst dstCap =
      dspJwtBase64urlDecode (some src) srcLen dst dstCap := by
  cases dst with
  | none => rfl
  | some dst =>
    rw [dspJwtBase64urlDecode, dspJwtBase64urlDecode]
    simp only [decodeGroups_take src (Nat.zero_le srcLen)]

/-- A call decides on the characters alone and never faults. -/
theorem decode_outcome {src dst : List UInt8} {srcLen dstCap : Nat} (hsrc : srcLen ≤ src.length)
    (hdst : dstCap ≤ dst.length) :
    ∃ res, dspJwtBase64urlDecode (some src) srcLen (some dst) dstCap =
        res.map (fun r => (r.1, some r.2)) ∧ Outcome dstCap (src.take srcLen) [] dst res :=
  ⟨_, rfl, decodeGroups_outcome hsrc (srcLen + 1) 0 [] dst (by omega) (by omega) (by simp) hdst⟩

theorem decode_accepted {src dst : List UInt8} {srcLen dstCap : Nat} (hsrc : srcLen ≤ src.length)
    (hdst : dstCap ≤ dst.length) (hmax : 3 * srcLen / 4 ≤ intMax)
    (hacc : Accepted (src.take srcLen) dstCap) :
    dspJwtBase64urlDecode (some src) srcLen (some dst) dstCap =
      some (((3 * srcLen / 4 : Nat) : Int),
        some (decoded (src.take srcLen) ++ dst.drop (3 * srcLen / 4))) := by
  obtain ⟨res, hres, hyes | hno⟩ := decode_outcome hsrc hdst
  · rw [hres, hyes.2, List.length_take, Nat.min_eq_left hsrc]
    simp only [List.length_nil, Nat.zero_add, List.nil_append, Option.map_some]
    rw [toInt_eq hmax]
  · exact absurd hacc hno.1

theorem decode_refused {src dst : List UInt8} {srcLen dstCap : Nat} (hsrc : srcLen ≤ src.length)
    (hdst : dstCap ≤ dst.length) (hacc : ¬ Accepted (src.take srcLen) dstCap) :
    ∃ dst', dspJwtBase64urlDecode (some src) srcLen (some dst) dstCap = some (-1, some dst') ∧
      Untouched dstCap dst dst' := by
  obtain ⟨res, hres, hyes | ⟨hno, dst', rfl, hkept⟩⟩ := decode_outcome hsrc hdst
  · exact absurd hyes.1 hacc
  · exact ⟨dst', hres, hkept⟩

/-! ## Encoding and back -/

theorem length_encode (bytes : List UInt8) :
    (encode bytes).length = (4 * bytes.length + 2) / 3 := by
  have hbits : ((bytes.map UInt8.toNat).flatMap (bits 8)).length = 8 * bytes.length := by
    rw [length_flatMap_bits, List.length_map]
  rw [encode, List.length_map, regroupPadded, length_groups, List.length_append, pad,
    List.length_replicate, hbits]
  omega

theorem lt_of_mem_regroupPadded {vs : List Nat} {v : Nat} (h : v ∈ regroupPadded 8 6 vs) :
    v < 64 := lt_of_mem_groups h

theorem encode_accepted {bytes : List UInt8} {room : Nat} (h : bytes.length ≤ room) :
    Accepted (encode bytes) room := by
  refine ⟨?_, ?_, ?_⟩
  · intro c hc
    obtain ⟨v, hv, rfl⟩ := List.mem_map.mp hc
    exact (sixBits_getD v (lt_of_mem_regroupPadded hv)).2
  · rw [length_encode]
    omega
  · rw [length_encode]
    omega

/-- The characters of an encoding stand for the bytes. -/
theorem decoded_encode (bytes : List UInt8) : decoded (encode bytes) = bytes := by
  have hvalues : (encode bytes).map sixBits = regroupPadded 8 6 (bytes.map UInt8.toNat) := by
    rw [encode, List.map_map]
    conv_rhs => rw [← List.map_id (regroupPadded 8 6 (bytes.map UInt8.toNat))]
    apply List.map_congr_left
    intro v hv
    exact (sixBits_getD v (lt_of_mem_regroupPadded hv)).1
  have hbytes : ∀ v ∈ bytes.map UInt8.toNat, v < 2 ^ 8 := by
    intro v hv
    obtain ⟨b, -, rfl⟩ := List.mem_map.mp hv
    exact b.toNat_lt
  rw [decoded, hvalues, regroup_regroupPadded (by decide) (by decide) hbytes, List.map_map]
  exact List.map_id'' (fun b => UInt8.ofNat_toNat) bytes

theorem decode_encode {bytes dst : List UInt8} {dstCap : Nat} (hfits : bytes.length ≤ dstCap)
    (hdst : dstCap ≤ dst.length) (hmax : bytes.length ≤ intMax) :
    dspJwtBase64urlDecode (some (encode bytes)) (encode bytes).length (some dst) dstCap =
      some ((bytes.length : Int), some (bytes ++ dst.drop bytes.length)) := by
  have hlen : 3 * (encode bytes).length / 4 = bytes.length := by
    rw [length_encode]
    omega
  have hcall := decode_accepted le_rfl hdst (by rwa [hlen])
    (by rw [List.take_length]; exact encode_accepted hfits)
  rw [hcall, List.take_length, decoded_encode, hlen]

/-! ## The decoder -/

/-- **Base64url is decoded exactly.** The decoder accepts characters of the
alphabet in every number but one more than a multiple of four, whose bytes fit;
then the bytes are there, and else the result is -1. No access is outside the
characters given or the capacity. What an encoder writes comes back. -/
theorem base64url_exact :
    (∀ (src dst : List UInt8) (srcLen dstCap : Nat), srcLen ≤ src.length → dstCap ≤ dst.length →
      3 * srcLen / 4 ≤ intMax →
      dspJwtBase64urlDecode (some src) srcLen (some dst) dstCap =
          dspJwtBase64urlDecode (some (src.take srcLen)) srcLen (some dst) dstCap ∧
        ∃ ret dst', dspJwtBase64urlDecode (some src) srcLen (some dst) dstCap =
            some (ret, some dst') ∧
          Untouched dstCap dst dst' ∧
          (0 ≤ ret ↔ Accepted (src.take srcLen) dstCap) ∧
          (0 ≤ ret → ret = ((3 * srcLen / 4 : Nat) : Int) ∧
            dst'.take (3 * srcLen / 4) = decoded (src.take srcLen)) ∧
          (¬ 0 ≤ ret → ret = -1)) ∧
    ∀ (bytes dst : List UInt8) (dstCap : Nat), bytes.length ≤ dstCap → dstCap ≤ dst.length →
      bytes.length ≤ intMax →
      dspJwtBase64urlDecode (some (encode bytes)) (encode bytes).length (some dst) dstCap =
        some ((bytes.length : Int), some (bytes ++ dst.drop bytes.length)) := by
  refine ⟨?_, fun bytes dst dstCap => decode_encode⟩
  intro src dst srcLen dstCap hsrc hdst hmax
  refine ⟨(decode_take src srcLen (some dst) dstCap).symm, ?_⟩
  by_cases hacc : Accepted (src.take srcLen) dstCap
  · have hfits := hacc.fits
    rw [List.length_take, Nat.min_eq_left hsrc] at hfits
    have hlen : (decoded (src.take srcLen)).length = 3 * srcLen / 4 := by
      rw [length_decoded, List.length_take, Nat.min_eq_left hsrc]
    refine ⟨_, _, decode_accepted hsrc hdst hmax hacc, ?_, ?_, ?_, ?_⟩
    · have hkept := @untouched_append dstCap [] dst (decoded (src.take srcLen)) (by omega)
        (by simpa [hlen] using hfits)
      simpa [hlen] using hkept
    · exact iff_of_true (Int.natCast_nonneg _) hacc
    · intro _
      exact ⟨rfl, List.take_left' hlen⟩
    · intro hneg
      exact absurd (Int.natCast_nonneg _) hneg
  · obtain ⟨dst', hcall, hkept⟩ := decode_refused hsrc hdst hacc
    refine ⟨_, _, hcall, hkept, ?_, ?_, fun _ => rfl⟩
    · simp [hacc]
    · intro hneg
      exact absurd hneg (by decide)

theorem base64url_exact_abc :
    (∃ ret dst', dspJwtBase64urlDecode (some [81, 85, 74, 33]) 3 (some [0, 0, 9]) 2 =
        some (ret, some dst') ∧ Untouched 2 [0, 0, 9] dst') ∧
      dspJwtBase64urlDecode (some (encode [65, 66, 67])) (encode [65, 66, 67]).length
        (some [0, 0, 0, 9]) 3 = some (3, some [65, 66, 67, 9]) := by
  obtain ⟨-, ret, dst', hcall, hkept, -⟩ :=
    base64url_exact.1 [81, 85, 74, 33] [0, 0, 9] 3 2 (by decide) (by decide) (by decide)
  exact ⟨⟨ret, dst', hcall, hkept⟩,
    base64url_exact.2 [65, 66, 67] [0, 0, 0, 9] 3 (by decide) (by decide) (by decide)⟩

end DspEmbedded.Audit.Base64url
