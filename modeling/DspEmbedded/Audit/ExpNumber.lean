import Mathlib.Data.Nat.Find
import DspEmbedded.Lib.Search
import DspEmbedded.Model.Jwt

/-!
# The search for the claims, and the number behind `exp`

Both claims are found by a byte search: the first place of the pattern, whatever
stands around it. The number is read digit by digit into 64 bits, so what comes
out is the number written there modulo 2^64.
-/
namespace DspEmbedded.Audit.ExpNumber

open Lib.Search Model.Jwt

/-! ## The search -/

theorem take_drop_beq_iff {hay needle : List UInt8} {n j : Nat} (h : j + needle.length ≤ n) :
    ((hay.drop j).take needle.length == needle) = true ↔ needle <+: (hay.take n).drop j := by
  have htake : ((hay.take n).drop j).take needle.length = (hay.drop j).take needle.length := by
    rw [List.drop_take, List.take_take, Nat.min_eq_left (by omega)]
  rw [beq_iff_eq, List.prefix_iff_eq_take, htake, eq_comm]

theorem add_length_le {hay needle : List UInt8} {n j : Nat} (hne : needle ≠ [])
    (h : needle <+: (hay.take n).drop j) : j + needle.length ≤ n := by
  have hpos := List.length_pos_iff.mpr hne
  have hle := h.length_le
  rw [List.length_drop, List.length_take] at hle
  omega

/-- `mem_find` finds the first place among the bytes it may look at. -/
theorem memFind_eq_some {hay needle : List UInt8} {n p : Nat} (hne : needle ≠ []) :
    memFind hay n needle = some p ↔ FirstAt needle (hay.take n) p := by
  have hpos := List.length_pos_iff.mpr hne
  rw [memFind, if_neg (by omega)]
  by_cases hshort : n < needle.length
  · rw [if_pos hshort]
    constructor
    · intro h
      cases h
    · intro h
      have hle := add_length_le hne h.here
      omega
  · rw [if_neg hshort, List.find?_range_eq_some, List.mem_range]
    constructor
    · intro ⟨hhere, hp, hfirst⟩
      refine ⟨(take_drop_beq_iff (by omega)).mp hhere, ?_⟩
      intro j hj hat
      have hmiss := hfirst j hj
      rw [(take_drop_beq_iff (by omega)).mpr hat] at hmiss
      cases hmiss
    · intro ⟨hhere, hfirst⟩
      have hle := add_length_le hne hhere
      refine ⟨(take_drop_beq_iff hle).mpr hhere, by omega, ?_⟩
      intro j hj
      rw [Bool.not_eq_true', ← Bool.not_eq_true]
      intro hat
      exact hfirst j hj ((take_drop_beq_iff (by omega)).mp hat)

theorem behind_memFind {hay needle : List UInt8} (hne : needle ≠ []) (n : Nat) :
    (memFind hay n needle).map (fun p => (hay.take n).drop (p + needle.length)) =
      behind needle (hay.take n) := by
  cases hfind : memFind hay n needle with
  | some p => rw [behind_of_firstAt ((memFind_eq_some hne).mp hfind), Option.map_some]
  | none =>
    symm
    rw [Option.map_none, behind_eq_none_iff, infix_iff_drop]
    intro hex
    have hleast : FirstAt needle (hay.take n) (Nat.find hex) :=
      ⟨Nat.find_spec hex, fun j hj => Nat.find_min hex hj⟩
    rw [(memFind_eq_some hne).mpr hleast] at hfind
    cases hfind

theorem memFind_isSome_iff {hay needle : List UInt8} (hne : needle ≠ []) (n : Nat) :
    (memFind hay n needle).isSome ↔ needle <:+: hay.take n := by
  rw [← behind_isSome_iff, ← behind_memFind hne, Option.isSome_map]

/-- `dsp_jwt_parse_alg` asks which name stands somewhere, ES256 before RS256. -/
theorem parseAlg_eq (json : List UInt8) (len : Nat) :
    dspJwtParseAlg (some json) len =
      if es256Name <:+: json.take len then .es256
      else if rs256Name <:+: json.take len then .rs256 else .unknown := by
  simp only [dspJwtParseAlg, memFind_isSome_iff (show es256Name ≠ [] by decide),
    memFind_isSome_iff (show rs256Name ≠ [] by decide)]
  by_cases h0 : len = 0
  · simp [h0, es256Name, rs256Name]
  · rw [if_neg h0]

/-! ## The number -/

/-- The number that decimal digits denote, behind the digits of `acc`. -/
def decimalFrom (acc : Nat) (digits : List UInt8) : Nat :=
  digits.foldl (fun acc b => acc * 10 + (b.toNat - 48)) acc

def decimal (digits : List UInt8) : Nat := decimalFrom 0 digits

theorem toNat_addDigit (val : UInt64) {b : UInt8} (h : isDigit b = true) :
    (addDigit val b).toNat = (val.toNat * 10 + (b.toNat - 48)) % 2 ^ 64 := by
  have hlow : 48 ≤ b.toNat := by
    rw [isDigit, Bool.and_eq_true, decide_eq_true_eq, decide_eq_true_eq] at h
    exact UInt8.le_iff_toNat_le.mp h.1
  have hsub : (b.toUInt64 - 48).toNat = b.toNat - 48 := by
    rw [UInt64.toNat_sub_of_le _ _ (by rw [UInt64.le_iff_toNat_le, UInt8.toNat_toUInt64]; exact hlow),
      UInt8.toNat_toUInt64]
    rfl
  rw [addDigit, UInt64.toNat_add, UInt64.toNat_mul, hsub]
  show (val.toNat * 10 % 2 ^ 64 + (b.toNat - 48)) % 2 ^ 64 = _
  rw [Nat.mod_add_mod]

/-- The loop keeps the number read so far modulo 2^64. -/
theorem toNat_foldl_addDigit {digits : List UInt8} (h : ∀ b ∈ digits, isDigit b = true)
    (val : UInt64) (acc : Nat) (hval : val.toNat = acc % 2 ^ 64) :
    (digits.foldl addDigit val).toNat = decimalFrom acc digits % 2 ^ 64 := by
  induction digits generalizing val acc with
  | nil => exact hval
  | cons b digits ih =>
    refine ih (fun b' hb' => h b' (List.mem_cons_of_mem _ hb')) _ (acc * 10 + (b.toNat - 48)) ?_
    rw [toNat_addDigit val (h b List.mem_cons_self), hval]
    omega

/-- What the reader takes as the number: digits after any spaces. -/
def digitsAfterSpaces (rest : List UInt8) : List UInt8 :=
  (rest.dropWhile (· == space)).takeWhile isDigit

/-- `dsp_jwt_parse_exp` by what stands behind the first `"exp":`. -/
theorem parseExp_eq (json : List UInt8) (len : Nat) (old : UInt64) :
    dspJwtParseExp (some json) len (some old) =
      match behind expKey (json.take len) with
      | none => (.noExp, some 0)
      | some rest =>
        match digitsAfterSpaces rest with
        | [] => (.noExp, some 0)
        | digits => (.ok, some (digits.foldl addDigit 0)) := by
  rw [← behind_memFind (by decide) len, dspJwtParseExp]
  cases memFind json len expKey with
  | none => rfl
  | some p => rfl

theorem parseExp_of_digits {json rest digits : List UInt8} {len : Nat} {old : UInt64}
    (hbehind : behind expKey (json.take len) = some rest) (hdigits : digitsAfterSpaces rest = digits)
    (hne : digits ≠ []) :
    dspJwtParseExp (some json) len (some old) = (.ok, some (digits.foldl addDigit 0)) := by
  obtain ⟨b, digits', rfl⟩ := List.exists_cons_of_ne_nil hne
  rw [parseExp_eq, hbehind]
  simp only [hdigits]

/-- The first `"exp":` is followed by spaces and a maximal run of digits. -/
structure ExpDigits (buf digits : List UInt8) : Prop where
  place : ∃ pre spaces rest, buf = pre ++ (expKey ++ (spaces ++ (digits ++ rest))) ∧
    FirstAt expKey buf pre.length ∧ (∀ b ∈ spaces, b = space) ∧
    ∀ b ∈ rest.head?, isDigit b = false
  all : ∀ b ∈ digits, isDigit b = true
  some : digits ≠ []

/-- The same at the beginning of a buffer, by evaluation. -/
theorem ExpDigits.of_all {spaces digits rest : List UInt8}
    (hspaces : spaces.all (· == space) = true) (hdigits : digits.all isDigit = true)
    (hstop : rest.head?.all (fun b => !isDigit b) = true) (hne : digits ≠ []) :
    ExpDigits (expKey ++ (spaces ++ (digits ++ rest))) digits where
  place := by
    refine ⟨[], spaces, rest, rfl, ⟨List.prefix_append _ _, by simp⟩, ?_, ?_⟩
    · simpa using hspaces
    · intro b hb
      rw [Option.mem_def.mp hb] at hstop
      simpa using hstop
  all := List.all_eq_true.mp hdigits
  some := hne

theorem takeWhile_append_stop {p : UInt8 → Bool} {l rest : List UInt8} (h : ∀ b ∈ l, p b = true)
    (hstop : ∀ b ∈ rest.head?, p b = false) : (l ++ rest).takeWhile p = l := by
  rw [List.takeWhile_append_of_pos h]
  cases rest with
  | nil => simp
  | cons b rest => rw [List.takeWhile_cons_of_neg (by simp [hstop b rfl]), List.append_nil]

theorem digitsAfterSpaces_append {spaces : List UInt8} (h : ∀ b ∈ spaces, b = space)
    (rest : List UInt8) : digitsAfterSpaces (spaces ++ rest) = digitsAfterSpaces rest := by
  rw [digitsAfterSpaces, List.dropWhile_append_of_pos (by simpa using h)]
  rfl

theorem digitsAfterSpaces_of_ne {rest : List UInt8} (h : rest.head? ≠ some space) :
    digitsAfterSpaces rest = rest.takeWhile isDigit := by
  cases rest with
  | nil => rfl
  | cons b rest =>
    have hb : ¬ (b == space) = true := by simpa using h
    rw [digitsAfterSpaces, List.dropWhile_cons, if_neg hb]

theorem ne_space_of_isDigit {b : UInt8} (h : isDigit b = true) : b ≠ space := by
  intro heq
  subst heq
  exact absurd h (by decide)

theorem digitsAfterSpaces_eq {digits rest : List UInt8} (hdigits : ∀ b ∈ digits, isDigit b = true)
    (hne : digits ≠ []) (hstop : ∀ b ∈ rest.head?, isDigit b = false) :
    digitsAfterSpaces (digits ++ rest) = digits := by
  rw [digitsAfterSpaces_of_ne, takeWhile_append_stop hdigits hstop]
  cases digits with
  | nil => exact absurd rfl hne
  | cons b digits =>
    have hb := ne_space_of_isDigit (hdigits b List.mem_cons_self)
    simpa using hb

theorem parseExp_digits {json digits : List UInt8} {len : Nat} {old : UInt64}
    (h : ExpDigits (json.take len) digits) :
    ∃ val, dspJwtParseExp (some json) len (some old) = (.ok, some val) ∧
      val.toNat = decimal digits % 2 ^ 64 := by
  obtain ⟨pre, spaces, rest, hbuf, hfirst, hspaces, hstop⟩ := h.place
  have hbehind : behind expKey (json.take len) = some (spaces ++ (digits ++ rest)) := by
    rw [behind_of_firstAt hfirst, hbuf, ← List.drop_drop, List.drop_left, List.drop_left]
  have hdigits : digitsAfterSpaces (spaces ++ (digits ++ rest)) = digits := by
    rw [digitsAfterSpaces_append hspaces, digitsAfterSpaces_eq h.all h.some hstop]
  exact ⟨digits.foldl addDigit 0, parseExp_of_digits hbehind hdigits h.some,
    toNat_foldl_addDigit h.all 0 0 rfl⟩

/-- **The expiry is read exactly below 2^64.** Behind the first `"exp":` a number is
returned as it is written there, or an error, if and only if it fits 64 bits. -/
theorem exp_exact_iff (json digits : List UInt8) (len : Nat) (old : UInt64)
    (h : ExpDigits (json.take len) digits) :
    ((dspJwtParseExp (some json) len (some old)).1 ≠ .ok ∨
        ∃ val, dspJwtParseExp (some json) len (some old) = (.ok, some val) ∧
          val.toNat = decimal digits) ↔
      decimal digits < 2 ^ 64 := by
  obtain ⟨val, hcall, hval⟩ := @parseExp_digits _ _ _ old h
  rw [hcall]
  constructor
  · intro hexact
    rcases hexact with herr | ⟨val', heq, hval'⟩
    · exact absurd rfl herr
    · obtain rfl : val = val' := by simpa using heq
      rw [← hval']
      exact val.toNat_lt
  · intro hfits
    exact .inr ⟨val, rfl, by rw [hval, Nat.mod_eq_of_lt hfits]⟩

theorem exp_exact_nine :
    (dspJwtParseExp (some [34, 101, 120, 112, 34, 58, 32, 57, 125]) 9 (some 7)).1 ≠ .ok ∨
      ∃ val, dspJwtParseExp (some [34, 101, 120, 112, 34, 58, 32, 57, 125]) 9 (some 7) =
        (.ok, some val) ∧ val.toNat = decimal [57] :=
  (exp_exact_iff [34, 101, 120, 112, 34, 58, 32, 57, 125] [57] 9 7
    (@ExpDigits.of_all [32] [57] [125] rfl rfl rfl (by decide))).mpr (by decide)

/-- `"exp":18446744073709551617`, one more than 2^64. -/
def overflowing : List UInt8 :=
  [34, 101, 120, 112, 34, 58, 49, 56, 52, 52, 54, 55, 52, 52, 48, 55, 51, 55, 48, 57, 53, 53, 49,
    54, 49, 55]

theorem exp_wraps_counterexample :
    ExpDigits (overflowing.take 26) (overflowing.drop 6) ∧
      dspJwtParseExp (some overflowing) 26 (some 0) = (.ok, some 1) ∧
      ¬ ((dspJwtParseExp (some overflowing) 26 (some 0)).1 ≠ .ok ∨
        ∃ val, dspJwtParseExp (some overflowing) 26 (some 0) = (.ok, some val) ∧
          val.toNat = decimal (overflowing.drop 6)) := by
  have hcall : dspJwtParseExp (some overflowing) 26 (some 0) = (.ok, some 1) := by decide
  refine ⟨@ExpDigits.of_all [] (overflowing.drop 6) [] rfl rfl rfl (by decide), hcall, ?_⟩
  rw [hcall]
  intro h
  rcases h with herr | ⟨val, heq, hval⟩
  · exact herr rfl
  · obtain rfl : 1 = val := by simpa using heq
    exact absurd hval (by decide)

end DspEmbedded.Audit.ExpNumber
