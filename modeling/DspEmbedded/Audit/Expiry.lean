import DspEmbedded.Audit.HeaderAlg

/-!
# Expired tokens

The payload is not parsed: the expiry is the number behind the first key that reads
`exp`, at whatever depth. The theorem says when an expired token gets past the
checks because that number is another one.
-/
namespace DspEmbedded.Audit.Expiry

open Lib.CString Lib.JsonText Lib.JsonSearch Lib.Search Model.Jwt Audit.Base64url Audit.ExpNumber
  Audit.TokenFormat Audit.HeaderAlg

/-! ## The number behind a key -/

/-- `exp`. -/
def expName : List UInt8 := [101, 120, 112]

theorem isName_exp : IsName expName := .of_all (by decide) rfl

theorem expKey_eq : expKey = quoted expName [58] := rfl

/-- The digits that are read after blanks: those of an integer part without a sign. -/
def readDigits : List Tok → List (Fin 10)
  | .ws .space :: rest => readDigits rest
  | .number n :: _ => if n.negative then [] else n.int
  | _ => []

theorem isDigit_digitByte (d : Fin 10) : isDigit (digitByte d) = true := by
  revert d
  decide

theorem not_isDigit_of_not_isAlnum {b : UInt8} (h : isAlnum b = false) : isDigit b = false := by
  rw [isAlnum, Bool.or_assoc, Bool.or_eq_false_iff] at h
  exact h.1

theorem decimal_map (digits : List (Fin 10)) : decimal (digits.map digitByte) = natValue digits := by
  have hdigit : ∀ d : Fin 10, (digitByte d).toNat - 48 = d.val := by decide
  rw [decimal, decimalFrom, List.foldl_map, natValue]
  simp only [hdigit]

theorem digits_of_head {bs : List UInt8} (h : ∀ b ∈ bs.head?, b ≠ space ∧ isDigit b = false) :
    digitsAfterSpaces bs = [] := by
  cases bs with
  | nil => rfl
  | cons b bs =>
    obtain ⟨hspace, hdigit⟩ := h b rfl
    rw [digitsAfterSpaces_of_ne (by simpa using hspace), List.takeWhile_cons]
    simp [hdigit]

/-- The integer part ends before a point, an exponent or what follows the number. -/
theorem head_tail_not_digit (n : Number) {rest : List UInt8}
    (hrest : ∀ b ∈ rest.head?, isDigit b = false) :
    ∀ b ∈ (n.tail ++ rest).head?, isDigit b = false := by
  rw [Number.tail]
  by_cases hfrac : n.frac = []
  · cases hexp : n.exp with
    | none => simpa [hfrac] using hrest
    | some x =>
      intro b hb
      obtain rfl : (if x.upper then (69 : UInt8) else 101) = b := by
        simpa [hfrac, Exponent.bytes] using hb
      cases x.upper <;> decide
  · intro b hb
    obtain rfl : 46 = b := by simpa [hfrac] using hb
    decide

theorem digits_number (n : Number) {rest : List UInt8}
    (hrest : ∀ b ∈ rest.head?, isDigit b = false) :
    digitsAfterSpaces (n.bytes ++ rest) =
      (if n.negative then [] else n.int).map digitByte := by
  have hdigits : ∀ b ∈ n.int.map digitByte, isDigit b = true := by
    intro b hb
    obtain ⟨d, -, rfl⟩ := List.mem_map.mp hb
    exact isDigit_digitByte d
  rw [Number.bytes]
  cases n.negative with
  | true =>
    apply digits_of_head
    intro b hb
    obtain rfl : 45 = b := by simpa using hb
    decide
  | false =>
    show digitsAfterSpaces (([] ++ (n.int.map digitByte ++ n.tail)) ++ rest) = n.int.map digitByte
    rw [List.nil_append, List.append_assoc]
    exact digitsAfterSpaces_eq hdigits (by simpa using n.int_ne_nil) (head_tail_not_digit n hrest)

/-- What the reader takes from the bytes of a text is what stands in its tokens. -/
theorem digits_bytesOf {toks : List Tok} (hsep : Separated toks) :
    digitsAfterSpaces (bytesOf toks) = (readDigits toks).map digitByte := by
  induction toks with
  | nil => rfl
  | cons t toks ih =>
    rw [bytesOf, List.flatMap_cons, ← bytesOf]
    cases t with
    | number n =>
      exact digits_number n fun b hb => not_isDigit_of_not_isAlnum (head_bytesOf (hsep.1 rfl) b hb)
    | ws w =>
      cases w with
      | space =>
        rw [digitsAfterSpaces_append (by simp [Tok.bytes, Ws.byte, space])]
        exact ih hsep.2
      | _ => exact digits_of_head (by simp [Tok.bytes, Ws.byte, space, isDigit])
    | punct p => cases p <;> exact digits_of_head (by simp [Tok.bytes, Punct.byte, space, isDigit])
    | literal w =>
      cases w <;> exact digits_of_head (by simp [Tok.bytes, Literal.bytes, space, isDigit])
    | str s => exact digits_of_head (by simp [Tok.bytes, space, isDigit])

/-- The number behind the first key of a text that reads `exp` up to its end and has
its colon right behind it, whatever object the key belongs to. -/
def firstExp (doc : Text) : Option Nat :=
  match (afterKey expName doc.toks).map readDigits with
  | none => none
  | some [] => none
  | some digits => some (natValue digits)

theorem payloadExp_text (doc : Text) :
    (payloadExp doc.bytes = (.noExp, some 0) ∧ firstExp doc = none) ∨
      ∃ exp n, payloadExp doc.bytes = (.ok, some exp) ∧ firstExp doc = some n ∧
        exp.toNat = n % 2 ^ 64 := by
  have hsep := separated_text doc
  have hsearch := behind_key isName_exp hsep
  rw [← expKey_eq] at hsearch
  rw [payloadExp, parseExp_eq, List.take_length, Text.bytes, hsearch, firstExp]
  cases hkey : afterKey expName doc.toks with
  | none => exact .inl ⟨rfl, rfl⟩
  | some rest =>
    have hread := digits_bytesOf (afterKey_separated hsep hkey)
    simp only [Option.map_some, hread]
    cases hdigits : readDigits rest with
    | nil => exact .inl ⟨rfl, rfl⟩
    | cons d digits =>
      refine .inr ⟨_, _, rfl, rfl, ?_⟩
      have hall : ∀ b ∈ (d :: digits).map digitByte, isDigit b = true := by
        intro b hb
        obtain ⟨d', -, rfl⟩ := List.mem_map.mp hb
        exact isDigit_digitByte d'
      rw [← decimal_map]
      exact toNat_foldl_addDigit hall 0 0 rfl

/-! ## Expired tokens -/

/-- The text is an object with a member `exp` whose value is the integer `e`. -/
def Expires (doc : Text) (e : Int) : Prop :=
  ∃ members, doc.members? = some members ∧ ∃ m ∈ members, units m.key = expName.map UInt8.toNat ∧
    ∃ n, m.value = .number n ∧ n.value = e

/-- A token with this payload does not pass once its expiry has come. -/
def RefusedWhenExpired (now : Int64) (jwt : CStr) (key : Option (List UInt8)) (keyLen : Nat)
    (alg : JwtAlg) (out : JwtParts) (doc : Text) : Prop :=
  ∀ e, Expires doc e → e ≤ now.toInt →
    ∀ parts, jwtCheckStructure now (some jwt) key keyLen alg out ≠ some (.ok, parts)

/-- The first key of the payload that reads `exp` has a number above the clock behind it. -/
def ReadsLater (now : Int64) (doc : Text) : Prop :=
  ∃ n, firstExp doc = some n ∧ now.toInt < (n % 2 ^ 64 : Nat)

theorem payloadExp_later_iff {now : Int64} (hnow : 0 ≤ now.toInt) (doc : Text) :
    (∃ exp, payloadExp doc.bytes = (.ok, some exp) ∧ 0 ≤ now.toInt ∧ now.toInt < exp.toNat) ↔
      ReadsLater now doc := by
  rcases payloadExp_text doc with ⟨hnone, hfirst⟩ | ⟨exp, n, hsome, hfirst, hval⟩
  · simp [hnone, ReadsLater, hfirst]
  · constructor
    · intro ⟨exp', hread, _, hlt⟩
      obtain rfl : exp = exp' := by simpa [hsome] using hread
      exact ⟨n, hfirst, by rwa [← hval]⟩
    · intro ⟨n', hfirst', hlt⟩
      obtain rfl : n = n' := by simpa [hfirst] using hfirst'
      exact ⟨exp, hsome, hnow, by rwa [hval]⟩

/-- **Expired tokens are refused unless another `exp` is read.** A token whose payload has
expired is refused if and only if a check before the expiry fails, or the first key of the
payload that reads `exp`, at any depth, has no number above the clock behind it. -/
theorem expired_refused_iff (now : Int64) (jwt : CStr) (key : Option (List UInt8)) (keyLen : Nat)
    (alg : JwtAlg) (out : JwtParts) (header payload sig : List UInt8) (doc : Text)
    (hsplit : Splits jwt header payload sig) (hdoc : decoded payload = doc.bytes)
    (hnow : 0 ≤ now.toInt) :
    RefusedWhenExpired now jwt key keyLen alg out doc ↔
      ((∃ e, Expires doc e ∧ e ≤ now.toInt) →
        ¬ (HasKey key keyLen ∧ Accepted header 128 ∧ headerAlg (decoded header) = alg ∧
          Accepted payload dspJwtMaxDecodeB ∧ ReadsLater now doc)) := by
  have hpass : (∃ parts, jwtCheckStructure now (some jwt) key keyLen alg out = some (.ok, parts)) ↔
      HasKey key keyLen ∧ Accepted header 128 ∧ headerAlg (decoded header) = alg ∧
        Accepted payload dspJwtMaxDecodeB ∧ ReadsLater now doc := by
    rw [check_ok_iff hsplit, ← payloadExp_later_iff hnow doc, ← hdoc]
    exact and_congr_right fun _ =>
      ⟨fun h => ⟨h.headerFits, h.alg, h.payloadFits, h.exp⟩, fun h => ⟨h.1, h.2.1, h.2.2.1, h.2.2.2⟩⟩
  rw [RefusedWhenExpired, ← hpass]
  constructor
  · intro hrefused ⟨e, hexp, hpast⟩ ⟨parts, hok⟩
    exact hrefused e hexp hpast parts hok
  · intro hcond e hexp hpast parts hok
    exact hcond ⟨e, hexp, hpast⟩ ⟨parts, hok⟩

/-! ## Two tokens at the fifth second -/

def oneDigit (d : Fin 10) (h : d ≠ 0) : Number := ⟨false, [d], .inr ⟨d, [], rfl, h⟩, [], none⟩

def one : Number := oneDigit 1 (by decide)

def nine : Number := oneDigit 9 (by decide)

/-- The member `exp` without whitespace. -/
def expIs (n : Number) : Members := .last [] (spelled ['e', 'x', 'p']) [] [] (.number n) []

/-- The payload with `exp` 1 only. -/
def flatPayload : Text := ⟨[], .object (expIs one), []⟩

/-- The same behind a member `a` that is an object with `exp` 9. -/
def nestedPayload : Text :=
  ⟨[], .object (.cons [] (spelled ['a']) [] [] (.object (expIs nine)) [] (expIs one)), []⟩

def flatToken : CStr := compact es256Header.bytes flatPayload.bytes CStr.empty

def nestedToken : CStr := compact es256Header.bytes nestedPayload.bytes CStr.empty

theorem expired_refused_flat :
    RefusedWhenExpired 5 flatToken (some [1]) 1 .es256 noParts flatPayload :=
  (expired_refused_iff 5 flatToken (some [1]) 1 .es256 noParts (encode es256Header.bytes)
    (encode flatPayload.bytes) [] flatPayload (splits_compact _ _ _) (decoded_encode _)
    (by decide)).mpr fun _ hpass => by
      obtain ⟨-, -, -, -, n, hfirst, hlt⟩ := hpass
      have hone : firstExp flatPayload = some 1 := by decide +kernel
      obtain rfl : 1 = n := by simpa [hone] using hfirst
      exact absurd hlt (by decide)

theorem expired_passes_counterexample :
    Splits nestedToken (encode es256Header.bytes) (encode nestedPayload.bytes) [] ∧
      decoded (encode nestedPayload.bytes) = nestedPayload.bytes ∧ Expires nestedPayload 1 ∧
      jwtCheckStructure 5 (some nestedToken) (some [1]) 1 .es256 noParts =
        some (.ok, ⟨0, 20, 21, 31, 53, 0⟩) ∧
      ¬ RefusedWhenExpired 5 nestedToken (some [1]) 1 .es256 noParts nestedPayload := by
  have hcall : jwtCheckStructure 5 (some nestedToken) (some [1]) 1 .es256 noParts =
      some (.ok, ⟨0, 20, 21, 31, 53, 0⟩) := by decide +kernel
  have hexp : Expires nestedPayload 1 := by
    refine ⟨_, rfl, _, List.mem_cons_of_mem _ List.mem_cons_self, by decide +kernel, _, rfl, ?_⟩
    simp [one, oneDigit, Number.value, natValue]
  exact ⟨splits_compact _ _ _, decoded_encode _, hexp, hcall, fun h => h 1 hexp (by decide) _ hcall⟩

end DspEmbedded.Audit.Expiry
