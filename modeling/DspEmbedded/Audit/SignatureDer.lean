import DspEmbedded.Lib.Der
import DspEmbedded.Model.Jwt

/-!
# The signature in DER

`rs_to_der` gives every INTEGER 32 or 33 content bytes. Contents in front of
which no zero byte was put are minimal, and those with one are too, unless the
first nine bits of the half are zero: then the leading zero byte is kept, and the
result is no distinguished encoding.
-/
namespace DspEmbedded.Audit.SignatureDer

open Lib Model.Jwt

/-- The two numbers of a raw signature, big-endian. -/
def sigR (rs : List UInt8) : Nat := Der.ofBytes (rs.take 32)

def sigS (rs : List UInt8) : Nat := Der.ofBytes ((rs.drop 32).take 32)

/-- The output is the DER encoding of SEQUENCE { INTEGER r, INTEGER s }, at most 72
bytes, and a strict reader finds both numbers in it. -/
def EncodesSignature (rs : List UInt8) : Prop :=
  ∃ der, rsToDer rs = some der ∧
    der = Der.sequence (Der.integer (sigR rs) ++ Der.integer (sigS rs)) ∧
    der.length ≤ 72 ∧ Der.readIntegerPair der = some ((sigR rs : Int), (sigS rs : Int))

/-- The bytes written for one half. -/
def paddedHalf (r : List UInt8) : List UInt8 := (if 128 ≤ r.headD 0 then [0] else []) ++ r

variable {r rs : List UInt8}

theorem length_paddedHalf (h : r.length = 32) :
    32 ≤ (paddedHalf r).length ∧ (paddedHalf r).length ≤ 33 := by
  rw [paddedHalf, List.length_append, h]
  split <;> simp

/-- Whatever the half is, an element is written. -/
theorem derInteger_eq (h : r.length = 32) : derInteger r = Der.element 0x02 (paddedHalf r) := by
  have hlen := length_paddedHalf h
  have hfield : Der.lengthField (paddedHalf r).length = [UInt8.ofNat (paddedHalf r).length] :=
    if_pos (by omega)
  have hsum : (paddedHalf r).length =
      32 + (if 128 ≤ r.headD 0 then [0] else ([] : List UInt8)).length := by
    rw [paddedHalf, List.length_append, h, Nat.add_comm]
  rw [Der.element, hfield, hsum]
  rfl

theorem value_paddedHalf : Der.value (paddedHalf r) = Der.ofBytes r := by
  rw [paddedHalf]
  split
  next =>
    have hhead : ((0 : UInt8) :: r).headD 0 < 128 := show (0 : UInt8) < 128 by decide
    rw [List.singleton_append, Der.value, if_pos hhead, Der.ofBytes_zero_cons]
  next hlow => rw [List.nil_append, Der.value, if_pos (UInt8.not_le.mp hlow)]

/-- Nine leading zero bits are what is not minimal. -/
theorem minimal_paddedHalf_iff (h : r.length = 32) :
    Der.Minimal (paddedHalf r) ↔ 2 ^ 247 ≤ Der.ofBytes r := by
  obtain ⟨a, b, t, rfl⟩ : ∃ a b t, r = a :: b :: t := by
    rcases r with - | ⟨a, - | ⟨b, t⟩⟩
    · simp at h
    · simp at h
    · exact ⟨a, b, t, rfl⟩
  have ht : t.length = 30 := by simpa using h
  have hlt := Der.ofBytes_lt t
  rw [ht] at hlt
  rw [Der.ofBytes_cons, Der.ofBytes_cons, List.length_cons, ht]
  by_cases ha : 128 ≤ a
  · have hpadded : paddedHalf (a :: b :: t) = 0 :: a :: b :: t := by simp [paddedHalf, ha]
    have hval : 128 ≤ a.toNat := ha
    rw [hpadded]
    refine iff_of_true ⟨fun h => absurd h.2 (UInt8.not_lt.mpr ha), fun h => ?_⟩ (by omega)
    exact absurd h.1 (by decide)
  · have hpadded : paddedHalf (a :: b :: t) = a :: b :: t := by simp [paddedHalf, ha]
    have hval : a.toNat < 128 := UInt8.not_le.mp ha
    have hminimal : Der.Minimal (a :: b :: t) ↔ ¬(a.toNat = 0 ∧ b.toNat < 128) := by
      constructor
      · exact fun h hz => h.1 ⟨UInt8.toNat_inj.mp hz.1, hz.2⟩
      refine fun h => ⟨fun hz => ?_, fun hz => ?_⟩
      · exact h ⟨congrArg UInt8.toNat hz.1, hz.2⟩
      · exact ha (hz.1 ▸ by decide)
    rw [hpadded, hminimal]
    omega

theorem length_halves (h : rs.length = 64) :
    (rs.take 32).length = 32 ∧ ((rs.drop 32).take 32).length = 32 := by
  simp [h]

theorem length_derInteger (h : r.length = 32) :
    34 ≤ (derInteger r).length ∧ (derInteger r).length ≤ 35 := by
  rw [derInteger]
  split <;> simp [h]

/-- `rs_to_der` never fails. -/
theorem rsToDer_eq (h : rs.length = 64) :
    rsToDer rs = some (Der.sequence (Der.element 0x02 (paddedHalf (rs.take 32)) ++
      Der.element 0x02 (paddedHalf ((rs.drop 32).take 32)))) := by
  obtain ⟨hr, hs⟩ := length_halves h
  have hlenR := length_derInteger hr
  have hlenS := length_derInteger hs
  have hbody : (derInteger (rs.take 32) ++ derInteger ((rs.drop 32).take 32)).length < 128 := by
    rw [List.length_append]
    omega
  rw [← derInteger_eq hr, ← derInteger_eq hs, rsToDer, Der.sequence, Der.element, Der.lengthField,
    if_pos hbody]
  show (if 74 < _ then none else _) = _
  rw [if_neg (by rw [List.length_append]; omega)]

/-- What a strict reader makes of the output. -/
theorem readIntegerPair_rsToDer (h : rs.length = 64) :
    (rsToDer rs).bind Der.readIntegerPair =
      if 2 ^ 247 ≤ sigR rs ∧ 2 ^ 247 ≤ sigS rs then some ((sigR rs : Int), (sigS rs : Int))
      else none := by
  obtain ⟨hr, hs⟩ := length_halves h
  have hlenR := length_paddedHalf hr
  have hlenS := length_paddedHalf hs
  have hbodyR := length_derInteger hr
  have hbodyS := length_derInteger hs
  rw [derInteger_eq hr] at hbodyR
  rw [derInteger_eq hs] at hbodyS
  rw [rsToDer_eq h, Option.bind_some, Der.readIntegerPair_sequence (by omega) (by omega)
    (by rw [List.length_append]; omega), value_paddedHalf, value_paddedHalf]
  exact if_congr (and_congr (minimal_paddedHalf_iff hr) (minimal_paddedHalf_iff hs)) rfl rfl

theorem length_rsToDer {der : List UInt8} (h : rs.length = 64) (hder : rsToDer rs = some der) :
    der.length ≤ 72 := by
  obtain ⟨hr, hs⟩ := length_halves h
  have hlenR := length_derInteger hr
  have hlenS := length_derInteger hs
  rw [rsToDer] at hder
  split at hder
  · cases hder
  · cases hder
    rw [List.length_append, List.length_append]
    show 2 + _ ≤ 72
    omega

/-- The output is the DER encoding if and only if neither half starts with nine
zero bits. -/
theorem encodesSignature_iff (rs : List UInt8) (h : rs.length = 64) :
    EncodesSignature rs ↔ 2 ^ 247 ≤ sigR rs ∧ 2 ^ 247 ≤ sigS rs := by
  obtain ⟨hr, hs⟩ := length_halves h
  have hread := readIntegerPair_rsToDer h
  constructor
  · rintro ⟨der, hder, -, -, hpair⟩
    rw [hder, Option.bind_some, hpair] at hread
    by_contra hzeros
    rw [if_neg hzeros] at hread
    cases hread
  · intro hhigh
    rw [if_pos hhigh] at hread
    obtain ⟨der, hder, hpair⟩ := Option.bind_eq_some_iff.mp hread
    refine ⟨der, hder, ?_, length_rsToDer h hder, hpair⟩
    have hR := Der.eq_contents_iff.mpr ⟨(minimal_paddedHalf_iff hr).mpr hhigh.1, value_paddedHalf⟩
    have hS := Der.eq_contents_iff.mpr ⟨(minimal_paddedHalf_iff hs).mpr hhigh.2, value_paddedHalf⟩
    have heq := (rsToDer_eq h).symm.trans hder
    rw [hR, hS] at heq
    exact (Option.some.inj heq).symm

theorem encodesSignature_high :
    EncodesSignature (List.replicate 64 1) :=
  (encodesSignature_iff (List.replicate 64 1) List.length_replicate).mpr (by decide +kernel)

/-- r = s = 1: both come out with 31 superfluous zero bytes. -/
theorem signature_counterexample :
    ¬∀ rs : List UInt8, rs.length = 64 → EncodesSignature rs := by
  intro hall
  obtain ⟨der, hder, -, -, hpair⟩ :=
    hall (List.replicate 31 0 ++ 1 :: (List.replicate 31 0 ++ [1])) (by decide)
  have hread : (rsToDer (List.replicate 31 0 ++ 1 :: (List.replicate 31 0 ++ [1]))).bind
      Der.readIntegerPair = none := by decide +kernel
  rw [hder, Option.bind_some, hpair] at hread
  cases hread

end DspEmbedded.Audit.SignatureDer
