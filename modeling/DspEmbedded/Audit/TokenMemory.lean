import DspEmbedded.Audit.SignatureDer
import DspEmbedded.Audit.TokenFormat
import DspEmbedded.Model.JwtMemory

/-!
# Memory accesses of the token checks

No access is out of range. Of a token, whatever its length, nothing behind the NUL
is read; no array on the stack is written past its end; and what is searched in
it are only the bytes that the decoder wrote. The decoder is compared with the
one of `Model.Jwt` round by round, the other functions are computed.
-/
namespace DspEmbedded.Audit.TokenMemory

open Lib.CString Lib.Memory Model Model.Jwt Audit.Base64url Audit.TokenFormat

theorem sizeT_of_lt {n : Nat} (h : n < 2 ^ 32) : JwtMemory.sizeT n = n := Nat.mod_eq_of_lt h

theorem sizeT_le (n : Nat) : JwtMemory.sizeT n ≤ n := Nat.mod_le n _

theorem sizeSub_of_le {a b : Nat} (h : b ≤ a) (ha : a < 2 ^ 32) :
    JwtMemory.sizeSub a b = a - b := by
  rw [JwtMemory.sizeSub, JwtMemory.sizeT]
  omega

/-! ## The decoder -/

section Decoder

variable {s : CStr} {base srcLen cap : Nat}

/-- In front of the NUL both models read the same character. -/
theorem charVal_cells {i : Nat} (h : base + i < s.length) :
    ∃ c, JwtMemory.charVal (stringCells s) (base + i) = some (b64urlCharToVal c) ∧
      charVal (s.bytes.drop base) i = some (b64urlCharToVal c) := by
  have hget : s.bytes[base + i]? = some s.bytes[base + i] := List.getElem?_eq_getElem h
  refine ⟨s.bytes[base + i], ?_, ?_⟩
  · rw [JwtMemory.charVal, load_char h, hget]
    rfl
  · rw [charVal, List.getElem?_drop, hget]
    rfl

/-- The array of `Model.Jwt` with the first bytes written. -/
def written (cap : Nat) (done : List UInt8) : List UInt8 :=
  done ++ List.replicate (cap - done.length) 0

theorem storeAll_written {done vs : List UInt8} (h : done.length + vs.length ≤ cap) :
    Jwt.storeAll (written cap done) done.length vs = some (written cap (done ++ vs)) := by
  rw [written, storeAll_append done (by rw [List.length_replicate]; omega), written,
    List.drop_replicate, List.length_append, Nat.sub_sub]

/-- Both decoders end with the same result and the same bytes written, as many as
the result says. -/
def SameEnd (cap : Nat) (low : Option (Int × Cells)) (high : Option (Int × List UInt8)) : Prop :=
  ∃ ret done, low = some (ret, filled cap done) ∧ high = some (ret, written cap done) ∧
    (0 ≤ ret → ret = done.length)

theorem SameEnd.refused (cap : Nat) (done : List UInt8) :
    SameEnd cap (some (-1, filled cap done)) (some (-1, written cap done)) :=
  ⟨-1, done, rfl, rfl, fun h => absurd h (by decide)⟩

theorem SameEnd.ended {done : List UInt8} (h : done.length ≤ intMax) :
    SameEnd cap (some (toInt done.length, filled cap done))
      (some (toInt done.length, written cap done)) :=
  ⟨_, done, rfl, rfl, fun _ => toInt_eq h⟩

/-- Bytes that fit are stored by both. -/
theorem SameEnd.stored {done vs : List UInt8} (h : done.length + vs.length ≤ cap)
    (hcap : cap ≤ intMax) :
    SameEnd cap
      ((storeAll (filled cap done) done.length vs).bind fun dst =>
        some (toInt (done.length + vs.length), dst))
      ((Jwt.storeAll (written cap done) done.length vs).map fun dst =>
        (toInt (done.length + vs.length), dst)) := by
  have hend := @SameEnd.ended cap (done ++ vs) (by rw [List.length_append]; omega)
  rw [storeAll_filled h, storeAll_written h]
  rwa [List.length_append] at hend

theorem decodeTail_sameEnd (hsrc : base + srcLen ≤ s.length) (hsize : srcLen < 2 ^ 32)
    (hcap : cap ≤ intMax) {i : Nat} (hi : i ≤ srcLen) {done : List UInt8} (hdone : done.length ≤ cap) :
    SameEnd cap
      (JwtMemory.decodeTail (stringCells s) base srcLen cap i done.length (filled cap done))
      (decodeTail (s.bytes.drop base) srcLen cap i done.length (written cap done)) := by
  have hmax : intMax = 2147483647 := rfl
  rw [JwtMemory.decodeTail, decodeTail, sizeSub_of_le hi hsize]
  by_cases h1 : srcLen - i = 1
  · rw [if_pos h1, if_pos h1]
    exact .refused cap done
  rw [if_neg h1, if_neg h1]
  by_cases h2 : srcLen - i = 2
  · rw [if_pos h2, if_pos h2]
    obtain ⟨c0, hlow0, hhigh0⟩ := charVal_cells (by omega : base + i < s.length)
    obtain ⟨c1, hlow1, hhigh1⟩ := charVal_cells (by omega : base + (i + 1) < s.length)
    rw [← Nat.add_assoc] at hlow1
    rw [hlow0, hlow1, hhigh0, hhigh1, sizeT_of_lt (by omega)]
    show SameEnd cap (if _ then _ else _) (if _ then _ else _)
    split
    · exact .refused cap done
    split
    · exact .refused cap done
    · exact .stored (by simp; omega) hcap
  rw [if_neg h2, if_neg h2]
  by_cases h3 : srcLen - i = 3
  · rw [if_pos h3, if_pos h3]
    obtain ⟨c0, hlow0, hhigh0⟩ := charVal_cells (by omega : base + i < s.length)
    obtain ⟨c1, hlow1, hhigh1⟩ := charVal_cells (by omega : base + (i + 1) < s.length)
    obtain ⟨c2, hlow2, hhigh2⟩ := charVal_cells (by omega : base + (i + 2) < s.length)
    rw [← Nat.add_assoc] at hlow1 hlow2
    rw [hlow0, hlow1, hlow2, hhigh0, hhigh1, hhigh2, sizeT_of_lt (by omega)]
    show SameEnd cap (if _ then _ else _) (if _ then _ else _)
    split
    · exact .refused cap done
    split
    · exact .refused cap done
    · exact .stored (by simp; omega) hcap
  rw [if_neg h3, if_neg h3]
  exact .ended (by omega)

/-- The loop starts every round at a multiple of 4, so that no index wraps around. -/
theorem decodeGroups_sameEnd (hsrc : base + srcLen ≤ s.length) (hsize : srcLen < 2 ^ 32)
    (hcap : cap ≤ intMax) {rounds i : Nat} (hi : i ≤ srcLen) (hgroup : i % 4 = 0)
    (hrounds : srcLen < i + rounds) {done : List UInt8} (hdone : done.length ≤ cap) :
    SameEnd cap
      (JwtMemory.decodeGroups (stringCells s) base srcLen cap rounds i done.length (filled cap done))
      (decodeGroups (s.bytes.drop base) srcLen cap rounds i done.length (written cap done)) := by
  have hmax : intMax = 2147483647 := rfl
  induction rounds generalizing i done with
  | zero => omega
  | succ rounds ih =>
    rw [JwtMemory.decodeGroups, decodeGroups, sizeT_of_lt (by omega : i + 3 < 2 ^ 32)]
    by_cases hmore : i + 3 < srcLen
    · rw [if_pos hmore, if_pos hmore]
      obtain ⟨c0, hlow0, hhigh0⟩ := charVal_cells (by omega : base + i < s.length)
      obtain ⟨c1, hlow1, hhigh1⟩ := charVal_cells (by omega : base + (i + 1) < s.length)
      obtain ⟨c2, hlow2, hhigh2⟩ := charVal_cells (by omega : base + (i + 2) < s.length)
      obtain ⟨c3, hlow3, hhigh3⟩ := charVal_cells (by omega : base + (i + 3) < s.length)
      rw [← Nat.add_assoc] at hlow1 hlow2 hlow3
      rw [hlow0, hlow1, hlow2, hlow3, hhigh0, hhigh1, hhigh2, hhigh3,
        sizeT_of_lt (by omega : done.length + 3 < 2 ^ 32),
        sizeT_of_lt (by omega : i + 4 < 2 ^ 32)]
      show SameEnd cap (if _ then _ else _) (if _ then _ else _)
      split
      · exact .refused cap done
      split
      · exact .refused cap done
      next hroom =>
        have hfits : done.length + (groupBytes c0 c1 c2 c3).length ≤ cap := by
          rw [length_groupBytes]
          omega
        have hlow := storeAll_filled hfits
        have hhigh := storeAll_written hfits
        rw [groupBytes] at hlow hhigh
        rw [hlow, hhigh]
        have hnext := @ih (i + 4) (by omega) (by omega) (by omega) (done ++ groupBytes c0 c1 c2 c3)
          (by rw [List.length_append]; exact hfits)
        rw [List.length_append, length_groupBytes] at hnext
        exact hnext
    · rw [if_neg hmore, if_neg hmore]
      exact decodeTail_sameEnd hsrc hsize hcap hi hdone

/-- Nothing faults in the decoder: it writes the bytes that a text stands for, or
refuses it. -/
theorem decode_cells (hsrc : base + srcLen ≤ s.length) (hsize : srcLen < 2 ^ 32)
    (hcap : cap ≤ intMax) :
    ∃ ret done, JwtMemory.dspJwtBase64urlDecode (stringCells s) base srcLen (fresh cap) cap =
        some (ret, filled cap done) ∧
      dspJwtBase64urlDecode (some (s.bytes.drop base)) srcLen (some (stackBuffer cap)) cap =
        some (ret, some (written cap done)) ∧
      (0 ≤ ret → ret = done.length) := by
  obtain ⟨ret, done, hlow, hhigh, hlen⟩ := @decodeGroups_sameEnd s base srcLen cap hsrc hsize hcap
    (srcLen + 1) 0 (by omega) rfl (by omega) [] (by simp)
  refine ⟨ret, done, hlow, ?_, hlen⟩
  have hstart : written cap [] = stackBuffer cap := rfl
  rw [hstart, List.length_nil] at hhigh
  rw [dspJwtBase64urlDecode, hhigh]
  rfl

/-- A text is decoded or refused as its characters say. -/
theorem decode_partText (hsrc : base + srcLen ≤ s.length) (hsize : srcLen < 2 ^ 32)
    (hcap : cap ≤ intMax) :
    (Accepted (partText s base srcLen) cap ∧
      JwtMemory.dspJwtBase64urlDecode (stringCells s) base srcLen (fresh cap) cap =
        some (((decoded (partText s base srcLen)).length : Int),
          filled cap (decoded (partText s base srcLen)))) ∨
    (¬Accepted (partText s base srcLen) cap ∧
      ∃ buf, JwtMemory.dspJwtBase64urlDecode (stringCells s) base srcLen (fresh cap) cap =
        some (-1, buf)) := by
  have hlen : s.bytes.length = s.length := rfl
  have hdrop : srcLen ≤ (s.bytes.drop base).length := by
    rw [List.length_drop]
    omega
  have hdst : cap ≤ (stackBuffer cap).length := by rw [stackBuffer, List.length_replicate]
  have htext : (partText s base srcLen).length = srcLen := by
    rw [partText, List.length_take, Nat.min_eq_left hdrop]
  obtain ⟨ret, done, hlow, hhigh, hret⟩ := decode_cells hsrc hsize hcap
  by_cases hacc : Accepted (partText s base srcLen) cap
  · have hfits := hacc.fits
    rw [htext] at hfits
    have hwrites := decode_accepted hdrop hdst (hfits.trans hcap) hacc
    rw [hhigh, Option.some.injEq, Prod.mk.injEq, Option.some.injEq] at hwrites
    have hcount : done.length = 3 * srcLen / 4 := by
      have hnat := hret (hwrites.1 ▸ Int.natCast_nonneg _)
      omega
    have hdone : done = decoded (partText s base srcLen) := by
      refine (List.append_inj hwrites.2 ?_).1
      rw [hcount, ← partText, length_decoded, htext]
    refine .inl ⟨hacc, ?_⟩
    rw [hlow, hwrites.1, hdone, length_decoded, htext]
  · obtain ⟨dst, hrefused, -⟩ := decode_refused hdrop hdst hacc
    rw [hhigh, Option.some.injEq, Prod.mk.injEq] at hrefused
    exact .inr ⟨hacc, _, hlow.trans (by rw [hrefused.1])⟩

end Decoder

/-! ## Searches in what was decoded -/

section Searches

variable {cap : Nat} {bs : List UInt8}

theorem load_head {p : Nat} {b : UInt8} {rest : List UInt8} (h : bs.drop p = b :: rest) :
    p < bs.length ∧ load (filled cap bs) p = some b ∧ bs.drop (p + 1) = rest := by
  refine ⟨?_, ?_, ?_⟩
  · by_contra hout
    rw [List.drop_of_length_le (Nat.le_of_not_lt hout)] at h
    cases h
  · rw [load_filled, ← List.head?_drop, h, List.head?_cons]
  · rw [← List.drop_drop, h, List.drop_one, List.tail_cons]

/-- Every comparison stays inside the decoded bytes. -/
theorem memFindFrom_cells {needle : List UInt8} {last rounds i : Nat}
    (hlast : last + needle.length ≤ bs.length) (hsize : last + 1 < 2 ^ 32) (hi : i ≤ last + 1)
    (hrounds : last + 1 < i + rounds) :
    JwtMemory.memFindFrom (filled cap bs) last needle rounds i =
      some ((List.range' i (last + 1 - i)).find? fun i =>
        (bs.drop i).take needle.length == needle) := by
  induction rounds generalizing i with
  | zero => omega
  | succ rounds ih =>
    rw [JwtMemory.memFindFrom]
    by_cases hmore : i ≤ last
    · have hcount : last + 1 - i = last + 1 - (i + 1) + 1 := by omega
      rw [if_pos hmore, loadAll_filled (by omega), hcount, List.range'_succ, List.find?_cons,
        sizeT_of_lt (by omega)]
      show (if _ then _ else _) = _
      cases hfound : (bs.drop i).take needle.length == needle with
      | true => rfl
      | false => exact ih (by omega) (by omega)
    · obtain rfl : i = last + 1 := by omega
      rw [if_neg hmore, Nat.sub_self]
      rfl

theorem memFind_cells (hsize : bs.length < 2 ^ 32) (needle : List UInt8) :
    JwtMemory.memFind (filled cap bs) bs.length needle = some (memFind bs bs.length needle) := by
  rw [JwtMemory.memFind, memFind]
  by_cases hempty : needle.length = 0
  · rw [if_pos hempty, if_pos hempty]
    rfl
  rw [if_neg hempty, if_neg hempty]
  by_cases hshort : bs.length < needle.length
  · rw [if_pos hshort, if_pos hshort]
    rfl
  rw [if_neg hshort, if_neg hshort, sizeSub_of_le (by omega) hsize,
    memFindFrom_cells (by omega) (by omega) (by omega) (by omega), List.range_eq_range',
    Nat.sub_zero]

theorem parseAlg_cells (hsize : bs.length < 2 ^ 32) :
    JwtMemory.dspJwtParseAlg (filled cap bs) bs.length = some (headerAlg bs) := by
  rw [JwtMemory.dspJwtParseAlg, memFind_cells hsize, memFind_cells hsize, headerAlg,
    dspJwtParseAlg]
  split
  · rfl
  show (if _ then _ else _) = _
  split
  · rfl
  show (if _ then _ else _) = _
  split <;> rfl

/-- The loop over spaces stops at another byte or at the end of the decoded ones. -/
theorem skipSpaces_cells {rounds p : Nat} (hp : p ≤ bs.length) (hrounds : bs.length < p + rounds) :
    ∃ q, JwtMemory.skipSpaces (filled cap bs) bs.length rounds p = some q ∧
      bs.drop q = (bs.drop p).dropWhile (· == space) := by
  induction rounds generalizing p with
  | zero => omega
  | succ rounds ih =>
    rw [JwtMemory.skipSpaces]
    cases hdrop : bs.drop p with
    | nil =>
      have hend : bs.length ≤ p := List.drop_eq_nil_iff.mp hdrop
      exact ⟨p, if_neg (Nat.not_lt.mpr hend), by rw [hdrop, List.dropWhile_nil]⟩
    | cons b rest =>
      obtain ⟨hlt, hload, htail⟩ := @load_head cap _ _ _ _ hdrop
      rw [if_pos hlt, hload, List.dropWhile_cons]
      show ∃ q, (if b = space then _ else _) = some q ∧ _
      by_cases hspace : b = space
      · rw [if_pos hspace, if_pos (by simp [hspace]), ← htail]
        exact ih hlt (by omega)
      · rw [if_neg hspace, if_neg (by simp [hspace])]
        exact ⟨p, rfl, hdrop⟩

/-- So does the loop over digits. -/
theorem readDigits_cells {rounds p : Nat} (hp : p ≤ bs.length) (hrounds : bs.length < p + rounds)
    (val : UInt64) :
    JwtMemory.readDigits (filled cap bs) bs.length rounds p val =
      some (((bs.drop p).takeWhile isDigit).foldl addDigit val) := by
  induction rounds generalizing p val with
  | zero => omega
  | succ rounds ih =>
    rw [JwtMemory.readDigits]
    cases hdrop : bs.drop p with
    | nil =>
      have hend : bs.length ≤ p := List.drop_eq_nil_iff.mp hdrop
      rw [if_neg (Nat.not_lt.mpr hend)]
      rfl
    | cons b rest =>
      obtain ⟨hlt, hload, htail⟩ := @load_head cap _ _ _ _ hdrop
      rw [if_pos hlt, hload, List.takeWhile_cons]
      show (if isDigit b then _ else _) = _
      by_cases hdigit : isDigit b
      · rw [if_pos hdigit, if_pos hdigit, List.foldl_cons, ← htail]
        exact ih hlt (by omega) _
      · rw [if_neg hdigit, if_neg hdigit]
        rfl

theorem parseExp_cells (hsize : bs.length < 2 ^ 32) :
    ∃ err exp, JwtMemory.dspJwtParseExp (filled cap bs) bs.length = some (err, exp) ∧
      payloadExp bs = (err, some exp) := by
  rw [JwtMemory.dspJwtParseExp, memFind_cells hsize, payloadExp, dspJwtParseExp, List.take_length]
  cases hfind : memFind bs bs.length expKey with
  | none => exact ⟨.noExp, 0, rfl, rfl⟩
  | some p =>
    have hkey : p + expKey.length ≤ bs.length := by
      have hat := ((ExpNumber.memFind_eq_some (by decide)).mp hfind).here
      exact ExpNumber.add_length_le (by decide) hat
    obtain ⟨q, hskip, hrest⟩ := @skipSpaces_cells cap bs (bs.length + 1) _ hkey (by omega)
    simp only [Option.bind_eq_bind, Option.bind_some, Option.pure_def, hskip, ← hrest]
    cases hdrop : bs.drop q with
    | nil =>
      have hend : bs.length ≤ q := List.drop_eq_nil_iff.mp hdrop
      exact ⟨.noExp, 0, if_pos hend, rfl⟩
    | cons b rest =>
      obtain ⟨hlt, hload, -⟩ := @load_head cap _ _ _ _ hdrop
      rw [if_neg (by omega), hload, List.takeWhile_cons, Option.bind_some]
      by_cases hdigit : isDigit b
      · rw [if_pos hdigit, if_pos hdigit, readDigits_cells hlt.le (by omega), hdrop,
          List.takeWhile_cons, if_pos hdigit]
        exact ⟨.ok, _, rfl, rfl⟩
      · rw [if_neg hdigit, if_neg hdigit]
        exact ⟨.noExp, 0, rfl, rfl⟩

end Searches

/-! ## The checks -/

section Checks

variable {s : CStr}

/-- The parts lie in front of the NUL. -/
structure InRange (s : CStr) (parts : JwtParts) : Prop where
  header : parts.header + parts.headerLen ≤ s.length
  payload : parts.payload + parts.payloadLen ≤ s.length
  sig : parts.sig + parts.sigLen ≤ s.length
  headerLen : parts.headerLen < 2 ^ 32
  payloadLen : parts.payloadLen < 2 ^ 32
  sigLen : parts.sigLen < 2 ^ 32

/-- A call does not fault, and if `size_t` can hold the length of the token it ends
as the other one does. -/
def Agrees {α : Type} (s : CStr) (low high : Option α) : Prop :=
  ∃ r, low = some r ∧ (s.length < 2 ^ 32 → high = some r)

theorem sizeT_lt (n : Nat) : JwtMemory.sizeT n < 2 ^ 32 := Nat.mod_lt n (by decide)

theorem lt_of_findIdx {l : List UInt8} {p : UInt8 → Bool} {i : Nat} (h : l.findIdx? p = some i) :
    i < l.length := (List.findIdx?_eq_some_iff_findIdx_eq.mp h).1

/-- The searches for the dots and for the end stop at the NUL, and the parts lie
between them. -/
theorem split_cells (s : CStr) (out : JwtParts) :
    ∃ err parts, JwtMemory.dspJwtSplit (stringCells s) out = some (err, parts) ∧
      (err = .ok → InRange s parts) ∧
      (s.length < 2 ^ 32 → dspJwtSplit (some s) (some out) = (err, some parts)) := by
  have hrounds : (stringCells s).length + 1 = s.length + 2 := by rw [length_stringCells]
  have hlen : s.bytes.length = s.length := rfl
  rw [JwtMemory.dspJwtSplit, hrounds, strchr_stringCells (by omega) (by omega) (by decide)]
  simp only [Option.bind_eq_bind, Option.bind_some, Option.pure_def, List.drop_zero, dspJwtSplit,
    Jwt.strchr]
  cases hdot1 : s.bytes.findIdx? (· == dot) with
  | none => exact ⟨.invalidFormat, out, rfl, by simp, fun _ => rfl⟩
  | some dot1 =>
    have hlt1 := lt_of_findIdx hdot1
    simp only [Option.map_some, Nat.zero_add]
    rw [strchr_stringCells (by omega) (by omega) (by decide)]
    simp only [Option.bind_some, CStr.drop]
    cases hdot2 : (s.bytes.drop (dot1 + 1)).findIdx? (· == dot) with
    | none => exact ⟨.invalidFormat, out, rfl, by simp, fun _ => rfl⟩
    | some j =>
      have hlt2 := lt_of_findIdx hdot2
      rw [List.length_drop] at hlt2
      simp only [Option.map_some]
      rw [strend_stringCells (by omega) (by omega), Option.bind_some]
      refine ⟨.ok, _, rfl, fun _ => ?_, fun hsize => ?_⟩
      · have h1 := sizeT_le dot1
        have h2 := sizeT_le (dot1 + 1 + j - dot1 - 1)
        have h3 := sizeT_le (s.length - (dot1 + 1 + j + 1))
        exact
          { header := by dsimp only; omega
            payload := by dsimp only; omega
            sig := by dsimp only; omega
            headerLen := sizeT_lt _
            payloadLen := sizeT_lt _
            sigLen := sizeT_lt _ }
      · have htail : CStr.length ⟨s.bytes.drop (dot1 + 1 + j + 1), fun h => s.noNul
            (List.mem_of_mem_drop h)⟩ = s.length - (dot1 + 1 + j + 1) := List.length_drop
        rw [htail, sizeT_of_lt (by omega), sizeT_of_lt (by omega), sizeT_of_lt (by omega)]

/-- The checks on parts in range decide on their texts. -/
theorem checkDecoded_cells {parts : JwtParts} (h : InRange s parts) (now : Int64) (alg : JwtAlg) :
    JwtMemory.checkDecoded now (stringCells s) alg parts =
      some (checkParts now alg (partText s parts.header parts.headerLen)
        (partText s parts.payload parts.payloadLen)) := by
  rw [JwtMemory.checkDecoded, checkParts]
  rcases decode_partText h.header h.headerLen (by decide : 128 ≤ intMax) with
    ⟨hheader, hcall⟩ | ⟨hheader, buf, hcall⟩
  · have hfits := hheader.fits
    rw [← length_decoded] at hfits
    have hpos : ¬(((decoded (partText s parts.header parts.headerLen)).length : Int) < 0) := by omega
    rw [hcall, if_neg (not_not_intro hheader)]
    simp only [Option.bind_eq_bind, Option.bind_some, Option.pure_def, if_neg hpos,
      Int.toNat_natCast, parseAlg_cells (hfits.trans_lt (by decide))]
    split
    · rfl
    rcases decode_partText h.payload h.payloadLen (by decide : dspJwtMaxDecodeB ≤ intMax) with
      ⟨hpayload, hcall'⟩ | ⟨hpayload, buf, hcall'⟩
    · have hfits' := hpayload.fits
      rw [← length_decoded] at hfits'
      have hpos' : ¬(((decoded (partText s parts.payload parts.payloadLen)).length : Int) < 0) := by
        omega
      obtain ⟨err, exp, hlow, hhigh⟩ := @parseExp_cells dspJwtMaxDecodeB _
        (hfits'.trans_lt (by decide))
      rw [hcall', if_neg (not_not_intro hpayload), hhigh]
      simp only [Option.bind_some, if_neg hpos', Int.toNat_natCast, hlow]
      cases err with
      | ok => by_cases hlate : now < 0 ∨ exp ≤ now.toUInt64 <;> simp [hlate]
      | _ => rfl
    · rw [hcall', if_pos hpayload]
      rfl
  · rw [hcall, if_pos hheader]
    rfl

theorem check_of_split {out parts : JwtParts}
    (h : dspJwtSplit (some s) (some out) = (.ok, some parts)) (now : Int64) (key : List UInt8)
    {keyLen : Nat} (hkey : keyLen ≠ 0) (alg : JwtAlg) :
    jwtCheckStructure now (some s) (some key) keyLen alg out =
      some (checkParts now alg (partText s parts.header parts.headerLen)
        (partText s parts.payload parts.payloadLen), parts) := by
  by_cases hdots : s.bytes.count dot < 2
  · rw [split_of_few hdots] at h
    cases h
  · obtain ⟨header, payload, sig, hs⟩ := exists_splits (by omega : 2 ≤ s.bytes.count dot)
    rw [split_of_splits hs] at h
    cases h
    rw [check_eq hs now key hkey]
    simp only [partsOf, partText_header hs, partText_payload hs]

/-- Whatever the token, the checks come to an end. -/
theorem check_cells (s : CStr) (now : Int64) (key : List UInt8) (keyLen : Nat) (alg : JwtAlg)
    (out : JwtParts) :
    ∃ err parts, JwtMemory.jwtCheckStructure now (some (stringCells s)) (some key) keyLen alg out =
        some (err, parts) ∧
      (err = .ok → InRange s parts) ∧
      (s.length < 2 ^ 32 →
        jwtCheckStructure now (some s) (some key) keyLen alg out = some (err, parts)) := by
  by_cases hkey : keyLen = 0
  · refine ⟨.invalidArg, out, ?_, by simp, fun _ => ?_⟩
    · simp [JwtMemory.jwtCheckStructure, hkey]
    · simp [jwtCheckStructure, hkey]
  obtain ⟨err, parts, hsplit, hrange, hhigh⟩ := split_cells s out
  have hlow : JwtMemory.jwtCheckStructure now (some (stringCells s)) (some key) keyLen alg out =
      if err ≠ .ok then some (.invalidFormat, parts)
      else (JwtMemory.checkDecoded now (stringCells s) alg parts).bind fun err =>
        some (err, parts) := by
    rw [JwtMemory.jwtCheckStructure, if_neg hkey, hsplit]
    rfl
  rw [hlow]
  by_cases herr : err = .ok
  · subst herr
    have hin := hrange rfl
    rw [if_neg (not_not_intro rfl), checkDecoded_cells hin]
    exact ⟨_, parts, rfl, fun _ => hin, fun hsize => check_of_split (hhigh hsize) now key hkey alg⟩
  · rw [if_pos herr]
    refine ⟨.invalidFormat, parts, rfl, by simp, fun hsize => ?_⟩
    simp only [jwtCheckStructure, if_neg hkey, hhigh hsize]
    cases err with
    | ok => exact absurd rfl herr
    | _ => rfl

end Checks

/-! ## The signature -/

section Signature

variable {s : CStr}

/-- What is hashed ends in front of the NUL, and of the signature only written
bytes are used. -/
theorem verify_cells {parts : JwtParts} (h : InRange s parts) (tls : Mbedtls) (key : List UInt8)
    (keyLen : Nat) {cap : Nat} (sig : List UInt8) :
    Agrees s
      (JwtMemory.verifySignature tls (stringCells s) key keyLen parts (filled cap sig) sig.length)
      (some (verifySignature tls s key keyLen parts sig)) := by
  have hpayload := h.payload
  have hsum := sizeT_le (parts.payload + parts.payloadLen)
  have hinput := loadAll_chars (s := s) (i := 0)
    (n := JwtMemory.sizeT (parts.payload + parts.payloadLen)) (by omega)
  have hsig := @loadAll_filled cap sig 0 sig.length (by omega)
  rw [List.drop_zero] at hinput hsig
  rw [List.take_length] at hsig
  rw [JwtMemory.verifySignature, hinput, verifySignature]
  cases tls.parsePublicKey (key.take keyLen) with
  | none =>
    refine ⟨_, rfl, fun hsize => ?_⟩
    rw [sizeT_of_lt (by omega)]
  | some pk =>
    simp only [Option.bind_eq_bind, Option.bind_some, hsig]
    refine ⟨_, rfl, fun hsize => ?_⟩
    rw [sizeT_of_lt (by omega)]
    show some (if _ then _ else _) = some _
    split <;> rfl

/-- `rs_to_der` fits into its buffer. -/
theorem der_cells {rs : List UInt8} (h : rs.length = 64) :
    ∃ der, rsToDer rs = some der ∧ storeAll (fresh 74) 0 der = some (filled 74 der) := by
  obtain ⟨der, hder⟩ : ∃ der, rsToDer rs = some der := ⟨_, SignatureDer.rsToDer_eq h⟩
  have hlen := SignatureDer.length_rsToDer h hder
  have hstore := @storeAll_filled 74 [] der (by rw [List.length_nil]; omega)
  exact ⟨der, hder, hstore⟩

theorem es256_cells (s : CStr) (tls : Mbedtls) (now : Int64) (key : List UInt8) (keyLen : Nat) :
    Agrees s (JwtMemory.dspJwtValidateEs256 tls now (some (stringCells s)) (some key) keyLen)
      (dspJwtValidateEs256 tls now (some s) (some key) keyLen) := by
  obtain ⟨err, parts, hcheck, hrange, hhigh⟩ := check_cells s now key keyLen .es256 noParts
  rw [JwtMemory.dspJwtValidateEs256, hcheck]
  cases err with
  | ok =>
    have hin := hrange rfl
    obtain ⟨ret, done, hlow, hdecode, hret⟩ := decode_cells hin.sig hin.sigLen
      (by decide : 64 ≤ intMax)
    simp only [Option.bind_eq_bind, Option.bind_some, hlow]
    by_cases hlen : ret ≠ 64
    · rw [if_pos hlen]
      refine ⟨_, rfl, fun hsize => ?_⟩
      simp only [dspJwtValidateEs256, hhigh hsize, partBytes, hdecode, if_pos hlen]
    · rw [if_neg hlen]
      have hret64 : ret = 64 := not_not.mp hlen
      have hdone : done.length = 64 := by
        have hnat := hret (by omega)
        omega
      obtain ⟨der, hder, hstore⟩ := der_cells hdone
      have hload := @loadAll_filled 64 done 0 64 (by omega)
      rw [List.drop_zero, List.take_of_length_le hdone.le] at hload
      simp only [hload, Option.bind_some, hder, hstore]
      obtain ⟨v, hverify, hsame⟩ := @verify_cells _ _ hin tls key keyLen 74 der
      refine ⟨v, hverify, fun hsize => ?_⟩
      have hwritten : written 64 done = done := by
        rw [written, hdone, Nat.sub_self, List.replicate_zero, List.append_nil]
      simp only [dspJwtValidateEs256, hhigh hsize, partBytes, hdecode, if_neg hlen, hwritten, hder,
        hsame hsize]
  | _ =>
    refine ⟨_, rfl, fun hsize => ?_⟩
    simp only [dspJwtValidateEs256, hhigh hsize]

theorem rs256_cells (s : CStr) (tls : Mbedtls) (now : Int64) (key : List UInt8) (keyLen : Nat) :
    Agrees s (JwtMemory.dspJwtValidateRs256 tls now (some (stringCells s)) (some key) keyLen)
      (dspJwtValidateRs256 tls now (some s) (some key) keyLen) := by
  obtain ⟨err, parts, hcheck, hrange, hhigh⟩ := check_cells s now key keyLen .rs256 noParts
  rw [JwtMemory.dspJwtValidateRs256, hcheck]
  cases err with
  | ok =>
    have hin := hrange rfl
    obtain ⟨ret, done, hlow, hdecode, hret⟩ := decode_cells hin.sig hin.sigLen
      (by decide : 512 ≤ intMax)
    simp only [Option.bind_eq_bind, Option.bind_some, hlow]
    by_cases hneg : ret ≤ 0
    · rw [if_pos hneg]
      refine ⟨_, rfl, fun hsize => ?_⟩
      simp only [dspJwtValidateRs256, hhigh hsize, partBytes, hdecode, if_pos hneg]
    · rw [if_neg hneg]
      have hdone : ret.toNat = done.length := by
        have hnat := hret (by omega)
        omega
      rw [hdone]
      obtain ⟨v, hverify, hsame⟩ := @verify_cells _ _ hin tls key keyLen 512 done
      refine ⟨v, hverify, fun hsize => ?_⟩
      have htake : (written 512 done).take done.length = done := List.take_left
      simp only [dspJwtValidateRs256, hhigh hsize, partBytes, hdecode, if_neg hneg, hdone, htake,
        hsame hsize]
  | _ =>
    refine ⟨_, rfl, fun hsize => ?_⟩
    simp only [dspJwtValidateRs256, hhigh hsize]

end Signature

/-- No token makes an access out of range, an unwritten byte read or a loop that does
not end, in the checks or in a validator. -/
theorem accesses_in_range (tls : Mbedtls) (now : Int64) (jwt : CStr) (key : Option (List UInt8))
    (keyLen : Nat) :
    (∀ alg out, (JwtMemory.jwtCheckStructure now (some (stringCells jwt)) key keyLen alg
        out).isSome) ∧
      (JwtMemory.dspJwtValidateEs256 tls now (some (stringCells jwt)) key keyLen).isSome ∧
      (JwtMemory.dspJwtValidateRs256 tls now (some (stringCells jwt)) key keyLen).isSome := by
  cases key with
  | none => exact ⟨fun _ _ => rfl, rfl, rfl⟩
  | some key =>
    refine ⟨fun alg out => ?_, ?_, ?_⟩
    · obtain ⟨err, parts, hcheck, -⟩ := check_cells jwt now key keyLen alg out
      rw [hcheck]
      rfl
    · obtain ⟨v, hcall, -⟩ := es256_cells jwt tls now key keyLen
      rw [hcall]
      rfl
    · obtain ⟨v, hcall, -⟩ := rs256_cells jwt tls now key keyLen
      rw [hcall]
      rfl

/-- The validators of `Model.Jwt` are these, for every token that fits into memory. -/
theorem validate_eq {jwt : CStr} (h : jwt.length < 2 ^ 32) (tls : Mbedtls) (now : Int64)
    (key : List UInt8) (keyLen : Nat) :
    JwtMemory.dspJwtValidateEs256 tls now (some (stringCells jwt)) (some key) keyLen =
        dspJwtValidateEs256 tls now (some jwt) (some key) keyLen ∧
      JwtMemory.dspJwtValidateRs256 tls now (some (stringCells jwt)) (some key) keyLen =
        dspJwtValidateRs256 tls now (some jwt) (some key) keyLen := by
  obtain ⟨v, hlow, hhigh⟩ := es256_cells jwt tls now key keyLen
  obtain ⟨v', hlow', hhigh'⟩ := rs256_cells jwt tls now key keyLen
  exact ⟨hlow.trans (hhigh h).symm, hlow'.trans (hhigh' h).symm⟩

end DspEmbedded.Audit.TokenMemory
