import DspEmbedded.Audit.Base64url
import DspEmbedded.Audit.ExpNumber

/-!
# The parts of a token

A token is cut at its first two dots. The checks before the signature depend on
the two parts in front as texts, and the range that is hashed is these two with
the dot between them.
-/
namespace DspEmbedded.Audit.TokenFormat

open Lib.CString Lib.Search Model.Jwt Audit.Base64url Audit.ExpNumber

/-! ## Cutting -/

/-- The token cut at its first two dots; the last part may contain more. -/
structure Splits (jwt : CStr) (header payload sig : List UInt8) : Prop where
  token : jwt.bytes = header ++ dot :: (payload ++ dot :: sig)
  header_noDot : dot ∉ header
  payload_noDot : dot ∉ payload

/-- The offsets of three parts. -/
def partsOf (header payload sig : List UInt8) : JwtParts where
  header := 0
  headerLen := header.length
  payload := header.length + 1
  payloadLen := payload.length
  sig := header.length + 1 + payload.length + 1
  sigLen := sig.length

theorem strchr_eq_none {s : CStr} {c : UInt8} (h : c ∉ s.bytes) : strchr s c = none := by
  rw [strchr, List.findIdx?_eq_none_iff]
  intro b hb
  have hne : b ≠ c := fun heq => h (heq ▸ hb)
  simpa using hne

theorem strchr_of_append {s : CStr} {c : UInt8} {pre post : List UInt8}
    (h : s.bytes = pre ++ c :: post) (hpre : c ∉ pre) : strchr s c = some pre.length := by
  have hnone : pre.findIdx? (· == c) = none := by
    rw [List.findIdx?_eq_none_iff]
    intro b hb
    have hne : b ≠ c := fun heq => hpre (heq ▸ hb)
    simpa using hne
  rw [strchr, h, List.findIdx?_append, hnone]
  simp [List.findIdx?_cons]

theorem Splits.drop_header {jwt : CStr} {header payload sig : List UInt8}
    (h : Splits jwt header payload sig) :
    (jwt.drop (header.length + 1)).bytes = payload ++ dot :: sig := by
  show jwt.bytes.drop (header.length + 1) = _
  rw [h.token, ← List.drop_drop, List.drop_left, List.drop_succ_cons, List.drop_zero]

theorem Splits.drop_payload {jwt : CStr} {header payload sig : List UInt8}
    (h : Splits jwt header payload sig) :
    (jwt.drop (header.length + 1 + payload.length + 1)).bytes = sig := by
  have hrest := h.drop_header
  show jwt.bytes.drop (header.length + 1 + payload.length + 1) = sig
  rw [Nat.add_assoc, ← List.drop_drop]
  show List.drop (payload.length + 1) (jwt.drop (header.length + 1)).bytes = sig
  rw [hrest, ← List.drop_drop, List.drop_left, List.drop_succ_cons, List.drop_zero]

theorem split_of_splits {jwt : CStr} {header payload sig : List UInt8}
    (h : Splits jwt header payload sig) (out : JwtParts) :
    dspJwtSplit (some jwt) (some out) = (.ok, some (partsOf header payload sig)) := by
  have hsecond : strchr (jwt.drop (header.length + 1)) dot = some payload.length :=
    strchr_of_append h.drop_header h.payload_noDot
  have hlen : (jwt.drop (header.length + 1 + payload.length + 1)).length = sig.length :=
    congrArg List.length h.drop_payload
  simp only [dspJwtSplit, strchr_of_append h.token h.header_noDot, hsecond, hlen, partsOf]
  congr 3
  omega

theorem exists_splits {jwt : CStr} (h : 2 ≤ jwt.bytes.count dot) :
    ∃ header payload sig, Splits jwt header payload sig := by
  obtain ⟨header, rest, htoken, hheader⟩ :=
    List.eq_append_cons_of_mem (List.count_pos_iff.mp (by omega : 0 < jwt.bytes.count dot))
  have hrest : 0 < rest.count dot := by
    rw [htoken, List.count_append, List.count_eq_zero_of_not_mem hheader, List.count_cons_self] at h
    omega
  obtain ⟨payload, sig, hparts, hpayload⟩ :=
    List.eq_append_cons_of_mem (List.count_pos_iff.mp hrest)
  exact ⟨header, payload, sig, by rw [htoken, hparts], hheader, hpayload⟩

theorem Splits.count_eq {jwt : CStr} {header payload sig : List UInt8}
    (h : Splits jwt header payload sig) : jwt.bytes.count dot = sig.count dot + 2 := by
  rw [h.token, List.count_append, List.count_cons_self, List.count_append, List.count_cons_self,
    List.count_eq_zero_of_not_mem h.header_noDot, List.count_eq_zero_of_not_mem h.payload_noDot]
  omega

theorem split_of_few {jwt : CStr} (h : jwt.bytes.count dot < 2) (out : JwtParts) :
    dspJwtSplit (some jwt) (some out) = (.invalidFormat, some out) := by
  by_cases hmem : dot ∈ jwt.bytes
  · obtain ⟨header, rest, htoken, hheader⟩ := List.eq_append_cons_of_mem hmem
    have hrest : dot ∉ (jwt.drop (header.length + 1)).bytes := by
      show dot ∉ jwt.bytes.drop (header.length + 1)
      rw [htoken, ← List.drop_drop, List.drop_left, List.drop_succ_cons, List.drop_zero,
        ← List.count_eq_zero]
      rw [htoken, List.count_append, List.count_cons_self] at h
      omega
    simp only [dspJwtSplit, strchr_of_append htoken hheader, strchr_eq_none hrest]
  · simp only [dspJwtSplit, strchr_eq_none hmem]

/-! ## The checks on the parts -/

instance (cs : List UInt8) (room : Nat) : Decidable (Accepted cs room) :=
  decidable_of_iff
    (cs.all (fun c => decide (c ∈ alphabet)) = true ∧ cs.length % 4 ≠ 1 ∧ 3 * cs.length / 4 ≤ room)
    ⟨fun h => ⟨by simpa using h.1, h.2.1, h.2.2⟩,
      fun h => ⟨by simpa using h.chars, h.length, h.fits⟩⟩

def headerAlg (bytes : List UInt8) : JwtAlg := dspJwtParseAlg (some bytes) bytes.length

def payloadExp (bytes : List UInt8) : JwtErr × Option UInt64 :=
  dspJwtParseExp (some bytes) bytes.length (some 0)

/-- The checks as they depend on the texts of the two parts. -/
def checkParts (now : Int64) (alg : JwtAlg) (header payload : List UInt8) : JwtErr :=
  if ¬ Accepted header 128 then .decode
  else if headerAlg (decoded header) ≠ alg then .invalidAlg
  else if ¬ Accepted payload dspJwtMaxDecodeB then .decode
  else
    match payloadExp (decoded payload) with
    | (.ok, some exp) => if now < 0 ∨ exp ≤ now.toUInt64 then .expired else .ok
    | (err, _) => err

theorem payloadExp_cases (bytes : List UInt8) :
    payloadExp bytes = (.noExp, some 0) ∨ ∃ exp, payloadExp bytes = (.ok, some exp) := by
  rw [payloadExp, parseExp_eq]
  cases behind expKey (bytes.take bytes.length) with
  | none => exact .inl rfl
  | some rest =>
    simp only []
    split
    · exact .inl rfl
    · exact .inr ⟨_, rfl⟩

theorem parseAlg_append (bytes more : List UInt8) :
    dspJwtParseAlg (some (bytes ++ more)) bytes.length = headerAlg bytes := by
  rw [headerAlg, parseAlg_eq, parseAlg_eq, List.take_left, List.take_length]

theorem parseExp_append (bytes more : List UInt8) :
    dspJwtParseExp (some (bytes ++ more)) bytes.length (some 0) = payloadExp bytes := by
  rw [payloadExp, parseExp_eq, parseExp_eq, List.take_left, List.take_length]

section Decode

variable {text : List UInt8} {cap : Nat}

/-- A part is decoded as if nothing stood behind it in the token. -/
theorem decode_part (more : List UInt8) (hcap : cap ≤ intMax) (h : Accepted text cap) :
    ∃ unused, dspJwtBase64urlDecode (some (text ++ more)) text.length (some (stackBuffer cap)) cap =
      some (((decoded text).length : Int), some (decoded text ++ unused)) := by
  have htake : (text ++ more).take text.length = text := List.take_left
  have hcall := @decode_accepted (text ++ more) (stackBuffer cap) text.length cap
    (by rw [List.length_append]; omega) (by rw [stackBuffer, List.length_replicate])
    (h.fits.trans hcap) (by rwa [htake])
  rw [htake] at hcall
  exact ⟨_, by rw [hcall, length_decoded]⟩

theorem decode_part_refused (more : List UInt8) (h : ¬ Accepted text cap) :
    ∃ buf, dspJwtBase64urlDecode (some (text ++ more)) text.length (some (stackBuffer cap)) cap =
      some (-1, some buf) := by
  have htake : (text ++ more).take text.length = text := List.take_left
  obtain ⟨buf, hcall, -⟩ := @decode_refused (text ++ more) (stackBuffer cap) text.length cap
    (by rw [List.length_append]; omega) (by rw [stackBuffer, List.length_replicate])
    (by rwa [htake])
  exact ⟨buf, hcall⟩

end Decode

/-- The checks decide on the texts of header and payload. -/
theorem check_eq {jwt : CStr} {header payload sig : List UInt8} (h : Splits jwt header payload sig)
    (now : Int64) (key : List UInt8) {keyLen : Nat} (hkey : keyLen ≠ 0) (alg : JwtAlg)
    (out : JwtParts) :
    jwtCheckStructure now (some jwt) (some key) keyLen alg out =
      some (checkParts now alg header payload, partsOf header payload sig) := by
  have hheader : partBytes jwt 0 = header ++ dot :: (payload ++ dot :: sig) := h.token
  have hpayload : partBytes jwt (header.length + 1) = payload ++ dot :: sig := h.drop_header
  simp only [jwtCheckStructure, if_neg hkey, split_of_splits h]
  simp only [partsOf, hheader, hpayload, checkParts]
  by_cases hh : Accepted header 128
  · obtain ⟨unused, hcall⟩ := decode_part (dot :: (payload ++ dot :: sig)) (by decide) hh
    have hpos : ¬ (((decoded header).length : Int) < 0) := by omega
    simp only [hcall, if_neg hpos, Int.toNat_natCast, parseAlg_append, hh, not_true_eq_false,
      if_false]
    by_cases halg : headerAlg (decoded header) ≠ alg
    · rw [if_pos halg, if_pos halg]
    · rw [if_neg halg, if_neg halg]
      by_cases hp : Accepted payload dspJwtMaxDecodeB
      · obtain ⟨unused', hcall'⟩ := decode_part (dot :: sig) (by decide) hp
        have hpos' : ¬ (((decoded payload).length : Int) < 0) := by omega
        simp only [hcall', if_neg hpos', Int.toNat_natCast, parseExp_append, hp, not_true_eq_false,
          if_false]
        rcases payloadExp (decoded payload) with ⟨err, _ | exp⟩
        · cases err <;> rfl
        · cases err with
          | ok => by_cases hlate : now < 0 ∨ exp ≤ now.toUInt64 <;> simp [hlate]
          | _ => rfl
      · obtain ⟨buf, hcall'⟩ := decode_part_refused (dot :: sig) hp
        simp only [hcall', hp, not_false_eq_true, if_true]
        rfl
  · obtain ⟨buf, hcall⟩ := decode_part_refused (dot :: (payload ++ dot :: sig)) hh
    simp only [hcall, hh, not_false_eq_true, if_true]
    rfl

theorem check_of_few {jwt : CStr} (h : jwt.bytes.count dot < 2) (now : Int64) (key : List UInt8)
    {keyLen : Nat} (hkey : keyLen ≠ 0) (alg : JwtAlg) (out : JwtParts) :
    jwtCheckStructure now (some jwt) (some key) keyLen alg out = some (.invalidFormat, out) := by
  simp only [jwtCheckStructure, if_neg hkey, split_of_few h]
  rfl

/-- What the checks ask of the parts. -/
structure PartsPass (now : Int64) (alg : JwtAlg) (header payload : List UInt8) : Prop where
  headerFits : Accepted header 128
  alg : headerAlg (decoded header) = alg
  payloadFits : Accepted payload dspJwtMaxDecodeB
  exp : ∃ exp, payloadExp (decoded payload) = (.ok, some exp) ∧ 0 ≤ now.toInt ∧
    now.toInt < exp.toNat

/-- The comparison with the clock, in the integers. -/
theorem not_late_iff {now : Int64} {exp : UInt64} :
    ¬ (now < 0 ∨ exp ≤ now.toUInt64) ↔ 0 ≤ now.toInt ∧ now.toInt < exp.toNat := by
  rw [not_or, Int64.not_lt, UInt64.not_le, Int64.le_iff_toInt_le, UInt64.lt_iff_toNat_lt]
  have hzero : (0 : Int64).toInt = 0 := rfl
  rw [hzero]
  constructor
  · intro ⟨hpos, hlt⟩
    have hnow := Int64.toNat_toUInt64_of_le (Int64.le_iff_toInt_le.mpr hpos)
    have hcast := Int64.cast_toNatClampNeg now (Int64.le_iff_toInt_le.mpr hpos)
    omega
  · intro ⟨hpos, hlt⟩
    have hnow := Int64.toNat_toUInt64_of_le (Int64.le_iff_toInt_le.mpr hpos)
    have hcast := Int64.cast_toNatClampNeg now (Int64.le_iff_toInt_le.mpr hpos)
    exact ⟨hpos, by omega⟩

theorem checkParts_ok_iff {now : Int64} {alg : JwtAlg} {header payload : List UInt8} :
    checkParts now alg header payload = .ok ↔ PartsPass now alg header payload := by
  rw [checkParts]
  constructor
  · intro h
    by_cases hh : Accepted header 128
    · rw [if_neg (not_not_intro hh)] at h
      by_cases halg : headerAlg (decoded header) = alg
      · rw [if_neg (not_not_intro halg)] at h
        by_cases hp : Accepted payload dspJwtMaxDecodeB
        · rw [if_neg (not_not_intro hp)] at h
          refine ⟨hh, halg, hp, ?_⟩
          rcases payloadExp_cases (decoded payload) with hexp | ⟨exp, hexp⟩
          · rw [hexp] at h
            cases h
          · rw [hexp] at h
            refine ⟨exp, hexp, not_late_iff.mp fun hlate => ?_⟩
            simp only [if_pos hlate, reduceCtorEq] at h
        · rw [if_pos hp] at h
          cases h
      · rw [if_pos halg] at h
        cases h
    · rw [if_pos hh] at h
      cases h
  · intro ⟨hh, halg, hp, exp, hexp, hnow⟩
    rw [if_neg (not_not_intro hh), if_neg (not_not_intro halg), if_neg (not_not_intro hp), hexp]
    exact if_neg (not_late_iff.mpr hnow)

/-- There is a key, and it is not empty. -/
def HasKey (key : Option (List UInt8)) (keyLen : Nat) : Prop := key.isSome = true ∧ keyLen ≠ 0

/-- **The checks by the parts of the token.** -/
theorem check_ok_iff {jwt : CStr} {header payload sig : List UInt8}
    (h : Splits jwt header payload sig) (now : Int64) (key : Option (List UInt8)) (keyLen : Nat)
    (alg : JwtAlg) (out : JwtParts) :
    (∃ parts, jwtCheckStructure now (some jwt) key keyLen alg out = some (.ok, parts)) ↔
      HasKey key keyLen ∧ PartsPass now alg header payload := by
  cases key with
  | none => simp [jwtCheckStructure, HasKey]
  | some key =>
    by_cases hkey : keyLen = 0
    · simp [jwtCheckStructure, HasKey, hkey]
    · rw [check_eq h now key hkey, ← checkParts_ok_iff]
      simp [HasKey, hkey]

/-! ## Compact serialisation -/

theorem mem_alphabet_of_encode {bytes : List UInt8} {c : UInt8} (h : c ∈ encode bytes) :
    c ∈ alphabet := (encode_accepted (le_refl bytes.length)).chars c h

/-- Header and payload encoded, with a signature behind them. -/
def compact (header payload : List UInt8) (sig : CStr) : CStr where
  bytes := encode header ++ dot :: (encode payload ++ dot :: sig.bytes)
  noNul := by
    have hencode : ∀ bytes, (0 : UInt8) ∉ encode bytes := fun bytes hmem =>
      absurd (mem_alphabet_of_encode hmem) (by decide)
    simp only [List.mem_append, List.mem_cons, not_or]
    exact ⟨hencode header, by decide, hencode payload, by decide, sig.noNul⟩

theorem splits_compact (header payload : List UInt8) (sig : CStr) :
    Splits (compact header payload sig) (encode header) (encode payload) sig.bytes := by
  have hencode : ∀ bytes, dot ∉ encode bytes := fun bytes hmem =>
    absurd (mem_alphabet_of_encode hmem) (by decide)
  exact ⟨rfl, hencode header, hencode payload⟩

theorem encode_accepted_iff {bytes : List UInt8} {room : Nat} :
    Accepted (encode bytes) room ↔ bytes.length ≤ room := by
  constructor
  · intro h
    have hfits := h.fits
    rw [length_encode] at hfits
    omega
  · exact encode_accepted

/-! ## What is hashed -/

/-- The characters of a part. -/
def partText (jwt : CStr) (offset len : Nat) : List UInt8 := (jwt.bytes.drop offset).take len

/-- `dsp_jwt_split` accepts exactly the tokens with two dots, and then the parts are
the text between them. -/
structure SplitExact (jwt : CStr) : Prop where
  accepts : ∀ out, (dspJwtSplit (some jwt) (some out)).1 = .ok ↔ jwt.bytes.count dot = 2
  parts : ∀ out parts, dspJwtSplit (some jwt) (some out) = (.ok, some parts) →
    dot ∉ partText jwt parts.header parts.headerLen ∧
    dot ∉ partText jwt parts.payload parts.payloadLen ∧
    dot ∉ partText jwt parts.sig parts.sigLen ∧
    partText jwt parts.header parts.headerLen ++ [dot] ++
      partText jwt parts.payload parts.payloadLen ++ [dot] ++
      partText jwt parts.sig parts.sigLen = jwt.bytes

/-- A call ends, and whatever it hashes is the header and the payload whose
decodings passed, with the dot between them. -/
def HashesChecked (now : Int64) (alg : JwtAlg) (jwt : CStr) (call : Option Validation) : Prop :=
  ∃ v, call = some v ∧ ∀ range ∈ v.hashed, ∃ parts hdrLen hdrBuf payLen payBuf exp,
    dspJwtSplit (some jwt) (some noParts) = (.ok, some parts) ∧
    range = partText jwt parts.header parts.headerLen ++ [dot] ++
      partText jwt parts.payload parts.payloadLen ∧
    dspJwtBase64urlDecode (some (partBytes jwt parts.header)) parts.headerLen
      (some (stackBuffer 128)) 128 = some (hdrLen, some hdrBuf) ∧
    0 ≤ hdrLen ∧ dspJwtParseAlg (some hdrBuf) hdrLen.toNat = alg ∧
    dspJwtBase64urlDecode (some (partBytes jwt parts.payload)) parts.payloadLen
      (some (stackBuffer dspJwtMaxDecodeB)) dspJwtMaxDecodeB = some (payLen, some payBuf) ∧
    0 ≤ payLen ∧ dspJwtParseExp (some payBuf) payLen.toNat (some 0) = (.ok, some exp) ∧
    0 ≤ now.toInt ∧ now.toInt < exp.toNat

/-- Both validators, with every key and clock. -/
def HashesSigned (jwt : CStr) : Prop :=
  ∀ (tls : Mbedtls) (now : Int64) (key : List UInt8) (keyLen : Nat),
    HashesChecked now .es256 jwt (dspJwtValidateEs256 tls now (some jwt) (some key) keyLen) ∧
    HashesChecked now .rs256 jwt (dspJwtValidateRs256 tls now (some jwt) (some key) keyLen)

theorem partText_header {jwt : CStr} {header payload sig : List UInt8}
    (h : Splits jwt header payload sig) : partText jwt 0 header.length = header := by
  rw [partText, h.token]
  exact List.take_left

theorem partText_payload {jwt : CStr} {header payload sig : List UInt8}
    (h : Splits jwt header payload sig) :
    partText jwt (header.length + 1) payload.length = payload := by
  have hdrop : jwt.bytes.drop (header.length + 1) = payload ++ dot :: sig := h.drop_header
  rw [partText, hdrop, List.take_left]

theorem partText_sig {jwt : CStr} {header payload sig : List UInt8}
    (h : Splits jwt header payload sig) :
    partText jwt (header.length + 1 + payload.length + 1) sig.length = sig := by
  have hdrop : jwt.bytes.drop (header.length + 1 + payload.length + 1) = sig := h.drop_payload
  rw [partText, hdrop, List.take_length]

/-- The signing input: everything in front of the second dot. -/
theorem take_signing {jwt : CStr} {header payload sig : List UInt8}
    (h : Splits jwt header payload sig) :
    jwt.bytes.take (header.length + 1 + payload.length) = header ++ [dot] ++ payload := by
  have htoken : jwt.bytes = (header ++ [dot] ++ payload) ++ dot :: sig := by
    rw [h.token]
    simp
  rw [htoken]
  exact List.take_left' (by simp; omega)

theorem checkStructure_isSome (now : Int64) (jwt : CStr) (key : List UInt8) (keyLen : Nat)
    (alg : JwtAlg) (out : JwtParts) :
    ∃ r, jwtCheckStructure now (some jwt) (some key) keyLen alg out = some r := by
  by_cases hkey : keyLen = 0
  · exact ⟨(.invalidArg, out), by simp [jwtCheckStructure, hkey]⟩
  · by_cases hdots : jwt.bytes.count dot < 2
    · exact ⟨_, check_of_few hdots now key hkey alg out⟩
    · obtain ⟨header, payload, sig, h⟩ := exists_splits (by omega : 2 ≤ jwt.bytes.count dot)
      exact ⟨_, check_eq h now key hkey alg out⟩

theorem splitExact_iff (jwt : CStr) : SplitExact jwt ↔ jwt.bytes.count dot ≤ 2 := by
  constructor
  · intro h
    by_contra hmany
    obtain ⟨header, payload, sig, hs⟩ := exists_splits (by omega : 2 ≤ jwt.bytes.count dot)
    have hok := (h.accepts noParts).mp (by rw [split_of_splits hs])
    omega
  · intro hle
    refine ⟨?_, ?_⟩
    · intro out
      by_cases hdots : jwt.bytes.count dot < 2
      · rw [split_of_few hdots]
        simp only [reduceCtorEq, false_iff]
        omega
      · obtain ⟨header, payload, sig, hs⟩ := exists_splits (by omega : 2 ≤ jwt.bytes.count dot)
        rw [split_of_splits hs]
        simp only [true_iff]
        omega
    · intro out parts hcall
      by_cases hdots : jwt.bytes.count dot < 2
      · rw [split_of_few hdots] at hcall
        cases hcall
      · obtain ⟨header, payload, sig, hs⟩ := exists_splits (by omega : 2 ≤ jwt.bytes.count dot)
        rw [split_of_splits hs] at hcall
        obtain rfl : partsOf header payload sig = parts := by simpa using hcall
        have hcount := hs.count_eq
        have hsig : dot ∉ sig := List.count_eq_zero.mp (by omega)
        simp only [partsOf, partText_header hs, partText_payload hs, partText_sig hs]
        refine ⟨hs.header_noDot, hs.payload_noDot, hsig, ?_⟩
        rw [hs.token]
        simp

/-! ## Hashing -/

/-- The checks passed, so the token has its parts. -/
theorem splits_of_check {now : Int64} {alg : JwtAlg} {jwt : CStr} {key : List UInt8} {keyLen : Nat}
    {out parts : JwtParts}
    (hcheck : jwtCheckStructure now (some jwt) (some key) keyLen alg out = some (.ok, parts)) :
    ∃ header payload sig, Splits jwt header payload sig ∧ parts = partsOf header payload sig ∧
      PartsPass now alg header payload := by
  have hkey : keyLen ≠ 0 := by
    intro h0
    simp [jwtCheckStructure, h0] at hcheck
  by_cases hdots : jwt.bytes.count dot < 2
  · rw [check_of_few hdots now key hkey] at hcheck
    cases hcheck
  · obtain ⟨header, payload, sig, hs⟩ := exists_splits (by omega : 2 ≤ jwt.bytes.count dot)
    rw [check_eq hs now key hkey] at hcheck
    obtain ⟨hok, rfl⟩ : checkParts now alg header payload = .ok ∧
        partsOf header payload sig = parts := by simpa using hcheck
    exact ⟨header, payload, sig, hs, rfl, checkParts_ok_iff.mp hok⟩

theorem HashesChecked.nothing {now : Int64} {alg : JwtAlg} {jwt : CStr} {call : Option Validation}
    {v : Validation} (hcall : call = some v) (hnone : v.hashed = []) :
    HashesChecked now alg jwt call := ⟨v, hcall, by simp [hnone]⟩

/-- A validator that hashes the signing input only, and only after the checks. -/
theorem hashesChecked_of_checks {now : Int64} {alg : JwtAlg} {jwt : CStr} {key : List UInt8}
    {keyLen : Nat} {call : Option Validation} {v : Validation} (hcall : call = some v)
    (hhash : ∀ range ∈ v.hashed, ∃ parts,
      jwtCheckStructure now (some jwt) (some key) keyLen alg noParts = some (.ok, parts) ∧
        range = jwt.bytes.take (parts.payload + parts.payloadLen)) :
    HashesChecked now alg jwt call := by
  refine ⟨v, hcall, fun range hrange => ?_⟩
  obtain ⟨parts, hcheck, rfl⟩ := hhash range hrange
  obtain ⟨header, payload, sig, hs, rfl, hh, halg, hp, exp, hexp, hnow⟩ := splits_of_check hcheck
  obtain ⟨unused, hhdr⟩ := decode_part (dot :: (payload ++ dot :: sig)) (by decide) hh
  obtain ⟨unused', hpay⟩ := decode_part (dot :: sig) (by decide) hp
  refine ⟨_, (decoded header).length, decoded header ++ unused, (decoded payload).length,
    decoded payload ++ unused', exp, split_of_splits hs noParts, ?_, ?_, Int.natCast_nonneg _, ?_,
    ?_, Int.natCast_nonneg _, ?_, hnow⟩
  · simp only [partsOf, partText_header hs, partText_payload hs, take_signing hs]
  · have hheader : partBytes jwt 0 = header ++ dot :: (payload ++ dot :: sig) := hs.token
    simp only [partsOf, hheader]
    exact hhdr
  · rw [Int.toNat_natCast, parseAlg_append, halg]
  · have hpayload : partBytes jwt (header.length + 1) = payload ++ dot :: sig := hs.drop_header
    simp only [partsOf, hpayload]
    exact hpay
  · rw [Int.toNat_natCast, parseExp_append, hexp]

theorem hashed_verifySignature {tls : Mbedtls} {jwt : CStr} {key : List UInt8} {keyLen : Nat}
    {parts : JwtParts} {sig : List UInt8} :
    (verifySignature tls jwt key keyLen parts sig).hashed =
      [jwt.bytes.take (parts.payload + parts.payloadLen)] := by
  simp only [verifySignature]
  cases tls.parsePublicKey (key.take keyLen) with
  | none => rfl
  | some pk =>
    simp only []
    split_ifs
    · rfl
    · rfl

/-- The signature is decoded into a buffer of any size without a fault. -/
theorem decode_sig {jwt : CStr} {header payload sig : List UInt8}
    (h : Splits jwt header payload sig) (cap : Nat) :
    ∃ sigLen sigBuf, dspJwtBase64urlDecode
      (some (partBytes jwt (partsOf header payload sig).sig)) (partsOf header payload sig).sigLen
      (some (stackBuffer cap)) cap = some (sigLen, some sigBuf) := by
  have hpart : partBytes jwt (partsOf header payload sig).sig = sig := h.drop_payload
  obtain ⟨res, hres, hout⟩ := @decode_outcome sig (stackBuffer cap) sig.length cap le_rfl
    (by rw [stackBuffer, List.length_replicate])
  rw [hpart]
  show ∃ sigLen sigBuf, dspJwtBase64urlDecode (some sig) sig.length _ cap = _
  rw [hres]
  rcases hout with ⟨-, rfl⟩ | ⟨-, dst', rfl, -⟩
  · exact ⟨_, _, rfl⟩
  · exact ⟨_, _, rfl⟩

theorem es256_hashes (tls : Mbedtls) (now : Int64) (jwt : CStr) (key : List UInt8) (keyLen : Nat) :
    HashesChecked now .es256 jwt (dspJwtValidateEs256 tls now (some jwt) (some key) keyLen) := by
  obtain ⟨⟨err, parts⟩, hcheck⟩ := checkStructure_isSome now jwt key keyLen .es256 noParts
  simp only [dspJwtValidateEs256, hcheck]
  cases err with
  | ok =>
    obtain ⟨header, payload, sig, hs, rfl, -⟩ := splits_of_check hcheck
    obtain ⟨sigLen, sigRaw, hsig⟩ := decode_sig hs 64
    simp only [hsig]
    by_cases hlen : sigLen ≠ 64
    · exact .nothing (if_pos hlen) rfl
    · rw [if_neg hlen]
      cases rsToDer sigRaw with
      | none => exact .nothing rfl rfl
      | some sigDer =>
        refine hashesChecked_of_checks rfl fun range hrange => ⟨_, hcheck, ?_⟩
        rw [hashed_verifySignature] at hrange
        exact List.mem_singleton.mp hrange
  | _ => exact .nothing rfl rfl

theorem rs256_hashes (tls : Mbedtls) (now : Int64) (jwt : CStr) (key : List UInt8) (keyLen : Nat) :
    HashesChecked now .rs256 jwt (dspJwtValidateRs256 tls now (some jwt) (some key) keyLen) := by
  obtain ⟨⟨err, parts⟩, hcheck⟩ := checkStructure_isSome now jwt key keyLen .rs256 noParts
  simp only [dspJwtValidateRs256, hcheck]
  cases err with
  | ok =>
    obtain ⟨header, payload, sig, hs, rfl, -⟩ := splits_of_check hcheck
    obtain ⟨sigLen, sigBuf, hsig⟩ := decode_sig hs 512
    simp only [hsig]
    by_cases hlen : sigLen ≤ 0
    · exact .nothing (if_pos hlen) rfl
    · rw [if_neg hlen]
      refine hashesChecked_of_checks rfl fun range hrange => ⟨_, hcheck, ?_⟩
      rw [hashed_verifySignature] at hrange
      exact List.mem_singleton.mp hrange
  | _ => exact .nothing rfl rfl

/-- **Compact serialisation is exact up to two dots.** Every token is cut as it is
written and only the checked parts are hashed, unless it has more than two dots:
then the cut is accepted too, and the third part contains dots. -/
theorem compact_exact_iff (jwt : CStr) :
    (SplitExact jwt ∧ HashesSigned jwt) ↔ jwt.bytes.count dot ≤ 2 := by
  rw [splitExact_iff, and_iff_left]
  intro tls now key keyLen
  exact ⟨es256_hashes tls now jwt key keyLen, rs256_hashes tls now jwt key keyLen⟩

/-- `a.b.c.d`. -/
def fourParts : CStr := ⟨[97, 46, 98, 46, 99, 46, 100], by decide⟩

theorem fourParts_counterexample :
    fourParts.bytes.count dot = 3 ∧
      dspJwtSplit (some fourParts) (some noParts) = (.ok, some ⟨0, 1, 2, 1, 4, 3⟩) ∧
      dot ∈ partText fourParts 4 3 ∧ ¬ SplitExact fourParts := by
  have hcall : dspJwtSplit (some fourParts) (some noParts) = (.ok, some ⟨0, 1, 2, 1, 4, 3⟩) := by
    decide
  refine ⟨by decide, hcall, by decide, fun h => ?_⟩
  have hdots := (h.accepts noParts).mp (by rw [hcall])
  exact absurd hdots (by decide)

end DspEmbedded.Audit.TokenFormat
