import DspEmbedded.Audit.SignatureDer
import DspEmbedded.Audit.TokenFormat

/-!
# The verdict on a token

The validators work on offsets into the token and on buffers of fixed sizes. Their
verdict is a function of three texts: which tokens pass is said here by the parts, what
they decode to, and what mbedTLS says of the digest of the signed part.
-/
namespace DspEmbedded.Audit.TokenVerdict

open Lib Lib.CString Model.Jwt Audit.Base64url Audit.TokenFormat Audit.SignatureDer

/-- The room for the decoded signature. -/
def sigRoom : JwtAlg → Nat
  | .es256 => 64
  | _ => 512

/-- The sizes of a signature that go on to mbedTLS. -/
def Sized (alg : JwtAlg) (sig : List UInt8) : Prop :=
  match alg with
  | .es256 => sig.length = 64
  | _ => sig ≠ []

/-- An ECDSA signature goes to mbedTLS as a sequence of two padded halves. -/
def handedOver (alg : JwtAlg) (sig : List UInt8) : List UInt8 :=
  match alg with
  | .es256 => Der.sequence (Der.element 0x02 (paddedHalf (sig.take 32)) ++
      Der.element 0x02 (paddedHalf ((sig.drop 32).take 32)))
  | _ => sig

def KeyVerifies (tls : Mbedtls) (key input sig : List UInt8) : Prop :=
  ∃ pk, tls.parsePublicKey key = some pk ∧ tls.pkVerify pk (tls.sha256 input) sig = true

/-- What a validator asks of the three parts. -/
structure Verified (tls : Mbedtls) (now : Int64) (alg : JwtAlg) (key : List UInt8)
    (header payload sig : List UInt8) : Prop where
  parts : PartsPass now alg header payload
  fits : Accepted sig (sigRoom alg)
  sized : Sized alg (decoded sig)
  signed : KeyVerifies tls key (header ++ [dot] ++ payload) (handedOver alg (decoded sig))

/-- A token and a key, and the token verified with the key. -/
def Accepts (tls : Mbedtls) (now : Int64) (alg : JwtAlg) (jwt : Option CStr)
    (pubkeyDer : Option (List UInt8)) (pubkeyDerLen : Nat) : Prop :=
  ∃ token key header payload sig, jwt = some token ∧ pubkeyDer = some key ∧ pubkeyDerLen ≠ 0 ∧
    Splits token header payload sig ∧
    Verified tls now alg (key.take pubkeyDerLen) header payload sig

variable {tls : Mbedtls} {now : Int64} {jwt : CStr} {key header payload sig : List UInt8}
  {keyLen : Nat}

theorem verifySignature_ok_iff (h : Splits jwt header payload sig) (raw : List UInt8) :
    (verifySignature tls jwt key keyLen (partsOf header payload sig) raw).result = .ok ↔
      KeyVerifies tls (key.take keyLen) (header ++ [dot] ++ payload) raw := by
  have hinput : jwt.bytes.take ((partsOf header payload sig).payload +
      (partsOf header payload sig).payloadLen) = header ++ [dot] ++ payload := take_signing h
  simp only [verifySignature, hinput, KeyVerifies]
  cases tls.parsePublicKey (key.take keyLen) with
  | none => simp
  | some pk =>
    simp only [Option.some.injEq, exists_eq_left']
    split_ifs with hv
    · exact iff_of_true rfl hv
    · exact iff_of_false (by simp) hv

/-- The third part is decoded as a text of its own. -/
theorem decode_third (h : Splits jwt header payload sig) {cap : Nat} (hcap : cap ≤ intMax) :
    (Accepted sig cap ∧ ∃ unused, dspJwtBase64urlDecode
      (some (partBytes jwt (partsOf header payload sig).sig)) (partsOf header payload sig).sigLen
      (some (stackBuffer cap)) cap =
        some (((decoded sig).length : Int), some (decoded sig ++ unused))) ∨
    (¬ Accepted sig cap ∧ ∃ buf, dspJwtBase64urlDecode
      (some (partBytes jwt (partsOf header payload sig).sig)) (partsOf header payload sig).sigLen
      (some (stackBuffer cap)) cap = some (-1, some buf)) := by
  have hpart : partBytes jwt (partsOf header payload sig).sig = sig ++ [] := by
    rw [List.append_nil]
    exact h.drop_payload
  rw [hpart]
  by_cases hacc : Accepted sig cap
  · exact .inl ⟨hacc, decode_part [] hcap hacc⟩
  · exact .inr ⟨hacc, decode_part_refused [] hacc⟩

/-- Only the first 64 bytes of the buffer are read. -/
theorem rsToDer_append {raw : List UInt8} (h : raw.length = 64) (unused : List UInt8) :
    rsToDer (raw ++ unused) = some (handedOver .es256 raw) := by
  have hr : (raw ++ unused).take 32 = raw.take 32 := List.take_append_of_le_length (by omega)
  have hs : ((raw ++ unused).drop 32).take 32 = (raw.drop 32).take 32 := by
    rw [List.drop_append_of_le_length (by omega),
      List.take_append_of_le_length (by rw [List.length_drop]; omega)]
  have hsame : rsToDer (raw ++ unused) = rsToDer raw := by
    simp only [rsToDer, hr, hs]
  exact hsame.trans (rsToDer_eq h)

theorem es256_verified_iff (h : Splits jwt header payload sig) (hkey : keyLen ≠ 0) :
    (dspJwtValidateEs256 tls now (some jwt) (some key) keyLen).map (·.result) = some .ok ↔
      Verified tls now .es256 (key.take keyLen) header payload sig := by
  simp only [dspJwtValidateEs256, check_eq h now key hkey .es256 noParts]
  cases hcheck : checkParts now .es256 header payload with
  | ok =>
    have hparts := checkParts_ok_iff.mp hcheck
    obtain ⟨hfits, unused, hcall⟩ | ⟨hfits, buf, hcall⟩ :=
      decode_third h (show 64 ≤ intMax by decide)
    · simp only [hcall]
      by_cases hlen : (decoded sig).length = 64
      · rw [if_neg (by omega), rsToDer_append hlen]
        simp only [Option.map_some, Option.some.injEq]
        rw [verifySignature_ok_iff h]
        exact ⟨fun hv => ⟨hparts, hfits, hlen, hv⟩, fun hv => hv.signed⟩
      · rw [if_pos (by omega)]
        exact iff_of_false (by simp) fun hv => hlen hv.sized
    · simp only [hcall]
      exact iff_of_false (by simp) fun hv => hfits hv.fits
  | _ =>
    exact iff_of_false (by simp) fun hv => by
      have hok := checkParts_ok_iff.mpr hv.parts
      rw [hcheck] at hok
      cases hok

theorem rs256_verified_iff (h : Splits jwt header payload sig) (hkey : keyLen ≠ 0) :
    (dspJwtValidateRs256 tls now (some jwt) (some key) keyLen).map (·.result) = some .ok ↔
      Verified tls now .rs256 (key.take keyLen) header payload sig := by
  simp only [dspJwtValidateRs256, check_eq h now key hkey .rs256 noParts]
  cases hcheck : checkParts now .rs256 header payload with
  | ok =>
    have hparts := checkParts_ok_iff.mp hcheck
    obtain ⟨hfits, unused, hcall⟩ | ⟨hfits, buf, hcall⟩ :=
      decode_third h (show 512 ≤ intMax by decide)
    · simp only [hcall]
      by_cases hlen : decoded sig = []
      · rw [if_pos (by simp [hlen])]
        exact iff_of_false (by simp) fun hv => hv.sized hlen
      · have hpos := List.length_pos_iff.mpr hlen
        rw [if_neg (by omega), Int.toNat_natCast, List.take_left]
        simp only [Option.map_some, Option.some.injEq]
        rw [verifySignature_ok_iff h]
        exact ⟨fun hv => ⟨hparts, hfits, hlen, hv⟩, fun hv => hv.signed⟩
    · simp only [hcall]
      exact iff_of_false (by simp) fun hv => hfits hv.fits
  | _ =>
    exact iff_of_false (by simp) fun hv => by
      have hok := checkParts_ok_iff.mpr hv.parts
      rw [hcheck] at hok
      cases hok

theorem check_total (now : Int64) (jwt : Option CStr) (key : Option (List UInt8)) (keyLen : Nat)
    (alg : JwtAlg) : ∃ err parts, jwtCheckStructure now jwt key keyLen alg noParts = some (err, parts) := by
  cases jwt with
  | none => exact ⟨.invalidArg, noParts, rfl⟩
  | some jwt =>
    cases key with
    | none => exact ⟨.invalidArg, noParts, rfl⟩
    | some key =>
      obtain ⟨⟨err, parts⟩, hcheck⟩ := checkStructure_isSome now jwt key keyLen alg noParts
      exact ⟨err, parts, hcheck⟩

section Verdict

variable {alg : JwtAlg} {validate : Option CStr → Option (List UInt8) → Option Validation}

/-- A verdict on tokens that split, and the errors of the checks, are a verdict on all
inputs. -/
theorem accepts_iff
    (hsplit : ∀ {jwt header payload sig key}, Splits jwt header payload sig → keyLen ≠ 0 →
      ((validate (some jwt) (some key)).map (·.result) = some .ok ↔
        Verified tls now alg (key.take keyLen) header payload sig))
    (hrefused : ∀ {jwt key err parts}, err ≠ .ok →
      jwtCheckStructure now jwt key keyLen alg noParts = some (err, parts) →
      validate jwt key = some ⟨err, []⟩)
    (jwt : Option CStr) (key : Option (List UInt8)) :
    (validate jwt key).map (·.result) = some .ok ↔ Accepts tls now alg jwt key keyLen := by
  constructor
  · intro hok
    obtain ⟨err, parts, hcheck⟩ := check_total now jwt key keyLen alg
    obtain rfl : err = .ok := by
      by_contra herr
      rw [hrefused herr hcheck] at hok
      exact herr (Option.some.inj hok)
    cases jwt with
    | none => cases hcheck
    | some jwt =>
      cases key with
      | none => cases hcheck
      | some key =>
        have hkey : keyLen ≠ 0 := by
          intro h0
          simp [jwtCheckStructure, h0] at hcheck
        obtain ⟨header, payload, sig, hs, -, -⟩ := splits_of_check hcheck
        exact ⟨jwt, key, header, payload, sig, rfl, rfl, hkey, hs, (hsplit hs hkey).mp hok⟩
  · rintro ⟨token, der, header, payload, sig, rfl, rfl, hkey, hs, hv⟩
    exact (hsplit hs hkey).mpr hv

end Verdict

theorem es256_refused {jwt : Option CStr} {key : Option (List UInt8)} {err : JwtErr}
    {parts : JwtParts} (herr : err ≠ .ok)
    (hcheck : jwtCheckStructure now jwt key keyLen .es256 noParts = some (err, parts)) :
    dspJwtValidateEs256 tls now jwt key keyLen = some ⟨err, []⟩ := by
  cases err with
  | ok => exact absurd rfl herr
  | _ => simp only [dspJwtValidateEs256, hcheck]

theorem rs256_refused {jwt : Option CStr} {key : Option (List UInt8)} {err : JwtErr}
    {parts : JwtParts} (herr : err ≠ .ok)
    (hcheck : jwtCheckStructure now jwt key keyLen .rs256 noParts = some (err, parts)) :
    dspJwtValidateRs256 tls now jwt key keyLen = some ⟨err, []⟩ := by
  cases err with
  | ok => exact absurd rfl herr
  | _ => simp only [dspJwtValidateRs256, hcheck]

/-- The cut of a token is unique. -/
theorem splits_unique {header' payload' sig' : List UInt8} (h : Splits jwt header payload sig)
    (h' : Splits jwt header' payload' sig') :
    header = header' ∧ payload = payload' ∧ sig = sig' := by
  have hparts := (split_of_splits h noParts).symm.trans (split_of_splits h' noParts)
  simp only [Prod.mk.injEq, Option.some.injEq, true_and, partsOf, JwtParts.mk.injEq] at hparts
  have htoken := h.token.symm.trans h'.token
  obtain ⟨rfl, hrest⟩ := List.append_inj htoken hparts.1
  obtain ⟨rfl, hsig⟩ := List.append_inj (List.cons.inj hrest).2 hparts.2.2.1
  exact ⟨rfl, rfl, (List.cons.inj hsig).2⟩

/-- **What the validators accept.** For every token, key, time and whatever mbedTLS
says, a token is accepted if and only if its parts are verified. None is accepted as
both kinds. -/
theorem accepted_exactly (tls : Mbedtls) (now : Int64) (jwt : Option CStr)
    (key : Option (List UInt8)) (keyLen : Nat) :
    ((dspJwtValidateEs256 tls now jwt key keyLen).map (·.result) = some .ok ↔
      Accepts tls now .es256 jwt key keyLen) ∧
    ((dspJwtValidateRs256 tls now jwt key keyLen).map (·.result) = some .ok ↔
      Accepts tls now .rs256 jwt key keyLen) ∧
    ∀ tls' now' key' keyLen', Accepts tls now .es256 jwt key keyLen →
      ¬ Accepts tls' now' .rs256 jwt key' keyLen' := by
  refine ⟨accepts_iff es256_verified_iff es256_refused jwt key,
    accepts_iff rs256_verified_iff rs256_refused jwt key, ?_⟩
  rintro tls' now' key' keyLen' ⟨token, _, header, payload, sig, rfl, -, -, hs, hv⟩
    ⟨token', _, header', payload', sig', htoken, -, -, hs', hv'⟩
  obtain rfl : token = token' := Option.some.inj htoken
  obtain ⟨rfl, -, -⟩ := splits_unique hs hs'
  have halg := hv.parts.alg.symm.trans hv'.parts.alg
  cases halg

end DspEmbedded.Audit.TokenVerdict
