import Mathlib.Algebra.GroupWithZero.Nat
import DspEmbedded.Lib.CString

/-!
# `dsp_jwt.c`

Tokens are NUL-terminated strings, and the pointers of `dsp_jwt_parts_t` offsets
into one. The decoder works on memory: an access outside the bytes that a buffer
has is a fault, and a fault ends the call without a result. The clock and what
mbedTLS computes are parameters.
-/
namespace DspEmbedded.Model.Jwt

open Lib.CString

/-- `dsp_jwt_err_t`. -/
inductive JwtErr where
  | ok
  | invalidArg
  | invalidFormat
  | invalidAlg
  | expired
  | noExp
  | decode
  | crypto
  deriving DecidableEq, Repr

/-- `dsp_jwt_alg_t`. -/
inductive JwtAlg where
  | unknown
  | es256
  | rs256
  deriving DecidableEq, Repr

/-- `dsp_jwt_parts_t`. -/
structure JwtParts where
  header : Nat
  headerLen : Nat
  payload : Nat
  payloadLen : Nat
  sig : Nat
  sigLen : Nat
  deriving DecidableEq, Repr

/-- `DSP_JWT_MAX_DECODE_B`. -/
def dspJwtMaxDecodeB : Nat := 512

/-! ## Splitting -/

def dot : UInt8 := 46

/-- `strchr(s, c)` for a character other than NUL, as an offset. -/
def strchr (s : CStr) (c : UInt8) : Option Nat := s.bytes.findIdx? (· == c)

/-- `dsp_jwt_split`; `out` is what the structure held before, if there is one. -/
def dspJwtSplit (jwt : Option CStr) (out : Option JwtParts) : JwtErr × Option JwtParts :=
  match jwt, out with
  | some jwt, some _ =>
    match strchr jwt dot with
    | none => (.invalidFormat, out)
    | some dot1 =>
      match strchr (jwt.drop (dot1 + 1)) dot with
      | none => (.invalidFormat, out)
      | some j =>
        let dot2 := dot1 + 1 + j
        (.ok, some
          { header := 0
            headerLen := dot1
            payload := dot1 + 1
            payloadLen := dot2 - dot1 - 1
            sig := dot2 + 1
            sigLen := (jwt.drop (dot2 + 1)).length })
  | _, _ => (.invalidArg, out)

/-! ## Base64url -/

def b64urlCharToVal (c : UInt8) : Int :=
  if 65 ≤ c ∧ c ≤ 90 then c.toNat - 65
  else if 97 ≤ c ∧ c ≤ 122 then c.toNat - 97 + 26
  else if 48 ≤ c ∧ c ≤ 57 then c.toNat - 48 + 52
  else if c = 45 then 62
  else if c = 95 then 63
  else -1

/-- `dst[i] = v`, a fault outside the buffer. -/
def store (dst : List UInt8) (i : Nat) (v : UInt8) : Option (List UInt8) :=
  if i < dst.length then some (dst.set i v) else none

def storeAll (dst : List UInt8) (i : Nat) : List UInt8 → Option (List UInt8)
  | [] => some dst
  | v :: vs => (store dst i v).bind fun dst => storeAll dst (i + 1) vs

/-- `b64url_char_to_val(src[i])`, a fault outside the buffer. -/
def charVal (src : List UInt8) (i : Nat) : Option Int := (src[i]?).map b64urlCharToVal

/-- The three bytes of a group; each is cut to 8 bits. -/
def byte0 (v0 v1 : Int) : UInt8 := UInt8.ofNat ((v0.toNat <<< 2) ||| (v1.toNat >>> 4))

def byte1 (v1 v2 : Int) : UInt8 := UInt8.ofNat ((v1.toNat <<< 4) ||| (v2.toNat >>> 2))

def byte2 (v2 v3 : Int) : UInt8 := UInt8.ofNat ((v2.toNat <<< 6) ||| v3.toNat)

/-- `(int)out`. -/
def toInt (out : Nat) : Int := Int.bmod out (2 ^ 32)

/-- The 0 to 3 characters behind the complete groups. -/
def decodeTail (src : List UInt8) (srcLen dstCap i out : Nat) (dst : List UInt8) :
    Option (Int × List UInt8) :=
  if srcLen - i = 1 then some (-1, dst)
  else if srcLen - i = 2 then
    match charVal src i, charVal src (i + 1) with
    | some v0, some v1 =>
      if v0 < 0 ∨ v1 < 0 then some (-1, dst)
      else if dstCap < out + 1 then some (-1, dst)
      else (storeAll dst out [byte0 v0 v1]).map fun dst => (toInt (out + 1), dst)
    | _, _ => none
  else if srcLen - i = 3 then
    match charVal src i, charVal src (i + 1), charVal src (i + 2) with
    | some v0, some v1, some v2 =>
      if v0 < 0 ∨ v1 < 0 ∨ v2 < 0 then some (-1, dst)
      else if dstCap < out + 2 then some (-1, dst)
      else (storeAll dst out [byte0 v0 v1, byte1 v1 v2]).map fun dst => (toInt (out + 2), dst)
    | _, _, _ => none
  else some (toInt out, dst)

/-- The loop over complete groups, and what follows it. The first argument bounds
the number of rounds; running out of it would be a fault too. -/
def decodeGroups (src : List UInt8) (srcLen dstCap : Nat) :
    Nat → Nat → Nat → List UInt8 → Option (Int × List UInt8)
  | 0, _, _, _ => none
  | rounds + 1, i, out, dst =>
    if i + 3 < srcLen then
      match charVal src i, charVal src (i + 1), charVal src (i + 2), charVal src (i + 3) with
      | some v0, some v1, some v2, some v3 =>
        if v0 < 0 ∨ v1 < 0 ∨ v2 < 0 ∨ v3 < 0 then some (-1, dst)
        else if dstCap < out + 3 then some (-1, dst)
        else (storeAll dst out [byte0 v0 v1, byte1 v1 v2, byte2 v2 v3]).bind fun dst =>
          decodeGroups src srcLen dstCap rounds (i + 4) (out + 3) dst
      | _, _, _, _ => none
    else decodeTail src srcLen dstCap i out dst

/-- `dsp_jwt_base64url_decode`: the return value and the output buffer. -/
def dspJwtBase64urlDecode (src : Option (List UInt8)) (srcLen : Nat) (dst : Option (List UInt8))
    (dstCap : Nat) : Option (Int × Option (List UInt8)) :=
  match src, dst with
  | some src, some dst =>
    (decodeGroups src srcLen dstCap (srcLen + 1) 0 0 dst).map fun r => (r.1, some r.2)
  | _, _ => some (-1, dst)

/-! ## Claims -/

/-- `mem_find`, as an offset. -/
def memFind (hay : List UInt8) (hayLen : Nat) (needle : List UInt8) : Option Nat :=
  if needle.length = 0 then some 0
  else if hayLen < needle.length then none
  else (List.range (hayLen - needle.length + 1)).find? fun i =>
    (hay.drop i).take needle.length == needle

/-- `"ES256"`, quotes included. -/
def es256Name : List UInt8 := [34, 69, 83, 50, 53, 54, 34]

/-- `"RS256"`. -/
def rs256Name : List UInt8 := [34, 82, 83, 50, 53, 54, 34]

def dspJwtParseAlg (json : Option (List UInt8)) (len : Nat) : JwtAlg :=
  match json with
  | none => .unknown
  | some json =>
    if len = 0 then .unknown
    else if (memFind json len es256Name).isSome then .es256
    else if (memFind json len rs256Name).isSome then .rs256
    else .unknown

/-- `"exp":`. -/
def expKey : List UInt8 := [34, 101, 120, 112, 34, 58]

def space : UInt8 := 32

def isDigit (b : UInt8) : Bool := 48 ≤ b && b ≤ 57

/-- One round of the number loop. -/
def addDigit (val : UInt64) (b : UInt8) : UInt64 := val * 10 + (b.toUInt64 - 48)

def dspJwtParseExp (json : Option (List UInt8)) (len : Nat) (outExp : Option UInt64) :
    JwtErr × Option UInt64 :=
  match json, outExp with
  | some json, some _ =>
    match memFind json len expKey with
    | none => (.noExp, some 0)
    | some p =>
      let rest := ((json.take len).drop (p + expKey.length)).dropWhile (· == space)
      match rest.takeWhile isDigit with
      | [] => (.noExp, some 0)
      | digits => (.ok, some (digits.foldl addDigit 0))
  | _, _ => (.invalidArg, outExp)

/-! ## The checks before the signature -/

/-- An array on the stack. Whatever it holds is written before it is read. -/
def stackBuffer (cap : Nat) : List UInt8 := List.replicate cap 0

/-- The characters of a part, with what follows them in the token. -/
def partBytes (jwt : CStr) (offset : Nat) : List UInt8 := jwt.bytes.drop offset

/-- `jwt_check_structure`; `now` is what `time(NULL)` returns. -/
def jwtCheckStructure (now : Int64) (jwt : Option CStr) (pubkeyDer : Option (List UInt8))
    (pubkeyDerLen : Nat) (expectedAlg : JwtAlg) (parts : JwtParts) : Option (JwtErr × JwtParts) :=
  match jwt, pubkeyDer with
  | some jwt, some _ =>
    if pubkeyDerLen = 0 then some (.invalidArg, parts)
    else
      match dspJwtSplit (some jwt) (some parts) with
      | (.ok, some parts) =>
        match dspJwtBase64urlDecode (some (partBytes jwt parts.header)) parts.headerLen
            (some (stackBuffer 128)) 128 with
        | some (hdrLen, hdrBuf) =>
          if hdrLen < 0 then some (.decode, parts)
          else if dspJwtParseAlg hdrBuf hdrLen.toNat ≠ expectedAlg then some (.invalidAlg, parts)
          else
            match dspJwtBase64urlDecode (some (partBytes jwt parts.payload)) parts.payloadLen
                (some (stackBuffer dspJwtMaxDecodeB)) dspJwtMaxDecodeB with
            | some (payLen, payBuf) =>
              if payLen < 0 then some (.decode, parts)
              else
                match dspJwtParseExp payBuf payLen.toNat (some 0) with
                | (.ok, some exp) =>
                  if now < 0 ∨ exp ≤ now.toUInt64 then some (.expired, parts)
                  else some (.ok, parts)
                | (err, _) => some (err, parts)
            | none => none
        | none => none
      | (_, out) => some (.invalidFormat, out.getD parts)
  | _, _ => some (.invalidArg, parts)

/-! ## Validation -/

/-- What the code uses of mbedTLS: the digest, the keys that it can parse, and
whether a signature fits a digest. -/
structure Mbedtls where
  Key : Type
  sha256 : List UInt8 → List UInt8
  parsePublicKey : List UInt8 → Option Key
  pkVerify : Key → List UInt8 → List UInt8 → Bool

/-- A result, and the byte ranges that were hashed on the way to it. -/
structure Validation where
  result : JwtErr
  hashed : List (List UInt8)
  deriving DecidableEq, Repr

/-- An INTEGER of the DER encoding: a zero byte in front of a set high bit. -/
def derInteger (r : List UInt8) : List UInt8 :=
  let pad := if 128 ≤ r.headD 0 then [0] else []
  [0x02, UInt8.ofNat (32 + pad.length)] ++ pad ++ r

/-- `rs_to_der`: both halves of the raw signature as a DER sequence. -/
def rsToDer (rs : List UInt8) : Option (List UInt8) :=
  let body := derInteger (rs.take 32) ++ derInteger ((rs.drop 32).take 32)
  if 74 < body.length + 2 then none
  else some ([0x30, UInt8.ofNat body.length] ++ body)

/-- The signing input is hashed, the key parsed and the signature verified. -/
def verifySignature (tls : Mbedtls) (jwt : CStr) (pubkeyDer : List UInt8) (pubkeyDerLen : Nat)
    (parts : JwtParts) (sig : List UInt8) : Validation :=
  let signingLen := parts.payload + parts.payloadLen
  let input := jwt.bytes.take signingLen
  let digest := tls.sha256 input
  match tls.parsePublicKey (pubkeyDer.take pubkeyDerLen) with
  | none => ⟨.crypto, [input]⟩
  | some pk => if tls.pkVerify pk digest sig then ⟨.ok, [input]⟩ else ⟨.crypto, [input]⟩

/-- The parts before the first write to them. -/
def noParts : JwtParts := ⟨0, 0, 0, 0, 0, 0⟩

/-- `dsp_jwt_validate_es256` on the device. -/
def dspJwtValidateEs256 (tls : Mbedtls) (now : Int64) (jwt : Option CStr)
    (pubkeyDer : Option (List UInt8)) (pubkeyDerLen : Nat) : Option Validation :=
  match jwtCheckStructure now jwt pubkeyDer pubkeyDerLen .es256 noParts, jwt, pubkeyDer with
  | some (.ok, parts), some jwt, some pubkeyDer =>
    match dspJwtBase64urlDecode (some (partBytes jwt parts.sig)) parts.sigLen
        (some (stackBuffer 64)) 64 with
    | some (sigLen, some sigRaw) =>
      if sigLen ≠ 64 then some ⟨.invalidFormat, []⟩
      else
        match rsToDer sigRaw with
        | none => some ⟨.crypto, []⟩
        | some sigDer => some (verifySignature tls jwt pubkeyDer pubkeyDerLen parts sigDer)
    | _ => none
  | some (err, _), _, _ => some ⟨err, []⟩
  | none, _, _ => none

/-- `dsp_jwt_validate_rs256` on the device. -/
def dspJwtValidateRs256 (tls : Mbedtls) (now : Int64) (jwt : Option CStr)
    (pubkeyDer : Option (List UInt8)) (pubkeyDerLen : Nat) : Option Validation :=
  match jwtCheckStructure now jwt pubkeyDer pubkeyDerLen .rs256 noParts, jwt, pubkeyDer with
  | some (.ok, parts), some jwt, some pubkeyDer =>
    match dspJwtBase64urlDecode (some (partBytes jwt parts.sig)) parts.sigLen
        (some (stackBuffer 512)) 512 with
    | some (sigLen, some sigBuf) =>
      if sigLen ≤ 0 then some ⟨.invalidFormat, []⟩
      else some (verifySignature tls jwt pubkeyDer pubkeyDerLen parts (sigBuf.take sigLen.toNat))
    | _ => none
  | some (err, _), _, _ => some ⟨err, []⟩
  | none, _, _ => none

end DspEmbedded.Model.Jwt
