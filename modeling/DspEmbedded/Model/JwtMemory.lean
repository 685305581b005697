import DspEmbedded.Lib.Memory
import DspEmbedded.Model.Jwt

/-!
# `dsp_jwt.c`, load by load

The checks of `Model.Jwt` once more, with every access to the token and to the
buffers on the stack spelled out: a token is its characters and the NUL, an array
holds nothing before it is written, pointers into them are offsets and `size_t`
has 32 bits. A result of `none` is an access out of range, a read of a cell that
was never written, or a loop that is still running after as many rounds as the
object it walks through has cells.
-/
namespace DspEmbedded.Model.JwtMemory

open Lib.Memory Model.Jwt

/-- Arithmetic on `size_t`. -/
def sizeT (n : Nat) : Nat := n % 2 ^ 32

/-- `a - b` -/
def sizeSub (a b : Nat) : Nat := sizeT (a + 2 ^ 32 - b)

/-- `dsp_jwt_split`. -/
def dspJwtSplit (jwt : Cells) (out : JwtParts) : Option (JwtErr × JwtParts) := do
  match ← strchr jwt dot (jwt.length + 1) 0 with
  | none => pure (.invalidFormat, out)
  | some dot1 =>
    match ← strchr jwt dot (jwt.length + 1) (dot1 + 1) with
    | none => pure (.invalidFormat, out)
    | some dot2 => do
      let nul ← strend jwt (jwt.length + 1) (dot2 + 1)
      pure (.ok,
        { header := 0
          headerLen := sizeT dot1
          payload := dot1 + 1
          payloadLen := sizeT (dot2 - dot1 - 1)
          sig := dot2 + 1
          sigLen := sizeT (nul - (dot2 + 1)) })

/-! ## Base64url -/

/-- `b64url_char_to_val(src[i])` -/
def charVal (src : Cells) (i : Nat) : Option Int := (load src i).map b64urlCharToVal

def decodeTail (src : Cells) (base srcLen dstCap i out : Nat) (dst : Cells) :
    Option (Int × Cells) :=
  if sizeSub srcLen i = 1 then pure (-1, dst)
  else if sizeSub srcLen i = 2 then do
    let v0 ← charVal src (base + i)
    let v1 ← charVal src (base + i + 1)
    if v0 < 0 ∨ v1 < 0 then pure (-1, dst)
    else if dstCap < sizeT (out + 1) then pure (-1, dst)
    else do
      let dst ← storeAll dst out [byte0 v0 v1]
      pure (toInt (sizeT (out + 1)), dst)
  else if sizeSub srcLen i = 3 then do
    let v0 ← charVal src (base + i)
    let v1 ← charVal src (base + i + 1)
    let v2 ← charVal src (base + i + 2)
    if v0 < 0 ∨ v1 < 0 ∨ v2 < 0 then pure (-1, dst)
    else if dstCap < sizeT (out + 2) then pure (-1, dst)
    else do
      let dst ← storeAll dst out [byte0 v0 v1, byte1 v1 v2]
      pure (toInt (sizeT (out + 2)), dst)
  else pure (toInt out, dst)

def decodeGroups (src : Cells) (base srcLen dstCap : Nat) :
    Nat → Nat → Nat → Cells → Option (Int × Cells)
  | 0, _, _, _ => none
  | rounds + 1, i, out, dst =>
    if sizeT (i + 3) < srcLen then do
      let v0 ← charVal src (base + i)
      let v1 ← charVal src (base + i + 1)
      let v2 ← charVal src (base + i + 2)
      let v3 ← charVal src (base + i + 3)
      if v0 < 0 ∨ v1 < 0 ∨ v2 < 0 ∨ v3 < 0 then pure (-1, dst)
      else if dstCap < sizeT (out + 3) then pure (-1, dst)
      else do
        let dst ← storeAll dst out [byte0 v0 v1, byte1 v1 v2, byte2 v2 v3]
        decodeGroups src base srcLen dstCap rounds (sizeT (i + 4)) (sizeT (out + 3)) dst
    else decodeTail src base srcLen dstCap i out dst

/-- `dsp_jwt_base64url_decode`, for a source `base` bytes into an object. -/
def dspJwtBase64urlDecode (src : Cells) (base srcLen : Nat) (dst : Cells) (dstCap : Nat) :
    Option (Int × Cells) :=
  decodeGroups src base srcLen dstCap (srcLen + 1) 0 0 dst

/-! ## Claims -/

/-- The loop of `mem_find`, up to offset `last`. -/
def memFindFrom (hay : Cells) (last : Nat) (needle : List UInt8) :
    Nat → Nat → Option (Option Nat)
  | 0, _ => none
  | rounds + 1, i =>
    if i ≤ last then do
      let bs ← loadAll hay i needle.length
      if bs == needle then pure (some i) else memFindFrom hay last needle rounds (sizeT (i + 1))
    else pure none

/-- `mem_find`. -/
def memFind (hay : Cells) (hayLen : Nat) (needle : List UInt8) : Option (Option Nat) :=
  if needle.length = 0 then pure (some 0)
  else if hayLen < needle.length then pure none
  else memFindFrom hay (sizeSub hayLen needle.length) needle (hayLen + 1) 0

def dspJwtParseAlg (json : Cells) (len : Nat) : Option JwtAlg :=
  if len = 0 then pure .unknown
  else do
    if (← memFind json len es256Name).isSome then pure .es256
    else do
      if (← memFind json len rs256Name).isSome then pure .rs256
      else pure .unknown

/-- `while (p < stop && *p == ' ') p++` -/
def skipSpaces (m : Cells) (stop : Nat) : Nat → Nat → Option Nat
  | 0, _ => none
  | rounds + 1, p =>
    if p < stop then do
      let b ← load m p
      if b = space then skipSpaces m stop rounds (p + 1) else pure p
    else pure p

/-- The loop over the digits. -/
def readDigits (m : Cells) (stop : Nat) : Nat → Nat → UInt64 → Option UInt64
  | 0, _, _ => none
  | rounds + 1, p, val =>
    if p < stop then do
      let b ← load m p
      if isDigit b then readDigits m stop rounds (p + 1) (addDigit val b) else pure val
    else pure val

/-- `dsp_jwt_parse_exp`, with `*out_exp`. -/
def dspJwtParseExp (json : Cells) (len : Nat) : Option (JwtErr × UInt64) := do
  match ← memFind json len expKey with
  | none => pure (.noExp, 0)
  | some p => do
    let p ← skipSpaces json len (len + 1) (p + expKey.length)
    if len ≤ p then pure (.noExp, 0)
    else do
      let b ← load json p
      if isDigit b then do
        let val ← readDigits json len (len + 1) p 0
        pure (.ok, val)
      else pure (.noExp, 0)

/-! ## The checks before the signature -/

/-- `jwt_check_structure` behind the split. -/
def checkDecoded (now : Int64) (jwt : Cells) (expectedAlg : JwtAlg) (parts : JwtParts) :
    Option JwtErr := do
  let (hdrLen, hdrBuf) ← dspJwtBase64urlDecode jwt parts.header parts.headerLen (fresh 128) 128
  if hdrLen < 0 then pure .decode
  else do
    let alg ← dspJwtParseAlg hdrBuf hdrLen.toNat
    if alg ≠ expectedAlg then pure .invalidAlg
    else do
      let (payLen, payBuf) ← dspJwtBase64urlDecode jwt parts.payload parts.payloadLen
        (fresh dspJwtMaxDecodeB) dspJwtMaxDecodeB
      if payLen < 0 then pure .decode
      else do
        let (expErr, exp) ← dspJwtParseExp payBuf payLen.toNat
        if expErr ≠ .ok then pure expErr
        else if now < 0 ∨ exp ≤ now.toUInt64 then pure .expired
        else pure .ok

/-- `jwt_check_structure`. -/
def jwtCheckStructure (now : Int64) (jwt : Option Cells) (pubkeyDer : Option (List UInt8))
    (pubkeyDerLen : Nat) (expectedAlg : JwtAlg) (parts : JwtParts) : Option (JwtErr × JwtParts) :=
  match jwt, pubkeyDer with
  | some jwt, some _ =>
    if pubkeyDerLen = 0 then pure (.invalidArg, parts)
    else do
      let (err, parts) ← dspJwtSplit jwt parts
      if err ≠ .ok then pure (.invalidFormat, parts)
      else do
        let err ← checkDecoded now jwt expectedAlg parts
        pure (err, parts)
  | _, _ => pure (.invalidArg, parts)

/-! ## Validation -/

/-- The signing input is hashed, the key parsed and the signature verified. -/
def verifySignature (tls : Mbedtls) (jwt : Cells) (pubkeyDer : List UInt8) (pubkeyDerLen : Nat)
    (parts : JwtParts) (sig : Cells) (sigLen : Nat) : Option Validation := do
  let input ← loadAll jwt 0 (sizeT (parts.payload + parts.payloadLen))
  match tls.parsePublicKey (pubkeyDer.take pubkeyDerLen) with
  | none => pure ⟨.crypto, [input]⟩
  | some pk => do
    let sig ← loadAll sig 0 sigLen
    pure ⟨if tls.pkVerify pk (tls.sha256 input) sig then .ok else .crypto, [input]⟩

/-- `dsp_jwt_validate_es256` on the device. -/
def dspJwtValidateEs256 (tls : Mbedtls) (now : Int64) (jwt : Option Cells)
    (pubkeyDer : Option (List UInt8)) (pubkeyDerLen : Nat) : Option Validation := do
  match ← jwtCheckStructure now jwt pubkeyDer pubkeyDerLen .es256 noParts, jwt, pubkeyDer with
  | (.ok, parts), some jwt, some pubkeyDer => do
    let (sigLen, sigRaw) ← dspJwtBase64urlDecode jwt parts.sig parts.sigLen (fresh 64) 64
    if sigLen ≠ 64 then pure ⟨.invalidFormat, []⟩
    else do
      let rs ← loadAll sigRaw 0 64
      match rsToDer rs with
      | none => pure ⟨.crypto, []⟩
      | some der => do
        let sigDer ← storeAll (fresh 74) 0 der
        verifySignature tls jwt pubkeyDer pubkeyDerLen parts sigDer der.length
  | (err, _), _, _ => pure ⟨err, []⟩

/-- `dsp_jwt_validate_rs256` on the device. -/
def dspJwtValidateRs256 (tls : Mbedtls) (now : Int64) (jwt : Option Cells)
    (pubkeyDer : Option (List UInt8)) (pubkeyDerLen : Nat) : Option Validation := do
  match ← jwtCheckStructure now jwt pubkeyDer pubkeyDerLen .rs256 noParts, jwt, pubkeyDer with
  | (.ok, parts), some jwt, some pubkeyDer => do
    let (sigLen, sigBuf) ← dspJwtBase64urlDecode jwt parts.sig parts.sigLen (fresh 512) 512
    if sigLen ≤ 0 then pure ⟨.invalidFormat, []⟩
    else verifySignature tls jwt pubkeyDer pubkeyDerLen parts sigBuf sigLen.toNat
  | (err, _), _, _ => pure ⟨err, []⟩

end DspEmbedded.Model.JwtMemory
