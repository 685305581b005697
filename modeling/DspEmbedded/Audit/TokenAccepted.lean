import DspEmbedded.Audit.Expiry

/-!
# Valid tokens

Which spellings of a valid token get past the checks before the signature: what the
buffers hold, which whitespace the search for the expiry passes over, and which
letters may be escaped.
-/
namespace DspEmbedded.Audit.TokenAccepted

open Lib.CString Lib.JsonText Lib.JsonSearch Model.Jwt Audit.Base64url Audit.TokenFormat
  Audit.HeaderAlg Audit.Expiry

/-- The name that a token declares an algorithm by. -/
def algName : JwtAlg → Option (List UInt8)
  | .es256 => some es256
  | .rs256 => some rs256
  | .unknown => none

/-- None of the strings of the members shows the name. -/
def Silent (name : List UInt8) (members : List Member) : Prop :=
  ∀ s ∈ members.flatMap memberStrings, shows name s = false

/-- An object whose `alg` is `name`, spelled `value`; its other members do not name an
algorithm. -/
structure DeclaresOnly (name : List UInt8) (doc : Text) (value : Spelling) : Prop where
  place : ∃ pre m post, doc.members? = some (pre ++ m :: post) ∧
    units m.key = algKey.map UInt8.toNat ∧ m.value = .string value ∧
    Silent es256 (pre ++ post) ∧ Silent rs256 (pre ++ post)
  value : units value = name.map UInt8.toNat
  fits : doc.bytes.length ≤ dspJwtMaxDecodeB

/-- An object whose member `exp` is the plain number `n`; its other members do not mention
`exp`. -/
structure ExpiresOnly (doc : Text) (m : Member) (n : Number) : Prop where
  place : ∃ pre post, doc.members? = some (pre ++ m :: post) ∧ Silent expName (pre ++ post)
  key : units m.key = expName.map UInt8.toNat
  value : m.value = .number n
  plain : n.Plain
  fits : doc.bytes.length ≤ dspJwtMaxDecodeB

theorem silent_append_iff {name : List UInt8} {pre post : List Member} :
    Silent name (pre ++ post) ↔ Silent name pre ∧ Silent name post := by
  rw [Silent, List.flatMap_append, List.forall_mem_append]
  rfl

theorem Silent.not_shows {name : List UInt8} {members : List Member} (h : Silent name members) :
    ¬ ∃ s ∈ members.flatMap memberStrings, shows name s = true := by
  intro ⟨s, hs, hshows⟩
  rw [h s hs] at hshows
  cases hshows

/-! ## The header -/

theorem isName_alg : IsName algKey := .of_all (by decide) rfl

/-- Only the value of `alg` can show a name, and only when it is spelled with its letters. -/
theorem shows_at_alg {name other : List UInt8} {doc : Text} {pre post : List Member} {m : Member}
    {value : Spelling} (hname : IsName name) (hother : IsName other) (hne : other ≠ algKey)
    (hmembers : doc.members? = some (pre ++ m :: post)) (hkey : units m.key = algKey.map UInt8.toNat)
    (hvalue : m.value = .string value) (hunits : units value = name.map UInt8.toNat)
    (hsilent : Silent other (pre ++ post)) :
    Shows other doc ↔ raw value = other ∧ other = name := by
  obtain ⟨hpre, hpost⟩ := silent_append_iff.mp hsilent
  have hmember : memberStrings m = [m.key, value] := by
    rw [memberStrings, hvalue]
    rfl
  have hnokey : shows other m.key = false := by
    rw [← Bool.not_eq_true, shows_iff_of_units isName_alg hother hkey]
    exact fun h => hne h.2
  rw [Shows, strings_text hmembers, List.flatMap_append, List.flatMap_cons, hmember,
    ← shows_iff_of_units hname hother hunits]
  constructor
  · intro hfound
    obtain ⟨s, hs, hshows⟩ := hfound
    rw [List.mem_append, List.mem_append] at hs
    rcases hs with hs | hs | hs
    · exact absurd ⟨s, hs, hshows⟩ hpre.not_shows
    · simp only [List.mem_cons, List.not_mem_nil, or_false] at hs
      rcases hs with rfl | rfl
      · rw [hnokey] at hshows
        cases hshows
      · exact hshows
    · exact absurd ⟨s, hs, hshows⟩ hpost.not_shows
  · intro hshows
    exact ⟨value, by simp, hshows⟩

theorem headerAlg_declared {alg : JwtAlg} {name : List UInt8} {doc : Text} {value : Spelling}
    (hname : algName alg = some name) (h : DeclaresOnly name doc value) :
    headerAlg doc.bytes = alg ↔ raw value = name := by
  obtain ⟨pre, m, post, hmembers, hkey, hvalue, hes, hrs⟩ := h.place
  cases alg with
  | unknown => cases hname
  | es256 =>
    obtain rfl := Option.some.inj hname
    have hshows := shows_at_alg isName_es256 isName_es256 (by decide) hmembers hkey hvalue h.value hes
    rw [and_iff_left rfl] at hshows
    rw [← hshows]
    rcases headerAlg_cases doc with ⟨he, halg⟩ | ⟨he, hr, halg⟩ | ⟨he, hr, halg⟩
    · exact iff_of_true halg he
    · exact iff_of_false (by simp [halg]) he
    · exact iff_of_false (by simp [halg]) he
  | rs256 =>
    obtain rfl := Option.some.inj hname
    have hshows := shows_at_alg isName_rs256 isName_rs256 (by decide) hmembers hkey hvalue h.value hrs
    have hnot := shows_at_alg isName_rs256 isName_es256 (by decide) hmembers hkey hvalue h.value hes
    rw [and_iff_left rfl] at hshows
    rw [← hshows]
    rcases headerAlg_cases doc with ⟨he, halg⟩ | ⟨he, hr, halg⟩ | ⟨he, hr, halg⟩
    · exact absurd (hnot.mp he).2 (by decide)
    · exact iff_of_true halg hr
    · exact iff_of_false (by simp [halg]) hr

/-! ## The payload -/

theorem readDigits_spaces (ws : List Ws) (n : Number) (back : List Tok) :
    readDigits (spaceToks ws ++ .number n :: back) =
      if ∀ w ∈ ws, w = .space then (if n.negative then [] else n.int) else [] := by
  induction ws with
  | nil => simp [spaceToks, readDigits]
  | cons w ws ih =>
    cases w with
    | space =>
      show readDigits (spaceToks ws ++ .number n :: back) = _
      rw [ih]
      simp
    | _ => simp [spaceToks, readDigits]

theorem startsColon_spaces (ws : List Ws) (rest : List Tok) :
    startsColon (spaceToks ws ++ .punct .colon :: rest) = true ↔ ws = [] := by
  cases ws with
  | nil => simp [spaceToks, startsColon]
  | cons w ws => simp [spaceToks, startsColon]

/-- What a payload must look like around `exp` for the number to be read. -/
structure ExpReadable (m : Member) : Prop where
  key : raw m.key = expName
  beforeColon : m.beforeColon = []
  afterColon : ∀ w ∈ m.afterColon, w = .space

theorem afterKey_only {doc : Text} {m : Member} {n : Number} (h : ExpiresOnly doc m n) :
    ∃ back, afterKey expName doc.toks =
      if raw m.key = expName ∧ m.beforeColon = [] then
        some (spaceToks m.afterColon ++ .number n :: back)
      else none := by
  obtain ⟨pre, post, hmembers, hsilent⟩ := h.place
  obtain ⟨hpre, hpost⟩ := silent_append_iff.mp hsilent
  obtain ⟨front, back, htoks, hfront, hback⟩ := text_at_member hmembers
  rw [h.value, Value.toks] at htoks
  have hskip : ∀ s ∈ strings front, shows expName s = false := by
    rw [hfront]
    exact hpre
  have hnone : ∀ s ∈ strings (spaceToks m.beforeColon ++ Tok.punct .colon ::
      (spaceToks m.afterColon ++ Tok.number n :: back)), shows expName s = false := by
    have hback' : strings (Tok.number n :: back) = post.flatMap memberStrings := hback
    rw [strings_spaces, strings_punct, strings_spaces, hback']
    exact hpost
  have hkey := shows_iff_of_units isName_exp isName_exp h.key
  rw [and_iff_left rfl] at hkey
  refine ⟨back, ?_⟩
  rw [htoks, afterKey_append hskip]
  by_cases hread : raw m.key = expName ∧ m.beforeColon = []
  · rw [if_pos hread, afterKey, if_pos ⟨hkey.mpr hread.1, (startsColon_spaces _ _).mpr hread.2⟩,
      hread.2]
    rfl
  · rw [if_neg hread, afterKey, if_neg]
    · have hend := afterKey_append hnone []
      rw [List.append_nil] at hend
      exact hend
    · rw [hkey, startsColon_spaces]
      exact hread

/-- The number is read where the key and the whitespace allow it, and nothing else is. -/
theorem firstExp_only {doc : Text} {m : Member} {n : Number} (h : ExpiresOnly doc m n) :
    (ExpReadable m ∧ firstExp doc = some (natValue n.int)) ∨
      (¬ ExpReadable m ∧ firstExp doc = none) := by
  obtain ⟨back, hafter⟩ := afterKey_only h
  rw [firstExp, hafter]
  by_cases hread : raw m.key = expName ∧ m.beforeColon = []
  · rw [if_pos hread, Option.map_some, readDigits_spaces]
    by_cases hspaces : ∀ w ∈ m.afterColon, w = .space
    · rw [if_pos hspaces, h.plain.1]
      refine .inl ⟨⟨hread.1, hread.2, hspaces⟩, ?_⟩
      obtain ⟨d, ds, hint⟩ := List.exists_cons_of_ne_nil n.int_ne_nil
      simp [hint]
    · rw [if_neg hspaces]
      exact .inr ⟨fun hr => hspaces hr.afterColon, rfl⟩
  · rw [if_neg hread]
    exact .inr ⟨fun hr => hread ⟨hr.key, hr.beforeColon⟩, rfl⟩

/-! ## The whole token -/

/-- What the checks ask of a valid token beyond its validity. -/
structure SpelledForChecks (now : Int64) (name : List UInt8) (header : Text) (value : Spelling)
    (m : Member) : Prop where
  headerFits : header.bytes.length ≤ 128
  value : raw value = name
  exp : ExpReadable m
  clock : 0 ≤ now.toInt

/-- **Valid tokens pass in one spelling.** A token whose header declares the expected
algorithm and whose payload expires after the clock passes the checks if and only if the
header has at most 128 bytes, the algorithm and the key `exp` are spelled with their own
letters, the colon stands right behind the key, only blanks stand behind the colon, and
the clock is not before the epoch. -/
theorem valid_passes_iff (now : Int64) (alg : JwtAlg) (name : List UInt8) (header payload : Text)
    (value : Spelling) (m : Member) (n : Number) (sig : CStr) (key : List UInt8) (keyLen : Nat)
    (out : JwtParts) (hname : algName alg = some name) (hheader : DeclaresOnly name header value)
    (hpayload : ExpiresOnly payload m n) (hfuture : now.toInt < natValue n.int)
    (hsmall : natValue n.int < 2 ^ 63) (hkey : keyLen ≠ 0) :
    (∃ parts, jwtCheckStructure now (some (compact header.bytes payload.bytes sig)) (some key)
        keyLen alg out = some (.ok, parts)) ↔
      SpelledForChecks now name header value m := by
  have hsplit := splits_compact header.bytes payload.bytes sig
  rw [check_ok_iff hsplit]
  constructor
  · intro ⟨_, hpass⟩
    have hfits := encode_accepted_iff.mp hpass.headerFits
    have halg := hpass.alg
    obtain ⟨exp, hread, hclock, hlt⟩ := hpass.exp
    rw [decoded_encode] at halg hread
    have hlater := (payloadExp_later_iff hclock payload).mp ⟨exp, hread, hclock, hlt⟩
    refine ⟨hfits, (headerAlg_declared hname hheader).mp halg, ?_, hclock⟩
    rcases firstExp_only hpayload with ⟨hreadable, -⟩ | ⟨-, hnone⟩
    · exact hreadable
    · obtain ⟨n', hfirst, -⟩ := hlater
      rw [hnone] at hfirst
      cases hfirst
  · intro ⟨hfits, hvalue, hexp, hclock⟩
    have hlater : ReadsLater now payload := by
      rcases firstExp_only hpayload with ⟨-, hfirst⟩ | ⟨hnot, -⟩
      · refine ⟨_, hfirst, ?_⟩
        rw [Nat.mod_eq_of_lt (by omega)]
        exact hfuture
      · exact absurd hexp hnot
    refine ⟨⟨rfl, hkey⟩, encode_accepted_iff.mpr hfits, ?_, encode_accepted_iff.mpr hpayload.fits, ?_⟩
    · rw [decoded_encode]
      exact (headerAlg_declared hname hheader).mpr hvalue
    · rw [decoded_encode]
      exact (payloadExp_later_iff hclock payload).mpr hlater

/-! ## Three tokens at the fifth second -/

/-- `exp` 9 with the given whitespace in front of the colon. -/
def nineMember (beforeColon : List Ws) : Member :=
  ⟨[], spelled ['e', 'x', 'p'], beforeColon, [], .number nine, []⟩

def ninePayload (beforeColon : List Ws) : Text :=
  ⟨[], .object (.last [] (spelled ['e', 'x', 'p']) beforeColon [] (.number nine) []), []⟩

/-- A header of 134 bytes, because of its `kid`. -/
def longHeader : Text :=
  ⟨[], .object (stringMembers (['a', 'l', 'g'], ['E', 'S', '2', '5', '6'])
    [(['k', 'i', 'd'], List.replicate 110 'a')]), []⟩

theorem declaresOnly_es256Header :
    DeclaresOnly es256 es256Header (spelled ['E', 'S', '2', '5', '6']) :=
  ⟨⟨[], _, [], rfl, by decide, rfl, by simp [Silent], by simp [Silent]⟩, by decide,
    by decide +kernel⟩

theorem declaresOnly_longHeader :
    DeclaresOnly es256 longHeader (spelled ['E', 'S', '2', '5', '6']) :=
  ⟨⟨[_], _, [], rfl, by decide, rfl, by unfold Silent; decide +kernel,
    by unfold Silent; decide +kernel⟩, by decide, by decide +kernel⟩

theorem expiresOnly_nine (beforeColon : List Ws)
    (h : (ninePayload beforeColon).bytes.length ≤ dspJwtMaxDecodeB) :
    ExpiresOnly (ninePayload beforeColon) (nineMember beforeColon) nine :=
  ⟨⟨[], [], rfl, by simp [Silent]⟩, by show units (spelled _) = _; decide, rfl, ⟨rfl, rfl, rfl⟩, h⟩

theorem valid_passes_nine :
    ∃ parts, jwtCheckStructure 5 (some (compact es256Header.bytes (ninePayload []).bytes CStr.empty))
      (some [1]) 1 .es256 noParts = some (.ok, parts) :=
  (valid_passes_iff 5 .es256 es256 es256Header (ninePayload []) _ (nineMember []) nine CStr.empty
    [1] 1 noParts rfl declaresOnly_es256Header (expiresOnly_nine [] (by decide +kernel)) (by decide)
    (by decide) (by decide)).mpr
    ⟨by decide +kernel, by decide +kernel, ⟨by decide +kernel, rfl, by simp [nineMember]⟩,
      by decide⟩

theorem valid_refused_counterexample :
    (DeclaresOnly es256 es256Header (spelled ['E', 'S', '2', '5', '6']) ∧
      ExpiresOnly (ninePayload [.space]) (nineMember [.space]) nine ∧
      jwtCheckStructure 5 (some (compact es256Header.bytes (ninePayload [.space]).bytes CStr.empty))
        (some [1]) 1 .es256 noParts = some (.noExp, ⟨0, 20, 21, 14, 36, 0⟩)) ∧
    (DeclaresOnly es256 longHeader (spelled ['E', 'S', '2', '5', '6']) ∧
      ExpiresOnly (ninePayload []) (nineMember []) nine ∧
      jwtCheckStructure 5 (some (compact longHeader.bytes (ninePayload []).bytes CStr.empty))
        (some [1]) 1 .es256 noParts =
        some (.decode, partsOf (encode longHeader.bytes) (encode (ninePayload []).bytes) [])) := by
  have hlong : ¬ Accepted (encode longHeader.bytes) 128 := by
    rw [encode_accepted_iff]
    decide +kernel
  refine ⟨⟨declaresOnly_es256Header, expiresOnly_nine _ (by decide +kernel), by decide +kernel⟩,
    declaresOnly_longHeader, expiresOnly_nine _ (by decide +kernel), ?_⟩
  rw [check_eq (splits_compact _ _ _) 5 [1] (by decide), checkParts, if_pos hlong]
  rfl

end DspEmbedded.Audit.TokenAccepted
