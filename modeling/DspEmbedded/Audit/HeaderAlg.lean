import DspEmbedded.Audit.TokenFormat
import DspEmbedded.Lib.JsonSearch

/-!
# The algorithm of a header

`dsp_jwt_parse_alg` asks whether a name stands somewhere in the header in quotes. In a
JSON text that is a question about its strings, keys and values at any depth, and not
about the member `alg`.
-/
namespace DspEmbedded.Audit.HeaderAlg

open Lib.CString Lib.JsonText Lib.JsonSearch Model.Jwt Audit.Base64url Audit.ExpNumber
  Audit.TokenFormat

/-- `alg`. -/
def algKey : List UInt8 := [97, 108, 103]

/-- `ES256`. -/
def es256 : List UInt8 := [69, 83, 50, 53, 54]

/-- `RS256`. -/
def rs256 : List UInt8 := [82, 83, 50, 53, 54]

theorem isName_es256 : IsName es256 := .of_all (by decide) rfl

theorem isName_rs256 : IsName rs256 := .of_all (by decide) rfl

theorem es256Name_eq : es256Name = quoted es256 [] := rfl

theorem rs256Name_eq : rs256Name = quoted rs256 [] := rfl

/-- One of the strings of the text shows the name. -/
def Shows (name : List UInt8) (doc : Text) : Prop := ∃ s ∈ strings doc.toks, shows name s = true

/-- The member `alg` of an object; of several the last one counts. -/
def algMember (doc : Text) : Option Member :=
  doc.members?.bind fun members =>
    members.reverse.find? fun m => decide (units m.key = algKey.map UInt8.toNat)

/-- The text is an object whose `alg` is the string `name`. -/
def Declares (name : List UInt8) (doc : Text) : Prop :=
  ∃ m, algMember doc = some m ∧ ∃ s, m.value = .string s ∧ units s = name.map UInt8.toNat

theorem declares_unique {name other : List UInt8} {doc : Text} (h : Declares name doc)
    (h' : Declares other doc) : name.map UInt8.toNat = other.map UInt8.toNat := by
  obtain ⟨m, hm, s, hs, hunits⟩ := h
  obtain ⟨m', hm', s', hs', hunits'⟩ := h'
  obtain rfl : m = m' := by simpa [hm] using hm'
  obtain rfl : s = s' := by simpa [hs] using hs'
  rw [← hunits, hunits']

/-- The search by the strings of the header. -/
theorem headerAlg_cases (doc : Text) :
    (Shows es256 doc ∧ headerAlg doc.bytes = .es256) ∨
      (¬ Shows es256 doc ∧ Shows rs256 doc ∧ headerAlg doc.bytes = .rs256) ∨
      (¬ Shows es256 doc ∧ ¬ Shows rs256 doc ∧ headerAlg doc.bytes = .unknown) := by
  have hsep := separated_text doc
  have hes := quoted_infix_iff isName_es256 hsep
  have hrs := quoted_infix_iff isName_rs256 hsep
  rw [headerAlg, parseAlg_eq, List.take_length, es256Name_eq, rs256Name_eq, Text.bytes]
  by_cases h : quoted es256 [] <:+: bytesOf doc.toks
  · exact .inl ⟨hes.mp h, if_pos h⟩
  · rw [if_neg h]
    by_cases h' : quoted rs256 [] <:+: bytesOf doc.toks
    · exact .inr (.inl ⟨mt hes.mpr h, hrs.mp h', if_pos h'⟩)
    · exact .inr (.inr ⟨mt hes.mpr h, mt hrs.mpr h', if_neg h'⟩)

/-! ## The declared algorithm -/

/-- `dsp_jwt_parse_alg` returns what the header declares. -/
structure AlgExact (doc : Text) : Prop where
  onEs256 : dspJwtParseAlg (some doc.bytes) doc.bytes.length = .es256 ↔ Declares es256 doc
  onRs256 : dspJwtParseAlg (some doc.bytes) doc.bytes.length = .rs256 ↔ Declares rs256 doc
  onUnknown : dspJwtParseAlg (some doc.bytes) doc.bytes.length = .unknown ↔
    ¬ Declares es256 doc ∧ ¬ Declares rs256 doc

/-- No token with this header passes for an algorithm that it does not declare. -/
def NoConfusion (doc : Text) : Prop :=
  ∀ (now : Int64) (jwt : CStr) (key : Option (List UInt8)) (keyLen : Nat) (out parts : JwtParts)
    (header payload sig : List UInt8), Splits jwt header payload sig →
    decoded header = doc.bytes →
    (jwtCheckStructure now (some jwt) key keyLen .es256 out = some (.ok, parts) →
      Declares es256 doc) ∧
    (jwtCheckStructure now (some jwt) key keyLen .rs256 out = some (.ok, parts) →
      Declares rs256 doc)

theorem noConfusion_of_exact {doc : Text} (h : AlgExact doc) : NoConfusion doc := by
  intro now jwt key keyLen out parts header payload sig hsplit hdoc
  constructor
  · intro hok
    have halg := ((check_ok_iff hsplit now key keyLen .es256 out).mp ⟨parts, hok⟩).2.alg
    rw [hdoc] at halg
    exact h.onEs256.mp halg
  · intro hok
    have halg := ((check_ok_iff hsplit now key keyLen .rs256 out).mp ⟨parts, hok⟩).2.alg
    rw [hdoc] at halg
    exact h.onRs256.mp halg

/-- The strings show an algorithm exactly when it is declared; RS256 only matters
where ES256 is not declared. -/
def NamesAgree (doc : Text) : Prop :=
  (Shows es256 doc ↔ Declares es256 doc) ∧
    (¬ Declares es256 doc → (Shows rs256 doc ↔ Declares rs256 doc))

theorem algExact_iff (doc : Text) : AlgExact doc ↔ NamesAgree doc := by
  have hboth : Declares es256 doc → ¬ Declares rs256 doc := fun he hr =>
    absurd (declares_unique he hr) (by decide)
  have hcases := headerAlg_cases doc
  rw [headerAlg] at hcases
  constructor
  · intro hexact
    have hes := hexact.onEs256
    have hrs := hexact.onRs256
    rcases hcases with ⟨he, halg⟩ | ⟨he, hr, halg⟩ | ⟨he, hr, halg⟩
    · have hdecl := hes.mp halg
      exact ⟨iff_of_true he hdecl, fun hnot => absurd hdecl hnot⟩
    · have hnot : ¬ Declares es256 doc := mt hes.mpr (by simp [halg])
      exact ⟨iff_of_false he hnot, fun _ => iff_of_true hr (hrs.mp halg)⟩
    · have hnot : ¬ Declares es256 doc := mt hes.mpr (by simp [halg])
      exact ⟨iff_of_false he hnot, fun _ => iff_of_false hr (mt hrs.mpr (by simp [halg]))⟩
  · intro hagree
    obtain ⟨hes, hrs⟩ := hagree
    rcases hcases with ⟨he, halg⟩ | ⟨he, hr, halg⟩ | ⟨he, hr, halg⟩
    · have hdecl := hes.mp he
      constructor <;> rw [halg] <;> simp [hdecl, hboth hdecl]
    · have hnot := mt hes.mpr he
      have hdecl := (hrs hnot).mp hr
      constructor <;> rw [halg] <;> simp [hnot, hdecl]
    · have hnot := mt hes.mpr he
      have hnot' := mt (hrs hnot).mpr hr
      constructor <;> rw [halg] <;> simp [hnot, hnot']

/-- **The algorithm is the declared one where names stand for themselves.** The result is
the `alg` of the header, and no token with it passes for another one, if and only if ES256
stands among the strings of the header exactly when it is declared, and unless it is
declared the same holds of RS256. -/
theorem alg_exact_iff (doc : Text) : (AlgExact doc ∧ NoConfusion doc) ↔ NamesAgree doc := by
  rw [← algExact_iff, and_iff_left_of_imp]
  exact noConfusion_of_exact

/-! ## Two headers -/

/-- An object of string members without whitespace, from the last member to the first. -/
def stringMembers (last : List Char × List Char) : List (List Char × List Char) → Members
  | [] => .last [] (spelled last.1) [] [] (.string (spelled last.2)) []
  | m :: rest =>
    .cons [] (spelled m.1) [] [] (.string (spelled m.2)) [] (stringMembers last rest)

def es256Header : Text :=
  ⟨[], .object (stringMembers (['a', 'l', 'g'], ['E', 'S', '2', '5', '6']) []), []⟩

/-- `alg` is `none`, and `kid` is `ES256`. -/
def confusedHeader : Text :=
  ⟨[], .object (stringMembers (['k', 'i', 'd'], ['E', 'S', '2', '5', '6'])
    [(['a', 'l', 'g'], ['n', 'o', 'n', 'e'])]), []⟩

example : headerAlg es256Header.bytes = .es256 := by decide +kernel

theorem confused_counterexample :
    confusedHeader.members?.isSome = true ∧ Declares [110, 111, 110, 101] confusedHeader ∧
      dspJwtParseAlg (some confusedHeader.bytes) confusedHeader.bytes.length = .es256 ∧
      jwtCheckStructure 5 (some (compact confusedHeader.bytes
        [123, 34, 101, 120, 112, 34, 58, 57, 125] CStr.empty)) (some [1]) 1 .es256 noParts =
        some (.ok, ⟨0, 38, 39, 12, 52, 0⟩) ∧
      ¬ (AlgExact confusedHeader ∧ NoConfusion confusedHeader) := by
  have hmember : ∃ m, algMember confusedHeader = some m ∧
      m.value = .string (spelled ['n', 'o', 'n', 'e']) := ⟨_, rfl, rfl⟩
  have hdecl : Declares [110, 111, 110, 101] confusedHeader := by
    obtain ⟨m, hm, hvalue⟩ := hmember
    exact ⟨m, hm, _, hvalue, by decide +kernel⟩
  have halg : dspJwtParseAlg (some confusedHeader.bytes) confusedHeader.bytes.length = .es256 := by
    decide +kernel
  refine ⟨rfl, hdecl, halg, by decide +kernel, fun h => ?_⟩
  exact absurd (declares_unique hdecl (h.1.onEs256.mp halg)) (by decide)

end DspEmbedded.Audit.HeaderAlg
