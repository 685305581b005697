import DspEmbedded.Model.Msg

/-!
# The schema that the validators enforce

A message is an object whose first members of certain names have the right kind.
The validators read a field in three ways: through a copy into a small buffer, as
the raw item, and by its kind alone. They agree with one another and with the
schema, and report the first thing that is wrong in a fixed order.
-/
namespace DspEmbedded.Audit.Schema

open Lib.CString CJson Model Model.Json Model.Msg

/-! ## The documented schema -/

/-- `value` is the first member of that name, compared byte for byte. -/
def FirstMember (obj : Json) (key : CStr) (value : Json) : Prop :=
  ∃ before after, obj = .object (before ++ (key, value) :: after) ∧
    key ∉ before.map Prod.fst

/-- A member that a message must have: a string that is not empty, or an object. -/
inductive Field where
  | text (key : CStr)
  | object (key : CStr)

def Present (obj : Json) : Field → Prop
  | .text key => ∃ s, FirstMember obj key (.string s) ∧ s ≠ CStr.empty
  | .object key => ∃ child, FirstMember obj key (.object child)

def HasContext (obj : Json) : Prop := Present obj (.text Jsonld.fieldContext)

def HasType (obj : Json) (type : CStr) : Prop :=
  FirstMember obj Jsonld.fieldType (.string type)

/-- The type of a message and its members beyond context and type. -/
structure MessageSchema where
  type : CStr
  required : List Field

/-- What a text is to be answered with, first failure first. -/
inductive Verdict (schema : MessageSchema) : Option Json → DspMsgErr → Prop where
  | parse : Verdict schema none .errParse
  | missingContext {obj : Json} (h : ¬ HasContext obj) :
    Verdict schema (some obj) .errMissingContext
  | wrongType {obj : Json} (hcontext : HasContext obj) (h : ¬ HasType obj schema.type) :
    Verdict schema (some obj) .errWrongType
  | missingField {obj : Json} (hcontext : HasContext obj) (htype : HasType obj schema.type)
    (h : ∃ f ∈ schema.required, ¬ Present obj f) : Verdict schema (some obj) .errMissingField
  | ok {obj : Json} (hcontext : HasContext obj) (htype : HasType obj schema.type)
    (h : ∀ f ∈ schema.required, Present obj f) : Verdict schema (some obj) .ok

/-! ## The validators -/

inductive Validator where
  | catalogRequest
  | offer
  | agreement
  | transferRequest
  deriving DecidableEq

def Validator.run : Validator → Option CStr → DspMsgErr
  | .catalogRequest => dspMsgValidateCatalogRequest
  | .offer => dspMsgValidateOffer
  | .agreement => dspMsgValidateAgreement
  | .transferRequest => dspMsgValidateTransferRequest

def Validator.schema : Validator → MessageSchema
  | .catalogRequest => ⟨Jsonld.typeCatalogRequest, []⟩
  | .offer => ⟨Jsonld.typeContractOffer, [.text Jsonld.fieldProcessId, .object Jsonld.fieldOffer]⟩
  | .agreement =>
    ⟨Jsonld.typeContractAgreement, [.text Jsonld.fieldProcessId, .object Jsonld.fieldAgreement]⟩
  | .transferRequest =>
    ⟨Jsonld.typeTransferRequest, [.text Jsonld.fieldProcessId, .text Jsonld.fieldDataset]⟩

/-- `check_common` with the raw item looked at once, and no probe. -/
def singleCheck (tree : Option Json) (type : CStr) : Except DspMsgErr Json :=
  match tree with
  | none => .error .errParse
  | some obj =>
    match stringItem (getObjectItemCaseSensitive obj Jsonld.fieldContext) with
    | none => .error .errMissingContext
    | some s =>
      if s.bytes = [] then .error .errMissingContext
      else if stringItem (getObjectItemCaseSensitive obj Jsonld.fieldType) ≠ some type then
        .error .errWrongType
      else .ok obj

theorem checkCommon_eq_single (text type : CStr) :
    checkCommon (some text) type = singleCheck (dspJsonParse (some text)) type := by
  cases h : dspJsonParse (some text) with
  | none => exact checkCommon_unparsed h type
  | some obj => exact checkCommon_parsed h type

/-! ## Reading a field -/

theorem firstMember_iff {obj : Json} {key : CStr} {value : Json} :
    getObjectItemCaseSensitive obj key = some value ↔ FirstMember obj key value := by
  cases obj with
  | object child =>
    simp only [getObjectItemCaseSensitive, Option.map_eq_some_iff, List.find?_eq_some_iff_append]
    constructor
    · rintro ⟨m, ⟨hkey, before, after, rfl, hbefore⟩, rfl⟩
      obtain rfl := of_decide_eq_true hkey
      refine ⟨before, after, rfl, ?_⟩
      intro hmem
      obtain ⟨m', hm', he⟩ := List.mem_map.mp hmem
      simpa [he] using hbefore m' hm'
    · rintro ⟨before, after, heq, hbefore⟩
      obtain rfl := Json.object.inj heq
      refine ⟨(key, value), ⟨by simp, before, after, rfl, ?_⟩, rfl⟩
      intro m hm
      have hne : m.1 ≠ key := fun he => hbefore (he ▸ List.mem_map_of_mem hm)
      simpa using hne
  | _ =>
    constructor
    · intro h
      cases h
    · rintro ⟨before, after, heq, -⟩
      cases heq

theorem stringItem_iff {obj : Json} {key s : CStr} :
    stringItem (getObjectItemCaseSensitive obj key) = some s ↔
      FirstMember obj key (.string s) := by
  rw [← firstMember_iff, stringItem, Option.bind_eq_some_iff]
  constructor
  · rintro ⟨v, hv, hs⟩
    cases v <;> cases hs
    exact hv
  · intro h
    exact ⟨_, h, rfl⟩

theorem ne_empty_iff (s : CStr) : s.bytes ≠ [] ↔ s ≠ CStr.empty := by
  constructor
  · intro h he
    exact h (he ▸ rfl)
  · intro h he
    exact h (CStr.ext_bytes he)

theorem hasStringField_iff {obj : Json} {key : CStr} :
    hasStringField obj key = true ↔ Present obj (.text key) := by
  have hstring := @stringItem_iff obj key
  unfold hasStringField Present
  cases h : stringItem (getObjectItemCaseSensitive obj key) with
  | none =>
    simp only [h, reduceCtorEq, false_iff] at hstring
    simp only [Bool.false_eq_true, false_iff]
    rintro ⟨s, hs, -⟩
    exact hstring hs
  | some s =>
    simp only [h, Option.some.injEq] at hstring
    rw [decide_eq_true_eq, ne_empty_iff]
    constructor
    · intro hne
      exact ⟨s, hstring.mp rfl, hne⟩
    · rintro ⟨s', hs', hne⟩
      rwa [hstring.mpr hs']

theorem hasObjectField_iff {obj : Json} {key : CStr} :
    hasObjectField obj key = true ↔ Present obj (.object key) := by
  unfold hasObjectField Present
  simp only [← firstMember_iff]
  cases getObjectItemCaseSensitive obj key with
  | none => simp
  | some item => cases item <;> simp [Json.isObject]

/-! ## The verdict -/

def hasField (obj : Json) : Field → Bool
  | .text key => hasStringField obj key
  | .object key => hasObjectField obj key

theorem hasField_iff {obj : Json} {f : Field} : hasField obj f = true ↔ Present obj f := by
  cases f with
  | text key => exact hasStringField_iff
  | object key => exact hasObjectField_iff

theorem missingField_of_pair (obj : Json) (f g : Field) :
    (if (!hasField obj f || !hasField obj g) = true then DspMsgErr.errMissingField else .ok) =
      if [f, g].all (hasField obj) then .ok else .errMissingField := by
  simp only [List.all_cons, List.all_nil, Bool.and_true]
  cases hasField obj f <;> cases hasField obj g <;> rfl

/-- The four validators differ in their schema only. -/
theorem run_eq (v : Validator) (text : CStr) :
    v.run (some text) =
      match checkCommon (some text) v.schema.type with
      | .error rc => rc
      | .ok obj => if v.schema.required.all (hasField obj) then .ok else .errMissingField := by
  cases v with
  | catalogRequest =>
    simp only [Validator.run, Validator.schema, dspMsgValidateCatalogRequest]
    cases checkCommon (some text) Jsonld.typeCatalogRequest <;> rfl
  | offer =>
    simp only [Validator.run, Validator.schema, dspMsgValidateOffer]
    cases checkCommon (some text) Jsonld.typeContractOffer with
    | error rc => rfl
    | ok obj =>
      exact missingField_of_pair obj (.text Jsonld.fieldProcessId) (.object Jsonld.fieldOffer)
  | agreement =>
    simp only [Validator.run, Validator.schema, dspMsgValidateAgreement]
    cases checkCommon (some text) Jsonld.typeContractAgreement with
    | error rc => rfl
    | ok obj =>
      exact missingField_of_pair obj (.text Jsonld.fieldProcessId) (.object Jsonld.fieldAgreement)
  | transferRequest =>
    simp only [Validator.run, Validator.schema, dspMsgValidateTransferRequest]
    cases checkCommon (some text) Jsonld.typeTransferRequest with
    | error rc => rfl
    | ok obj =>
      exact missingField_of_pair obj (.text Jsonld.fieldProcessId) (.text Jsonld.fieldDataset)

theorem common_cases (tree : Option Json) (type : CStr) :
    (tree = none ∧ singleCheck tree type = .error .errParse) ∨
    ∃ obj, tree = some obj ∧
      ((¬ HasContext obj ∧ singleCheck tree type = .error .errMissingContext) ∨
        (HasContext obj ∧ ¬ HasType obj type ∧ singleCheck tree type = .error .errWrongType) ∨
        (HasContext obj ∧ HasType obj type ∧ singleCheck tree type = .ok obj)) := by
  cases tree with
  | none => exact .inl ⟨rfl, rfl⟩
  | some obj =>
    refine .inr ⟨obj, rfl, ?_⟩
    have hfield := @hasStringField_iff obj Jsonld.fieldContext
    have htype := @stringItem_iff obj Jsonld.fieldType type
    unfold hasStringField at hfield
    unfold singleCheck
    cases hs : stringItem (getObjectItemCaseSensitive obj Jsonld.fieldContext) with
    | none =>
      rw [hs] at hfield
      exact .inl ⟨fun h => absurd (hfield.mpr h) Bool.false_ne_true, by simp only [hs]⟩
    | some s =>
      rw [hs] at hfield
      by_cases hempty : s.bytes = []
      · refine .inl ⟨fun h => ?_, by simp only [hs, hempty, if_true]⟩
        exact of_decide_eq_true (hfield.mpr h) hempty
      · have hcontext : HasContext obj := hfield.mp (decide_eq_true hempty)
        simp only [hs, hempty, if_false]
        by_cases ht : stringItem (getObjectItemCaseSensitive obj Jsonld.fieldType) = some type
        · exact .inr (.inr ⟨hcontext, htype.mp ht, by rw [if_neg (not_not.mpr ht)]⟩)
        · exact .inr (.inl ⟨hcontext, fun h => ht (htype.mpr h), by rw [if_pos ht]⟩)

theorem run_verdict (v : Validator) (text : CStr) :
    Verdict v.schema (dspJsonParse (some text)) (v.run (some text)) := by
  rw [run_eq, checkCommon_eq_single]
  rcases common_cases (dspJsonParse (some text)) v.schema.type with
    ⟨htree, hcheck⟩ | ⟨obj, htree, ⟨hcontext, hcheck⟩ | ⟨hcontext, htype, hcheck⟩ |
      ⟨hcontext, htype, hcheck⟩⟩
  · rw [hcheck, htree]
    exact .parse
  · rw [hcheck, htree]
    exact .missingContext hcontext
  · rw [hcheck, htree]
    exact .wrongType hcontext htype
  · rw [hcheck, htree]
    by_cases hall : v.schema.required.all (hasField obj) = true
    · simp only [hall, if_true]
      rw [List.all_eq_true] at hall
      exact .ok hcontext htype fun f hf => hasField_iff.mp (hall f hf)
    · simp only [hall, Bool.false_eq_true, if_false]
      simp only [List.all_eq_true, not_forall] at hall
      obtain ⟨f, hf, hmissing⟩ := hall
      exact .missingField hcontext htype ⟨f, hf, fun h => hmissing (hasField_iff.mpr h)⟩

/-- The order of the checks leaves one answer. -/
theorem Verdict.unique {schema : MessageSchema} {tree : Option Json} {rc rc' : DspMsgErr}
    (h : Verdict schema tree rc) (h' : Verdict schema tree rc') : rc = rc' := by
  cases h with
  | parse =>
    cases h'
    rfl
  | missingContext hc =>
    cases h' with
    | missingContext => rfl
    | wrongType hc' _ => exact absurd hc' hc
    | missingField hc' _ _ => exact absurd hc' hc
    | ok hc' _ _ => exact absurd hc' hc
  | wrongType hc ht =>
    cases h' with
    | missingContext hc' => exact absurd hc hc'
    | wrongType => rfl
    | missingField _ ht' _ => exact absurd ht' ht
    | ok _ ht' _ => exact absurd ht' ht
  | missingField hc ht hf =>
    cases h' with
    | missingContext hc' => exact absurd hc hc'
    | wrongType _ ht' => exact absurd ht ht'
    | missingField => rfl
    | ok _ _ hf' =>
      obtain ⟨f, hmem, hmissing⟩ := hf
      exact absurd (hf' f hmem) hmissing
  | ok hc ht hf =>
    cases h' with
    | missingContext hc' => exact absurd hc hc'
    | wrongType _ ht' => exact absurd ht ht'
    | missingField _ _ hf' =>
      obtain ⟨f, hmem, hmissing⟩ := hf'
      exact absurd (hf f hmem) hmissing
    | ok => rfl

theorem HasType.unique {obj : Json} {type type' : CStr} (h : HasType obj type)
    (h' : HasType obj type') : type = type' := by
  have hs := stringItem_iff.mpr h
  rw [stringItem_iff.mpr h'] at hs
  exact (Option.some.inj hs).symm

theorem schema_type_injective {v w : Validator} (h : v.schema.type = w.schema.type) : v = w := by
  cases v <;> cases w <;> first | rfl | exact absurd h (by decide)

theorem accepted_type {v : Validator} {text : CStr} (h : v.run (some text) = .ok) :
    ∃ obj, dspJsonParse (some text) = some obj ∧ HasType obj v.schema.type := by
  have hv := run_verdict v text
  rw [h] at hv
  generalize dspJsonParse (some text) = tree at hv ⊢
  cases hv with
  | ok _ htype _ => exact ⟨_, rfl, htype⟩

/-- **The validators decide the schema.** Each answers what the order of the checks
prescribes for the parsed tree, the probe of the context changes nothing, and no
text is a message of two types. -/
theorem validators_exact :
    (∀ (v : Validator) (text : CStr) (rc : DspMsgErr),
      v.run (some text) = rc ↔ Verdict v.schema (dspJsonParse (some text)) rc) ∧
    (∀ text type : CStr,
      checkCommon (some text) type = singleCheck (dspJsonParse (some text)) type) ∧
    (∀ (v w : Validator) (text : CStr),
      v.run (some text) = .ok → w.run (some text) = .ok → v = w) := by
  refine ⟨fun v text rc => ⟨?_, ?_⟩, checkCommon_eq_single, ?_⟩
  · rintro rfl
    exact run_verdict v text
  · intro h
    exact (run_verdict v text).unique h
  · intro v w text hv hw
    obtain ⟨obj, htree, htype⟩ := accepted_type hv
    obtain ⟨obj', htree', htype'⟩ := accepted_type hw
    obtain rfl := Option.some.inj (htree.symm.trans htree')
    exact schema_type_injective (htype.unique htype')

end DspEmbedded.Audit.Schema
