import DspEmbedded.Model.Json

/-!
# `dsp_msg.c`

The four message validators, with the two-stage `@context` test of
`check_common` as it is written.
-/
namespace DspEmbedded.Model.Msg

open Lib.CString CJson Model.Json

inductive DspMsgErr where
  | ok
  | errNullInput
  | errParse
  | errMissingContext
  | errWrongType
  | errMissingField
  deriving DecidableEq, Repr

/-- The tree comes back only together with `ok`. -/
def checkCommon (json : Option CStr) (expectedType : CStr) : Except DspMsgErr Json :=
  match json with
  | none => .error .errNullInput
  | some text =>
    match dspJsonParse (some text) with
    | none => .error .errParse
    | some obj =>
      let context := stringItem (getObjectItemCaseSensitive obj Jsonld.fieldContext)
      if !(dspJsonGetContext (some obj) 8).1 && context.isNone then .error .errMissingContext
      else
        match context with
        | none => .error .errMissingContext
        | some s =>
          if s.bytes = [] then .error .errMissingContext
          else if stringItem (getObjectItemCaseSensitive obj Jsonld.fieldType) ≠ some expectedType
          then .error .errWrongType
          else .ok obj

def hasStringField (obj : Json) (key : CStr) : Bool :=
  match stringItem (getObjectItemCaseSensitive obj key) with
  | none => false
  | some s => s.bytes ≠ []

def hasObjectField (obj : Json) (key : CStr) : Bool :=
  match getObjectItemCaseSensitive obj key with
  | none => false
  | some item => item.isObject

def dspMsgValidateCatalogRequest (json : Option CStr) : DspMsgErr :=
  match checkCommon json Jsonld.typeCatalogRequest with
  | .error rc => rc
  | .ok _ => .ok

def dspMsgValidateOffer (json : Option CStr) : DspMsgErr :=
  match checkCommon json Jsonld.typeContractOffer with
  | .error rc => rc
  | .ok obj =>
    if !hasStringField obj Jsonld.fieldProcessId || !hasObjectField obj Jsonld.fieldOffer then
      .errMissingField
    else .ok

def dspMsgValidateAgreement (json : Option CStr) : DspMsgErr :=
  match checkCommon json Jsonld.typeContractAgreement with
  | .error rc => rc
  | .ok obj =>
    if !hasStringField obj Jsonld.fieldProcessId || !hasObjectField obj Jsonld.fieldAgreement then
      .errMissingField
    else .ok

def dspMsgValidateTransferRequest (json : Option CStr) : DspMsgErr :=
  match checkCommon json Jsonld.typeTransferRequest with
  | .error rc => rc
  | .ok obj =>
    if !hasStringField obj Jsonld.fieldProcessId || !hasStringField obj Jsonld.fieldDataset then
      .errMissingField
    else .ok

/-! ## The checks one after another -/

theorem checkCommon_unparsed {text : CStr} (h : dspJsonParse (some text) = none) (type : CStr) :
    checkCommon (some text) type = .error .errParse := by
  simp only [checkCommon, h]

/-- The probe of 8 bytes rejects nothing that the test behind it would let pass. -/
theorem checkCommon_parsed {text : CStr} {obj : Json} (h : dspJsonParse (some text) = some obj)
    (type : CStr) :
    checkCommon (some text) type =
      match stringItem (getObjectItemCaseSensitive obj Jsonld.fieldContext) with
      | none => .error .errMissingContext
      | some s =>
        if s.bytes = [] then .error .errMissingContext
        else if stringItem (getObjectItemCaseSensitive obj Jsonld.fieldType) ≠ some type then
          .error .errWrongType
        else .ok obj := by
  simp only [checkCommon, h]
  cases stringItem (getObjectItemCaseSensitive obj Jsonld.fieldContext) with
  | none =>
    by_cases hprobe : (!(dspJsonGetContext (some obj) 8).1 && (none : Option CStr).isNone) = true
    · rw [if_pos hprobe]
    · rw [if_neg hprobe]
  | some s => simp only [Option.isNone_some, Bool.and_false, Bool.false_eq_true, if_false]

end DspEmbedded.Model.Msg
