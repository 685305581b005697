import DspEmbedded.Model.Build
import DspEmbedded.Model.Esp
import DspEmbedded.Model.Msg

/-!
# `dsp_catalog.c`

The catalog is fixed at compile time and written anew for each request. GET sends
it; POST `/catalog/request` sends it once the message is a catalog request.
-/
namespace DspEmbedded.Model.Catalog

open Lib.CString CJson Model.Esp Model.Msg Model.Build

/-- `DSP_CATALOG_JSON_BUF_SIZE`. -/
def catalogJsonBufSize : Nat := 512

def dspCatalogGetJson (cap : Nat) : DspBuildErr × Option CStr :=
  dspBuildCatalog cap (some Jsonld.configCatalogDatasetId) (some Jsonld.configCatalogTitle)

def catalogGetHandler : Response :=
  let (rc, buf) := dspCatalogGetJson catalogJsonBufSize
  if rc ≠ .ok then httpdRespSendErr .internalServerError "catalog error"
  else httpdRespSendstr .ok (buf.getD CStr.empty)

def catalogRequestPostHandler (req : HttpdReq) : Response :=
  match recvBody req catalogJsonBufSize with
  | none => httpdRespSendErr .badRequest "empty body"
  | some body =>
    if dspMsgValidateCatalogRequest (some body) ≠ .ok then
      httpdRespSendErr .badRequest "invalid CatalogRequestMessage"
    else
      let (rc, buf) := dspCatalogGetJson catalogJsonBufSize
      if rc ≠ .ok then httpdRespSendErr .internalServerError "catalog error"
      else httpdRespSendstr .ok (buf.getD CStr.empty)

/-- An accepted request is answered as GET is. -/
theorem catalogRequest_accepts {req : HttpdReq} {body : CStr}
    (hbody : recvBody req catalogJsonBufSize = some body)
    (hval : dspMsgValidateCatalogRequest (some body) = .ok) :
    catalogRequestPostHandler req = catalogGetHandler := by
  unfold catalogRequestPostHandler
  rw [hbody]
  exact if_neg (not_not.mpr hval)

theorem print_catalog (datasetId title : CStr) :
    cJSONPrintUnformatted (catalog datasetId title) =
      some ([[123], printString Jsonld.fieldContext, [58], printString Jsonld.contextUrl,
        [44], printString Jsonld.fieldType, [58], printString Jsonld.typeCatalog,
        [44], printString Jsonld.fieldTitle, [58], printString title,
        [44], printString Jsonld.fieldCatalogDataset, [58, 91],
        [123], printString Jsonld.fieldType, [58], printString Jsonld.typeDataset,
        [44], printString Jsonld.fieldId, [58], printString datasetId, [125],
        [93, 125]].flatten) := by
  simp [cJSONPrintUnformatted, catalog, printValue, printMembers, printElements, separator]

/-- The catalog fits its buffer and parses back. -/
theorem catalogGet_ok :
    ∃ text, catalogGetHandler = httpdRespSendstr .ok text ∧
      cJSONParse text =
        some (catalog Jsonld.configCatalogDatasetId Jsonld.configCatalogTitle) := by
  have hprint := print_catalog Jsonld.configCatalogDatasetId Jsonld.configCatalogTitle
  obtain ⟨text, hfits, hparse⟩ : ∃ text,
      finalise (some (catalog Jsonld.configCatalogDatasetId Jsonld.configCatalogTitle))
        catalogJsonBufSize = (.ok, some text) ∧
      cJSONParse text =
        some (catalog Jsonld.configCatalogDatasetId Jsonld.configCatalogTitle) :=
    finalise_fits hprint (Nat.le_of_ble_eq_true rfl) (by decide +kernel)
  have hjson : dspCatalogGetJson catalogJsonBufSize = (.ok, some text) :=
    (dspBuildCatalog_eq _ _ _).trans hfits
  refine ⟨text, ?_, hparse⟩
  rw [catalogGetHandler, hjson]
  rfl

end DspEmbedded.Model.Catalog
