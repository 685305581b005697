import DspEmbedded.Lib.CString

/-!
# Constants of `dsp_jsonld_ctx.h` and `dsp_config.h`

The field names, message types and state values that the modelled functions
compare with or write, and the defaults of the string options they read.
-/
namespace DspEmbedded.Model.Jsonld

open Lib.CString

def contextUrl : CStr := CStr.lit "https://w3id.org/dspace/2024/1/context.json"

def fieldContext : CStr := CStr.lit "@context"
def fieldType : CStr := CStr.lit "@type"
def fieldId : CStr := CStr.lit "@id"
def fieldProcessId : CStr := CStr.lit "dspace:processId"
def fieldCode : CStr := CStr.lit "dspace:code"
def fieldReason : CStr := CStr.lit "dspace:reason"
def fieldOffer : CStr := CStr.lit "dspace:offer"
def fieldAgreement : CStr := CStr.lit "dspace:agreement"
def fieldDataset : CStr := CStr.lit "dspace:dataset"
def fieldDataAddress : CStr := CStr.lit "dspace:dataAddress"

/-- Keys that `dsp_build.c` spells out itself. -/
def fieldEventType : CStr := CStr.lit "dspace:eventType"
def fieldEndpointUrl : CStr := CStr.lit "dspace:endpointUrl"
def fieldTitle : CStr := CStr.lit "dct:title"
def fieldCatalogDataset : CStr := CStr.lit "dcat:dataset"

def typeCatalog : CStr := CStr.lit "dcat:Catalog"
def typeDataset : CStr := CStr.lit "dcat:Dataset"
def typeAgreement : CStr := CStr.lit "odrl:Agreement"

def typeCatalogRequest : CStr := CStr.lit "dspace:CatalogRequestMessage"
def typeContractRequest : CStr := CStr.lit "dspace:ContractRequestMessage"
def typeContractOffer : CStr := CStr.lit "dspace:ContractOfferMessage"
def typeContractAgreement : CStr := CStr.lit "dspace:ContractAgreementMessage"
def typeNegotiationEvent : CStr := CStr.lit "dspace:ContractNegotiationEventMessage"
def typeNegotiationTermination : CStr := CStr.lit "dspace:ContractNegotiationTerminationMessage"
def typeTransferRequest : CStr := CStr.lit "dspace:TransferRequestMessage"
def typeTransferStart : CStr := CStr.lit "dspace:TransferStartMessage"
def typeTransferCompletion : CStr := CStr.lit "dspace:TransferCompletionMessage"
def typeError : CStr := CStr.lit "dspace:Error"

def negStateRequested : CStr := CStr.lit "dspace:REQUESTED"
def negStateOffered : CStr := CStr.lit "dspace:OFFERED"
def negStateAgreed : CStr := CStr.lit "dspace:AGREED"
def negStateVerified : CStr := CStr.lit "dspace:VERIFIED"
def negStateFinalized : CStr := CStr.lit "dspace:FINALIZED"
def negStateTerminated : CStr := CStr.lit "dspace:TERMINATED"

/-- `CONFIG_DSP_PROVIDER_ID`. -/
def configProviderId : CStr := CStr.lit "urn:uuid:dsp-embedded-provider-1"

/-- `CONFIG_DSP_CATALOG_DATASET_ID`. -/
def configCatalogDatasetId : CStr := CStr.lit "urn:uuid:dsp-embedded-sensor-dataset-1"

/-- `CONFIG_DSP_CATALOG_TITLE`. -/
def configCatalogTitle : CStr := CStr.lit "DSP Embedded Sensor Catalog"

end DspEmbedded.Model.Jsonld
