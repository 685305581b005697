import DspEmbedded.CJson.Tree
import DspEmbedded.Model.Board

/-!
# `docker/dsp-counterpart/main.py`: the consumer

The four calls of its control API that talk to the device, each split where the
coroutine waits: what is written before the request goes out, what the request is,
and what is written when an answer or an exception comes back; and the five callback
endpoints, which take the word of whoever posts to them. Of the records in the two
dictionaries only `state` decides anything.
-/
namespace DspEmbedded.Model.Counterpart

open Lib.CString CJson Model Model.Board

/-- The values of `negotiations[...]["state"]`. -/
inductive NegStatus where
  | requesting
  | offered
  | agreed
  | terminated
  | failed
  deriving DecidableEq, Repr

/-- The values of `transfers[...]["state"]`. -/
inductive XferStatus where
  | requesting
  | started
  | completed
  | failed
  deriving DecidableEq, Repr

/-- `urn:uuid:`. -/
def urnPrefix : CStr := CStr.lit "urn:uuid:"

/-- `f"urn:uuid:{consumer_pid}"`. -/
def urn (consumerPid : CStr) : CStr := urnPrefix ++ consumerPid

/-- `consumer_pid if consumer_pid.startswith("urn:uuid:") else f"urn:uuid:{consumer_pid}"`. -/
def processUri (consumerPid : CStr) : CStr :=
  if urnPrefix.bytes.isPrefixOf consumerPid.bytes then consumerPid else urn consumerPid

/-- `consumer_pid.removeprefix("urn:uuid:")`. -/
def lookupKey (consumerPid : CStr) : CStr :=
  if urnPrefix.bytes.isPrefixOf consumerPid.bytes then consumerPid.drop urnPrefix.length
  else consumerPid

/-- A call of the control API. For a negotiation the pid is a fresh UUID. -/
inductive Op where
  | negotiate (consumerPid assetId policyId providerId : CStr)
  | agree (consumerPid : CStr)
  | transfer (consumerPid assetId : CStr)
  | transferComplete (consumerPid : CStr)

/-- The callback endpoints. -/
inductive Callback where
  | negotiationOffer
  | negotiationAgreement
  | negotiationTermination
  | transferStart
  | transferCompletion
  deriving DecidableEq, Repr

/-! ## Requests -/

/-- A string member of a JSON object. -/
def member (key value : String) : CStr × Json := (CStr.lit key, .string (CStr.lit value))

/-- `dsp_context()`. -/
def dspContext : Json :=
  .array [.string (CStr.lit "https://w3id.org/dspace/2024/1/context.json"),
    .string (CStr.lit "https://w3id.org/tractusx/policy/v1.0.0")]

def makeOfferBody (assetId policyId providerId consumerPid : CStr) : Json :=
  .object [
    (CStr.lit "@context", dspContext),
    member "@type" "dspace:ContractOfferMessage",
    (CStr.lit "dspace:processId", .string (urn consumerPid)),
    (CStr.lit "dspace:offer", .object [
      member "@type" "odrl:Offer",
      (CStr.lit "@id", .string (urn policyId)),
      (CStr.lit "odrl:assigner", .object [(CStr.lit "@id", .string providerId)]),
      (CStr.lit "odrl:target", .object [(CStr.lit "@id", .string assetId)]),
      (CStr.lit "odrl:permission", .array [.object [
        (CStr.lit "odrl:action", .object [member "odrl:type" "odrl:use"]),
        (CStr.lit "odrl:constraint", .array [])]])]),
    member "dspace:callbackAddress" "http://dsp-counterpart:8000/callback"]

/-- `transfer_body`. -/
def transferBody (consumerPid assetId : CStr) : Json :=
  .object [
    member "@context" "https://w3id.org/dspace/2024/1/context.json",
    member "@type" "dspace:TransferRequestMessage",
    (CStr.lit "dspace:processId", .string (urn consumerPid)),
    (CStr.lit "dspace:dataset", .string assetId),
    member "dspace:callbackAddress" "http://dsp-counterpart:8000/callback"]

namespace Op

/-- The handler that the request is routed to. -/
def endpoint : Op → Endpoint
  | negotiate .. => .offers
  | agree _ => .agree
  | transfer .. => .xferStart
  | transferComplete _ => .xferComplete

/-- The key of the record that the call is about. -/
def key : Op → CStr
  | negotiate consumerPid .. => consumerPid
  | agree consumerPid => lookupKey consumerPid
  | transfer consumerPid _ => consumerPid
  | transferComplete consumerPid => lookupKey consumerPid

/-- The path of `target`. -/
def path : Op → CStr
  | negotiate .. => CStr.lit "/negotiations/offers"
  | agree consumerPid =>
    PathId.resourcePath PathId.negPrefix (processUri consumerPid) (CStr.lit "/agree")
  | transfer .. => CStr.lit "/transfers/start"
  | transferComplete consumerPid =>
    PathId.resourcePath PathId.xferPrefix (processUri consumerPid) (CStr.lit "/complete")

/-- The argument `json=`, where there is one. -/
def message : Op → Option Json
  | negotiate consumerPid assetId policyId providerId =>
    some (makeOfferBody assetId policyId providerId consumerPid)
  | agree _ => none
  | transfer consumerPid assetId => some (transferBody consumerPid assetId)
  | transferComplete _ => none

end Op

/-! ## Records -/

structure Records where
  negotiations : CStr → Option NegStatus
  transfers : CStr → Option XferStatus

/-- Both dictionaries at start. -/
def Records.empty : Records := ⟨fun _ => none, fun _ => none⟩

namespace Records

def setNegotiation (c : Records) (key : CStr) (s : NegStatus) : Records :=
  { c with negotiations := Function.update c.negotiations key (some s) }

def setTransfer (c : Records) (key : CStr) (s : XferStatus) : Records :=
  { c with transfers := Function.update c.transfers key (some s) }

def callbackNegotiation (c : Records) (key : CStr) (s : NegStatus) : Records :=
  if (c.negotiations key).isSome then c.setNegotiation key s else c

def callbackTransfer (c : Records) (key : CStr) (s : XferStatus) : Records :=
  if (c.transfers key).isSome then c.setTransfer key s else c

/-- A callback with a pid in its path. Three of them decode the body first, which raises
where it is no JSON. -/
def callback (c : Records) (key : CStr) (json : Bool) : Callback → Records
  | .negotiationOffer => if json then c.callbackNegotiation key .offered else c
  | .negotiationAgreement => if json then c.callbackNegotiation key .agreed else c
  | .negotiationTermination => c.callbackNegotiation key .terminated
  | .transferStart => if json then c.callbackTransfer key .started else c
  | .transferCompletion => c.callbackTransfer key .completed

/-- Before the request goes out. -/
def begin (c : Records) : Op → Records
  | .negotiate consumerPid .. => c.setNegotiation consumerPid .requesting
  | .transfer consumerPid _ => c.setTransfer consumerPid .requesting
  | _ => c

/-- After an answer that `raise_for_status` lets pass. `json` says whether
`resp.json()` returns; where it raises, the handler of the exception has the last word. -/
def succeed (c : Records) (json : Bool) : Op → Records
  | .negotiate consumerPid .. => c.setNegotiation consumerPid (if json then .offered else .failed)
  | .agree consumerPid =>
    if json && (c.negotiations (lookupKey consumerPid)).isSome then
      c.setNegotiation (lookupKey consumerPid) .agreed
    else c
  | .transfer consumerPid _ => c.setTransfer consumerPid (if json then .started else .failed)
  | .transferComplete consumerPid =>
    if json && (c.transfers (lookupKey consumerPid)).isSome then
      c.setTransfer (lookupKey consumerPid) .completed
    else c

/-- After an error answer, a timeout or a connection that failed. -/
def fail (c : Records) : Op → Records
  | .negotiate consumerPid .. => c.setNegotiation consumerPid .failed
  | .transfer consumerPid _ => c.setTransfer consumerPid .failed
  | _ => c

end Records

/-! ## Ids -/

/-- Whatever form of the pid a caller gives, the path names the process of the key. -/
theorem processUri_eq (consumerPid : CStr) :
    processUri consumerPid = urn (lookupKey consumerPid) := by
  unfold processUri lookupKey
  split_ifs with h
  · obtain ⟨t, ht⟩ := List.isPrefixOf_iff_prefix.mp h
    apply CStr.ext_bytes
    show consumerPid.bytes = urnPrefix.bytes ++ consumerPid.bytes.drop urnPrefix.bytes.length
    rw [← ht, List.drop_left]
  · rfl

end DspEmbedded.Model.Counterpart
