import DspEmbedded.Audit.Requests
import DspEmbedded.Audit.WholeText

/-!
# Which messages a POST handler acts on

A message is documented for each handler: an offer or a request for one, an agreement,
a termination, a transfer request. Of the four only `xfer_start_post_handler` asks for
the type of its message, agree takes the id in the path for everything, and nobody
looks behind the first value of a body. What a handler leaves out is the condition under
which it acts on documented messages only.
-/
namespace DspEmbedded.Audit.Discipline

open Lib.CString Lib.JsonText CJson Model Model.Esp Model.Json Model.Msg Model.PathId Model.Neg
  Model.RtcState Model.Board Audit.Requests Audit.Schema
open Model.Xfer (dspXferCountActive startProcessId)
open Audit.Delivery (ReadsAlike readsAlike_of_prefix recvBody_isPrefix validateTransfer_congr)
open Audit.WholeText (Whole CleanCut whole_iff_cleanCut cleanCut_of_whole)

variable {negMax xferMax : Nat}

/-- The four POST endpoints that take a message. -/
inductive Post where
  | offers
  | agree
  | terminate
  | xferStart
  deriving DecidableEq, Repr

def Post.endpoint : Post → Endpoint
  | .offers => .offers
  | .agree => .agree
  | .terminate => .terminate
  | .xferStart => .xferStart

/-! ## The documented messages -/

/-- All bytes of the body, as a C string. -/
def bodyText (req : HttpdReq) : CStr := CStr.ofBytes req.delivery.flatten

/-- The whole body is one JSON text. -/
def WholeBody (req : HttpdReq) : Prop := ∃ t : Text, req.delivery.flatten = t.bytes

/-- The body has a context and is of the type. -/
def IsMessage (req : HttpdReq) (type : CStr) : Prop :=
  ∃ msg, dspJsonParse (some (bodyText req)) = some msg ∧ HasContext msg ∧ HasType msg type

/-- An agreement to the process in the path. -/
def IsAgreement (req : HttpdReq) : Prop :=
  dspMsgValidateAgreement (some (bodyText req)) = .ok ∧
    ∃ msg, dspJsonParse (some (bodyText req)) = some msg ∧
      FirstMember msg Jsonld.fieldProcessId
        (.string (extractNegId (some req.uri) dspNegPidLen))

/-- The message documented for an endpoint. -/
def DocumentedMessage (req : HttpdReq) : Post → Prop
  | .offers => WholeBody req ∧
      (IsMessage req Jsonld.typeContractRequest ∨ IsMessage req Jsonld.typeContractOffer)
  | .agree => WholeBody req ∧ IsAgreement req
  | .terminate => WholeBody req ∧ IsMessage req Jsonld.typeNegotiationTermination
  | .xferStart => WholeBody req ∧ dspMsgValidateTransferRequest (some (bodyText req)) = .ok

/-- Requests without the message are answered with an error and change nothing. -/
def Disciplined (message : Prop) (d : Device negMax xferMax) (endpoint : Post)
    (req : HttpdReq) : Prop :=
  message ∨ ((serve d endpoint.endpoint req).1.success = false ∧
    (serve d endpoint.endpoint req).2 = d)

/-! ## What is asked and what is left out -/

/-- The request meets all that the handler asks of it and of the tables. -/
def Handled (d : Device negMax xferMax) (req : HttpdReq) : Post → Prop
  | .offers => ∃ p, ValidPid p ∧ RequestsOffer req p ∧ dspNegCountActive d.neg ≠ negMax
  | .agree => agrees (dspNegGetState d.neg (agreeSlot d.neg req))
  | .terminate => ∃ p, ValidPid p ∧ Carries req p ∧ dspNegFindByCpid d.neg (some p) ≠ -1
  | .xferStart => ∃ p, ValidPid p ∧ RequestsTransfer req p ∧
      dspNegGetState d.neg (dspNegFindByCpid d.neg (some p)) = .agreed ∧
      dspXferCountActive d.xfer ≠ xferMax

/-- No NUL in the body, nothing but JSON white space around its first value, and that
value in the notation of RFC 8259. -/
def CleanBody (req : HttpdReq) : Prop :=
  (0 : UInt8) ∉ req.delivery.flatten ∧ CleanCut (bodyText req)

/-- The checks that the handler does not make. -/
def LeftOut (req : HttpdReq) : Post → Prop
  | .offers => CleanBody req ∧
      (IsMessage req Jsonld.typeContractRequest ∨ IsMessage req Jsonld.typeContractOffer)
  | .agree => CleanBody req ∧ IsAgreement req
  | .terminate => CleanBody req ∧ IsMessage req Jsonld.typeNegotiationTermination
  | .xferStart => CleanBody req

/-- The id in the path has a slot. -/
def NamesNegotiation (d : Device negMax xferMax) (req : HttpdReq) : Prop :=
  ∃ p, ValidPid p ∧ extractNegId (some req.uri) dspNegPidLen = p ∧
    dspNegFindByCpid d.neg (some p) ≠ -1

/-! ## Bodies -/

section Bodies

variable {req : HttpdReq}

/-- Whatever piece a handler reads, it reads like the whole body. -/
theorem body_readsAlike {cap : Nat} {body : CStr} (hbody : recvBody req cap = some body)
    (hparse : dspJsonParse (some body) ≠ none) : ReadsAlike body (bodyText req) := by
  obtain ⟨chunk, hchunk, hpre⟩ := recvBody_isPrefix hbody
  refine readsAlike_of_prefix (hpre.trans ?_) hparse
  apply Audit.Delivery.ofBytes_prefix
  rw [List.eq_cons_of_mem_head? hchunk, List.flatten_cons]
  exact List.prefix_append _ _

theorem wholeBody_iff (hparse : cJSONParse (bodyText req) ≠ none) :
    WholeBody req ↔ CleanBody req := by
  have hbytes (hnul : (0 : UInt8) ∉ req.delivery.flatten) :
      (bodyText req).bytes = req.delivery.flatten :=
    congrArg CStr.bytes (CStr.ofBytes_bytes ⟨_, hnul⟩)
  constructor
  · rintro ⟨t, ht⟩
    have hnul : (0 : UInt8) ∉ req.delivery.flatten := by
      rw [ht]
      exact text_noNul t
    exact ⟨hnul, cleanCut_of_whole hparse ⟨t, (hbytes hnul).trans ht⟩⟩
  · rintro ⟨hnul, hclean⟩
    obtain ⟨t, ht⟩ := (whole_iff_cleanCut hparse).mpr hclean
    exact ⟨t, (hbytes hnul).symm.trans ht⟩

theorem parsed_of_message {type : CStr} (h : IsMessage req type) :
    cJSONParse (bodyText req) ≠ none := by
  obtain ⟨msg, hmsg, -⟩ := h
  intro hnone
  cases hmsg.symm.trans hnone

theorem not_isMessage (h : ((dspJsonParse (some (bodyText req))).bind fun msg =>
    stringItem (getObjectItemCaseSensitive msg Jsonld.fieldType)) = none) (type : CStr) :
    ¬ IsMessage req type := by
  rintro ⟨msg, hmsg, -, htype⟩
  simp [hmsg, stringItem_iff.mpr htype] at h

/-- A body that the handler gets through its own checks is documented if it passes the
others. -/
theorem documented_iff {d : Device negMax xferMax} {endpoint : Post}
    (h : Handled d req endpoint) : DocumentedMessage req endpoint ↔ LeftOut req endpoint := by
  cases endpoint with
  | offers =>
    refine and_congr_left fun hmessage => wholeBody_iff ?_
    rcases hmessage with hmessage | hmessage
    · exact parsed_of_message hmessage
    · exact parsed_of_message hmessage
  | agree =>
    refine and_congr_left fun hagreement => wholeBody_iff ?_
    obtain ⟨-, msg, hmsg, -⟩ := hagreement
    intro hnone
    cases hmsg.symm.trans hnone
  | terminate =>
    exact and_congr_left fun hmessage => wholeBody_iff (parsed_of_message hmessage)
  | xferStart =>
    obtain ⟨p, -, ⟨⟨body, msg, hbody, hmsg, -⟩, body', hbody', hvalid⟩, -⟩ := h
    obtain rfl := Option.some.inj (hbody.symm.trans hbody')
    have halike := body_readsAlike hbody (by simp [hmsg])
    have hwhole : dspMsgValidateTransferRequest (some (bodyText req)) = .ok :=
      (validateTransfer_congr halike).symm.trans hvalid
    obtain ⟨v, v', -, hparse, -⟩ := halike
    refine (and_iff_left hwhole).trans (wholeBody_iff ?_)
    intro hnone
    cases hparse.symm.trans hnone

end Bodies

/-! ## Handlers -/

section Handlers

variable {d : Device negMax xferMax}

theorem offers_handled (hr : Reachable d) (req : HttpdReq) :
    (serve d .offers req).1.success = true ↔ Handled d req .offers := by
  have hn := hr.wellFormed.neg
  rcases offers_cases hn req with ⟨hwhy, hfail, -⟩ | ⟨p, m', hreq, hlt, heq, -⟩
  · simp only [serve, hfail]
    refine iff_of_false Bool.false_ne_true ?_
    rintro ⟨p, hp, hoffer, hfree⟩
    rcases hwhy with hnone | hfull
    · rw [(offersProcessId_iff hp).mpr hoffer] at hnone
      cases hnone
    · rw [countActive_eq hn] at hfree
      have hle := length_ledger_le d.neg
      omega
  · simp only [serve, heq]
    have hp := validPid_of (offersProcessId_length hreq)
    refine iff_of_true rfl ⟨p, hp, (offersProcessId_iff hp).mp hreq, ?_⟩
    rw [countActive_eq hn]
    omega

theorem agree_handled (hr : Reachable d) (req : HttpdReq) :
    (serve d .agree req).1.success = true ↔ Handled d req .agree :=
  agree_success_iff hr.wellFormed.neg (fun e he => (hr.served.neg e he).2) req

theorem find_ne_iff {m : NegModule negMax} (hw : Neg.WellFormed m) (p : CStr) :
    dspNegFindByCpid m (some p) ≠ -1 ↔ findNeg m p ≠ none := by
  rw [Ne, find_eq_neg_one_iff hw, stateOf, Option.map_eq_none_iff]

theorem terminate_handled (hr : Reachable d) (req : HttpdReq) :
    (serve d .terminate req).1.success = true ↔ Handled d req .terminate := by
  have hn := hr.wellFormed.neg
  rcases terminate_cases hn req with ⟨hwhy, hfail, -⟩ | ⟨p, i, e, m', hreq, -, -, -, hf, heq, -⟩
  · simp only [serve, hfail]
    refine iff_of_false Bool.false_ne_true ?_
    rintro ⟨p, hp, hcarries, hfind⟩
    exact (find_ne_iff hn p).mp hfind (hwhy p ((terminateProcessId_iff hp).mpr hcarries))
  · simp only [serve, heq]
    have hp := validPid_of (terminateProcessId_length hreq)
    refine iff_of_true rfl ⟨p, hp, (terminateProcessId_iff hp).mp hreq, ?_⟩
    rw [find_ne_iff hn, hf]
    simp

theorem xferStart_handled (hr : Reachable d) (req : HttpdReq) :
    (serve d .xferStart req).1.success = true ↔ Handled d req .xferStart := by
  have hn := hr.wellFormed.neg
  have hx := hr.wellFormed.xfer
  rcases Xfer.start_cases hn hx req with ⟨hwhy, hfail, -⟩ | ⟨p, m', hreq, hagreed, hlt, heq, -⟩
  · simp only [serve, hfail]
    refine iff_of_false Bool.false_ne_true ?_
    rintro ⟨p, hp, htransfer, hstate, hfree⟩
    have hfull := hwhy p ((startProcessId_iff hp).mpr htransfer)
      ((Xfer.agreed_iff_getState hn p).mpr hstate)
    rw [Xfer.countActive_eq hx] at hfree
    have hle := Xfer.length_ledger_le d.xfer
    omega
  · simp only [serve, heq]
    have hp := validPid_of (Xfer.startProcessId_length hreq)
    refine iff_of_true rfl ⟨p, hp, (startProcessId_iff hp).mp hreq, ?_, ?_⟩
    · exact (Xfer.agreed_iff_getState hn p).mp hagreed
    · rw [Xfer.countActive_eq hx]
      omega

/-- Agree succeeds on ids that have a slot only. -/
theorem names_of_agreed (hr : Reachable d) {req : HttpdReq} (h : Handled d req .agree) :
    NamesNegotiation d req := by
  have hn := hr.wellFormed.neg
  rcases agreeSlot_cases hn (fun e he => (hr.served.neg e he).2) req with ⟨-, hslot⟩ |
    ⟨p, i, e, hreq, -, -, -, hf⟩
  · simp [Handled, hslot, getState_absent, agrees] at h
  · have hp := validPid_of (pathNegId_length hreq)
    refine ⟨p, hp, (pathNegId_iff hp).mp hreq, ?_⟩
    rw [find_ne_iff hn, hf]
    simp

/-- A handler succeeds exactly on the requests that meet what it asks. -/
theorem handled_iff (hr : Reachable d) (endpoint : Post) (req : HttpdReq) :
    (serve d endpoint.endpoint req).1.success = true ↔ Handled d req endpoint := by
  cases endpoint with
  | offers => exact offers_handled hr req
  | agree => exact agree_handled hr req
  | terminate => exact terminate_handled hr req
  | xferStart => exact xferStart_handled hr req

end Handlers

/-! ## The discipline -/

theorem undisciplined {message : Prop} {d : Device negMax xferMax} {endpoint : Post}
    {req : HttpdReq} (hok : (serve d endpoint.endpoint req).1.success = true)
    (h : ¬ message) : ¬ Disciplined message d endpoint req := by
  rintro (hmessage | ⟨hfail, -⟩)
  · exact h hmessage
  · rw [hok] at hfail
    cases hfail

/-- An offer with a context and a type. -/
def typedOffer : HttpdReq :=
  request "/negotiations/offers" ("\x7b\"@context\":\"c\"," ++
    "\"@type\":\"dspace:ContractOfferMessage\"," ++
    "\"dspace:processId\":\"p\"\x7d").toByteArray.data.toList

/-- Its body as a JSON text. -/
def typedOfferText : Text where
  before := []
  value := .object
    (.cons [] (spelled "@context".toList) [] [] (.string (spelled "c".toList)) []
      (.cons [] (spelled "@type".toList) [] []
        (.string (spelled "dspace:ContractOfferMessage".toList)) []
        (.last [] (spelled "dspace:processId".toList) [] [] (.string (spelled "p".toList)) [])))
  after := []

/-- A termination without context and type. -/
def bareTermination : HttpdReq :=
  request "/negotiations/terminate" "\x7b\"dspace:processId\":\"p\"\x7d".toByteArray.data.toList

/-- A transfer request with one more letter behind it. -/
def trailingTransfer : HttpdReq :=
  { transferRequest with delivery := [transferRequest.delivery.flatten ++ [120]] }

end DspEmbedded.Audit.Discipline
