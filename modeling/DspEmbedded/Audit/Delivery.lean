import Mathlib.Data.List.Infix
import DspEmbedded.CJson.Extend
import DspEmbedded.Model.Board
import DspEmbedded.Model.Catalog

/-!
# How a body arrives

Every POST handler calls `httpd_req_recv` once and takes what that call returns for
the whole body. How the peer's segments cut the body therefore shows in the answer,
unless the first piece already holds a complete JSON value: what the parser finds
there it also finds in the whole.
-/
namespace DspEmbedded.Audit.Delivery

open Lib.CString CJson Model Model.Esp Model.Json Model.Msg Model.Neg Model.RtcState Model.Board
open Model.Catalog (catalogRequestPostHandler catalogJsonBufSize)
open Model.Xfer (xferStartPostHandler xferBufSize)

variable {negMax xferMax : Nat}

/-! ## Endpoints and deliveries -/

/-- The endpoints that read a body. -/
inductive Post where
  | catalogRequest
  | offers
  | terminate
  | xferStart
  deriving DecidableEq, Repr

/-- The size of the array that the body is received into. -/
def Post.bufSize : Post → Nat
  | .catalogRequest => catalogJsonBufSize
  | .offers | .terminate => negBufSize
  | .xferStart => xferBufSize

def post (d : Device negMax xferMax) (w : Post) (req : HttpdReq) :
    Response × Device negMax xferMax :=
  match w with
  | .catalogRequest => (catalogRequestPostHandler req, d)
  | .offers => serve d .offers req
  | .terminate => serve d .terminate req
  | .xferStart => serve d .xferStart req

/-- The pieces that successive receive calls return; none of them is empty. -/
structure Chunks where
  chunks : List (List UInt8)
  nonempty : ∀ c ∈ chunks, c ≠ []

def Chunks.body (c : Chunks) : List UInt8 := c.chunks.flatten

/-- The body in pieces, and the same body in one. -/
def split (uri : CStr) (c : Chunks) : HttpdReq := ⟨uri, c.chunks⟩

def whole (uri : CStr) (c : Chunks) : HttpdReq := ⟨uri, [c.body]⟩

/-- Answer and tables are the same for both. -/
def DeliveryIndependent (d : Device negMax xferMax) (w : Post) (uri : CStr) (c : Chunks) : Prop :=
  post d w (split uri c) = post d w (whole uri c)

/-- The text that a handler reads of a body. -/
def received (w : Post) (body : List UInt8) : CStr := CStr.ofBytes (body.take (w.bufSize - 1))

def firstText (w : Post) (c : Chunks) : CStr := received w (c.chunks.headD [])

def wholeText (w : Post) (c : Chunks) : CStr := received w c.body

/-- The first check of the endpoint lets the text pass. -/
def Accepts (w : Post) (text : CStr) : Prop :=
  match w with
  | .catalogRequest => dspMsgValidateCatalogRequest (some text) = .ok
  | .offers | .terminate => dspJsonParse (some text) ≠ none
  | .xferStart => dspMsgValidateTransferRequest (some text) = .ok

/-! ## What the first piece has of the body -/

theorem ofBytes_prefix {a b : List UInt8} (h : a <+: b) :
    (CStr.ofBytes a).bytes <+: (CStr.ofBytes b).bytes := by
  obtain ⟨t, rfl⟩ := h
  show a.takeWhile (· != 0) <+: (a ++ t).takeWhile (· != 0)
  rw [List.takeWhile_append]
  split_ifs with hlen
  · rw [(List.takeWhile_prefix _).eq_of_length hlen]
    exact List.prefix_append _ _
  · exact List.prefix_rfl

/-- What a handler receives is the beginning of the first piece. -/
theorem recvBody_isPrefix {req : HttpdReq} {cap : Nat} {body : CStr}
    (h : recvBody req cap = some body) :
    ∃ chunk ∈ req.delivery.head?, body.bytes <+: (CStr.ofBytes chunk).bytes := by
  simp only [recvBody, httpdReqRecv] at h
  cases hd : req.delivery with
  | nil => simp [hd] at h
  | cons chunk rest =>
    simp only [hd] at h
    split_ifs at h
    obtain rfl := Option.some.inj h
    exact ⟨chunk, rfl, ofBytes_prefix (List.take_prefix _ _)⟩

theorem firstText_isPrefix (w : Post) (c : Chunks) :
    (firstText w c).bytes <+: (wholeText w c).bytes := by
  apply ofBytes_prefix
  rw [Chunks.body]
  cases c.chunks with
  | nil => exact List.prefix_rfl
  | cons chunk rest => exact List.IsPrefix.take (List.prefix_append chunk rest.flatten) _

theorem recvBody_some {req : HttpdReq} {chunk : List UInt8} {rest : List (List UInt8)}
    (h : req.delivery = chunk :: rest) (hne : chunk ≠ []) (w : Post) :
    recvBody req w.bufSize = some (received w chunk) := by
  have hpos := List.length_pos_iff.mpr hne
  have hcap : 0 < w.bufSize - 1 := by cases w <;> decide
  have hlen : ¬ (chunk.take (w.bufSize - 1)).length = 0 := by
    rw [List.length_take]
    omega
  simp only [recvBody, httpdReqRecv, h, if_neg hlen, received]

/-- There is no body, or one text is received of each of the two deliveries. -/
theorem recv_cases (w : Post) (uri : CStr) (c : Chunks) :
    (c.chunks = [] ∧ recvBody (split uri c) w.bufSize = none ∧
      recvBody (whole uri c) w.bufSize = none) ∨
    (recvBody (split uri c) w.bufSize = some (firstText w c) ∧
      recvBody (whole uri c) w.bufSize = some (wholeText w c)) := by
  obtain ⟨chunks, hne⟩ := c
  cases chunks with
  | nil => exact .inl ⟨rfl, rfl, by simp [recvBody, httpdReqRecv, whole, Chunks.body]⟩
  | cons chunk rest =>
    right
    have hchunk := hne chunk List.mem_cons_self
    have hbody : Chunks.body ⟨chunk :: rest, hne⟩ ≠ [] := by
      simp [Chunks.body, hchunk]
    exact ⟨recvBody_some rfl hchunk w, recvBody_some rfl hbody w⟩

/-! ## Texts that read alike -/

/-- Two values with the same members. -/
def SameMembers (v v' : Json) : Prop :=
  ∀ key, getObjectItemCaseSensitive v key = getObjectItemCaseSensitive v' key

def ReadsAlike (a b : CStr) : Prop :=
  ∃ v v', dspJsonParse (some a) = some v ∧ dspJsonParse (some b) = some v' ∧ SameMembers v v'

/-- A text that parses reads like every continuation of it. -/
theorem readsAlike_of_prefix {a b : CStr} (hpre : a.bytes <+: b.bytes)
    (h : dspJsonParse (some a) ≠ none) : ReadsAlike a b := by
  obtain ⟨v, hv⟩ := Option.ne_none_iff_exists'.mp h
  rcases cJSONParse_prefix hpre hv with hsame | ⟨l, l', rfl, hnumber⟩
  · exact ⟨v, v, hv, hsame, fun _ => rfl⟩
  · exact ⟨_, _, hv, hnumber, fun _ => rfl⟩

section ReadsAlike

variable {a b : CStr} {v v' : Json}

theorem getString_congr (h : SameMembers v v') (key : CStr) (cap : Nat) :
    dspJsonGetString (some v) (some key) cap = dspJsonGetString (some v') (some key) cap := by
  simp only [dspJsonGetString, h key]

theorem hasStringField_congr (h : SameMembers v v') (key : CStr) :
    hasStringField v key = hasStringField v' key := by
  simp only [hasStringField, h key]

/-- The common check has one outcome for both texts. -/
theorem checkCommon_congr (ha : dspJsonParse (some a) = some v)
    (hb : dspJsonParse (some b) = some v') (h : SameMembers v v') (type : CStr) :
    (∃ rc, checkCommon (some a) type = .error rc ∧ checkCommon (some b) type = .error rc) ∨
    (checkCommon (some a) type = .ok v ∧ checkCommon (some b) type = .ok v') := by
  have hcontext : dspJsonGetContext (some v) 8 = dspJsonGetContext (some v') 8 :=
    getString_congr h Jsonld.fieldContext 8
  simp only [checkCommon, ha, hb, hcontext, h Jsonld.fieldContext, h Jsonld.fieldType]
  cases stringItem (getObjectItemCaseSensitive v' Jsonld.fieldContext) with
  | none =>
    simp only
    split_ifs <;> exact .inl ⟨_, rfl, rfl⟩
  | some s =>
    simp only [Option.isNone_some, Bool.and_false, Bool.false_eq_true, if_false]
    split_ifs
    · exact .inl ⟨_, rfl, rfl⟩
    · exact .inl ⟨_, rfl, rfl⟩
    · exact .inr ⟨rfl, rfl⟩

theorem validateCatalog_congr (h : ReadsAlike a b) :
    dspMsgValidateCatalogRequest (some a) = dspMsgValidateCatalogRequest (some b) := by
  obtain ⟨v, v', ha, hb, hsame⟩ := h
  rcases checkCommon_congr ha hb hsame Jsonld.typeCatalogRequest with ⟨rc, hca, hcb⟩ | ⟨hca, hcb⟩
  · simp only [dspMsgValidateCatalogRequest, hca, hcb]
  · simp only [dspMsgValidateCatalogRequest, hca, hcb]

theorem validateTransfer_congr (h : ReadsAlike a b) :
    dspMsgValidateTransferRequest (some a) = dspMsgValidateTransferRequest (some b) := by
  obtain ⟨v, v', ha, hb, hsame⟩ := h
  rcases checkCommon_congr ha hb hsame Jsonld.typeTransferRequest with ⟨rc, hca, hcb⟩ | ⟨hca, hcb⟩
  · simp only [dspMsgValidateTransferRequest, hca, hcb]
  · simp only [dspMsgValidateTransferRequest, hca, hcb, hasStringField_congr hsame]

end ReadsAlike

/-! ## What a handler makes of a received text -/

/-- A handler sees of a request what it receives. -/
theorem post_congr (d : Device negMax xferMax) (w : Post) {req req' : HttpdReq}
    (h : recvBody req w.bufSize = recvBody req' w.bufSize) : post d w req = post d w req' := by
  cases w with
  | catalogRequest =>
    simp only [Post.bufSize] at h
    simp only [post, catalogRequestPostHandler, h]
  | offers =>
    simp only [Post.bufSize] at h
    simp only [post, serve, offersPostHandler, h]
  | terminate =>
    simp only [Post.bufSize] at h
    simp only [post, serve, terminatePostHandler, h]
  | xferStart =>
    simp only [Post.bufSize] at h
    simp only [post, serve, xferStartPostHandler, h]

/-- Texts that read alike get the same answer and leave the same tables. -/
theorem post_readsAlike (d : Device negMax xferMax) (w : Post) {req req' : HttpdReq} {a b : CStr}
    (hreq : recvBody req w.bufSize = some a) (hreq' : recvBody req' w.bufSize = some b)
    (h : ReadsAlike a b) : post d w req = post d w req' := by
  have hcatalog := validateCatalog_congr h
  have htransfer := validateTransfer_congr h
  obtain ⟨v, v', ha, hb, hsame⟩ := h
  have hpid (cap : Nat) := getString_congr hsame Jsonld.fieldProcessId cap
  cases w with
  | catalogRequest =>
    simp only [Post.bufSize] at hreq hreq'
    simp only [post, catalogRequestPostHandler, hreq, hreq', hcatalog]
  | offers =>
    simp only [Post.bufSize] at hreq hreq'
    simp only [post, serve, offersPostHandler, hreq, hreq', hcatalog, ha, hb, hpid]
  | terminate =>
    simp only [Post.bufSize] at hreq hreq'
    simp only [post, serve, terminatePostHandler, hreq, hreq', ha, hb, hpid]
  | xferStart =>
    simp only [Post.bufSize] at hreq hreq'
    simp only [post, serve, xferStartPostHandler, hreq, hreq', htransfer, ha, hb, hpid]

/-- The message for a text that the first check refuses. -/
def Post.refusal : Post → String
  | .catalogRequest => "invalid CatalogRequestMessage"
  | .offers | .terminate => "invalid JSON"
  | .xferStart => "invalid TransferRequestMessage"

/-- What does not parse passes no first check. -/
theorem not_accepts_of_unparsed {text : CStr} (h : dspJsonParse (some text) = none) (w : Post) :
    ¬ Accepts w text := by
  cases w with
  | catalogRequest => simp [Accepts, dspMsgValidateCatalogRequest, checkCommon_unparsed h]
  | offers => simp [Accepts, h]
  | terminate => simp [Accepts, h]
  | xferStart => simp [Accepts, dspMsgValidateTransferRequest, checkCommon_unparsed h]

/-- A text that is not let pass is refused with one message and changes nothing. -/
theorem post_refused (d : Device negMax xferMax) (w : Post) {req : HttpdReq} {text : CStr}
    (hreq : recvBody req w.bufSize = some text) (h : ¬ Accepts w text) :
    post d w req = (httpdRespSendErr .badRequest w.refusal, d) := by
  cases w with
  | catalogRequest =>
    simp only [Post.bufSize] at hreq
    have hval : dspMsgValidateCatalogRequest (some text) ≠ .ok := h
    simp only [post, catalogRequestPostHandler, hreq, if_pos hval]
    rfl
  | offers =>
    simp only [Post.bufSize] at hreq
    have hparse : dspJsonParse (some text) = none := not_not.mp h
    have hcatalog : dspMsgValidateCatalogRequest (some text) ≠ .ok :=
      not_accepts_of_unparsed hparse .catalogRequest
    simp only [post, serve, offersPostHandler, hreq, hparse, if_neg hcatalog]
    rfl
  | terminate =>
    simp only [Post.bufSize] at hreq
    have hparse : dspJsonParse (some text) = none := not_not.mp h
    simp only [post, serve, terminatePostHandler, hreq, hparse]
    rfl
  | xferStart =>
    simp only [Post.bufSize] at hreq
    have hval : dspMsgValidateTransferRequest (some text) ≠ .ok := h
    simp only [post, serve, xferStartPostHandler, hreq, if_pos hval]
    rfl

theorem sendErr_ne {s s' : HttpStatus} {message message' : String}
    (h : CStr.lit message ≠ CStr.lit message') :
    httpdRespSendErr s message ≠ httpdRespSendErr s' message' :=
  fun he => h (congrArg Response.body he)

theorem sendstr_ne_sendErr (s s' : HttpStatus) (resp : CStr) (message : String) :
    httpdRespSendstr s resp ≠ httpdRespSendErr s' message := by
  intro he
  cases congrArg Response.ret he

/-- A text that is let pass is never answered with that message. -/
theorem post_accepted (d : Device negMax xferMax) (w : Post) {req : HttpdReq} {text : CStr}
    (hreq : recvBody req w.bufSize = some text) (h : Accepts w text) :
    (post d w req).1 ≠ httpdRespSendErr .badRequest w.refusal := by
  cases w with
  | catalogRequest =>
    simp only [Post.bufSize] at hreq
    have hval : dspMsgValidateCatalogRequest (some text) = .ok := h
    simp only [post, Catalog.catalogRequest_accepts hreq hval]
    obtain ⟨out, hget, -⟩ := Catalog.catalogGet_ok
    rw [hget]
    exact sendstr_ne_sendErr _ _ _ _
  | offers =>
    simp only [Post.bufSize] at hreq
    obtain ⟨msg, hmsg⟩ := Option.ne_none_iff_exists'.mp h
    simp only [post, serve, offersPostHandler, hreq, hmsg]
    split_ifs
    · exact sendErr_ne (by decide)
    · exact sendErr_ne (by decide)
    · exact sendErr_ne (by decide)
    · exact sendstr_ne_sendErr _ _ _ _
  | terminate =>
    simp only [Post.bufSize] at hreq
    obtain ⟨msg, hmsg⟩ := Option.ne_none_iff_exists'.mp h
    simp only [post, serve, terminatePostHandler, hreq, hmsg]
    split_ifs
    · exact sendErr_ne (by decide)
    · exact sendErr_ne (by decide)
    · exact sendstr_ne_sendErr _ _ _ _
  | xferStart =>
    simp only [Post.bufSize] at hreq
    have hval : ¬ dspMsgValidateTransferRequest (some text) ≠ .ok := not_not.mpr h
    simp only [post, serve, xferStartPostHandler, hreq, if_neg hval]
    cases dspJsonParse (some text) with
    | none => exact sendErr_ne (by decide)
    | some msg =>
      simp only
      split_ifs
      · exact sendErr_ne (by decide)
      · exact sendErr_ne (by decide)
      · exact sendErr_ne (by decide)
      · exact sendstr_ne_sendErr _ _ _ _

/-! ## Which bodies may be cut where -/

/-- **Delivery.** However the body is cut, answer and tables are those of the whole
body exactly when the first piece parses or the whole body is refused anyway. -/
theorem deliveryIndependent_iff (d : Device negMax xferMax) (w : Post) (uri : CStr)
    (c : Chunks) :
    DeliveryIndependent d w uri c ↔
      dspJsonParse (some (firstText w c)) ≠ none ∨ ¬ Accepts w (wholeText w c) := by
  rcases recv_cases w uri c with ⟨hnil, hsplit, hwhole⟩ | ⟨hsplit, hwhole⟩
  · have hempty : dspJsonParse (some (wholeText w c)) = none := by
      have hbody : c.body = [] := by rw [Chunks.body, hnil]; rfl
      rw [wholeText, hbody]
      cases w <;> decide +kernel
    exact iff_of_true (post_congr d w (hsplit.trans hwhole.symm))
      (.inr (not_accepts_of_unparsed hempty w))
  · by_cases hfirst : dspJsonParse (some (firstText w c)) = none
    · have hrefused := post_refused d w hsplit (not_accepts_of_unparsed hfirst w)
      simp only [hfirst, ne_eq, not_true_eq_false, false_or, DeliveryIndependent]
      constructor
      · intro hsame haccepts
        have hne := post_accepted d w hwhole haccepts
        rw [← hsame, hrefused] at hne
        exact hne rfl
      · intro hrefuse
        rw [hrefused, post_refused d w hwhole hrefuse]
    · have halike := readsAlike_of_prefix (firstText_isPrefix w c) hfirst
      exact iff_of_true (post_readsAlike d w hsplit hwhole halike) (.inl hfirst)

/-- An offer whose first 16 bytes come in a segment of their own. -/
def splitOffer : Chunks where
  chunks := ["\x7b\"dspace:process".toByteArray.data.toList,
    "Id\":\"p\"\x7d".toByteArray.data.toList]
  nonempty := by decide

/-- The offer is refused; delivered in one piece it opens a negotiation. -/
theorem split_offer_counterexample :
    Reachable (boot (RtcStore.zero 4 2) false) ∧ ¬ DeliveryIndependent
      (boot (RtcStore.zero 4 2) false) .offers (CStr.lit "/negotiations/offers") splitOffer := by
  refine ⟨.boot _ _, ?_⟩
  intro hsame
  have hstatus := congrArg (fun r => r.1.status) hsame
  exact absurd hstatus (by decide +kernel)

end DspEmbedded.Audit.Delivery
