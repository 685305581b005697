import DspEmbedded.Audit.Requests

/-!
# The process that a path names

Two decoders share the process ids: a message brings one in as a JSON string of at
most 63 bytes, a path names one by the segment behind its prefix. The path side
cuts a longer segment instead of refusing it, so such a path can name the process
of a shorter id; and it stops at a slash, so an id with one can never be named.
-/
namespace DspEmbedded.Audit.Addressing

open Lib.CString Lib.SlotTable Model Model.Esp Model.PathId Model.Neg Model.RtcState Model.Board
  Audit.Requests
open Model.Xfer (dspXferGetProcessId completeSlot pathXferId)

variable {negMax xferMax : Nat}

/-! ## Requests that name a process by their path -/

inductive ByPath where
  | agree
  | negGet
  | xferComplete
  | xferGet
  deriving DecidableEq, Repr

def ByPath.endpoint : ByPath → Endpoint
  | .agree => .agree
  | .negGet => .negGet
  | .xferComplete => .xferComplete
  | .xferGet => .xferGet

def ByPath.pathPrefix : ByPath → CStr
  | .agree | .negGet => negPrefix
  | .xferComplete | .xferGet => xferPrefix

/-- The pid in the slot that the handler reads or changes. -/
def storedPid (d : Device negMax xferMax) (req : HttpdReq) : ByPath → Option CStr
  | .agree | .negGet => dspNegGetConsumerPid d.neg (agreeSlot d.neg req)
  | .xferComplete | .xferGet => dspXferGetProcessId d.xfer (completeSlot d.xfer req)

/-- A success is about the process whose pid is the whole segment. -/
def Identified (d : Device negMax xferMax) (w : ByPath) (req : HttpdReq) : Prop :=
  (serve d w.endpoint req).1.success = true →
    storedPid d req w = some (pathSegment w.pathPrefix req.uri)

/-- The tables hold no process `p` in a state that the handler accepts. -/
def Refused (d : Device negMax xferMax) (p : CStr) : ByPath → Prop
  | .agree => ∀ e, findNeg d.neg p = some e → ¬ agrees e.state
  | .negGet => findNeg d.neg p = none
  | .xferComplete => ∀ e, Xfer.findXfer d.xfer p = some e → e.state ≠ .transferring
  | .xferGet => Xfer.findXfer d.xfer p = none

/-- The id that the handler reads from the path, where it is not empty. -/
def pathId (uri : CStr) : ByPath → Option CStr
  | .agree | .negGet => pathNegId uri
  | .xferComplete | .xferGet => pathXferId uri

theorem pathId_eq (w : ByPath) (uri : CStr) :
    pathId uri w = if ((pathSegment w.pathPrefix uri).take 63).bytes = [] then none
      else some ((pathSegment w.pathPrefix uri).take 63) := by
  cases w <;>
    simp only [pathId, pathNegId, pathXferId, extractNegId, extractXferId, ByPath.pathPrefix,
      extractId_eq_take _ _ (show 0 < dspNegPidLen by decide),
      extractId_eq_take _ _ (show 0 < Xfer.dspXferPidLen by decide)] <;> rfl

section Slots

variable {d : Device negMax xferMax} {req : HttpdReq} {p : CStr}

theorem stored_neg (hw : Neg.WellFormed d.neg) (hreq : pathNegId req.uri = some p) {i : Nat}
    {e : NegEntry} (hfi : (Neg.ledger d.neg).findIdx? (fun e => decide (e.cpid = p)) = some i)
    (hget : (Neg.ledger d.neg)[i]? = some e) (hp : e.cpid = p) :
    dspNegGetConsumerPid d.neg (agreeSlot d.neg req) = some p := by
  simp only [pathNegId] at hreq
  split_ifs at hreq
  rw [agreeSlot, Option.some.inj hreq, find_of_findIdx? hw hfi, getConsumerPid_of_ledger hget, hp]

theorem stored_xfer (hw : Xfer.WellFormed d.xfer) (hreq : pathXferId req.uri = some p) {i : Nat}
    {e : Xfer.XferEntry}
    (hfi : (Xfer.ledger d.xfer).findIdx? (fun e => decide (e.pid = p)) = some i)
    (hget : (Xfer.ledger d.xfer)[i]? = some e) (hp : e.pid = p) :
    dspXferGetProcessId d.xfer (completeSlot d.xfer req) = some p := by
  simp only [pathXferId] at hreq
  split_ifs at hreq
  rw [completeSlot, Option.some.inj hreq, Xfer.find_of_findIdx? hw hfi,
    Xfer.getProcessId_of_ledger hget, hp]

end Slots

/-- A handler refuses the process of the path and fails, or it succeeds on the first
slot of that process. -/
theorem serve_cases {d : Device negMax xferMax} (hw : WellFormed d) (w : ByPath)
    (req : HttpdReq) :
    ((∀ p, pathId req.uri w = some p → Refused d p w) ∧
      (serve d w.endpoint req).1.success = false) ∨
    ∃ p, pathId req.uri w = some p ∧ ¬ Refused d p w ∧
      (serve d w.endpoint req).1.success = true ∧ storedPid d req w = some p := by
  cases w with
  | agree =>
    rcases agree_cases hw.neg req with ⟨hwhy, hfail, -⟩ |
      ⟨p, i, e, m', hreq, hfi, hget, hp, hf, hagrees, heq, -⟩
    · exact .inl ⟨fun p hreq e hf => hwhy p e hreq hf, hfail⟩
    · right
      refine ⟨p, hreq, fun hrefused => hrefused e hf hagrees, ?_, stored_neg hw.neg hreq hfi hget hp⟩
      simp only [ByPath.endpoint, serve, heq]
      rfl
  | negGet =>
    by_cases hnone : ∀ p, pathNegId req.uri = some p → findNeg d.neg p = none
    · exact .inl ⟨hnone, get_not_found hw.neg hnone⟩
    · right
      push Not at hnone
      obtain ⟨p, hreq, hne⟩ := hnone
      rcases find_cases hw.neg p with ⟨-, hf⟩ | ⟨i, e, -, hfi, hget, hp, hf⟩
      · exact absurd hf hne
      · refine ⟨p, hreq, hne, ?_, stored_neg hw.neg hreq hfi hget hp⟩
        simp only [ByPath.endpoint, serve, get_found hw.neg hreq hf]
        rfl
  | xferComplete =>
    rcases Xfer.complete_cases hw.xfer req with ⟨hwhy, hfail, -⟩ |
      ⟨p, i, e, m', hreq, hfi, hget, hp, hf, hst, heq, -⟩
    · exact .inl ⟨fun p hreq e hf => hwhy p e hreq hf, hfail⟩
    · right
      refine ⟨p, hreq, fun hrefused => hrefused e hf hst, ?_, stored_xfer hw.xfer hreq hfi hget hp⟩
      simp only [ByPath.endpoint, serve, heq]
      rfl
  | xferGet =>
    by_cases hnone : ∀ p, pathXferId req.uri = some p → Xfer.findXfer d.xfer p = none
    · exact .inl ⟨hnone, Xfer.get_not_found hw.xfer hnone⟩
    · right
      push Not at hnone
      obtain ⟨p, hreq, hne⟩ := hnone
      rcases Xfer.find_cases hw.xfer p with ⟨-, hf⟩ | ⟨i, e, -, hfi, hget, hp, hf⟩
      · exact absurd hf hne
      · refine ⟨p, hreq, hne, ?_, stored_xfer hw.xfer hreq hfi hget hp⟩
        simp only [ByPath.endpoint, serve, Xfer.get_found hw.xfer hreq hf]
        rfl

/-- No process is stored under the empty id. -/
theorem refused_empty {d : Device negMax xferMax} (hr : Reachable d) {p : CStr}
    (hp : p.bytes = []) (w : ByPath) : Refused d p w := by
  have hneg : findNeg d.neg p = none := by
    rw [findNeg, lookup_eq_none_iff]
    intro hmem
    obtain ⟨e, he, rfl⟩ := List.mem_map.mp hmem
    exact (hr.served.neg e he).2 hp
  have hxfer : Xfer.findXfer d.xfer p = none := by
    rw [Xfer.findXfer, lookup_eq_none_iff]
    intro hmem
    obtain ⟨e, he, rfl⟩ := List.mem_map.mp hmem
    exact (hr.served.xfer e he).2 hp
  cases w with
  | agree => exact fun e hf => absurd (hneg.symm.trans hf) (by simp)
  | negGet => exact hneg
  | xferComplete => exact fun e hf => absurd (hxfer.symm.trans hf) (by simp)
  | xferGet => exact hxfer

/-- **Identity of the addressed process.** A success is about the process that the
whole segment names exactly when the segment fits the buffer or its first 63 bytes
name no process that the handler accepts. -/
theorem identified_iff {d : Device negMax xferMax} (hr : Reachable d) (w : ByPath)
    (req : HttpdReq) :
    Identified d w req ↔ (pathSegment w.pathPrefix req.uri).length < 64 ∨
      Refused d ((pathSegment w.pathPrefix req.uri).take 63) w := by
  have hid := pathId_eq w req.uri
  rcases serve_cases hr.wellFormed w req with ⟨hrefused, hfail⟩ |
    ⟨p, hreq, haccepted, hok, hstored⟩
  · refine iff_of_true (fun hok => absurd (hok.symm.trans hfail) (by decide)) (.inr ?_)
    by_cases hempty : ((pathSegment w.pathPrefix req.uri).take 63).bytes = []
    · exact refused_empty hr hempty w
    · exact hrefused _ (hid.trans (if_neg hempty))
  · rw [hreq] at hid
    split_ifs at hid
    obtain rfl := Option.some.inj hid
    simp only [Identified, hstored, Option.some.injEq, hok, forall_true_left]
    constructor
    · intro heq
      left
      rw [← heq]
      exact Nat.lt_succ_of_le (CStr.length_take_le _ _)
    · intro hcase
      rcases hcase with hlt | hrefused
      · exact CStr.take_of_length_le (Nat.le_of_lt_succ hlt)
      · exact absurd hrefused haccepted

/-! ## A path one byte too long -/

def readRequest : HttpdReq := request "/negotiations/p" []

/-- The id of the path is the id that is read. -/
theorem identified_read : Identified offeredDevice .negGet readRequest :=
  (identified_iff offeredDevice_reachable .negGet readRequest).mpr (.inl (by decide +kernel))

/-- An offer for the longest id that fits. -/
def longOffer : HttpdReq :=
  request "/negotiations/offers" ("\x7b\"dspace:processId\":\"" ++
    String.ofList (List.replicate 63 'a') ++ "\"\x7d").toByteArray.data.toList

def longDevice : Device 4 2 := (serve (boot (RtcStore.zero 4 2) false) .offers longOffer).2

def longerAgree : HttpdReq :=
  request ("/negotiations/" ++ String.ofList (List.replicate 64 'a') ++ "/agree") []

/-- A path with one byte more agrees the negotiation of the shorter id. -/
theorem longer_agree_counterexample :
    Reachable longDevice ∧ ¬ Identified longDevice .agree longerAgree := by
  refine ⟨.request _ _ (.boot _ _), ?_⟩
  intro hident
  have hstored := hident (by decide +kernel)
  exact absurd hstored (by decide +kernel)

/-! ## Ids that a path can name -/

def agreePath (p : CStr) : CStr := resourcePath negPrefix p (CStr.lit "/agree")

def getPath (p : CStr) : CStr := resourcePath negPrefix p CStr.empty

/-- The pid of the slot that a request with this path reaches. -/
def reachedPid (m : NegModule negMax) (uri : CStr) : Option CStr :=
  dspNegGetConsumerPid m (dspNegFindByCpid m (some (extractNegId (some uri) dspNegPidLen)))

/-- The two paths of `p` are read as `p` and reach a slot of `p`. -/
structure Addressable (m : NegModule negMax) (p : CStr) : Prop where
  agreeId : extractNegId (some (agreePath p)) dspNegPidLen = p
  getId : extractNegId (some (getPath p)) dspNegPidLen = p
  agreeSlot : reachedPid m (agreePath p) = some p
  getSlot : reachedPid m (getPath p) = some p

/-- The pid in the slot that an answered offer has taken. -/
def offeredPid (d : Device negMax xferMax) (req : HttpdReq) : Option CStr :=
  dspNegGetConsumerPid (serve d .offers req).2.neg (dspNegCountActive d.neg)

/-- What an offer answered with 201 stores can be addressed. -/
def OfferAddressable (d : Device negMax xferMax) (req : HttpdReq) : Prop :=
  (serve d .offers req).1.status = .created →
    ∃ p, offeredPid d req = some p ∧ Addressable (serve d .offers req).2.neg p

theorem find_stored {m : NegModule negMax} (hw : Neg.WellFormed m) {p : CStr} {e : NegEntry}
    (hf : findNeg m p = some e) : dspNegGetConsumerPid m (dspNegFindByCpid m (some p)) = some p := by
  rcases find_cases hw p with ⟨-, hf'⟩ | ⟨i, e', hidx, -, hget, hp, -⟩
  · rw [hf'] at hf
    cases hf
  · rw [hidx, getConsumerPid_of_ledger hget, hp]

/-- A stored id that fits can be addressed exactly when it has no slash in it. -/
theorem addressable_iff {m : NegModule negMax} (hw : Neg.WellFormed m) {p : CStr}
    {e : NegEntry} (hlen : p.length < dspNegPidLen) (hf : findNeg m p = some e) :
    Addressable m p ↔ slash ∉ p.bytes := by
  constructor
  · intro haddr
    rw [← haddr.getId]
    exact slash_not_mem_extractId _ _ (by decide)
  · intro hslash
    have hagree : extractNegId (some (agreePath p)) dspNegPidLen = p :=
      extractId_resourcePath hlen hslash (.inr ⟨(CStr.lit "agree").bytes, by decide +kernel⟩)
    have hget : extractNegId (some (getPath p)) dspNegPidLen = p :=
      extractId_resourcePath hlen hslash (.inl rfl)
    have hstored := find_stored hw hf
    exact ⟨hagree, hget, by rw [reachedPid, hagree, hstored], by rw [reachedPid, hget, hstored]⟩

/-- **Accepted negotiations and paths.** What an offer leaves can be addressed exactly
when it is refused for want of a slot, or its process id has no slash in it. -/
theorem offerAddressable_iff {d : Device negMax xferMax} (hr : Reachable d) (req : HttpdReq) :
    OfferAddressable d req ↔ ∀ p, ValidPid p → RequestsOffer req p →
      dspNegCountActive d.neg = negMax ∨ slash ∉ p.bytes := by
  have hw := hr.wellFormed.neg
  rcases offers_cases hw req with ⟨hwhy, hfail, -⟩ | ⟨p, m', hreq, hlt, heq, hw', -, hl⟩
  · refine iff_of_true ?_ ?_
    · intro hcreated
      have hok : (serve d .offers req).1.success = true := by
        rw [Response.success, hcreated]
      exact absurd (hok.symm.trans hfail) (by decide)
    · intro p hp hoffer
      left
      rcases hwhy with hnone | hfull
      · rw [(offersProcessId_iff hp).mpr hoffer] at hnone
        cases hnone
      · have hle := length_ledger_le d.neg
        rw [countActive_eq hw]
        omega
  · have hlen := (offersProcessId_length hreq).2
    have hpid := offeredEntry_cpid hlen
    have hlast : (ledger m')[(ledger d.neg).length]? = some (offeredEntry p) := by
      rw [hl, List.getElem?_concat_length]
    have hf : findNeg m' p = some ((findNeg d.neg p).getD (offeredEntry p)) := by
      have hself := lookup_append_self NegEntry.cpid (ledger d.neg) (offeredEntry p)
      rw [hpid] at hself
      rw [findNeg, hl, hself]
      rfl
    have hstored : offeredPid d req = some p := by
      simp only [offeredPid, serve, heq]
      rw [countActive_eq hw, getConsumerPid_of_ledger hlast, hpid]
    have haddr : OfferAddressable d req ↔ Addressable m' p := by
      simp only [OfferAddressable, hstored, Option.some.injEq, exists_eq_left']
      simp only [serve, heq]
      exact imp_iff_right rfl
    rw [haddr, addressable_iff hw' hlen hf]
    constructor
    · intro hslash q hq hoffer
      obtain rfl := Option.some.inj (hreq.symm.trans ((offersProcessId_iff hq).mpr hoffer))
      exact .inr hslash
    · intro hall
      have hp := validPid_of (offersProcessId_length hreq)
      refine (hall p hp ((offersProcessId_iff hp).mp hreq)).resolve_left ?_
      rw [countActive_eq hw]
      omega

theorem noSlash_of_offer {p : CStr} (hp : ValidPid p) (hoffer : RequestsOffer offerRequest p) :
    slash ∉ p.bytes := by
  have hreq : offersProcessId offerRequest = some (CStr.lit "p") := by decide +kernel
  obtain rfl := Option.some.inj (hreq.symm.trans ((offersProcessId_iff hp).mpr hoffer))
  decide +kernel

/-- The offered process can be addressed. -/
theorem offerAddressable_p : OfferAddressable (boot (RtcStore.zero 4 2) false) offerRequest :=
  (offerAddressable_iff (.boot (RtcStore.zero 4 2) false) offerRequest).mpr
    fun _ hp hoffer => .inr (noSlash_of_offer hp hoffer)

def slashOffer : HttpdReq :=
  request "/negotiations/offers" "\x7b\"dspace:processId\":\"a/b\"\x7d".toByteArray.data.toList

/-- An offer for `a/b` is answered with 201 and takes a slot that no path names. -/
theorem slash_offer_counterexample :
    Reachable (boot (RtcStore.zero 4 2) false) ∧
      ¬ OfferAddressable (boot (RtcStore.zero 4 2) false) slashOffer := by
  refine ⟨.boot _ _, ?_⟩
  intro h
  obtain ⟨p, hp, haddr⟩ := h (by decide +kernel)
  have hab : offeredPid (boot (RtcStore.zero 4 2) false) slashOffer = some (CStr.lit "a/b") := by
    decide +kernel
  obtain rfl := Option.some.inj (hp.symm.trans hab)
  exact absurd haddr.getId (by decide +kernel)

end DspEmbedded.Audit.Addressing
