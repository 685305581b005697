import DspEmbedded.Audit.Requests

/-!
# Observing and completing the transfer that was started

A start takes the first free slot; GET and complete look at the first slot of the
id. They mean the same slot exactly when no earlier transfer had the id, and an
earlier one stays in its slot for ever, also when it is completed.
-/
namespace DspEmbedded.Audit.Observe

open Lib.CString Lib.SlotTable CJson Model Model.Esp Model.Json Model.Build Model.PathId Model.Xfer
  Model.RtcState Model.Board Audit.Requests
open Model.Neg (dspNegFindByCpid dspNegGetState)

variable {negMax xferMax : Nat}

/-- GET `/transfers/p`. -/
def getRequest (p : CStr) : HttpdReq := ⟨resourcePath xferPrefix p CStr.empty, []⟩

/-- POST `/transfers/p/complete`. -/
def completionRequest (p : CStr) : HttpdReq :=
  ⟨resourcePath xferPrefix p (CStr.lit "/complete"), []⟩

/-- A success whose message is a `TransferStartMessage` for `p`. -/
def ReportsStart (resp : Response) (p : CStr) : Prop :=
  resp.success = true ∧ field resp Jsonld.fieldType = some Jsonld.typeTransferStart ∧
    field resp Jsonld.fieldProcessId = some p

/-- The slot that a start for `p` creates. -/
def createdSlot (d : Device negMax xferMax) (p : CStr) : Int := (dspXferCreate d.xfer (some p)).1

/-- A start that succeeds can be observed and completed. -/
def Observable (d : Device negMax xferMax) (req : HttpdReq) (p : CStr) : Prop :=
  (serve d .xferStart req).1.success = true →
    ReportsStart (serve (serve d .xferStart req).2 .xferGet (getRequest p)).1 p ∧
    (serve (serve d .xferStart req).2 .xferComplete (completionRequest p)).1.success = true ∧
    dspXferGetState (serve (serve d .xferStart req).2 .xferComplete (completionRequest p)).2.xfer
      (createdSlot d p) = .completed

theorem pathXferId_resource {p suffix : CStr} (hp : ValidPid p) (hs : slash ∉ p.bytes)
    (hsuffix : suffix.bytes = [] ∨ ∃ t, suffix.bytes = slash :: t) :
    pathXferId (resourcePath xferPrefix p suffix) = some p := by
  have hid : extractXferId (some (resourcePath xferPrefix p suffix)) dspXferPidLen = p :=
    extractId_resourcePath hp.lt hs hsuffix
  simp only [pathXferId, hid, hp.bytes_ne_nil, if_false]

theorem reportsStart_startText {p : CStr} (hp : ValidPid p) :
    ReportsStart (httpdRespSendstr .ok (startText p)) p := by
  obtain ⟨text, hbuild, hparse⟩ := transferStart_fits hp.lt
  have htext : startText p = text := by
    have hbuf : xferBufSize = 1024 := rfl
    rw [startText, hbuf, hbuild]
    rfl
  rw [ReportsStart, htext, field, field, body_sendstr, hparse]
  exact ⟨rfl, rfl, rfl⟩

/-- The first record of `p` after a start for `p`: the new one only if there was
none before. -/
theorem findXfer_start {m m' : XferModule xferMax} {p : CStr} (hp : ValidPid p)
    (hl : Xfer.ledger m' = Xfer.ledger m ++ [startedEntry p]) :
    findXfer m' p = some ((findXfer m p).getD (startedEntry p)) := by
  have hself := lookup_append_self XferEntry.pid (Xfer.ledger m) (startedEntry p)
  rw [startedEntry_pid hp.lt] at hself
  rw [findXfer, hl, hself]
  rfl

/-- What complete does after a start that found room. -/
theorem complete_started_iff {m m' : XferModule xferMax} {p : CStr} (hp : ValidPid p)
    (hs : slash ∉ p.bytes) (hw : Xfer.WellFormed m) (hw' : Xfer.WellFormed m')
    (hl : Xfer.ledger m' = Xfer.ledger m ++ [startedEntry p]) :
    ((xferCompletePostHandler m' (completionRequest p)).1.success = true ∧
      dspXferGetState (xferCompletePostHandler m' (completionRequest p)).2
        (Xfer.ledger m).length = .completed) ↔ findXfer m p = none := by
  have hpath : pathXferId (completionRequest p).uri = some p :=
    pathXferId_resource hp hs (.inr ⟨_, rfl⟩)
  have hnew : (Xfer.ledger m')[(Xfer.ledger m).length]? = some (startedEntry p) := by
    rw [hl, List.getElem?_concat_length]
  have hfirst := findXfer_start hp hl
  rcases complete_cases hw' (completionRequest p) with ⟨hrefused, hfail, -⟩ |
    ⟨q, i, e, m'', hreq, hfi, hget, hpid, hf, hstate, heq, -, -, -, -, hl''⟩
  · have hnot := hrefused p _ hpath hfirst
    rw [hfail]
    refine iff_of_false (fun h => by cases h.1) ?_
    intro hnone
    rw [hnone] at hnot
    exact hnot rfl
  · obtain rfl := Option.some.inj (hreq.symm.trans hpath)
    have hi : i < (Xfer.ledger m').length := (List.getElem?_eq_some_iff.mp hget).1
    have hok : (httpdRespSendstr .ok (completionText q)).success = true := rfl
    rw [heq, and_iff_right hok]
    rcases find_cases hw q with ⟨-, hold⟩ | ⟨j, old, -, hfj, hgetj, -, hold⟩
    · rw [hold]
      -- no older record has the id, so the one that was found is the last one
      have hlast : i = (Xfer.ledger m).length := by
        rcases Nat.lt_or_ge i (Xfer.ledger m).length with hlt | hge
        · rw [hl, List.getElem?_append_left hlt] at hget
          have hmem := (lookup_eq_none_iff XferEntry.pid).mp hold
          exact absurd (List.mem_map.mpr ⟨e, List.mem_of_getElem? hget, hpid⟩) hmem
        · rw [hl, List.length_append, List.length_singleton] at hi
          omega
      refine iff_of_true ?_ rfl
      have hget'' : (Xfer.ledger m'')[(Xfer.ledger m).length]? =
          some { e with state := .completed } := by
        rw [hl'', hlast, List.getElem?_set_self (hlast ▸ hi)]
      exact Xfer.getState_of_ledger hget''
    · -- the search stops at the older record and leaves the new one alone
      have hj : j < (Xfer.ledger m).length := (List.getElem?_eq_some_iff.mp hgetj).1
      rw [hl, List.findIdx?_append, hfj] at hfi
      obtain rfl : j = i := Option.some.inj hfi
      have hne : j ≠ (Xfer.ledger m).length := Nat.ne_of_lt hj
      rw [hold]
      refine iff_of_false ?_ (by simp)
      have hget'' : (Xfer.ledger m'')[(Xfer.ledger m).length]? = some (startedEntry q) := by
        rw [hl'', List.getElem?_set_ne hne, hnew]
      rw [Xfer.getState_of_ledger hget'']
      intro h
      cases h

/-- **Observing a start.** A start for `p` can be observed and completed exactly
when it is refused or no earlier transfer has the id. -/
theorem observable_iff {d : Device negMax xferMax} (hr : Reachable d) {req : HttpdReq} {p : CStr}
    (hp : ValidPid p) (hs : slash ∉ p.bytes) (hreq : RequestsTransfer req p) :
    Observable d req p ↔
      dspNegGetState d.neg (dspNegFindByCpid d.neg (some p)) ≠ .agreed ∨
        dspXferCountActive d.xfer = xferMax ∨ dspXferFindByPid d.xfer (some p) = -1 := by
  have hn := hr.wellFormed.neg
  have hx := hr.wellFormed.xfer
  have hle := Xfer.length_ledger_le d.xfer
  have hid := (startProcessId_iff hp).mpr hreq
  rw [Xfer.find_eq_neg_one_iff hx, countActive_eq hx, ne_eq, ← agreed_iff_getState hn]
  rcases start_cases hn hx req with ⟨hwhy, hfail, -⟩ |
    ⟨q, m', hreq', ha, hlt, heq, hw', -, -, -, hl⟩
  · refine iff_of_true ?_ ?_
    · intro hok
      rw [show (serve d .xferStart req).1.success = false from hfail] at hok
      cases hok
    · by_cases ha : agreed d.neg p
      · have hfull := hwhy p hid ha
        exact .inr (.inl (by omega))
      · exact .inl ha
  · obtain rfl := Option.some.inj (hreq'.symm.trans hid)
    have hslot : createdSlot d q = ((Xfer.ledger d.xfer).length : Int) := by
      rcases create_cases hx q with ⟨hfull, -⟩ | ⟨m₁, -, hc, -⟩
      · omega
      · rw [createdSlot, hc]
    have hserve : serve d .xferStart req =
        (httpdRespSendstr .ok (startText q), { d with xfer := m' }) := by
      simp only [serve, heq]
    have hok : (httpdRespSendstr .ok (startText q)).success = true := rfl
    rw [Observable, hserve, hslot, imp_iff_right hok, serve_xferComplete, serve_xferGet]
    have hcomplete := complete_started_iff hp hs hx hw' hl
    constructor
    · intro hboth
      obtain ⟨-, hdone⟩ := hboth
      exact .inr (.inr (hcomplete.mp hdone))
    · rintro (hna | hfull | hnone)
      · exact absurd ha hna
      · omega
      · refine ⟨?_, hcomplete.mpr hnone⟩
        have hfirst := findXfer_start hp hl
        rw [hnone] at hfirst
        have hpath : pathXferId (getRequest q).uri = some q :=
          pathXferId_resource hp hs (.inl rfl)
        rw [get_found hw' hpath hfirst]
        exact reportsStart_startText hp

/-- The first transfer of `p` can be observed and completed. -/
theorem observable_agreed : Observable agreedDevice transferRequest (CStr.lit "p") :=
  (observable_iff agreedDevice_reachable ⟨by decide, by decide⟩ (by decide)
    transferRequest_requests).mpr (.inr (.inr (by decide +kernel)))

/-- `p` started and completed. -/
def completedDevice : Device 4 2 := (serve startedDevice .xferComplete completeRequest).2

/-- Of a second transfer of `p`, GET tells that it is completed. -/
theorem start_again_counterexample :
    Reachable completedDevice ∧ RequestsTransfer transferRequest (CStr.lit "p") ∧
      ¬ Observable completedDevice transferRequest (CStr.lit "p") := by
  refine ⟨.request _ _ startedDevice_reachable, transferRequest_requests, ?_⟩
  intro h
  have hget := (h (by decide +kernel)).1
  exact absurd hget.2.1 (by decide +kernel)

end DspEmbedded.Audit.Observe
