import DspEmbedded.Audit.Requests

/-!
# What an answer says and what can be read back

The answer of a negotiation handler is written from a constant and the id of the
request; GET reads the first record of the id in its path. The two agree unless
the id has a slash in it, the id was offered before, or the record was finalized
and absorbs the termination that the answer reports.
-/
namespace DspEmbedded.Audit.ReadBack

open Lib.CString Lib.SlotTable CJson Model Model.Esp Model.Json Model.Build Model.PathId Model.Neg
  Model.RtcState Model.Board Audit.Requests

variable {negMax xferMax : Nat}

/-- The handlers that move a negotiation. -/
inductive Update where
  | offers
  | agree
  | terminate
  deriving DecidableEq, Repr

def Update.endpoint : Update → Endpoint
  | .offers => .offers
  | .agree => .agree
  | .terminate => .terminate

/-- A success whose message names the process id `p` and the event type `e`. -/
def Names (resp : Response) (p e : CStr) : Prop :=
  resp.success = true ∧ field resp Jsonld.fieldProcessId = some p ∧
    field resp Jsonld.fieldEventType = some e

/-- GET `/negotiations/p`. -/
def getRequest (p : CStr) : HttpdReq := ⟨resourcePath negPrefix p CStr.empty, []⟩

/-- What the answer to a request names, a GET executed next names too. -/
def ReadsBack (d : Device negMax xferMax) (update : Update) (req : HttpdReq) : Prop :=
  ∀ p e, Names (serve d update.endpoint req).1 p e →
    Names (serve (serve d update.endpoint req).2 .negGet (getRequest p)).1 p e

/-- No record of the id, or a first one in state `s`. -/
def FirstIs (m : NegModule negMax) (p : CStr) (s : NegState → Prop) : Prop :=
  dspNegFindByCpid m (some p) = -1 ∨ s (dspNegGetState m (dspNegFindByCpid m (some p)))

/-- The requests whose answer can be read back. -/
def Readable (d : Device negMax xferMax) (req : HttpdReq) : Update → Prop
  | .offers => ∀ p, ValidPid p → RequestsOffer req p → dspNegCountActive d.neg = negMax ∨
      (slash ∉ p.bytes ∧ FirstIs d.neg p (· = .offered))
  | .agree => True
  | .terminate => ∀ p, ValidPid p → Carries req p → dspNegFindByCpid d.neg (some p) = -1 ∨
      (slash ∉ p.bytes ∧ dspNegGetState d.neg (dspNegFindByCpid d.neg (some p)) ≠ .finalized)

/-! ## Answers -/

theorem stateStr_length (s : NegState) : (stateStr s).length ≤ 17 := by
  cases s with
  | other raw h => exact show Jsonld.negStateRequested.length ≤ 17 by decide
  | _ => decide

/-- The states that requests lead to have names of their own. -/
theorem stateStr_injective {s t : NegState} (hs : Opened s) (ht : Opened t)
    (h : stateStr s = stateStr t) : s = t := by
  revert h
  rcases hs with rfl | rfl | rfl | rfl | rfl <;> rcases ht with rfl | rfl | rfl | rfl | rfl <;>
    decide

/-- An answer names the id and the event it was built from. -/
theorem names_eventText {status : HttpStatus} {q p e : CStr} (s : NegState)
    (hok : (httpdRespSendstr status (eventText q (stateStr s))).success = true)
    (hq : q.length < 64) :
    Names (httpdRespSendstr status (eventText q (stateStr s))) p e ↔ q = p ∧ stateStr s = e := by
  obtain ⟨text, hbuild, hparse⟩ := negotiationEvent_fits hq (stateStr_length s)
  have htext : eventText q (stateStr s) = text := by
    have hbuf : negBufSize = 1024 := rfl
    rw [eventText, hbuf, hbuild]
    rfl
  rw [Names, and_iff_right hok, htext, field, field, body_sendstr, hparse]
  have hpid : stringItem (getObjectItemCaseSensitive (negotiationEvent q (stateStr s))
      Jsonld.fieldProcessId) = some q := rfl
  have hevent : stringItem (getObjectItemCaseSensitive (negotiationEvent q (stateStr s))
      Jsonld.fieldEventType) = some (stateStr s) := rfl
  simp only [Option.bind_some, hpid, hevent, Option.some.injEq]

theorem not_names_of_failed {resp : Response} {p e : CStr} (h : resp.success = false) :
    ¬ Names resp p e := by
  intro hboth
  obtain ⟨hok, -⟩ := hboth
  rw [h] at hok
  cases hok

theorem pathNegId_getRequest {p : CStr} (hp : ValidPid p) (hs : slash ∉ p.bytes) :
    pathNegId (getRequest p).uri = some p := by
  rw [pathNegId_iff hp]
  exact extractId_resourcePath hp.lt hs (.inl rfl)

/-- GET names an id and an event exactly when the first record of the id, read
from a path without a slash, is in the state of that name. -/
theorem get_names_iff {m : NegModule negMax} (hw : Neg.WellFormed m) {p e : CStr}
    (hp : ValidPid p) :
    Names (negGetHandler m (getRequest p)).1 p e ↔
      slash ∉ p.bytes ∧ ∃ s, stateOf m p = some s ∧ stateStr s = e := by
  by_cases hs : slash ∈ p.bytes
  · simp only [hs, not_true_eq_false, false_and, iff_false]
    intro hnames
    cases hreq : pathNegId (getRequest p).uri with
    | none =>
      have hfail : (negGetHandler m (getRequest p)).1.success = false := by
        apply get_not_found hw
        intro q hq
        rw [hreq] at hq
        cases hq
      exact not_names_of_failed hfail hnames
    | some q =>
      cases hf : findNeg m q with
      | none =>
        have hfail : (negGetHandler m (getRequest p)).1.success = false :=
          get_not_found hw fun q' hq => by rwa [← Option.some.inj (hreq.symm.trans hq)]
        exact not_names_of_failed hfail hnames
      | some entry =>
        rw [get_found hw hreq hf] at hnames
        obtain ⟨rfl, -⟩ := (names_eventText entry.state rfl (pathNegId_length hreq).2).mp hnames
        exact pathNegId_no_slash hreq hs
  · have hreq := pathNegId_getRequest hp hs
    simp only [hs, not_false_eq_true, true_and]
    cases hf : findNeg m p with
    | none =>
      have hfail : (negGetHandler m (getRequest p)).1.success = false :=
        get_not_found hw fun q hq => by rwa [← Option.some.inj (hreq.symm.trans hq)]
      have hstate : stateOf m p = none := by rw [stateOf, hf]; rfl
      rw [hstate]
      exact iff_of_false (not_names_of_failed hfail) (by simp)
    | some entry =>
      rw [get_found hw hreq hf, names_eventText entry.state rfl hp.lt, stateOf_of_find hf]
      simp

/-! ## What can be read back -/

theorem opened_stateOf {d : Device negMax xferMax} (hr : Reachable d) {t : NegState} {p : CStr}
    (h : stateOf d.neg p = some t) : Opened t := by
  obtain ⟨e, hf, rfl⟩ := Option.map_eq_some_iff.mp h
  exact (hr.served.neg e (lookup_mem NegEntry.cpid hf)).1

/-- An answer for `p` in state `s` can be read back exactly when the path of `p`
can be parsed and the first record of `p` is in state `s` afterwards. -/
theorem readsBack_answer {d : Device negMax xferMax} (hr : Reachable d) {update : Update}
    {req : HttpdReq} {status : HttpStatus} {p : CStr} {s : NegState} {m' : NegModule negMax}
    (hserve : serve d update.endpoint req =
      (httpdRespSendstr status (eventText p (stateStr s)), { d with neg := m' }))
    (hok : (httpdRespSendstr status (eventText p (stateStr s))).success = true)
    (hp : ValidPid p) (hs : Opened s) :
    ReadsBack d update req ↔ slash ∉ p.bytes ∧ stateOf m' p = some s := by
  have hr' := Reachable.request update.endpoint req hr
  rw [hserve] at hr'
  have hw' : Neg.WellFormed m' := hr'.wellFormed.neg
  simp only [ReadsBack, hserve, serve_negGet]
  constructor
  · intro h
    have hget := h p (stateStr s) ((names_eventText s hok hp.lt).mpr ⟨rfl, rfl⟩)
    obtain ⟨hslash, t, ht, hstr⟩ := (get_names_iff hw' hp).mp hget
    rw [stateStr_injective (opened_stateOf hr' ht) hs hstr] at ht
    exact ⟨hslash, ht⟩
  · rintro ⟨hslash, hstate⟩ q e hnames
    obtain ⟨rfl, rfl⟩ := (names_eventText s hok hp.lt).mp hnames
    exact (get_names_iff hw' hp).mpr ⟨hslash, s, hstate, rfl⟩

theorem readsBack_of_failed {d : Device negMax xferMax} {update : Update} {req : HttpdReq}
    (h : (serve d update.endpoint req).1.success = false) : ReadsBack d update req :=
  fun _ _ hnames => absurd hnames (not_names_of_failed h)

theorem firstIs_offered_iff {m : NegModule negMax} (hw : Neg.WellFormed m) (p : CStr) :
    FirstIs m p (· = .offered) ↔ (stateOf m p).or (some .offered) = some .offered := by
  rw [FirstIs, find_eq_neg_one_iff hw, getState_find hw]
  cases stateOf m p <;> simp

theorem readsBack_offers {d : Device negMax xferMax} (hr : Reachable d) (req : HttpdReq) :
    ReadsBack d .offers req ↔ Readable d req .offers := by
  have hn := hr.wellFormed.neg
  rcases offers_cases hn req with ⟨hwhy, hfail, -⟩ | ⟨p, m', hreq, hlt, heq, hw', -, hl⟩
  · refine iff_of_true (readsBack_of_failed hfail) ?_
    intro p hp hoffer
    left
    rcases hwhy with hnone | hfull
    · rw [(offersProcessId_iff hp).mpr hoffer] at hnone
      cases hnone
    · have hle := length_ledger_le d.neg
      rw [countActive_eq hn]
      omega
  · have hp := validPid_of (offersProcessId_length hreq)
    have hserve : serve d Update.offers.endpoint req =
        (httpdRespSendstr .created (eventText p (stateStr .offered)), { d with neg := m' }) := by
      simp only [Update.endpoint, serve, heq]
      rfl
    rw [readsBack_answer hr hserve rfl hp (.inl rfl), stateOf_offer hp.lt hl, if_pos rfl,
      ← firstIs_offered_iff hn]
    constructor
    · intro h q hq hoffer
      obtain rfl := Option.some.inj (hreq.symm.trans ((offersProcessId_iff hq).mpr hoffer))
      exact .inr h
    · intro h
      refine (h p hp ((offersProcessId_iff hp).mp hreq)).resolve_left ?_
      rw [countActive_eq hn]
      omega

theorem readsBack_agree {d : Device negMax xferMax} (hr : Reachable d) (req : HttpdReq) :
    ReadsBack d .agree req := by
  rcases agree_cases hr.wellFormed.neg req with ⟨-, hfail, -⟩ |
    ⟨p, i, e, m', hreq, hfi, hget, hpid, -, -, heq, hw', -, hl⟩
  · exact readsBack_of_failed hfail
  · have hp := validPid_of (pathNegId_length hreq)
    have hserve : serve d Update.agree.endpoint req =
        (httpdRespSendstr .ok (eventText p (stateStr .agreed)), { d with neg := m' }) := by
      simp only [Update.endpoint, serve, heq]
      rfl
    rw [readsBack_answer hr hserve rfl hp (.inr (.inl rfl)), stateOf_set hfi hget hpid hl,
      if_pos rfl]
    exact ⟨pathNegId_no_slash hreq, rfl⟩

theorem smNext_terminate {s : NegState} (h : Opened s) :
    dspNegSmNext s .terminate = .terminated ↔ s ≠ .finalized := by
  rcases h with rfl | rfl | rfl | rfl | rfl <;> decide

theorem readsBack_terminate {d : Device negMax xferMax} (hr : Reachable d) (req : HttpdReq) :
    ReadsBack d .terminate req ↔ Readable d req .terminate := by
  have hn := hr.wellFormed.neg
  rcases terminate_cases hn req with ⟨hwhy, hfail, -⟩ |
    ⟨p, i, e, m', hreq, hfi, hget, hpid, hf, heq, hw', -, hl⟩
  · refine iff_of_true (readsBack_of_failed hfail) ?_
    intro p hp hcarries
    left
    rw [find_eq_neg_one_iff hn, stateOf, hwhy p ((terminateProcessId_iff hp).mpr hcarries)]
    rfl
  · have hp := validPid_of (terminateProcessId_length hreq)
    have hstate : stateOf d.neg p = some e.state := stateOf_of_find hf
    have hserve : serve d Update.terminate.endpoint req =
        (httpdRespSendstr .ok (eventText p (stateStr .terminated)), { d with neg := m' }) := by
      simp only [Update.endpoint, serve, heq]
      rfl
    rw [readsBack_answer hr hserve rfl hp (.inr (.inr (.inr (.inr rfl)))),
      stateOf_set hfi hget hpid hl, if_pos rfl, Option.some.injEq,
      smNext_terminate (opened_stateOf hr hstate)]
    constructor
    · intro h q hq hcarries
      obtain rfl := Option.some.inj (hreq.symm.trans ((terminateProcessId_iff hq).mpr hcarries))
      right
      rwa [getState_find hn, hstate]
    · intro h
      have hread := h p hp ((terminateProcessId_iff hp).mp hreq)
      rw [find_eq_neg_one_iff hn, getState_find hn, hstate] at hread
      exact hread.resolve_left (by simp)

/-- **Answers and reads.** On every reachable device the answer to a request can
be read back exactly when the request is readable. -/
theorem readsBack_iff {d : Device negMax xferMax} (hr : Reachable d) (update : Update)
    (req : HttpdReq) : ReadsBack d update req ↔ Readable d req update := by
  cases update with
  | offers => exact readsBack_offers hr req
  | agree => exact iff_of_true (readsBack_agree hr req) trivial
  | terminate => exact readsBack_terminate hr req

/-- What agree answers can be read back. -/
theorem readsBack_agreed : ReadsBack offeredDevice .agree agreeRequest :=
  (readsBack_iff offeredDevice_reachable .agree agreeRequest).mpr trivial

/-- The answer to a second offer says `OFFERED`; what is read back is `AGREED`. -/
theorem offer_again_counterexample :
    Reachable agreedDevice ∧ ¬ ReadsBack agreedDevice .offers offerRequest := by
  refine ⟨agreedDevice_reachable, ?_⟩
  intro h
  have hread := h (CStr.lit "p") Jsonld.negStateOffered
    ⟨by decide +kernel, by decide +kernel, by decide +kernel⟩
  exact absurd hread.2.2 (by decide +kernel)

end DspEmbedded.Audit.ReadBack
