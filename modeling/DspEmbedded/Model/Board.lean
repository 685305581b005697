import DspEmbedded.Lib.Runs
import DspEmbedded.Model.RtcState
import DspEmbedded.Model.XferHttp

/-!
# The device: two modules and the image in RTC memory

What HTTP requests and sleep cycles act on. Requests are served one at a time;
a sleep cycle is save, deinit, init and restore in one step. `step` is the system
whose runs are the histories of a device; `Reachable` also lets the application
raise negotiation and transfer events of its own.
-/
namespace DspEmbedded.Model.Board

open Lib.CString Lib.SlotTable Model.Esp Model.Neg Model.Xfer Model.RtcState

variable {negMax xferMax : Nat}

structure Device (negMax xferMax : Nat) where
  neg : NegModule negMax
  xfer : XferModule xferMax
  store : RtcStore negMax xferMax

/-- The endpoints that read or write the two tables. -/
inductive Endpoint where
  | offers
  | agree
  | terminate
  | negGet
  | xferStart
  | xferComplete
  | xferGet
  deriving DecidableEq, Repr

def serve (d : Device negMax xferMax) (endpoint : Endpoint) (req : HttpdReq) :
    Response × Device negMax xferMax :=
  match endpoint with
  | .offers =>
    let (resp, neg) := offersPostHandler d.neg req
    (resp, { d with neg })
  | .agree =>
    let (resp, neg) := agreePostHandler d.neg req
    (resp, { d with neg })
  | .terminate =>
    let (resp, neg) := terminatePostHandler d.neg req
    (resp, { d with neg })
  | .negGet =>
    let (resp, neg) := negGetHandler d.neg req
    (resp, { d with neg })
  | .xferStart =>
    let (resp, xfer) := xferStartPostHandler d.neg d.xfer req
    (resp, { d with xfer })
  | .xferComplete =>
    let (resp, xfer) := xferCompletePostHandler d.xfer req
    (resp, { d with xfer })
  | .xferGet =>
    let (resp, xfer) := xferGetHandler d.xfer req
    (resp, { d with xfer })

theorem serve_negGet (d : Device negMax xferMax) (req : HttpdReq) :
    serve d .negGet req =
      ((negGetHandler d.neg req).1, { d with neg := (negGetHandler d.neg req).2 }) := rfl

theorem serve_xferComplete (d : Device negMax xferMax) (req : HttpdReq) :
    serve d .xferComplete req = ((xferCompletePostHandler d.xfer req).1,
      { d with xfer := (xferCompletePostHandler d.xfer req).2 }) := rfl

theorem serve_xferGet (d : Device negMax xferMax) (req : HttpdReq) :
    serve d .xferGet req =
      ((xferGetHandler d.xfer req).1, { d with xfer := (xferGetHandler d.xfer req).2 }) := rfl

/-- Save, then both modules torn down and set up again, then restore. -/
def sleepCycle (d : Device negMax xferMax) : EspErr × Device negMax xferMax :=
  let store := (dspRtcStateSave d.neg d.xfer d.store).2
  let neg := (dspNegInit (dspNegDeinit d.neg)).2
  let xfer := (dspXferInit (dspXferDeinit d.xfer)).2
  let (err, neg, xfer) := dspRtcStateRestore store neg xfer
  (err, ⟨neg, xfer, store⟩)

/-- Power-on: static memory is zero, the image holds whatever it holds. -/
def boot (store : RtcStore negMax xferMax) (notify : Bool) : Device negMax xferMax where
  neg := (dspNegInit (.boot negMax)).2
  xfer := dspXferSetNotify (dspXferInit (.boot xferMax)).2 notify
  store := store

/-! ## Runs -/

/-- What happens to a device from outside. -/
inductive Action where
  | request (endpoint : Endpoint) (req : HttpdReq)
  | sleep

/-- A run of requests only. -/
def serveOne (d : Device negMax xferMax) (a : Endpoint × HttpdReq) :
    Response × Device negMax xferMax := serve d a.1 a.2

/-- One action; a sleep cycle gives no answer. -/
def step (d : Device negMax xferMax) : Action → Option Response × Device negMax xferMax
  | .request endpoint req => (some (serve d endpoint req).1, (serve d endpoint req).2)
  | .sleep => (none, (sleepCycle d).2)

/-- The states that requests, sleep cycles and calls of the two apply functions
with any index and event lead to. -/
inductive Reachable : Device negMax xferMax → Prop
  | boot (store : RtcStore negMax xferMax) (notify : Bool) : Reachable (boot store notify)
  | request {d : Device negMax xferMax} (endpoint : Endpoint) (req : HttpdReq) :
      Reachable d → Reachable (serve d endpoint req).2
  | sleep {d : Device negMax xferMax} : Reachable d → Reachable (sleepCycle d).2
  | negApply {d : Device negMax xferMax} (idx : Int) (event : NegEvent) :
      Reachable d → Reachable { d with neg := (dspNegApply d.neg idx event).2 }
  | xferApply {d : Device negMax xferMax} (idx : Int) (event : XferEvent) :
      Reachable d → Reachable { d with xfer := (dspXferApply d.xfer idx event).2 }

/-! ## Well-formed devices -/

structure WellFormed (d : Device negMax xferMax) : Prop where
  neg : Neg.WellFormed d.neg
  xfer : Xfer.WellFormed d.xfer
  negInit : d.neg.initialized = true
  xferInit : d.xfer.initialized = true

theorem boot_wellFormed (store : RtcStore negMax xferMax) (notify : Bool) :
    WellFormed (boot store notify) where
  neg := Neg.wellFormed_fill true
  xfer := Xfer.wellFormed_fill true notify []
  negInit := rfl
  xferInit := rfl

/-- What a sleep cycle needs of a device: initialized modules with entries as
create, apply and load leave them. -/
structure Storable (d : Device negMax xferMax) : Prop where
  neg : ∀ e ∈ d.neg.table.slots, e.Canonical
  xfer : ∀ e ∈ d.xfer.table.slots, e.Canonical
  negInit : d.neg.initialized = true
  xferInit : d.xfer.initialized = true

theorem WellFormed.storable {d : Device negMax xferMax} (hw : WellFormed d) : Storable d where
  neg := hw.neg.canonical
  xfer := hw.xfer.canonical
  negInit := hw.negInit
  xferInit := hw.xferInit

/-- A sleep cycle succeeds and changes the image only. -/
theorem sleepCycle_eq {d : Device negMax xferMax} (hs : Storable d) :
    sleepCycle d = (.ok, { d with store := (dspRtcStateSave d.neg d.xfer d.store).2 }) := by
  have hrestore := restore_save (dspNegInit (dspNegDeinit d.neg)).2
    (dspXferInit (dspXferDeinit d.xfer)).2 d.store hs.neg hs.xfer rfl rfl
  have hneg : ({ d.neg with initialized := true } : NegModule negMax) = d.neg := by
    rw [← hs.negInit]
  have hxfer : ({ d.xfer with initialized := true } : XferModule xferMax) = d.xfer := by
    rw [← hs.xferInit]
  rw [hneg, hxfer] at hrestore
  simp only [sleepCycle, hrestore]

/-! ## What a request can do -/

/-- The device after a request: the handler left it alone, or it answered with
success and appended one record to a ledger or moved one on. -/
inductive Effect (d : Device negMax xferMax) (req : HttpdReq) :
    Endpoint → Response → Device negMax xferMax → Prop
  | unchanged (endpoint : Endpoint) (resp : Response) : Effect d req endpoint resp d
  | offered {resp : Response} {p : CStr} {neg : NegModule negMax} (hok : resp.success = true)
      (hreq : offersProcessId req = some p) (hw : Neg.WellFormed neg)
      (hinit : neg.initialized = d.neg.initialized)
      (hl : Neg.ledger neg = Neg.ledger d.neg ++ [offeredEntry p]) :
      Effect d req .offers resp { d with neg }
  | negotiated {endpoint : Endpoint} {resp : Response} {i : Nat} {e : NegEntry}
      {neg : NegModule negMax} (hok : resp.success = true) (event : NegEvent)
      (hget : (Neg.ledger d.neg)[i]? = some e) (hw : Neg.WellFormed neg)
      (hinit : neg.initialized = d.neg.initialized)
      (hl : Neg.ledger neg =
        (Neg.ledger d.neg).set i { e with state := dspNegSmNext e.state event }) :
      Effect d req endpoint resp { d with neg }
  | started {resp : Response} {p : CStr} {xfer : XferModule xferMax} (hok : resp.success = true)
      (hreq : startProcessId req = some p) (hw : Xfer.WellFormed xfer)
      (hinit : xfer.initialized = d.xfer.initialized)
      (hl : Xfer.ledger xfer = Xfer.ledger d.xfer ++ [startedEntry p]) :
      Effect d req .xferStart resp { d with xfer }
  | completed {resp : Response} {i : Nat} {e : XferEntry} {xfer : XferModule xferMax}
      (hok : resp.success = true) (hget : (Xfer.ledger d.xfer)[i]? = some e)
      (hw : Xfer.WellFormed xfer) (hinit : xfer.initialized = d.xfer.initialized)
      (hl : Xfer.ledger xfer = (Xfer.ledger d.xfer).set i { e with state := .completed }) :
      Effect d req .xferComplete resp { d with xfer }

theorem serve_effect {d : Device negMax xferMax} (hw : WellFormed d) (endpoint : Endpoint)
    (req : HttpdReq) : Effect d req endpoint (serve d endpoint req).1 (serve d endpoint req).2 := by
  cases endpoint with
  | offers =>
    rcases offers_cases hw.neg req with ⟨-, -, hm⟩ | ⟨p, m', hreq, -, heq, hw', hi', hl⟩
    · simp only [serve, hm]
      exact .unchanged .offers _
    · simp only [serve, heq]
      exact .offered rfl hreq hw' hi' hl
  | agree =>
    rcases agree_cases hw.neg req with ⟨-, -, hm⟩ |
      ⟨p, i, e, m', -, -, hget, -, -, hagrees, heq, hw', hi', hl⟩
    · simp only [serve, hm]
      exact .unchanged .agree _
    · have hnext : dspNegSmNext e.state .agree = .agreed :=
        ((smNext_agree e.state).resolve_right fun h => h.1 hagrees).2
      rw [← hnext] at hl
      simp only [serve, heq]
      exact .negotiated rfl .agree hget hw' hi' hl
  | terminate =>
    rcases terminate_cases hw.neg req with ⟨-, -, hm⟩ |
      ⟨p, i, e, m', -, -, hget, -, -, heq, hw', hi', hl⟩
    · simp only [serve, hm]
      exact .unchanged .terminate _
    · simp only [serve, heq]
      exact .negotiated rfl .terminate hget hw' hi' hl
  | negGet =>
    simp only [serve, negGet_snd]
    exact .unchanged .negGet _
  | xferStart =>
    rcases start_cases hw.neg hw.xfer req with ⟨-, -, hm⟩ |
      ⟨p, m', hreq, -, -, heq, hw', hi', -, -, hl⟩
    · simp only [serve, hm]
      exact .unchanged .xferStart _
    · simp only [serve, heq]
      exact .started rfl hreq hw' hi' hl
  | xferComplete =>
    rcases complete_cases hw.xfer req with ⟨-, -, hm⟩ |
      ⟨p, i, e, m', -, -, hget, -, -, -, heq, hw', hi', -, -, hl⟩
    · simp only [serve, hm]
      exact .unchanged .xferComplete _
    · simp only [serve, heq]
      exact .completed rfl hget hw' hi' hl
  | xferGet =>
    simp only [serve, xferGet_snd]
    exact .unchanged .xferGet _

section Effect

variable {d d' : Device negMax xferMax} {req : HttpdReq} {endpoint : Endpoint} {resp : Response}

theorem Effect.wellFormed (h : Effect d req endpoint resp d') (hw : WellFormed d) :
    WellFormed d' := by
  cases h with
  | unchanged => exact hw
  | offered _ _ hw' hinit _ => exact ⟨hw', hw.xfer, hinit.trans hw.negInit, hw.xferInit⟩
  | negotiated _ _ _ hw' hinit _ => exact ⟨hw', hw.xfer, hinit.trans hw.negInit, hw.xferInit⟩
  | started _ _ hw' hinit _ => exact ⟨hw.neg, hw', hw.negInit, hinit.trans hw.xferInit⟩
  | completed _ _ hw' hinit _ => exact ⟨hw.neg, hw', hw.negInit, hinit.trans hw.xferInit⟩

/-- Only a success changes anything. -/
theorem Effect.of_failed (h : Effect d req endpoint resp d') (hfail : resp.success = false) :
    d' = d := by
  cases h with
  | unchanged => rfl
  | offered hok _ _ _ _ => exact absurd (hok.symm.trans hfail) (by decide)
  | negotiated hok _ _ _ _ _ => exact absurd (hok.symm.trans hfail) (by decide)
  | started hok _ _ _ _ => exact absurd (hok.symm.trans hfail) (by decide)
  | completed hok _ _ _ _ => exact absurd (hok.symm.trans hfail) (by decide)

end Effect

/-- No request breaks the tables. -/
theorem serve_wellFormed {d : Device negMax xferMax} (hw : WellFormed d) (endpoint : Endpoint)
    (req : HttpdReq) : WellFormed (serve d endpoint req).2 :=
  (serve_effect hw endpoint req).wellFormed hw

/-- A request that is answered with an error changes nothing. -/
theorem serve_failed {d : Device negMax xferMax} (hw : WellFormed d) {endpoint : Endpoint}
    {req : HttpdReq} (h : (serve d endpoint req).1.success = false) :
    (serve d endpoint req).2 = d :=
  (serve_effect hw endpoint req).of_failed h

theorem step_wellFormed {d : Device negMax xferMax} (hw : WellFormed d) (a : Action) :
    WellFormed (step d a).2 := by
  cases a with
  | request endpoint req => exact serve_wellFormed hw endpoint req
  | sleep =>
    simp only [step, sleepCycle_eq hw.storable]
    exact ⟨hw.neg, hw.xfer, hw.negInit, hw.xferInit⟩

theorem Reachable.wellFormed {d : Device negMax xferMax} (h : Reachable d) : WellFormed d := by
  induction h with
  | boot store notify => exact boot_wellFormed store notify
  | request endpoint req _ ih => exact serve_wellFormed ih endpoint req
  | sleep _ ih =>
    rw [sleepCycle_eq ih.storable]
    exact ⟨ih.neg, ih.xfer, ih.negInit, ih.xferInit⟩
  | negApply idx event _ ih =>
    rcases apply_cases ih.neg idx event with ⟨-, heq⟩ | ⟨i, e, m', -, -, heq, hw', hi', -⟩
    · rw [heq]
      exact ih
    · rw [heq]
      exact ⟨hw', ih.xfer, hi'.trans ih.negInit, ih.xferInit⟩
  | xferApply idx event _ ih =>
    rcases Xfer.apply_cases ih.xfer idx event with ⟨-, heq⟩ | ⟨i, e, m', -, -, heq, hw', hi', -⟩
    · rw [heq]
      exact ih
    · rw [heq]
      exact ⟨ih.neg, hw', ih.negInit, hi'.trans ih.xferInit⟩

/-! ## The records that requests leave -/

/-- States of a negotiation once its offer has been answered. -/
def Opened (s : NegState) : Prop :=
  s = .offered ∨ s = .agreed ∨ s = .verified ∨ s = .finalized ∨ s = .terminated

theorem opened_smNext {s : NegState} (h : Opened s) (event : NegEvent) :
    Opened (dspNegSmNext s event) := by
  rcases h with rfl | rfl | rfl | rfl | rfl <;> cases event <;> simp [dspNegSmNext, Opened]

/-- States of a transfer once its start has been answered. -/
def Started (s : XferState) : Prop := s = .transferring ∨ s = .completed ∨ s = .failed

theorem started_smNext {s : XferState} (h : Started s) (event : XferEvent) :
    Started (dspXferSmNext s event) := by
  rcases h with rfl | rfl | rfl <;> cases event <;> simp [dspXferSmNext, Started]

/-- Every negotiation is opened under an id that is not empty, every transfer is
started under one. -/
structure Served (d : Device negMax xferMax) : Prop where
  neg : ∀ e ∈ Neg.ledger d.neg, Opened e.state ∧ e.cpid.bytes ≠ []
  xfer : ∀ e ∈ Xfer.ledger d.xfer, Started e.state ∧ e.pid.bytes ≠ []

theorem Effect.served {d d' : Device negMax xferMax} {req : HttpdReq} {endpoint : Endpoint}
    {resp : Response} (h : Effect d req endpoint resp d') (hd : Served d) : Served d' := by
  cases h with
  | unchanged => exact hd
  | offered _ hreq _ _ hl =>
    have hlen := offersProcessId_length hreq
    refine ⟨?_, hd.xfer⟩
    rw [hl, List.forall_mem_append, List.forall_mem_singleton, offeredEntry_cpid hlen.2]
    exact ⟨hd.neg, .inl rfl, hlen.1⟩
  | negotiated _ event hget _ _ hl =>
    have hold := hd.neg _ (List.mem_of_getElem? hget)
    refine ⟨?_, hd.xfer⟩
    rw [hl]
    exact forall_mem_set hd.neg ⟨opened_smNext hold.1 event, hold.2⟩
  | started _ hreq _ _ hl =>
    have hlen := startProcessId_length hreq
    refine ⟨hd.neg, ?_⟩
    rw [hl, List.forall_mem_append, List.forall_mem_singleton, startedEntry_pid hlen.2]
    exact ⟨hd.xfer, .inl rfl, hlen.1⟩
  | completed _ hget _ _ hl =>
    have hold := hd.xfer _ (List.mem_of_getElem? hget)
    refine ⟨hd.neg, ?_⟩
    rw [hl]
    exact forall_mem_set hd.xfer ⟨.inr (.inl rfl), hold.2⟩

theorem Reachable.served {d : Device negMax xferMax} (h : Reachable d) : Served d := by
  induction h with
  | boot store notify =>
    have hneg : Neg.ledger (Board.boot store notify).neg = [] := Neg.ledger_fill true
    have hxfer : Xfer.ledger (Board.boot store notify).xfer = [] := Xfer.ledger_fill true notify []
    constructor
    · simp [hneg]
    · simp [hxfer]
  | request endpoint req hd ih => exact (serve_effect hd.wellFormed endpoint req).served ih
  | sleep hd ih =>
    rw [sleepCycle_eq hd.wellFormed.storable]
    exact ⟨ih.neg, ih.xfer⟩
  | negApply idx event hd ih =>
    rcases apply_cases hd.wellFormed.neg idx event with ⟨-, heq⟩ |
      ⟨i, e, m', -, hget, heq, -, -, hl⟩
    · rw [heq]
      exact ih
    · rw [heq]
      refine ⟨?_, ih.xfer⟩
      rw [hl]
      have hold := ih.neg e (List.mem_of_getElem? hget)
      exact forall_mem_set ih.neg ⟨opened_smNext hold.1 event, hold.2⟩
  | xferApply idx event hd ih =>
    rcases Xfer.apply_cases hd.wellFormed.xfer idx event with ⟨-, heq⟩ |
      ⟨i, e, m', -, hget, heq, -, -, -, -, hl⟩
    · rw [heq]
      exact ih
    · rw [heq]
      refine ⟨ih.neg, ?_⟩
      rw [hl]
      have hold := ih.xfer e (List.mem_of_getElem? hget)
      exact forall_mem_set ih.xfer ⟨started_smNext hold.1 event, hold.2⟩

/-! ## Requests as a consumer of the process `p` sends them -/

def offerRequest : HttpdReq :=
  request "/negotiations/offers" "\x7b\"dspace:processId\":\"p\"\x7d".toByteArray.data.toList

def agreeRequest : HttpdReq := request "/negotiations/p/agree" []

def transferRequest : HttpdReq :=
  request "/transfers/start" ("\x7b\"@context\":\"c\",\"@type\":\"dspace:TransferRequestMessage\"," ++
    "\"dspace:processId\":\"p\",\"dspace:dataset\":\"d\"\x7d").toByteArray.data.toList

def completeRequest : HttpdReq := request "/transfers/p/complete" []

/-- `p` offered, on a device with four negotiation slots and two transfer slots. -/
def offeredDevice : Device 4 2 := (serve (boot (RtcStore.zero 4 2) false) .offers offerRequest).2

def agreedDevice : Device 4 2 := (serve offeredDevice .agree agreeRequest).2

def startedDevice : Device 4 2 := (serve agreedDevice .xferStart transferRequest).2

theorem offeredDevice_reachable : Reachable offeredDevice := .request _ _ (.boot _ _)

theorem agreedDevice_reachable : Reachable agreedDevice := .request _ _ offeredDevice_reachable

theorem startedDevice_reachable : Reachable startedDevice := .request _ _ agreedDevice_reachable

end DspEmbedded.Model.Board
