import DspEmbedded.Model.NegHttp
import DspEmbedded.Model.Xfer

/-!
# `dsp_xfer.c`: HTTP handlers

`xfer_start_post_handler` reads the negotiation table and writes the transfer
table; the two other handlers see transfers only.
-/
namespace DspEmbedded.Model.Xfer

open Lib.CString Lib.SlotTable CJson Model.Esp Model.Json Model.Msg Model.Build Model.PathId
open Model.Neg (NegModule dspNegFindByCpid dspNegGetState responseText)

variable {negMax xferMax : Nat}

/-- `XFER_BUF_SIZE`. -/
def xferBufSize : Nat := 1024

def xferStartPostHandler (neg : NegModule negMax) (m : XferModule xferMax) (req : HttpdReq) :
    Response × XferModule xferMax :=
  match recvBody req xferBufSize with
  | none => (httpdRespSendErr .badRequest "empty body", m)
  | some body =>
    if dspMsgValidateTransferRequest (some body) ≠ .ok then
      (httpdRespSendErr .badRequest "invalid TransferRequestMessage", m)
    else
      match dspJsonParse (some body) with
      | none => (httpdRespSendErr .badRequest "invalid JSON", m)
      | some msg =>
        let pid := (dspJsonGetString (some msg) (some Jsonld.fieldProcessId) dspXferPidLen).2
        if pid.bytes = [] then (httpdRespSendErr .badRequest "missing dspace:processId", m)
        else
          let negIdx := dspNegFindByCpid neg (some pid)
          if negIdx < 0 ∨ dspNegGetState neg negIdx ≠ .agreed then
            (httpdRespSendErr .badRequest "negotiation not in AGREED state", m)
          else
            let (idx, m) := dspXferCreate m (some pid)
            if idx < 0 then (httpdRespSendErr .internalServerError "transfer table full", m)
            else
              let (_, m) := dspXferApply m idx .start
              let resp := responseText
                (dspBuildTransferStart xferBufSize (some pid) (some Jsonld.configProviderId))
              (httpdRespSendstr .ok resp, m)

def xferCompletePostHandler (m : XferModule xferMax) (req : HttpdReq) :
    Response × XferModule xferMax :=
  let id := extractXferId (some req.uri) dspXferPidLen
  if id.bytes = [] then (httpdRespSendErr .badRequest "missing transfer id", m)
  else
    let idx := dspXferFindByPid m (some id)
    if idx < 0 then (httpdRespSendErr .notFound "transfer not found", m)
    else if dspXferGetState m idx ≠ .transferring then
      (httpdRespSendErr .badRequest "transfer not in TRANSFERRING state", m)
    else
      let (_, m) := dspXferApply m idx .complete
      let resp := responseText (dspBuildTransferCompletion xferBufSize (some id))
      (httpdRespSendstr .ok resp, m)

/-- The switch of `xfer_get_handler`. -/
def stateText (id : CStr) : XferState → CStr
  | .completed => responseText (dspBuildTransferCompletion xferBufSize (some id))
  | .failed => responseText
      (dspBuildError xferBufSize (some (CStr.lit "FAILED")) (some (CStr.lit "transfer failed")))
  | _ => responseText
      (dspBuildTransferStart xferBufSize (some id) (some Jsonld.configProviderId))

def xferGetHandler (m : XferModule xferMax) (req : HttpdReq) : Response × XferModule xferMax :=
  let id := extractXferId (some req.uri) dspXferPidLen
  if id.bytes = [] then (httpdRespSendErr .badRequest "missing transfer id", m)
  else
    let idx := dspXferFindByPid m (some id)
    if idx < 0 then (httpdRespSendErr .notFound "transfer not found", m)
    else (httpdRespSendstr .ok (stateText id (dspXferGetState m idx)), m)

/-! ## What a request asks for -/

/-- The id that the start handler begins a transfer for. -/
def startProcessId (req : HttpdReq) : Option CStr := do
  let body ← recvBody req xferBufSize
  if dspMsgValidateTransferRequest (some body) ≠ .ok then none
  else
    let msg ← dspJsonParse (some body)
    Neg.processIdOf msg

/-- The id of a transfer path, if it has one. -/
def pathXferId (uri : CStr) : Option CStr :=
  let id := extractXferId (some uri) dspXferPidLen
  if id.bytes = [] then none else some id

theorem startProcessId_length {req : HttpdReq} {p : CStr} (h : startProcessId req = some p) :
    p.bytes ≠ [] ∧ p.length < dspXferPidLen := by
  obtain ⟨body, -, hrest⟩ := Option.bind_eq_some_iff.mp h
  split_ifs at hrest
  obtain ⟨msg, -, hid⟩ := Option.bind_eq_some_iff.mp hrest
  exact Neg.processIdOf_length hid

/-! ## What the handlers do to the ledger -/

variable {neg : NegModule negMax} {m : XferModule xferMax}

/-- The body of the answer to a started transfer. -/
def startText (pid : CStr) : CStr :=
  responseText (dspBuildTransferStart xferBufSize (some pid) (some Jsonld.configProviderId))

def completionText (pid : CStr) : CStr :=
  responseText (dspBuildTransferCompletion xferBufSize (some pid))

/-- The slot that a started transfer leaves. -/
def startedEntry (pid : CStr) : XferEntry := { newEntry pid with state := .transferring }

theorem startedEntry_pid {pid : CStr} (h : pid.length < dspXferPidLen) :
    (startedEntry pid).pid = pid := by
  have hpid := newEntry_pid pid
  rw [CStr.take_of_length_le (Nat.le_sub_one_of_lt h)] at hpid
  exact hpid

/-- The negotiation prerequisite of a transfer. -/
def agreed (neg : NegModule negMax) (p : CStr) : Prop :=
  ∃ e, Neg.findNeg neg p = some e ∧ e.state = .agreed

theorem agreed_iff (hw : Neg.WellFormed neg) (p : CStr) :
    ¬ (dspNegFindByCpid neg (some p) < 0 ∨
      dspNegGetState neg (dspNegFindByCpid neg (some p)) ≠ .agreed) ↔ agreed neg p := by
  unfold agreed
  rcases Neg.find_cases hw p with ⟨hidx, hf⟩ | ⟨i, e, hidx, -, hget, -, hf⟩
  · simp [hidx, hf]
  · rw [hidx, Neg.getState_of_ledger hget, hf]
    have hpos : ¬ ((i : Int) < 0) := by omega
    simp [hpos]

theorem agreed_iff_getState (hw : Neg.WellFormed neg) (p : CStr) :
    agreed neg p ↔ dspNegGetState neg (dspNegFindByCpid neg (some p)) = .agreed := by
  rw [Neg.getState_find hw, agreed, Neg.stateOf]
  cases Neg.findNeg neg p <;> simp

theorem start_rejects {req : HttpdReq} (h : startProcessId req = none) :
    ∃ message, xferStartPostHandler neg m req = (httpdRespSendErr .badRequest message, m) := by
  cases hbody : recvBody req xferBufSize with
  | none => exact ⟨_, by simp only [xferStartPostHandler, hbody]; rfl⟩
  | some body =>
    by_cases hval : dspMsgValidateTransferRequest (some body) ≠ .ok
    · exact ⟨_, by simp only [xferStartPostHandler, hbody]; rw [if_pos hval]⟩
    · cases hmsg : dspJsonParse (some body) with
      | none => exact ⟨_, by simp only [xferStartPostHandler, hbody, hmsg]; rw [if_neg hval]⟩
      | some msg =>
        have hid : Neg.processIdOf msg = none := by
          rw [startProcessId, hbody] at h
          simp only [Option.bind_eq_bind, Option.bind_some] at h
          rwa [if_neg hval, hmsg] at h
        have hne := Neg.processIdOf_eq_none hid
        refine ⟨"missing dspace:processId", ?_⟩
        simp only [xferStartPostHandler, hbody, hmsg]
        rw [if_neg hval]
        exact if_pos hne

theorem start_accepts {req : HttpdReq} {p : CStr} (h : startProcessId req = some p) :
    xferStartPostHandler neg m req =
      if dspNegFindByCpid neg (some p) < 0 ∨
          dspNegGetState neg (dspNegFindByCpid neg (some p)) ≠ .agreed then
        (httpdRespSendErr .badRequest "negotiation not in AGREED state", m)
      else
        let (idx, m) := dspXferCreate m (some p)
        if idx < 0 then (httpdRespSendErr .internalServerError "transfer table full", m)
        else (httpdRespSendstr .ok (startText p), (dspXferApply m idx .start).2) := by
  obtain ⟨body, hbody, hrest⟩ := Option.bind_eq_some_iff.mp h
  split_ifs at hrest with hval
  obtain ⟨msg, hmsg, hid⟩ := Option.bind_eq_some_iff.mp hrest
  obtain ⟨hcpid, hne⟩ := Neg.processIdOf_eq_some hid
  simp only [xferStartPostHandler, hbody, hmsg]
  rw [if_neg hval]
  have hcpid' : (dspJsonGetString (some msg) (some Jsonld.fieldProcessId) dspXferPidLen).2 = p :=
    hcpid
  simp only [hcpid', hne, if_false]
  rfl

/-- The start handler answers with an error and changes nothing, or it appends
one transferring record and notifies. -/
theorem start_cases (hn : Neg.WellFormed neg) (hw : WellFormed m) (req : HttpdReq) :
    ((∀ p, startProcessId req = some p → agreed neg p → xferMax ≤ (ledger m).length) ∧
      (xferStartPostHandler neg m req).1.success = false ∧
      (xferStartPostHandler neg m req).2 = m) ∨
    ∃ p m', startProcessId req = some p ∧ agreed neg p ∧ (ledger m).length < xferMax ∧
      xferStartPostHandler neg m req = (httpdRespSendstr .ok (startText p), m') ∧
      WellFormed m' ∧ m'.initialized = m.initialized ∧ m'.notify = m.notify ∧
      m'.calls = m.calls ++ notifyCalls m (ledger m).length .initial .start ∧
      ledger m' = ledger m ++ [startedEntry p] := by
  cases hreq : startProcessId req with
  | none =>
    obtain ⟨message, hrejects⟩ : ∃ message,
        xferStartPostHandler neg m req = (httpdRespSendErr .badRequest message, m) :=
      start_rejects hreq
    rw [hrejects]
    refine .inl ⟨?_, rfl, rfl⟩
    intro p hp
    cases hp
  | some p =>
    have haccepts := @start_accepts negMax xferMax neg m req p hreq
    by_cases hneg : dspNegFindByCpid neg (some p) < 0 ∨
        dspNegGetState neg (dspNegFindByCpid neg (some p)) ≠ .agreed
    · left
      rw [haccepts, if_pos hneg]
      refine ⟨?_, rfl, rfl⟩
      intro q hq ha
      rw [← Option.some.inj hq] at ha
      exact absurd hneg ((agreed_iff hn p).mpr ha)
    · rw [if_neg hneg] at haccepts
      rcases create_cases hw p with ⟨hfull, hc⟩ | ⟨m₁, hlt, hc, hw₁, hi₁, hn₁, hcalls₁, hl₁⟩
      · left
        rw [hc] at haccepts
        rw [haccepts]
        exact ⟨fun _ _ _ => hfull, rfl, rfl⟩
      · right
        have hget : (ledger m₁)[(ledger m).length]? = some (newEntry p) := by
          rw [hl₁, List.getElem?_concat_length]
        rcases apply_cases hw₁ ((ledger m).length : Int) .start with ⟨hnone, -⟩ |
          ⟨i, e, m₂, hi, he, ha, hw₂, hi₂, hn₂, hcalls₂, hl₂⟩
        · rw [hnone _ rfl] at hget
          cases hget
        · obtain rfl : (ledger m).length = i := by omega
          obtain rfl := Option.some.inj (he.symm.trans hget)
          refine ⟨p, m₂, rfl, (agreed_iff hn p).mp hneg, hlt, ?_, hw₂, hi₂.trans hi₁,
            hn₂.trans hn₁, ?_, ?_⟩
          · rw [haccepts, hc]
            simp only [ha]
            exact if_neg (by omega)
          · rw [hcalls₂, hcalls₁, notifyCalls, notifyCalls, hn₁]
            rfl
          · rw [hl₂, hl₁, List.set_append_right _ _ le_rfl, Nat.sub_self]
            rfl

/-- The first record of `p` after a start for `q`: a second slot is not seen. -/
theorem xferStateOf_start {m' : XferModule xferMax} {q : CStr} (hq : q.length < dspXferPidLen)
    (hl : ledger m' = ledger m ++ [startedEntry q]) (p : CStr) :
    xferStateOf m' p = (xferStateOf m p).or (if q = p then some .transferring else none) := by
  rw [xferStateOf, findXfer, hl, lookup_append, startedEntry_pid hq]
  unfold xferStateOf findXfer
  cases lookup XferEntry.pid p (ledger m) with
  | some e => rfl
  | none =>
    by_cases hqp : q = p
    · simp only [hqp, if_true]
      rfl
    · simp only [hqp, if_false]
      rfl

theorem complete_accepts (req : HttpdReq) :
    xferCompletePostHandler m req =
      match pathXferId req.uri with
      | none => (httpdRespSendErr .badRequest "missing transfer id", m)
      | some id =>
        let idx := dspXferFindByPid m (some id)
        if idx < 0 then (httpdRespSendErr .notFound "transfer not found", m)
        else if dspXferGetState m idx ≠ .transferring then
          (httpdRespSendErr .badRequest "transfer not in TRANSFERRING state", m)
        else (httpdRespSendstr .ok (completionText id), (dspXferApply m idx .complete).2) := by
  simp only [xferCompletePostHandler, pathXferId]
  by_cases hne : (extractXferId (some req.uri) dspXferPidLen).bytes = []
  · simp only [hne, if_true]
  · simp only [hne, if_false]
    rfl

/-- The complete handler answers with an error and changes nothing, or it moves
the first record of the id from `TRANSFERRING` to `COMPLETED`. -/
theorem complete_cases (hw : WellFormed m) (req : HttpdReq) :
    ((∀ p e, pathXferId req.uri = some p → findXfer m p = some e → e.state ≠ .transferring) ∧
      (xferCompletePostHandler m req).1.success = false ∧
      (xferCompletePostHandler m req).2 = m) ∨
    ∃ p i e m', pathXferId req.uri = some p ∧
      (ledger m).findIdx? (fun e => decide (e.pid = p)) = some i ∧
      (ledger m)[i]? = some e ∧ e.pid = p ∧ findXfer m p = some e ∧ e.state = .transferring ∧
      xferCompletePostHandler m req = (httpdRespSendstr .ok (completionText p), m') ∧
      WellFormed m' ∧ m'.initialized = m.initialized ∧ m'.notify = m.notify ∧
      m'.calls = m.calls ∧ ledger m' = (ledger m).set i { e with state := .completed } := by
  have haccepts := complete_accepts (m := m) req
  cases hreq : pathXferId req.uri with
  | none =>
    left
    rw [hreq] at haccepts
    rw [haccepts]
    refine ⟨?_, rfl, rfl⟩
    intro p e hp
    cases hp
  | some p =>
    rw [hreq] at haccepts
    simp only at haccepts
    rcases find_cases hw p with ⟨hidx, hf⟩ | ⟨i, e, hidx, hfi, hget, hp, hf⟩
    · left
      rw [hidx] at haccepts
      rw [haccepts]
      refine ⟨?_, rfl, rfl⟩
      intro q e hq he
      rw [← Option.some.inj hq, hf] at he
      cases he
    · rw [hidx, if_neg (by omega), getState_of_ledger hget] at haccepts
      by_cases hst : e.state ≠ .transferring
      · left
        rw [haccepts, if_pos hst]
        refine ⟨?_, rfl, rfl⟩
        intro q e' hq he'
        rw [← Option.some.inj hq, hf] at he'
        rwa [← Option.some.inj he']
      · right
        have hst' : e.state = .transferring := not_not.mp hst
        rcases apply_cases hw (i : Int) .complete with ⟨hnone, -⟩ |
          ⟨j, e', m', hj, he, ha, hw', hi', hn', hcalls', hl'⟩
        · rw [hnone _ rfl] at hget
          cases hget
        · obtain rfl : i = j := by omega
          obtain rfl := Option.some.inj (he.symm.trans hget)
          have hnext : dspXferSmNext e'.state .complete = .completed := by rw [hst']; rfl
          rw [hnext] at hl'
          refine ⟨p, i, e', m', rfl, hfi, hget, hp, hf, hst', ?_, hw', hi', hn', ?_, hl'⟩
          · rw [haccepts, if_neg hst, ha]
          · rw [hcalls', notifyCalls, if_neg, List.append_nil]
            exact fun h => h.1 hst'

/-- The slot that a request to complete is about. -/
def completeSlot (m : XferModule xferMax) (req : HttpdReq) : Int :=
  dspXferFindByPid m (some (extractXferId (some req.uri) dspXferPidLen))

/-- Success is decided by the state of the slot before the request. -/
theorem complete_success_iff (hw : WellFormed m) (hid : ∀ e ∈ ledger m, e.pid.bytes ≠ [])
    (req : HttpdReq) :
    (xferCompletePostHandler m req).1.success = true ↔
      dspXferGetState m (completeSlot m req) = .transferring := by
  rcases find_cases hw (extractXferId (some req.uri) dspXferPidLen) with
    ⟨hidx, hf⟩ | ⟨i, e, hidx, -, hget, hp, hf⟩
  · rw [completeSlot, hidx, getState_absent]
    rcases complete_cases hw req with ⟨-, hfail, -⟩ | ⟨p, i, e, m', hreq, -, -, -, hf', -⟩
    · rw [hfail]
      decide
    · simp only [pathXferId] at hreq
      split_ifs at hreq
      rw [Option.some.inj hreq, hf'] at hf
      cases hf
  · rw [completeSlot, hidx, getState_of_ledger hget]
    have hne := hid e (List.mem_of_getElem? hget)
    rw [hp] at hne
    have hreq : pathXferId req.uri = some (extractXferId (some req.uri) dspXferPidLen) :=
      if_neg hne
    rcases complete_cases hw req with ⟨hrefused, hfail, -⟩ |
      ⟨q, j, e', m', hreq', -, -, -, hf', hst, heq, -⟩
    · rw [hfail]
      exact iff_of_false Bool.false_ne_true (hrefused _ e hreq hf)
    · obtain rfl := Option.some.inj (hreq.symm.trans hreq')
      obtain rfl := Option.some.inj (hf.symm.trans hf')
      rw [heq]
      exact iff_of_true rfl hst

theorem get_accepts (req : HttpdReq) :
    xferGetHandler m req =
      match pathXferId req.uri with
      | none => (httpdRespSendErr .badRequest "missing transfer id", m)
      | some id =>
        let idx := dspXferFindByPid m (some id)
        if idx < 0 then (httpdRespSendErr .notFound "transfer not found", m)
        else (httpdRespSendstr .ok (stateText id (dspXferGetState m idx)), m) := by
  simp only [xferGetHandler, pathXferId]
  by_cases hne : (extractXferId (some req.uri) dspXferPidLen).bytes = []
  · simp only [hne, if_true]
  · simp only [hne, if_false]

/-- GET only reads. -/
theorem xferGet_snd (req : HttpdReq) : (xferGetHandler m req).2 = m := by
  unfold xferGetHandler
  simp only
  split_ifs <;> rfl

/-- GET reports the first record of the id. -/
theorem get_found (hw : WellFormed m) {req : HttpdReq} {p : CStr} {e : XferEntry}
    (hreq : pathXferId req.uri = some p) (hf : findXfer m p = some e) :
    xferGetHandler m req = (httpdRespSendstr .ok (stateText p e.state), m) := by
  have haccepts := get_accepts (m := m) req
  rw [hreq] at haccepts
  simp only at haccepts
  rcases find_cases hw p with ⟨-, hf'⟩ | ⟨i, e', hidx, -, hget, -, hf'⟩
  · rw [hf'] at hf
    cases hf
  · obtain rfl := Option.some.inj (hf'.symm.trans hf)
    rw [haccepts, hidx, if_neg (by omega), getState_of_ledger hget]

theorem get_not_found (hw : WellFormed m) {req : HttpdReq}
    (h : ∀ p, pathXferId req.uri = some p → findXfer m p = none) :
    (xferGetHandler m req).1.success = false := by
  have haccepts := get_accepts (m := m) req
  cases hreq : pathXferId req.uri with
  | none =>
    rw [hreq] at haccepts
    rw [haccepts]
    rfl
  | some p =>
    rw [hreq] at haccepts
    simp only at haccepts
    rcases find_cases hw p with ⟨hidx, -⟩ | ⟨i, e, -, -, -, -, hf⟩
    · rw [haccepts, hidx]
      rfl
    · rw [h p hreq] at hf
      cases hf

end DspEmbedded.Model.Xfer
