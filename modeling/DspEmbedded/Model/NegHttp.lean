import DspEmbedded.Model.Build
import DspEmbedded.Model.Msg
import DspEmbedded.Model.Neg
import DspEmbedded.Model.PathId

/-!
# `dsp_neg.c`: HTTP handlers

Each handler maps the module and a request to the answer and the module
afterwards. What a request asks for is a function of the request alone
(`offersProcessId`, `terminateProcessId`, the id of the path); the case lemmas
then say what a handler does to the ledger.
-/
namespace DspEmbedded.Model.Neg

open Lib.CString Lib.SlotTable CJson Model.Esp Model.Json Model.Msg Model.Build Model.PathId

variable {negMax : Nat}

/-- `NEG_BUF_SIZE`. -/
def negBufSize : Nat := 1024

/-- The response buffer after a builder call whose result is ignored. -/
def responseText (built : DspBuildErr × Option CStr) : CStr := built.2.getD CStr.empty

def offersPostHandler (m : NegModule negMax) (req : HttpdReq) : Response × NegModule negMax :=
  match recvBody req negBufSize with
  | none => (httpdRespSendErr .badRequest "empty body", m)
  | some body =>
    if dspMsgValidateCatalogRequest (some body) = .ok then
      (httpdRespSendErr .badRequest "wrong message type", m)
    else
      match dspJsonParse (some body) with
      | none => (httpdRespSendErr .badRequest "invalid JSON", m)
      | some msg =>
        let cpid := (dspJsonGetString (some msg) (some Jsonld.fieldProcessId) dspNegPidLen).2
        if cpid.bytes = [] then (httpdRespSendErr .badRequest "missing dspace:processId", m)
        else
          let (idx, m) := dspNegCreate m (some cpid) (some Jsonld.configProviderId)
          if idx < 0 then (httpdRespSendErr .internalServerError "negotiation table full", m)
          else
            let (_, m) := dspNegApply m idx .offer
            let resp := responseText
              (dspBuildNegotiationEvent negBufSize (some cpid) (some Jsonld.negStateOffered))
            (httpdRespSendstr .created resp, m)

def terminatePostHandler (m : NegModule negMax) (req : HttpdReq) : Response × NegModule negMax :=
  match recvBody req negBufSize with
  | none => (httpdRespSendErr .badRequest "empty body", m)
  | some body =>
    match dspJsonParse (some body) with
    | none => (httpdRespSendErr .badRequest "invalid JSON", m)
    | some msg =>
      let cpid := (dspJsonGetString (some msg) (some Jsonld.fieldProcessId) dspNegPidLen).2
      if cpid.bytes = [] then (httpdRespSendErr .badRequest "missing dspace:processId", m)
      else
        let idx := dspNegFindByCpid m (some cpid)
        if idx < 0 then (httpdRespSendErr .notFound "negotiation not found", m)
        else
          let (_, m) := dspNegApply m idx .terminate
          let resp := responseText
            (dspBuildNegotiationEvent negBufSize (some cpid) (some Jsonld.negStateTerminated))
          (httpdRespSendstr .ok resp, m)

def agreePostHandler (m : NegModule negMax) (req : HttpdReq) : Response × NegModule negMax :=
  let id := extractNegId (some req.uri) dspNegPidLen
  if id.bytes = [] then (httpdRespSendErr .badRequest "missing negotiation id", m)
  else
    let idx := dspNegFindByCpid m (some id)
    if idx < 0 then (httpdRespSendErr .notFound "negotiation not found", m)
    else
      let (newState, m) := dspNegApply m idx .agree
      if newState ≠ .agreed then (httpdRespSendErr .badRequest "invalid state for agree", m)
      else
        let resp := responseText
          (dspBuildNegotiationEvent negBufSize (some id) (some Jsonld.negStateAgreed))
        (httpdRespSendstr .ok resp, m)

/-- The switch of `neg_get_handler`. -/
def stateStr : NegState → CStr
  | .requested => Jsonld.negStateRequested
  | .offered => Jsonld.negStateOffered
  | .agreed => Jsonld.negStateAgreed
  | .verified => Jsonld.negStateVerified
  | .finalized => Jsonld.negStateFinalized
  | .terminated => Jsonld.negStateTerminated
  | _ => Jsonld.negStateRequested

def negGetHandler (m : NegModule negMax) (req : HttpdReq) : Response × NegModule negMax :=
  let id := extractNegId (some req.uri) dspNegPidLen
  if id.bytes = [] then (httpdRespSendErr .badRequest "missing negotiation id", m)
  else
    let idx := dspNegFindByCpid m (some id)
    if idx < 0 then (httpdRespSendErr .notFound "negotiation not found", m)
    else
      let resp := responseText
        (dspBuildNegotiationEvent negBufSize (some id) (some (stateStr (dspNegGetState m idx))))
      (httpdRespSendstr .ok resp, m)

/-! ## What a request asks for -/

/-- The process id that a parsed message gives the handlers, if it has one that
is not empty and fits. -/
def processIdOf (msg : Json) : Option CStr :=
  let cpid := (dspJsonGetString (some msg) (some Jsonld.fieldProcessId) dspNegPidLen).2
  if cpid.bytes = [] then none else some cpid

/-- The id that the offers handler opens a negotiation for. -/
def offersProcessId (req : HttpdReq) : Option CStr := do
  let body ← recvBody req negBufSize
  if dspMsgValidateCatalogRequest (some body) = .ok then none
  else
    let msg ← dspJsonParse (some body)
    processIdOf msg

/-- The id that the terminate handler looks for. -/
def terminateProcessId (req : HttpdReq) : Option CStr := do
  let body ← recvBody req negBufSize
  let msg ← dspJsonParse (some body)
  processIdOf msg

/-- The id of a negotiation path, if it has one. -/
def pathNegId (uri : CStr) : Option CStr :=
  let id := extractNegId (some uri) dspNegPidLen
  if id.bytes = [] then none else some id

theorem processIdOf_eq_none {msg : Json} (h : processIdOf msg = none) :
    (dspJsonGetString (some msg) (some Jsonld.fieldProcessId) dspNegPidLen).2.bytes = [] := by
  simp only [processIdOf] at h
  split_ifs at h with hne
  exact hne

theorem processIdOf_eq_some {msg : Json} {p : CStr} (h : processIdOf msg = some p) :
    (dspJsonGetString (some msg) (some Jsonld.fieldProcessId) dspNegPidLen).2 = p ∧
      (p.bytes = []) = False := by
  simp only [processIdOf] at h
  split_ifs at h with hne
  obtain rfl := Option.some.inj h
  exact ⟨rfl, eq_false hne⟩

theorem processIdOf_length {msg : Json} {p : CStr} (h : processIdOf msg = some p) :
    p.bytes ≠ [] ∧ p.length < dspNegPidLen := by
  obtain ⟨rfl, hne⟩ := processIdOf_eq_some h
  exact ⟨of_eq_false hne, getString_length _ _ (by decide)⟩

theorem terminateProcessId_eq_some {req : HttpdReq} {p : CStr}
    (h : terminateProcessId req = some p) : ∃ msg, processIdOf msg = some p := by
  obtain ⟨body, -, hbody⟩ := Option.bind_eq_some_iff.mp h
  obtain ⟨msg, -, hmsg⟩ := Option.bind_eq_some_iff.mp hbody
  exact ⟨msg, hmsg⟩

theorem offersProcessId_eq_some {req : HttpdReq} {p : CStr}
    (h : offersProcessId req = some p) : ∃ msg, processIdOf msg = some p := by
  obtain ⟨body, -, hbody⟩ := Option.bind_eq_some_iff.mp h
  split_ifs at hbody
  obtain ⟨msg, -, hmsg⟩ := Option.bind_eq_some_iff.mp hbody
  exact ⟨msg, hmsg⟩

theorem offersProcessId_length {req : HttpdReq} {p : CStr} (h : offersProcessId req = some p) :
    p.bytes ≠ [] ∧ p.length < dspNegPidLen :=
  processIdOf_length (offersProcessId_eq_some h).choose_spec

theorem terminateProcessId_length {req : HttpdReq} {p : CStr}
    (h : terminateProcessId req = some p) : p.bytes ≠ [] ∧ p.length < dspNegPidLen :=
  processIdOf_length (terminateProcessId_eq_some h).choose_spec

theorem pathNegId_length {uri p : CStr} (h : pathNegId uri = some p) :
    p.bytes ≠ [] ∧ p.length < dspNegPidLen := by
  simp only [pathNegId] at h
  split_ifs at h with hne
  obtain rfl := Option.some.inj h
  exact ⟨hne, extractId_length_lt _ _ (by decide)⟩

theorem pathNegId_no_slash {uri p : CStr} (h : pathNegId uri = some p) : slash ∉ p.bytes := by
  simp only [pathNegId] at h
  split_ifs at h
  rw [← Option.some.inj h]
  exact slash_not_mem_extractId _ _ (by decide)

/-! ## What the handlers do to the ledger -/

variable {m : NegModule negMax}

/-- The body of a positive answer. -/
def eventText (pid state : CStr) : CStr :=
  responseText (dspBuildNegotiationEvent negBufSize (some pid) (some state))

/-- The slot that an accepted offer leaves. -/
def offeredEntry (pid : CStr) : NegEntry :=
  { newEntry pid Jsonld.configProviderId with state := .offered }

theorem offeredEntry_cpid {pid : CStr} (h : pid.length < dspNegPidLen) :
    (offeredEntry pid).cpid = pid := by
  have hcpid := newEntry_cpid pid Jsonld.configProviderId
  rw [CStr.take_of_length_le (Nat.le_sub_one_of_lt h)] at hcpid
  exact hcpid

theorem offers_rejects {req : HttpdReq} (h : offersProcessId req = none) :
    ∃ message, offersPostHandler m req = (httpdRespSendErr .badRequest message, m) := by
  cases hbody : recvBody req negBufSize with
  | none => exact ⟨_, by simp only [offersPostHandler, hbody]; rfl⟩
  | some body =>
    by_cases hcat : dspMsgValidateCatalogRequest (some body) = .ok
    · exact ⟨_, by simp only [offersPostHandler, hbody, hcat, if_true]; rfl⟩
    · cases hmsg : dspJsonParse (some body) with
      | none => exact ⟨_, by simp only [offersPostHandler, hbody, hcat, if_false, hmsg]; rfl⟩
      | some msg =>
        have hid : processIdOf msg = none := by
          simpa [offersProcessId, hbody, hcat, hmsg] using h
        have hne := processIdOf_eq_none hid
        exact ⟨_, by simp only [offersPostHandler, hbody, hcat, if_false, hmsg, hne, if_true]; rfl⟩

theorem offers_accepts {req : HttpdReq} {p : CStr} (h : offersProcessId req = some p) :
    offersPostHandler m req =
      (let (idx, m) := dspNegCreate m (some p) (some Jsonld.configProviderId)
       if idx < 0 then (httpdRespSendErr .internalServerError "negotiation table full", m)
       else (httpdRespSendstr .created (eventText p Jsonld.negStateOffered),
        (dspNegApply m idx .offer).2)) := by
  obtain ⟨body, hbody, hrest⟩ := Option.bind_eq_some_iff.mp h
  split_ifs at hrest with hcat
  obtain ⟨msg, hmsg, hid⟩ := Option.bind_eq_some_iff.mp hrest
  obtain ⟨hcpid, hne⟩ := processIdOf_eq_some hid
  simp only [offersPostHandler, hbody, hcat, if_false, hmsg, hcpid, hne]
  rfl

/-- The offers handler answers with an error and changes nothing, or it appends
one offered record for the id it was asked for. -/
theorem offers_cases (hw : WellFormed m) (req : HttpdReq) :
    (((offersProcessId req = none) ∨ negMax ≤ (ledger m).length) ∧
      (offersPostHandler m req).1.success = false ∧ (offersPostHandler m req).2 = m) ∨
    ∃ p m', offersProcessId req = some p ∧ (ledger m).length < negMax ∧
      offersPostHandler m req =
        (httpdRespSendstr .created (eventText p Jsonld.negStateOffered), m') ∧
      WellFormed m' ∧ m'.initialized = m.initialized ∧
      ledger m' = ledger m ++ [offeredEntry p] := by
  cases hreq : offersProcessId req with
  | none =>
    obtain ⟨message, hrejects⟩ := offers_rejects (m := m) hreq
    rw [hrejects]
    exact .inl ⟨.inl rfl, rfl, rfl⟩
  | some p =>
    have haccepts := offers_accepts (m := m) hreq
    rcases create_cases hw p Jsonld.configProviderId with ⟨hfull, hc⟩ | ⟨m₁, hlt, hc, hw₁, hi₁, hl₁⟩
    · left
      rw [hc] at haccepts
      rw [haccepts]
      exact ⟨.inr hfull, rfl, rfl⟩
    · right
      have hget : (ledger m₁)[(ledger m).length]? = some (newEntry p Jsonld.configProviderId) := by
        rw [hl₁, List.getElem?_concat_length]
      rcases apply_cases hw₁ ((ledger m).length : Int) .offer with ⟨hnone, -⟩ |
        ⟨i, e, m₂, hi, he, ha, hw₂, hi₂, hl₂⟩
      · rw [hnone _ rfl] at hget
        cases hget
      · obtain rfl : (ledger m).length = i := by omega
        obtain rfl := Option.some.inj (he.symm.trans hget)
        refine ⟨p, m₂, rfl, hlt, ?_, hw₂, hi₂.trans hi₁, ?_⟩
        · rw [haccepts, hc]
          simp only [ha]
          exact if_neg (by omega)
        · rw [hl₂, hl₁, List.set_append_right _ _ le_rfl, Nat.sub_self]
          rfl

/-- The first record of `p` after an offer for `q`: a second slot is not seen. -/
theorem stateOf_offer {m' : NegModule negMax} {q : CStr} (hq : q.length < dspNegPidLen)
    (hl : ledger m' = ledger m ++ [offeredEntry q]) (p : CStr) :
    stateOf m' p = (stateOf m p).or (if q = p then some .offered else none) := by
  rw [stateOf, findNeg, hl, lookup_append, offeredEntry_cpid hq]
  unfold stateOf findNeg
  cases lookup NegEntry.cpid p (ledger m) with
  | some e => rfl
  | none =>
    by_cases hqp : q = p
    · simp only [hqp, if_true]
      rfl
    · simp only [hqp, if_false]
      rfl

theorem terminate_rejects {req : HttpdReq} (h : terminateProcessId req = none) :
    ∃ message, terminatePostHandler m req = (httpdRespSendErr .badRequest message, m) := by
  cases hbody : recvBody req negBufSize with
  | none => exact ⟨_, by simp only [terminatePostHandler, hbody]; rfl⟩
  | some body =>
    cases hmsg : dspJsonParse (some body) with
    | none => exact ⟨_, by simp only [terminatePostHandler, hbody, hmsg]; rfl⟩
    | some msg =>
      have hid : processIdOf msg = none := by
        simpa [terminateProcessId, hbody, hmsg] using h
      have hne := processIdOf_eq_none hid
      exact ⟨_, by simp only [terminatePostHandler, hbody, hmsg, hne, if_true]; rfl⟩

theorem terminate_accepts {req : HttpdReq} {p : CStr} (h : terminateProcessId req = some p) :
    terminatePostHandler m req =
      if dspNegFindByCpid m (some p) < 0 then
        (httpdRespSendErr .notFound "negotiation not found", m)
      else (httpdRespSendstr .ok (eventText p Jsonld.negStateTerminated),
        (dspNegApply m (dspNegFindByCpid m (some p)) .terminate).2) := by
  obtain ⟨body, hbody, hrest⟩ := Option.bind_eq_some_iff.mp h
  obtain ⟨msg, hmsg, hid⟩ := Option.bind_eq_some_iff.mp hrest
  obtain ⟨hcpid, hne⟩ := processIdOf_eq_some hid
  simp only [terminatePostHandler, hbody, hmsg, hcpid, hne, if_false]
  rfl

/-- The terminate handler answers with an error and changes nothing, or it moves
the first record of the id, by the state machine. -/
theorem terminate_cases (hw : WellFormed m) (req : HttpdReq) :
    ((∀ p, terminateProcessId req = some p → findNeg m p = none) ∧
      (terminatePostHandler m req).1.success = false ∧ (terminatePostHandler m req).2 = m) ∨
    ∃ p i e m', terminateProcessId req = some p ∧
      (ledger m).findIdx? (fun e => decide (e.cpid = p)) = some i ∧
      (ledger m)[i]? = some e ∧ e.cpid = p ∧ findNeg m p = some e ∧
      terminatePostHandler m req =
        (httpdRespSendstr .ok (eventText p Jsonld.negStateTerminated), m') ∧
      WellFormed m' ∧ m'.initialized = m.initialized ∧
      ledger m' = (ledger m).set i { e with state := dspNegSmNext e.state .terminate } := by
  cases hreq : terminateProcessId req with
  | none =>
    obtain ⟨message, hrejects⟩ := terminate_rejects (m := m) hreq
    rw [hrejects]
    refine .inl ⟨?_, rfl, rfl⟩
    intro p hp
    cases hp
  | some p =>
    have haccepts := terminate_accepts (m := m) hreq
    rcases find_cases hw p with ⟨hidx, hf⟩ | ⟨i, e, hidx, hfi, hget, hp, hf⟩
    · left
      rw [hidx] at haccepts
      rw [haccepts]
      refine ⟨?_, rfl, rfl⟩
      intro q hq
      rwa [← Option.some.inj hq]
    · right
      rcases apply_cases hw (i : Int) .terminate with ⟨hnone, -⟩ |
        ⟨j, e', m', hj, he, ha, hw', hi', hl'⟩
      · rw [hnone _ rfl] at hget
        cases hget
      · obtain rfl : i = j := by omega
        obtain rfl := Option.some.inj (he.symm.trans hget)
        refine ⟨p, i, e', m', rfl, hfi, hget, hp, hf, ?_, hw', hi', hl'⟩
        rw [haccepts, hidx]
        simp only [ha]
        exact if_neg (by omega)

theorem agree_accepts (req : HttpdReq) :
    agreePostHandler m req =
      match pathNegId req.uri with
      | none => (httpdRespSendErr .badRequest "missing negotiation id", m)
      | some id =>
        let idx := dspNegFindByCpid m (some id)
        if idx < 0 then (httpdRespSendErr .notFound "negotiation not found", m)
        else if (dspNegApply m idx .agree).1 ≠ .agreed then
          (httpdRespSendErr .badRequest "invalid state for agree", (dspNegApply m idx .agree).2)
        else (httpdRespSendstr .ok (eventText id Jsonld.negStateAgreed),
          (dspNegApply m idx .agree).2) := by
  simp only [agreePostHandler, pathNegId]
  by_cases hne : (extractNegId (some req.uri) dspNegPidLen).bytes = []
  · simp only [hne, if_true]
  · simp only [hne, if_false]
    rfl

/-- The states from which AGREE leads to, or stays in, `AGREED`. -/
def agrees (s : NegState) : Prop := s = .requested ∨ s = .offered ∨ s = .agreed

instance (s : NegState) : Decidable (agrees s) := by
  unfold agrees
  infer_instance

theorem smNext_agree (s : NegState) :
    (agrees s ∧ dspNegSmNext s .agree = .agreed) ∨
      (¬ agrees s ∧ dspNegSmNext s .agree = s ∧ s ≠ .agreed) := by
  cases s <;> simp [agrees, dspNegSmNext]

/-- The agree handler answers with an error and changes nothing, or it puts the
first record of the id into `AGREED`. -/
theorem agree_cases (hw : WellFormed m) (req : HttpdReq) :
    ((∀ p e, pathNegId req.uri = some p → findNeg m p = some e → ¬ agrees e.state) ∧
      (agreePostHandler m req).1.success = false ∧ (agreePostHandler m req).2 = m) ∨
    ∃ p i e m', pathNegId req.uri = some p ∧
      (ledger m).findIdx? (fun e => decide (e.cpid = p)) = some i ∧
      (ledger m)[i]? = some e ∧ e.cpid = p ∧ findNeg m p = some e ∧ agrees e.state ∧
      agreePostHandler m req =
        (httpdRespSendstr .ok (eventText p Jsonld.negStateAgreed), m') ∧
      WellFormed m' ∧ m'.initialized = m.initialized ∧
      ledger m' = (ledger m).set i { e with state := .agreed } := by
  have haccepts := agree_accepts (m := m) req
  cases hreq : pathNegId req.uri with
  | none =>
    left
    rw [hreq] at haccepts
    rw [haccepts]
    refine ⟨?_, rfl, rfl⟩
    intro p e hp
    cases hp
  | some p =>
    rw [hreq] at haccepts
    simp only at haccepts
    rcases find_cases hw p with ⟨hidx, hf⟩ | ⟨i, e, hidx, hfi, hget, hp, hf⟩
    · left
      rw [hidx] at haccepts
      rw [haccepts]
      refine ⟨?_, rfl, rfl⟩
      intro q e hq he
      rw [← Option.some.inj hq, hf] at he
      cases he
    · rw [hidx, if_neg (by omega)] at haccepts
      rcases smNext_agree e.state with ⟨hagrees, hnext⟩ | ⟨hagrees, hnext, hne⟩
      · right
        rcases apply_cases hw (i : Int) .agree with ⟨hnone, -⟩ |
          ⟨j, e', m', hj, he, ha, hw', hi', hl'⟩
        · rw [hnone _ rfl] at hget
          cases hget
        · obtain rfl : i = j := by omega
          obtain rfl := Option.some.inj (he.symm.trans hget)
          rw [hnext] at ha hl'
          refine ⟨p, i, e', m', rfl, hfi, hget, hp, hf, hagrees, ?_, hw', hi', hl'⟩
          rw [haccepts, ha]
          rfl
      · left
        have habs := apply_absorbed hget hnext
        rw [haccepts, habs, if_pos hne]
        refine ⟨?_, rfl, rfl⟩
        intro q e' hq he'
        rw [← Option.some.inj hq, hf] at he'
        rwa [← Option.some.inj he']

/-- The slot that a request to agree is about. -/
def agreeSlot (m : NegModule negMax) (req : HttpdReq) : Int :=
  dspNegFindByCpid m (some (extractNegId (some req.uri) dspNegPidLen))

theorem getState_agreeSlot (hw : WellFormed m) {req : HttpdReq} {p : CStr}
    (hreq : pathNegId req.uri = some p) :
    dspNegGetState m (agreeSlot m req) = (stateOf m p).getD .initial := by
  simp only [pathNegId] at hreq
  split_ifs at hreq
  rw [agreeSlot, Option.some.inj hreq, getState_find hw]

/-- An agree request meets no slot, or the first one of its id. -/
theorem agreeSlot_cases (hw : WellFormed m)
    (hid : ∀ e ∈ ledger m, e.cpid.bytes ≠ []) (req : HttpdReq) :
    ((∀ p, pathNegId req.uri = some p → findNeg m p = none) ∧ agreeSlot m req = -1) ∨
    ∃ (p : CStr) (i : Nat) (e : NegEntry), pathNegId req.uri = some p ∧ agreeSlot m req = i ∧
      (ledger m).findIdx? (fun e => decide (e.cpid = p)) = some i ∧
      (ledger m)[i]? = some e ∧ findNeg m p = some e := by
  simp only [pathNegId, agreeSlot]
  rcases find_cases hw (extractNegId (some req.uri) dspNegPidLen) with
    ⟨hidx, hf⟩ | ⟨i, e, hidx, hfi, hget, hp, hf⟩
  · left
    refine ⟨?_, hidx⟩
    intro p hreq
    split_ifs at hreq
    rwa [← Option.some.inj hreq]
  · right
    have hne := hid e (List.mem_of_getElem? hget)
    rw [hp] at hne
    exact ⟨_, i, e, if_neg hne, hidx, hfi, hget, hf⟩

/-- Success is decided by the state of the slot before the request. -/
theorem agree_success_iff (hw : WellFormed m)
    (hid : ∀ e ∈ ledger m, e.cpid.bytes ≠ []) (req : HttpdReq) :
    (agreePostHandler m req).1.success = true ↔ agrees (dspNegGetState m (agreeSlot m req)) := by
  rcases agreeSlot_cases hw hid req with ⟨hnone, hslot⟩ | ⟨p, i, e, hreq, hslot, -, hget, hf⟩
  · rw [hslot, getState_absent]
    rcases agree_cases hw req with ⟨-, hfail, -⟩ | ⟨p, i, e, m', hreq, -, -, -, hf, -⟩
    · rw [hfail]
      decide
    · rw [hnone p hreq] at hf
      cases hf
  · rw [hslot, getState_of_ledger hget]
    rcases agree_cases hw req with ⟨hrefused, hfail, -⟩ |
      ⟨q, j, e', m', hreq', -, -, -, hf', hagrees, heq, -⟩
    · rw [hfail]
      exact iff_of_false Bool.false_ne_true (hrefused p e hreq hf)
    · obtain rfl := Option.some.inj (hreq.symm.trans hreq')
      obtain rfl := Option.some.inj (hf.symm.trans hf')
      rw [heq]
      exact iff_of_true rfl hagrees

theorem agree_success_agreed (hw : WellFormed m)
    (hid : ∀ e ∈ ledger m, e.cpid.bytes ≠ []) {req : HttpdReq}
    (hok : (agreePostHandler m req).1.success = true) :
    dspNegGetState (agreePostHandler m req).2 (agreeSlot m req) = .agreed := by
  rcases agree_cases hw req with ⟨-, hfail, -⟩ |
    ⟨p, i, e, m', hreq, hfi, hget, -, hf, -, heq, -, -, hl'⟩
  · rw [hfail] at hok
    cases hok
  · have hslot : agreeSlot m req = i := by
      rcases agreeSlot_cases hw hid req with ⟨hnone, -⟩ | ⟨q, j, e', hreq', hslot, hfj, -, -⟩
      · rw [hnone p hreq] at hf
        cases hf
      · obtain rfl := Option.some.inj (hreq.symm.trans hreq')
        rw [hslot, Option.some.inj (hfj.symm.trans hfi)]
    have hlt : i < (ledger m).length := (List.getElem?_eq_some_iff.mp hget).1
    have hget' : (ledger m')[i]? = some { e with state := .agreed } := by
      rw [hl', List.getElem?_set_self hlt]
    rw [hslot, heq]
    exact getState_of_ledger hget'

theorem get_accepts (req : HttpdReq) :
    negGetHandler m req =
      match pathNegId req.uri with
      | none => (httpdRespSendErr .badRequest "missing negotiation id", m)
      | some id =>
        let idx := dspNegFindByCpid m (some id)
        if idx < 0 then (httpdRespSendErr .notFound "negotiation not found", m)
        else (httpdRespSendstr .ok (eventText id (stateStr (dspNegGetState m idx))), m) := by
  simp only [negGetHandler, pathNegId]
  by_cases hne : (extractNegId (some req.uri) dspNegPidLen).bytes = []
  · simp only [hne, if_true]
  · simp only [hne, if_false]
    rfl

/-- GET only reads. -/
theorem negGet_snd (req : HttpdReq) : (negGetHandler m req).2 = m := by
  unfold negGetHandler
  simp only
  split_ifs <;> rfl

/-- GET reports the first record of the id. -/
theorem get_found (hw : WellFormed m) {req : HttpdReq} {p : CStr} {e : NegEntry}
    (hreq : pathNegId req.uri = some p) (hf : findNeg m p = some e) :
    negGetHandler m req = (httpdRespSendstr .ok (eventText p (stateStr e.state)), m) := by
  have haccepts := get_accepts (m := m) req
  rw [hreq] at haccepts
  simp only at haccepts
  rcases find_cases hw p with ⟨-, hf'⟩ | ⟨i, e', hidx, -, hget, -, hf'⟩
  · rw [hf'] at hf
    cases hf
  · obtain rfl := Option.some.inj (hf'.symm.trans hf)
    rw [haccepts, hidx, if_neg (by omega), getState_of_ledger hget]

theorem get_not_found (hw : WellFormed m) {req : HttpdReq}
    (h : ∀ p, pathNegId req.uri = some p → findNeg m p = none) :
    (negGetHandler m req).1.success = false := by
  have haccepts := get_accepts (m := m) req
  cases hreq : pathNegId req.uri with
  | none =>
    rw [hreq] at haccepts
    rw [haccepts]
    rfl
  | some p =>
    rw [hreq] at haccepts
    simp only at haccepts
    rcases find_cases hw p with ⟨hidx, -⟩ | ⟨i, e, -, -, -, -, hf⟩
    · rw [haccepts, hidx]
      rfl
    · rw [h p hreq] at hf
      cases hf

end DspEmbedded.Model.Neg
