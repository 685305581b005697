import DspEmbedded.Audit.Builders
import DspEmbedded.Model.Board

/-!
# Responses fit their buffer

The handlers ignore what the builders return and send the 1024 byte buffer. A
process id takes at most 63 bytes, each of which prints to at most six, so every
message that a handler builds fits, and no positive answer has an empty body.
-/
namespace DspEmbedded.Audit.ResponseFit

open Lib.CString CJson Model Model.Esp Model.Json Model.Build Model.Neg Model.Xfer Model.Board
open Audit.Builders

variable {negMax xferMax : Nat}

/-! ## The calls -/

/-- The state strings of the negotiation handlers. -/
def negStates : List CStr :=
  [Jsonld.negStateRequested, Jsonld.negStateOffered, Jsonld.negStateAgreed,
    Jsonld.negStateVerified, Jsonld.negStateFinalized, Jsonld.negStateTerminated]

/-- The builder calls of both modules for one process id. -/
def handlerCalls (processId : CStr) : List Message :=
  negStates.map (.negotiationEvent processId) ++
    [.transferStart processId Jsonld.configProviderId, .transferCompletion processId,
      .error (CStr.lit "FAILED") (CStr.lit "transfer failed")]

/-- The call succeeds in a buffer of 1024 bytes, and what it leaves there is a message. -/
def Fits (call : Message) : Prop :=
  ∃ out, call.build 1024 = (.ok, some out) ∧ out.bytes ≠ [] ∧
    dspJsonParse (some out) = some call.tree

theorem negStates_length : ∀ s ∈ negStates, s.length ≤ 17 := by decide

theorem fits_of_parse {call : Message} {out : CStr} (hbuild : call.build 1024 = (.ok, some out))
    (hparse : cJSONParse out = some call.tree) : Fits call := by
  refine ⟨out, hbuild, ?_, hparse⟩
  intro hnil
  have hempty : out = CStr.empty := CStr.ext_bytes hnil
  rw [hempty] at hparse
  have hnone : cJSONParse CStr.empty = none := by decide +kernel
  rw [hnone] at hparse
  cases hparse

theorem handlerCalls_fit {processId : CStr} (hpid : processId.length ≤ 63) :
    ∀ call ∈ handlerCalls processId, Fits call := by
  have hlt : processId.length < 64 := Nat.lt_succ_of_le hpid
  intro call hcall
  rcases List.mem_append.mp hcall with hevent | hxfer
  · obtain ⟨state, hstate, rfl⟩ := List.mem_map.mp hevent
    obtain ⟨out, hbuild, hparse⟩ := negotiationEvent_fits hlt (negStates_length state hstate)
    exact fits_of_parse hbuild hparse
  · simp only [List.mem_cons, List.not_mem_nil, or_false] at hxfer
    rcases hxfer with rfl | rfl | rfl
    · obtain ⟨out, hbuild, hparse⟩ := transferStart_fits hlt
      exact fits_of_parse hbuild hparse
    · obtain ⟨out, hbuild, hparse⟩ := transferCompletion_fits hlt
      exact fits_of_parse hbuild hparse
    · obtain ⟨out, hbuild, hparse⟩ := @error_fits (CStr.lit "FAILED")
        (CStr.lit "transfer failed") (by decide) (by decide)
      exact fits_of_parse hbuild hparse

/-! ## The answers -/

/-- A positive answer carries what one of the calls wrote. -/
def Answers (resp : Response) : Prop :=
  resp.success = true → ∃ processId call, processId.length ≤ 63 ∧
    call ∈ handlerCalls processId ∧ resp.body = responseText (call.build 1024)

theorem answers_sendErr {status : HttpStatus} (message : String)
    (h : (httpdRespSendErr status message).success = false) :
    Answers (httpdRespSendErr status message) := by
  intro hok
  rw [h] at hok
  cases hok

theorem answers_event {processId state : CStr} (hpid : processId.length < dspNegPidLen)
    (hstate : state ∈ negStates) (status : HttpStatus) :
    Answers (httpdRespSendstr status (eventText processId state)) :=
  fun _ => ⟨processId, .negotiationEvent processId state, Nat.le_of_lt_succ hpid,
    List.mem_append_left _ (List.mem_map_of_mem hstate), rfl⟩

theorem answers_start {processId : CStr} (hpid : processId.length < dspXferPidLen)
    (status : HttpStatus) : Answers (httpdRespSendstr status (startText processId)) :=
  fun _ => ⟨processId, .transferStart processId Jsonld.configProviderId, Nat.le_of_lt_succ hpid,
    List.mem_append_right _ List.mem_cons_self, rfl⟩

theorem answers_completion {processId : CStr} (hpid : processId.length < dspXferPidLen)
    (status : HttpStatus) : Answers (httpdRespSendstr status (completionText processId)) :=
  fun _ => ⟨processId, .transferCompletion processId, Nat.le_of_lt_succ hpid,
    List.mem_append_right _ (List.mem_cons_of_mem _ List.mem_cons_self), rfl⟩

theorem answers_failed {processId : CStr} (hpid : processId.length < dspXferPidLen)
    (status : HttpStatus) : Answers (httpdRespSendstr status (stateText processId .failed)) := by
  intro _
  refine ⟨processId, .error (CStr.lit "FAILED") (CStr.lit "transfer failed"),
    Nat.le_of_lt_succ hpid, ?_, by simp only [body_sendstr, stateText, Message.build]; rfl⟩
  apply List.mem_append_right
  simp

theorem stateStr_mem (s : NegState) : stateStr s ∈ negStates := by
  cases s <;> simp [stateStr, negStates]

theorem answers_state {processId : CStr} (hpid : processId.length < dspXferPidLen)
    (s : XferState) (status : HttpStatus) :
    Answers (httpdRespSendstr status (stateText processId s)) := by
  cases s with
  | completed => exact answers_completion hpid status
  | failed => exact answers_failed hpid status
  | initial => exact answers_start hpid status
  | transferring => exact answers_start hpid status
  | other raw h => exact answers_start hpid status

/-! ## The handlers -/

theorem pathXferId_lt {uri p : CStr} (h : pathXferId uri = some p) :
    p.length < dspXferPidLen := by
  simp only [pathXferId] at h
  split_ifs at h
  obtain rfl := Option.some.inj h
  exact PathId.extractId_length_lt _ _ (by decide)

theorem answers_offers (m : NegModule negMax) (req : HttpdReq) :
    Answers (offersPostHandler m req).1 := by
  cases hreq : offersProcessId req with
  | none =>
    obtain ⟨message, hrejects⟩ := offers_rejects (m := m) hreq
    rw [hrejects]
    exact answers_sendErr message rfl
  | some p =>
    rw [offers_accepts hreq]
    simp only
    split_ifs
    · exact answers_sendErr _ rfl
    · exact answers_event (offersProcessId_length hreq).2 (by decide) _

theorem answers_terminate (m : NegModule negMax) (req : HttpdReq) :
    Answers (terminatePostHandler m req).1 := by
  cases hreq : terminateProcessId req with
  | none =>
    obtain ⟨message, hrejects⟩ := terminate_rejects (m := m) hreq
    rw [hrejects]
    exact answers_sendErr message rfl
  | some p =>
    rw [terminate_accepts hreq]
    split_ifs
    · exact answers_sendErr _ rfl
    · exact answers_event (terminateProcessId_length hreq).2 (by decide) _

theorem answers_agree (m : NegModule negMax) (req : HttpdReq) :
    Answers (agreePostHandler m req).1 := by
  rw [agree_accepts]
  cases hreq : pathNegId req.uri with
  | none => exact answers_sendErr _ rfl
  | some p =>
    simp only
    split_ifs
    · exact answers_sendErr _ rfl
    · exact answers_sendErr _ rfl
    · exact answers_event (pathNegId_length hreq).2 (by decide) _

theorem answers_negGet (m : NegModule negMax) (req : HttpdReq) :
    Answers (negGetHandler m req).1 := by
  rw [Neg.get_accepts]
  cases hreq : pathNegId req.uri with
  | none => exact answers_sendErr _ rfl
  | some p =>
    simp only
    split_ifs
    · exact answers_sendErr _ rfl
    · exact answers_event (pathNegId_length hreq).2 (stateStr_mem _) _

theorem answers_xferStart (neg : NegModule negMax) (m : XferModule xferMax) (req : HttpdReq) :
    Answers (xferStartPostHandler neg m req).1 := by
  cases hreq : startProcessId req with
  | none =>
    obtain ⟨message, hrejects⟩ := @start_rejects _ _ neg m _ hreq
    rw [hrejects]
    exact answers_sendErr message rfl
  | some p =>
    rw [start_accepts hreq]
    simp only
    split_ifs
    · exact answers_sendErr _ rfl
    · exact answers_sendErr _ rfl
    · exact answers_start (startProcessId_length hreq).2 _

theorem answers_xferComplete (m : XferModule xferMax) (req : HttpdReq) :
    Answers (xferCompletePostHandler m req).1 := by
  rw [complete_accepts]
  cases hreq : pathXferId req.uri with
  | none => exact answers_sendErr _ rfl
  | some p =>
    simp only
    split_ifs
    · exact answers_sendErr _ rfl
    · exact answers_sendErr _ rfl
    · exact answers_completion (pathXferId_lt hreq) _

theorem answers_xferGet (m : XferModule xferMax) (req : HttpdReq) :
    Answers (xferGetHandler m req).1 := by
  rw [Xfer.get_accepts]
  cases hreq : pathXferId req.uri with
  | none => exact answers_sendErr _ rfl
  | some p =>
    simp only
    split_ifs
    · exact answers_sendErr _ rfl
    · exact answers_state (pathXferId_lt hreq) _ _

theorem answers_serve (d : Device negMax xferMax) (endpoint : Endpoint) (req : HttpdReq) :
    Answers (serve d endpoint req).1 := by
  cases endpoint with
  | offers => exact answers_offers d.neg req
  | agree => exact answers_agree d.neg req
  | terminate => exact answers_terminate d.neg req
  | negGet => exact answers_negGet d.neg req
  | xferStart => exact answers_xferStart d.neg d.xfer req
  | xferComplete => exact answers_xferComplete d.xfer req
  | xferGet => exact answers_xferGet d.xfer req

/-- **Responses always fit.** Every builder call of the handlers succeeds for every
process id of at most 63 bytes, and in every state every positive answer to any
request carries the message that such a call wrote. -/
theorem responses_fit :
    (∀ processId : CStr, processId.length ≤ 63 → ∀ call ∈ handlerCalls processId, Fits call) ∧
    ∀ (negMax xferMax : Nat) (d : Device negMax xferMax) (endpoint : Endpoint) (req : HttpdReq),
      (serve d endpoint req).1.success = true →
        (serve d endpoint req).1.body.bytes ≠ [] ∧
        ∃ processId call, processId.length ≤ 63 ∧ call ∈ handlerCalls processId ∧
          call.build 1024 = (.ok, some (serve d endpoint req).1.body) := by
  refine ⟨fun processId hpid => handlerCalls_fit hpid, ?_⟩
  intro negMax xferMax d endpoint req hok
  obtain ⟨processId, call, hpid, hcall, hbody⟩ := answers_serve d endpoint req hok
  obtain ⟨out, hbuild, hne, -⟩ := handlerCalls_fit hpid call hcall
  have hout : (serve d endpoint req).1.body = out := by
    rw [hbody, hbuild]
    rfl
  rw [hout]
  exact ⟨hne, processId, call, hpid, hcall, hbuild⟩

end DspEmbedded.Audit.ResponseFit
