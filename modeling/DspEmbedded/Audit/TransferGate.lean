import DspEmbedded.Audit.Requests

/-!
# The transfer gate is a function of the history

Whether a transfer may start is decided by the answers given so far: some agree
for the id succeeded, no terminate for it did, and there is a free transfer slot.
The invariant reads the state of the first record of every id off the history.
Slots are never freed and ids never change, so the first record of an id stays
the first one, also when the id is offered again.
-/
namespace DspEmbedded.Audit.TransferGate

open Lib.CString Lib.Runs Lib.SlotTable CJson Model Model.Esp Model.Json Model.Msg Model.PathId
open Model.Neg Model.Board
open Model.RtcState (RtcStore)
open Model.Xfer (startProcessId)
open Audit.Requests

variable {negMax xferMax : Nat}

/-! ## What a history says -/

/-- The actions so far with their answers. -/
abbrev History := List (Action × Option Response)

def succeeded (e : Action × Option Response) : Bool :=
  match e.2 with
  | some resp => resp.success
  | none => false

def isStart : Action → Bool
  | .request .xferStart _ => true
  | _ => false

/-- How many starts were answered with success. -/
def startsSucceeded (h : History) : Nat := h.countP fun e => isStart e.1 && succeeded e

/-- Some agree request for `p` was answered with success. -/
def AgreedBefore (h : History) (p : CStr) : Prop :=
  ∃ req resp, (Action.request .agree req, some resp) ∈ h ∧
    extractNegId (some req.uri) dspNegPidLen = p ∧ resp.success = true

/-- Some terminate request for `p` was answered with success. -/
def TerminatedBefore (h : History) (p : CStr) : Prop :=
  ∃ req resp, (Action.request .terminate req, some resp) ∈ h ∧ Carries req p ∧
    resp.success = true

theorem startsSucceeded_snoc (h : History) (e : Action × Option Response) :
    startsSucceeded (h ++ [e]) =
      startsSucceeded h + if isStart e.1 && succeeded e then 1 else 0 := by
  simp [startsSucceeded, List.countP_append, List.countP_singleton]

section Snoc

variable {h : History} {endpoint : Endpoint} {Q : HttpdReq → Response → Prop}

/-- An action that is no request to the endpoint adds none to the history. -/
theorem answered_other {a : Action} {o : Option Response} (ha : ∀ req, a ≠ .request endpoint req) :
    (∃ req resp, (Action.request endpoint req, some resp) ∈ h ++ [(a, o)] ∧ Q req resp) ↔
      ∃ req resp, (Action.request endpoint req, some resp) ∈ h ∧ Q req resp := by
  constructor
  · intro hex
    obtain ⟨req, resp, hmem, hq⟩ := hex
    rcases List.mem_append.mp hmem with hmem | hmem
    · exact ⟨req, resp, hmem, hq⟩
    · obtain ⟨rfl, -⟩ := Prod.mk.inj (List.mem_singleton.mp hmem)
      exact absurd rfl (ha req)
  · intro hex
    obtain ⟨req, resp, hmem, hq⟩ := hex
    exact ⟨req, resp, List.mem_append_left _ hmem, hq⟩

/-- A request to it adds itself. -/
theorem answered_own {req : HttpdReq} {resp : Response} :
    (∃ req' resp', (Action.request endpoint req', some resp') ∈
        h ++ [(.request endpoint req, some resp)] ∧ Q req' resp') ↔
      (∃ req' resp', (Action.request endpoint req', some resp') ∈ h ∧ Q req' resp') ∨
        Q req resp := by
  constructor
  · intro hex
    obtain ⟨req', resp', hmem, hq⟩ := hex
    rcases List.mem_append.mp hmem with hmem | hmem
    · exact .inl ⟨req', resp', hmem, hq⟩
    · obtain ⟨hreq, hresp⟩ := Prod.mk.inj (List.mem_singleton.mp hmem)
      obtain ⟨-, rfl⟩ := Action.request.inj hreq
      obtain rfl := Option.some.inj hresp
      exact .inr hq
  · rintro (⟨req', resp', hmem, hq⟩ | hq)
    · exact ⟨req', resp', List.mem_append_left _ hmem, hq⟩
    · exact ⟨req, resp, List.mem_append_right _ (List.mem_singleton.mpr rfl), hq⟩

variable {p : CStr}

theorem agreedBefore_other {a : Action} {o : Option Response}
    (ha : ∀ req, a ≠ .request .agree req) : AgreedBefore (h ++ [(a, o)]) p ↔ AgreedBefore h p :=
  answered_other ha

theorem agreedBefore_agree {req : HttpdReq} {resp : Response} :
    AgreedBefore (h ++ [(.request .agree req, some resp)]) p ↔
      AgreedBefore h p ∨ (extractNegId (some req.uri) dspNegPidLen = p ∧ resp.success = true) :=
  answered_own

theorem terminatedBefore_other {a : Action} {o : Option Response}
    (ha : ∀ req, a ≠ .request .terminate req) :
    TerminatedBefore (h ++ [(a, o)]) p ↔ TerminatedBefore h p :=
  answered_other ha

theorem terminatedBefore_terminate {req : HttpdReq} {resp : Response} :
    TerminatedBefore (h ++ [(.request .terminate req, some resp)]) p ↔
      TerminatedBefore h p ∨ (Carries req p ∧ resp.success = true) :=
  answered_own

end Snoc

/-! ## The invariant -/

/-- What the history says about an id, against the state of its first record. -/
def Tracks (agreed terminated : Prop) : Option NegState → Prop
  | none => ¬ agreed ∧ ¬ terminated
  | some .offered => ¬ agreed ∧ ¬ terminated
  | some .agreed => agreed ∧ ¬ terminated
  | some .terminated => terminated
  | _ => False

structure Inv (h : History) (d : Device negMax xferMax) : Prop where
  wellFormed : Board.WellFormed d
  starts : (Xfer.ledger d.xfer).length = startsSucceeded h
  tracks : ∀ p, ValidPid p → Tracks (AgreedBefore h p) (TerminatedBefore h p) (stateOf d.neg p)

theorem tracks_offer {agreed terminated : Prop} {o : Option NegState}
    (h : Tracks agreed terminated o) (c : Bool) :
    Tracks agreed terminated (o.or (if c then some .offered else none)) := by
  cases o with
  | some s => exact h
  | none =>
    cases c with
    | false => exact h
    | true => exact h

theorem tracks_agreed_iff {agreed terminated : Prop} {s : NegState}
    (h : Tracks agreed terminated (some s)) : s = .agreed ↔ agreed ∧ ¬ terminated := by
  cases s with
  | agreed => exact ⟨fun _ => h, fun _ => rfl⟩
  | offered =>
    constructor
    · intro hs
      cases hs
    · intro hboth
      obtain ⟨ha, -⟩ := hboth
      exact absurd ha h.1
  | terminated =>
    constructor
    · intro hs
      cases hs
    · intro hboth
      obtain ⟨-, ht⟩ := hboth
      exact absurd h ht
  | _ => exact h.elim

theorem tracks_terminated {agreed terminated : Prop} {o : Option NegState}
    (h : Tracks agreed terminated o) (ht : terminated) : o = some .terminated := by
  cases o with
  | none => exact absurd ht h.2
  | some s =>
    cases s with
    | terminated => rfl
    | offered => exact absurd ht h.2
    | agreed => exact absurd ht h.2
    | _ => exact h.elim

/-- An action that the history predicates do not ask about. -/
theorem inv_other {h : History} {d d' : Device negMax xferMax} {a : Action} {o : Option Response}
    (hi : Inv h d) (hw : Board.WellFormed d') (hneg : ∀ p, stateOf d'.neg p = stateOf d.neg p)
    (hagree : ∀ req, a ≠ .request .agree req) (hterm : ∀ req, a ≠ .request .terminate req)
    (hstarts : (Xfer.ledger d'.xfer).length = startsSucceeded (h ++ [(a, o)])) :
    Inv (h ++ [(a, o)]) d' where
  wellFormed := hw
  starts := hstarts
  tracks := by
    intro p hp
    rw [hneg, agreedBefore_other hagree, terminatedBefore_other hterm]
    exact hi.tracks p hp

/-- An offer makes a new process id offered and leaves all others as they are. -/
theorem tracks_offers {h : History} {d : Device negMax xferMax} (hi : Inv h d) (req : HttpdReq)
    (o : Option Response) {p : CStr} (hp : ValidPid p) :
    Tracks (AgreedBefore (h ++ [(.request .offers req, o)]) p)
      (TerminatedBefore (h ++ [(.request .offers req, o)]) p)
      (stateOf (serve d .offers req).2.neg p) := by
  rw [agreedBefore_other (by simp), terminatedBefore_other (by simp)]
  rcases offers_cases hi.wellFormed.neg req with ⟨-, -, hm⟩ | ⟨q, m', hreq, -, heq, -, -, hl⟩
  · simp only [serve, hm]
    exact hi.tracks p hp
  · simp only [serve, heq]
    rw [stateOf_offer (offersProcessId_length hreq).2 hl]
    have htracks := tracks_offer (hi.tracks p hp) (decide (q = p))
    simpa only [decide_eq_true_eq] using htracks

/-- A successful agree finds its process id not terminated, and makes it agreed. -/
theorem tracks_agree {h : History} {d : Device negMax xferMax} (hi : Inv h d) (req : HttpdReq)
    {p : CStr} (hp : ValidPid p) :
    Tracks (AgreedBefore (h ++ [(.request .agree req, some (serve d .agree req).1)]) p)
      (TerminatedBefore (h ++ [(.request .agree req, some (serve d .agree req).1)]) p)
      (stateOf (serve d .agree req).2.neg p) := by
  have hold := hi.tracks p hp
  rw [terminatedBefore_other (by simp), agreedBefore_agree]
  rcases agree_cases hi.wellFormed.neg req with ⟨-, hfail, hm⟩ |
    ⟨q, i, e, m', hreq, hfi, hget, hq, hf, hagrees, heq, -, -, hl⟩
  · simp only [serve, hm, hfail, Bool.false_eq_true, and_false, or_false]
    exact hold
  · have hid := (@pathNegId_iff req.uri p hp).symm
    simp only [serve, heq]
    rw [stateOf_set hfi hget hq hl, hid, hreq]
    by_cases hqp : q = p
    · subst hqp
      rw [stateOf_of_find hf] at hold
      have hterm : ¬ TerminatedBefore h q := by
        rcases hagrees with hs | hs | hs
        · rw [hs] at hold
          exact hold.elim
        · rw [hs] at hold
          exact hold.2
        · rw [hs] at hold
          exact hold.2
      rw [if_pos rfl]
      exact ⟨.inr ⟨rfl, rfl⟩, hterm⟩
    · rw [if_neg hqp]
      simpa only [Option.some.injEq, hqp, false_and, or_false] using hold

/-- A successful terminate ends in the terminated state, whatever the state before. -/
theorem tracks_terminate {h : History} {d : Device negMax xferMax} (hi : Inv h d)
    (req : HttpdReq) {p : CStr} (hp : ValidPid p) :
    Tracks (AgreedBefore (h ++ [(.request .terminate req, some (serve d .terminate req).1)]) p)
      (TerminatedBefore (h ++ [(.request .terminate req, some (serve d .terminate req).1)]) p)
      (stateOf (serve d .terminate req).2.neg p) := by
  have hold := hi.tracks p hp
  rw [agreedBefore_other (by simp), terminatedBefore_terminate]
  rcases terminate_cases hi.wellFormed.neg req with ⟨-, hfail, hm⟩ |
    ⟨q, i, e, m', hreq, hfi, hget, hq, hf, heq, -, -, hl⟩
  · simp only [serve, hm, hfail, Bool.false_eq_true, and_false, or_false]
    exact hold
  · have hid := (@terminateProcessId_iff req p hp).symm
    simp only [serve, heq]
    rw [stateOf_set hfi hget hq hl, hid, hreq]
    by_cases hqp : q = p
    · subst hqp
      rw [stateOf_of_find hf] at hold
      have hnext : dspNegSmNext e.state .terminate = .terminated := by
        cases hs : e.state <;> rw [hs] at hold <;> first | rfl | exact hold.elim
      rw [if_pos rfl, hnext]
      exact .inr ⟨rfl, rfl⟩
    · rw [if_neg hqp]
      simpa only [Option.some.injEq, hqp, false_and, or_false] using hold

/-- **Step.** Every action keeps the history and the tables in agreement. -/
theorem inv_step (h : History) (d : Device negMax xferMax) (a : Action) (hi : Inv h d) :
    Inv (h ++ [(a, (step d a).1)]) (step d a).2 := by
  have hw := hi.wellFormed
  have hw' := step_wellFormed hw a
  have hsame : ∀ {o : Option Response}, isStart a = false →
      startsSucceeded (h ++ [(a, o)]) = startsSucceeded h := by
    intro o ha
    rw [startsSucceeded_snoc, ha]
    rfl
  cases a with
  | sleep =>
    rw [step, sleepCycle_eq hw.storable] at hw' ⊢
    apply inv_other hi hw' (fun p => rfl) (by simp) (by simp)
    rw [hsame rfl]
    exact hi.starts
  | request endpoint req =>
    cases endpoint with
    | offers =>
      refine ⟨hw', ?_, fun p hp => tracks_offers hi req _ hp⟩
      rw [hsame rfl]
      exact hi.starts
    | agree =>
      refine ⟨hw', ?_, fun p hp => tracks_agree hi req hp⟩
      rw [hsame rfl]
      exact hi.starts
    | terminate =>
      refine ⟨hw', ?_, fun p hp => tracks_terminate hi req hp⟩
      rw [hsame rfl]
      exact hi.starts
    | negGet =>
      apply inv_other hi hw' _ (by simp) (by simp)
      · rw [hsame rfl]
        exact hi.starts
      · intro p
        simp only [step, serve, negGet_snd]
    | xferStart =>
      apply inv_other hi hw' (fun p => rfl) (by simp) (by simp)
      rw [startsSucceeded_snoc, ← hi.starts]
      rcases Xfer.start_cases hw.neg hw.xfer req with ⟨-, hfail, hm⟩ |
        ⟨q, m', -, -, -, heq, -, -, -, -, hl⟩
      · simp only [step, serve, hm, isStart, succeeded, hfail]
        rfl
      · simp only [step, serve, heq, isStart, succeeded, hl, List.length_append]
        rfl
    | xferComplete =>
      apply inv_other hi hw' (fun p => rfl) (by simp) (by simp)
      rw [hsame rfl, ← hi.starts]
      rcases Xfer.complete_cases hw.xfer req with ⟨-, -, hm⟩ |
        ⟨q, i, e, m', -, -, -, -, -, -, heq, -, -, -, -, hl⟩
      · simp only [step, serve, hm]
      · simp only [step, serve, heq, hl, List.length_set]
    | xferGet =>
      apply inv_other hi hw' (fun p => rfl) (by simp) (by simp)
      rw [hsame rfl, ← hi.starts]
      simp only [step, serve, Xfer.xferGet_snd]

theorem inv_boot (store : RtcStore negMax xferMax) (notify : Bool) :
    Inv [] (boot store notify) where
  wellFormed := boot_wellFormed store notify
  starts := by
    have hempty : Xfer.ledger (boot store notify).xfer = [] := Xfer.ledger_fill true notify []
    rw [hempty]
    rfl
  tracks := by
    intro p _
    have hempty : Neg.ledger (boot store notify).neg = [] := Neg.ledger_fill true
    have hnone : stateOf (boot store notify).neg p = none := by
      rw [stateOf, findNeg, hempty]
      rfl
    rw [hnone]
    refine ⟨?_, ?_⟩
    · intro hex
      obtain ⟨req, resp, hmem, -⟩ := hex
      cases hmem
    · intro hex
      obtain ⟨req, resp, hmem, -⟩ := hex
      cases hmem

/-- **Run.** The invariant holds after every history. -/
theorem inv_run (store : RtcStore negMax xferMax) (notify : Bool) (as : List Action) :
    Inv (trace step (boot store notify) as) (final step (boot store notify) as) :=
  trace_invariant inv_step as (inv_boot store notify)

/-! ## The gate -/

/-- The negotiation prerequisite, read off the history. -/
theorem agreed_iff_history {h : History} {d : Device negMax xferMax} (hi : Inv h d) {p : CStr}
    (hp : ValidPid p) : Xfer.agreed d.neg p ↔ AgreedBefore h p ∧ ¬ TerminatedBefore h p := by
  have htracks := hi.tracks p hp
  unfold Xfer.agreed
  cases hf : findNeg d.neg p with
  | none =>
    rw [stateOf, hf] at htracks
    constructor
    · intro hex
      obtain ⟨e, he, -⟩ := hex
      cases he
    · intro hboth
      obtain ⟨ha, -⟩ := hboth
      exact absurd ha htracks.1
  | some e =>
    rw [stateOf_of_find hf] at htracks
    rw [← tracks_agreed_iff htracks]
    constructor
    · intro hex
      obtain ⟨e', he', hs⟩ := hex
      rwa [Option.some.inj he']
    · intro hs
      exact ⟨e, rfl, hs⟩

/-- **The transfer gate.** After any history, a valid transfer request for `p`
succeeds exactly when a transfer slot is left, some agree for `p` succeeded and no
terminate for `p` did; and once a terminate has succeeded, `p` is neither agreed
nor transferred again. -/
theorem start_iff_history (store : RtcStore negMax xferMax) (notify : Bool) (as : List Action)
    {p : CStr} (hp : 1 ≤ p.length ∧ p.length ≤ 63) :
    (∀ req, RequestsTransfer req p →
      ((serve (final step (boot store notify) as) .xferStart req).1.success = true ↔
        startsSucceeded (trace step (boot store notify) as) < xferMax ∧
        AgreedBefore (trace step (boot store notify) as) p ∧
        ¬ TerminatedBefore (trace step (boot store notify) as) p)) ∧
    (TerminatedBefore (trace step (boot store notify) as) p →
      (∀ req, extractNegId (some req.uri) dspNegPidLen = p →
        (serve (final step (boot store notify) as) .agree req).1.success = false) ∧
      ∀ req, Carries req p →
        (serve (final step (boot store notify) as) .xferStart req).1.success = false) := by
  have hi := inv_run store notify as
  have hw := hi.wellFormed
  have hgate := agreed_iff_history hi hp
  refine ⟨?_, ?_⟩
  · intro req hreq
    have hid := (startProcessId_iff hp).mpr hreq
    rcases Xfer.start_cases hw.neg hw.xfer req with ⟨hwhy, hfail, -⟩ |
      ⟨q, m', hreq', ha, hlt, heq, -⟩
    · simp only [serve, hfail, Bool.false_eq_true, false_iff, not_and]
      intro hlt hagreed hterm
      have hfull := hwhy p hid (hgate.mpr ⟨hagreed, hterm⟩)
      rw [hi.starts] at hfull
      omega
    · obtain rfl := Option.some.inj (hreq'.symm.trans hid)
      simp only [serve, heq]
      rw [hi.starts] at hlt
      exact ⟨fun _ => ⟨hlt, hgate.mp ha⟩, fun _ => rfl⟩
  · intro hterm
    have hstate := tracks_terminated (hi.tracks p hp) hterm
    refine ⟨?_, ?_⟩
    · intro req hid
      rcases agree_cases hw.neg req with ⟨-, hfail, -⟩ |
        ⟨q, i, e, m', hreq, -, -, -, hf, hagrees, -⟩
      · simp only [serve, hfail]
      · rw [(pathNegId_iff hp).mpr hid] at hreq
        rw [Option.some.inj hreq, stateOf_of_find hf] at hstate
        rw [Option.some.inj hstate] at hagrees
        exact absurd hagrees (by decide)
    · intro req hcarries
      rcases Xfer.start_cases hw.neg hw.xfer req with ⟨-, hfail, -⟩ | ⟨q, m', hreq, ha, -⟩
      · simp only [serve, hfail]
      · have hq : q = p := by
          obtain ⟨body, hbody, hrest⟩ := Option.bind_eq_some_iff.mp hreq
          split_ifs at hrest
          obtain ⟨msg, hmsg, hid⟩ := Option.bind_eq_some_iff.mp hrest
          obtain ⟨body', msg', hbody', hmsg', hid'⟩ := hcarries
          obtain rfl := Option.some.inj (hbody.symm.trans hbody')
          obtain rfl := Option.some.inj (hmsg.symm.trans hmsg')
          rw [(processIdOf_iff hp).mpr hid'] at hid
          exact (Option.some.inj hid).symm
        subst hq
        obtain ⟨e, hf, hs⟩ := ha
        rw [stateOf_of_find hf, hs] at hstate
        cases hstate

/-- A device on which `p` was offered and agreed. -/
def agreedHistory : List Action :=
  [.request .offers offerRequest, .request .agree agreeRequest]

/-- There the first transfer starts, so the history allows it. -/
theorem start_iff_history_agreed :
    startsSucceeded (trace step (boot (RtcStore.zero 4 2) true) agreedHistory) < 2 ∧
      AgreedBefore (trace step (boot (RtcStore.zero 4 2) true) agreedHistory) (CStr.lit "p") ∧
      ¬ TerminatedBefore (trace step (boot (RtcStore.zero 4 2) true) agreedHistory)
        (CStr.lit "p") :=
  ((start_iff_history (RtcStore.zero 4 2) true agreedHistory (p := CStr.lit "p")
    (by decide)).1 transferRequest transferRequest_requests).mp (by decide +kernel)

end DspEmbedded.Audit.TransferGate
