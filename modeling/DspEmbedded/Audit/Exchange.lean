import DspEmbedded.Model.Board

/-!
# What the device is for

Behind the slot tables, the search by id and the image in RTC memory stand two maps
from process ids to states and two counts, the books of the exchange. Every history of
a device, sleep cycles included, is answered as the books answer it.
-/
namespace DspEmbedded.Audit.Exchange

open Lib.CString Lib.Runs Lib.SlotTable CJson Model Model.Esp Model.Json Model.Msg Model.Neg
  Model.Board
open Model.Xfer (XferState XferModule xferBufSize pathXferId startProcessId startText
  completionText stateText xferStateOf dspXferPidLen)

variable {negMax xferMax : Nat}

/-! ## What a request asks for -/

/-- The process that a body names, or the text of the refusal. -/
def namedProcess (body : CStr) : Except String CStr :=
  match dspJsonParse (some body) with
  | none => .error "invalid JSON"
  | some msg =>
    match processIdOf msg with
    | none => .error "missing dspace:processId"
    | some p => .ok p

def offersDemand (req : HttpdReq) : Except String CStr :=
  match recvBody req negBufSize with
  | none => .error "empty body"
  | some body =>
    if dspMsgValidateCatalogRequest (some body) = .ok then .error "wrong message type"
    else namedProcess body

def terminateDemand (req : HttpdReq) : Except String CStr :=
  match recvBody req negBufSize with
  | none => .error "empty body"
  | some body => namedProcess body

def startDemand (req : HttpdReq) : Except String CStr :=
  match recvBody req xferBufSize with
  | none => .error "empty body"
  | some body =>
    if dspMsgValidateTransferRequest (some body) ≠ .ok then
      .error "invalid TransferRequestMessage"
    else namedProcess body

def negPathDemand (req : HttpdReq) : Except String CStr :=
  match pathNegId req.uri with
  | none => .error "missing negotiation id"
  | some p => .ok p

def xferPathDemand (req : HttpdReq) : Except String CStr :=
  match pathXferId req.uri with
  | none => .error "missing transfer id"
  | some p => .ok p

/-- The process a request is about. It depends on the request only. -/
def demand (endpoint : Endpoint) (req : HttpdReq) : Except String CStr :=
  match endpoint with
  | .offers => offersDemand req
  | .agree => negPathDemand req
  | .terminate => terminateDemand req
  | .negGet => negPathDemand req
  | .xferStart => startDemand req
  | .xferComplete => xferPathDemand req
  | .xferGet => xferPathDemand req

/-! ## The exchange -/

/-- What is known of a process. -/
structure Cell where
  neg : Option NegState
  xfer : Option XferState

/-- The process before anything was asked about it. -/
def Cell.empty : Cell := ⟨none, none⟩

/-- A request about the process `p`, where there is room. A second offer or start
does not change what is known. -/
def Cell.step (p : CStr) (c : Cell) (endpoint : Endpoint) : Response × Cell :=
  match endpoint with
  | .offers =>
    (httpdRespSendstr .created (eventText p Jsonld.negStateOffered),
      { c with neg := c.neg.or (some .offered) })
  | .agree =>
    match c.neg with
    | none => (httpdRespSendErr .notFound "negotiation not found", c)
    | some s =>
      if agrees s then
        (httpdRespSendstr .ok (eventText p Jsonld.negStateAgreed), { c with neg := some .agreed })
      else (httpdRespSendErr .badRequest "invalid state for agree", c)
  | .terminate =>
    match c.neg with
    | none => (httpdRespSendErr .notFound "negotiation not found", c)
    | some s =>
      (httpdRespSendstr .ok (eventText p Jsonld.negStateTerminated),
        { c with neg := some (dspNegSmNext s .terminate) })
  | .negGet =>
    match c.neg with
    | none => (httpdRespSendErr .notFound "negotiation not found", c)
    | some s => (httpdRespSendstr .ok (eventText p (stateStr s)), c)
  | .xferStart =>
    if c.neg = some .agreed then
      (httpdRespSendstr .ok (startText p), { c with xfer := c.xfer.or (some .transferring) })
    else (httpdRespSendErr .badRequest "negotiation not in AGREED state", c)
  | .xferComplete =>
    match c.xfer with
    | none => (httpdRespSendErr .notFound "transfer not found", c)
    | some s =>
      if s = .transferring then
        (httpdRespSendstr .ok (completionText p), { c with xfer := some .completed })
      else (httpdRespSendErr .badRequest "transfer not in TRANSFERRING state", c)
  | .xferGet =>
    match c.xfer with
    | none => (httpdRespSendErr .notFound "transfer not found", c)
    | some s => (httpdRespSendstr .ok (stateText p s), c)

/-- All that a request can do to a page. -/
inductive Cell.Moves (c : Cell) : Endpoint → Cell → Prop
  | offered : c.Moves .offers { c with neg := c.neg.or (some .offered) }
  | agreed {s : NegState} (hs : c.neg = some s) (ha : agrees s) :
      c.Moves .agree { c with neg := some .agreed }
  | terminated {s : NegState} (hs : c.neg = some s) :
      c.Moves .terminate { c with neg := some (dspNegSmNext s .terminate) }
  | started (ha : c.neg = some .agreed) :
      c.Moves .xferStart { c with xfer := c.xfer.or (some .transferring) }
  | completed (hs : c.xfer = some .transferring) :
      c.Moves .xferComplete { c with xfer := some .completed }

/-- A page moves with a positive answer; a refusal and a read leave it as it is. -/
theorem Cell.step_cases (c : Cell) (p : CStr) (endpoint : Endpoint) :
    c.Moves endpoint (c.step p endpoint).2 ∨
      ((c.step p endpoint).2 = c ∧ ((c.step p endpoint).1.success = false ∨
        endpoint = .negGet ∨ endpoint = .xferGet)) := by
  cases endpoint with
  | offers => exact .inl .offered
  | agree =>
    cases hs : c.neg with
    | none =>
      simp only [Cell.step, hs]
      exact .inr ⟨trivial, .inl rfl⟩
    | some s =>
      by_cases ha : agrees s
      · simp only [Cell.step, hs, ha, if_true]
        exact .inl (.agreed hs ha)
      · simp only [Cell.step, hs, ha, if_false]
        exact .inr ⟨trivial, .inl rfl⟩
  | terminate =>
    cases hs : c.neg with
    | none =>
      simp only [Cell.step, hs]
      exact .inr ⟨trivial, .inl rfl⟩
    | some s =>
      simp only [Cell.step, hs]
      exact .inl (.terminated hs)
  | negGet =>
    right
    simp only [Cell.step]
    split <;> exact ⟨rfl, .inr (.inl trivial)⟩
  | xferStart =>
    by_cases ha : c.neg = some .agreed
    · simp only [Cell.step, ha, if_true]
      rw [← ha]
      exact .inl (.started ha)
    · simp only [Cell.step, ha, if_false]
      exact .inr ⟨trivial, .inl rfl⟩
  | xferComplete =>
    cases hs : c.xfer with
    | none =>
      simp only [Cell.step, hs]
      exact .inr ⟨trivial, .inl rfl⟩
    | some s =>
      by_cases ht : s = .transferring
      · subst ht
        simp only [Cell.step, hs, if_true]
        exact .inl (.completed hs)
      · simp only [Cell.step, hs, ht, if_false]
        exact .inr ⟨trivial, .inl rfl⟩
  | xferGet =>
    right
    simp only [Cell.step]
    split <;> exact ⟨rfl, .inr (.inr trivial)⟩

/-- A page for every process, and the slots in use. -/
structure Books where
  page : CStr → Cell
  negUsed : Nat
  xferUsed : Nat

/-- Nothing offered, nothing started. -/
def Books.empty : Books := ⟨fun _ => .empty, 0, 0⟩

/-- The refusals for want of a slot. -/
def Books.full (negMax xferMax : Nat) (x : Books) (endpoint : Endpoint) (p : CStr) :
    Option String :=
  match endpoint with
  | .offers => if x.negUsed < negMax then none else some "negotiation table full"
  | .xferStart =>
    if (x.page p).neg = some .agreed then
      if x.xferUsed < xferMax then none else some "transfer table full"
    else none
  | _ => none

/-- The slots that an answered request takes from each table. -/
def slotsTaken (endpoint : Endpoint) (resp : Response) : Nat × Nat :=
  match endpoint with
  | .offers => (1, 0)
  | .xferStart => (0, if resp.success then 1 else 0)
  | _ => (0, 0)

/-- A request about `p` is answered from its page, while there is room. -/
def Books.answer (negMax xferMax : Nat) (x : Books) (endpoint : Endpoint) (p : CStr) :
    Response × Books :=
  match x.full negMax xferMax endpoint p with
  | some text => (httpdRespSendErr .internalServerError text, x)
  | none =>
    let (resp, c) := (x.page p).step p endpoint
    let (neg, xfer) := slotsTaken endpoint resp
    (resp, ⟨Function.update x.page p c, x.negUsed + neg, x.xferUsed + xfer⟩)

def Books.serve (negMax xferMax : Nat) (x : Books) (endpoint : Endpoint) (req : HttpdReq) :
    Response × Books :=
  match demand endpoint req with
  | .error text => (httpdRespSendErr .badRequest text, x)
  | .ok p => x.answer negMax xferMax endpoint p

/-- A sleep cycle is not seen. -/
def Books.step (negMax xferMax : Nat) (x : Books) : Action → Option Response × Books
  | .request endpoint req =>
    (some (x.serve negMax xferMax endpoint req).1, (x.serve negMax xferMax endpoint req).2)
  | .sleep => (none, x)

/-! ## Handlers as functions of the demand -/

section Handlers

variable {neg : NegModule negMax} {xfer : XferModule xferMax} {req : HttpdReq} {p : CStr}
  {text : String}

theorem namedProcess_ok {body : CStr} (h : namedProcess body = .ok p) :
    ∃ msg, dspJsonParse (some body) = some msg ∧ processIdOf msg = some p := by
  unfold namedProcess at h
  cases hmsg : dspJsonParse (some body) with
  | none => simp [hmsg] at h
  | some msg =>
    cases hid : processIdOf msg with
    | none => simp [hmsg, hid] at h
    | some q =>
      simp only [hmsg, hid, Except.ok.injEq] at h
      exact ⟨msg, rfl, by rw [hid, h]⟩

theorem namedProcess_error {body : CStr} (h : namedProcess body = .error text) :
    (dspJsonParse (some body) = none ∧ text = "invalid JSON") ∨
    ∃ msg, dspJsonParse (some body) = some msg ∧
      (dspJsonGetString (some msg) (some Jsonld.fieldProcessId) dspNegPidLen).2.bytes = [] ∧
      text = "missing dspace:processId" := by
  unfold namedProcess at h
  cases hmsg : dspJsonParse (some body) with
  | none =>
    simp only [hmsg, Except.error.injEq] at h
    exact .inl ⟨rfl, h.symm⟩
  | some msg =>
    cases hid : processIdOf msg with
    | none =>
      simp only [hmsg, hid, Except.error.injEq] at h
      exact .inr ⟨msg, rfl, processIdOf_eq_none hid, h.symm⟩
    | some q => simp [hmsg, hid] at h

theorem offersDemand_ok (h : offersDemand req = .ok p) : offersProcessId req = some p := by
  unfold offersDemand at h
  cases hbody : recvBody req negBufSize with
  | none => simp [hbody] at h
  | some body =>
    simp only [hbody] at h
    split_ifs at h with hcat
    obtain ⟨msg, hmsg, hid⟩ := namedProcess_ok h
    simp [offersProcessId, hbody, hcat, hmsg, hid]

theorem terminateDemand_ok (h : terminateDemand req = .ok p) :
    terminateProcessId req = some p := by
  unfold terminateDemand at h
  cases hbody : recvBody req negBufSize with
  | none => simp [hbody] at h
  | some body =>
    simp only [hbody] at h
    obtain ⟨msg, hmsg, hid⟩ := namedProcess_ok h
    simp [terminateProcessId, hbody, hmsg, hid]

theorem startDemand_ok (h : startDemand req = .ok p) : startProcessId req = some p := by
  unfold startDemand at h
  cases hbody : recvBody req xferBufSize with
  | none => simp [hbody] at h
  | some body =>
    simp only [hbody] at h
    split_ifs at h with hval
    obtain ⟨msg, hmsg, hid⟩ := namedProcess_ok h
    simp [startProcessId, hbody, hval, hmsg, hid]

theorem negPathDemand_ok (h : negPathDemand req = .ok p) : pathNegId req.uri = some p := by
  unfold negPathDemand at h
  cases hid : pathNegId req.uri <;> simp_all

theorem xferPathDemand_ok (h : xferPathDemand req = .ok p) : pathXferId req.uri = some p := by
  unfold xferPathDemand at h
  cases hid : pathXferId req.uri <;> simp_all

theorem offers_refused (m : NegModule negMax) (h : offersDemand req = .error text) :
    offersPostHandler m req = (httpdRespSendErr .badRequest text, m) := by
  unfold offersDemand at h
  unfold offersPostHandler
  cases hbody : recvBody req negBufSize with
  | none => simp_all
  | some body =>
    simp only [hbody] at h ⊢
    split_ifs at h ⊢ with hcat
    · simp_all
    · rcases namedProcess_error h with ⟨hmsg, rfl⟩ | ⟨msg, hmsg, hne, rfl⟩
      · simp only [hmsg]
      · simp only [hmsg, hne, if_true]

theorem terminate_refused (m : NegModule negMax) (h : terminateDemand req = .error text) :
    terminatePostHandler m req = (httpdRespSendErr .badRequest text, m) := by
  unfold terminateDemand at h
  unfold terminatePostHandler
  cases hbody : recvBody req negBufSize with
  | none => simp_all
  | some body =>
    simp only [hbody] at h ⊢
    rcases namedProcess_error h with ⟨hmsg, rfl⟩ | ⟨msg, hmsg, hne, rfl⟩
    · simp only [hmsg]
    · simp only [hmsg, hne, if_true]

theorem start_refused (neg : NegModule negMax) (m : XferModule xferMax)
    (h : startDemand req = .error text) :
    Xfer.xferStartPostHandler neg m req = (httpdRespSendErr .badRequest text, m) := by
  unfold startDemand at h
  unfold Xfer.xferStartPostHandler
  cases hbody : recvBody req xferBufSize with
  | none => simp_all
  | some body =>
    simp only [hbody] at h ⊢
    split_ifs at h ⊢ with hval
    · simp_all
    · rcases namedProcess_error h with ⟨hmsg, rfl⟩ | ⟨msg, hmsg, hne, rfl⟩
      · simp only [hmsg]
      · have hne' : (dspJsonGetString (some msg) (some Jsonld.fieldProcessId)
            dspXferPidLen).2.bytes = [] := hne
        simp only [hmsg, hne', if_true]

theorem negPathDemand_error (h : negPathDemand req = .error text) :
    pathNegId req.uri = none ∧ text = "missing negotiation id" := by
  unfold negPathDemand at h
  cases hid : pathNegId req.uri <;> simp_all

theorem xferPathDemand_error (h : xferPathDemand req = .error text) :
    pathXferId req.uri = none ∧ text = "missing transfer id" := by
  unfold xferPathDemand at h
  cases hid : pathXferId req.uri <;> simp_all

end Handlers

/-! ## Simulation -/

/-- What the tables say about a process. -/
def pageOf (d : Device negMax xferMax) (p : CStr) : Cell := ⟨stateOf d.neg p, xferStateOf d.xfer p⟩

/-- The books that a device stands for. -/
structure Represents (d : Device negMax xferMax) (x : Books) : Prop where
  wellFormed : WellFormed d
  page : ∀ p, pageOf d p = x.page p
  negUsed : (Neg.ledger d.neg).length = x.negUsed
  xferUsed : (Xfer.ledger d.xfer).length = x.xferUsed

section Represents

variable {d : Device negMax xferMax} {x : Books}

theorem Represents.neg (h : Represents d x) (p : CStr) : stateOf d.neg p = (x.page p).neg :=
  congrArg Cell.neg (h.page p)

theorem Represents.xfer (h : Represents d x) (p : CStr) : xferStateOf d.xfer p = (x.page p).xfer :=
  congrArg Cell.xfer (h.page p)

/-- A page rewritten as it was. -/
theorem Represents.same (h : Represents d x) (p : CStr) :
    Represents d ⟨Function.update x.page p (x.page p), x.negUsed, x.xferUsed⟩ := by
  rw [Function.update_eq_self]
  exact h

theorem page_update_neg (h : Represents d x) {neg : NegModule negMax} {p : CStr}
    {s : Option NegState}
    (hneg : ∀ q, stateOf neg q = if p = q then s else stateOf d.neg q) (q : CStr) :
    pageOf { d with neg } q = Function.update x.page p { x.page p with neg := s } q := by
  rw [pageOf, hneg, h.xfer, Function.update_apply]
  by_cases hpq : p = q
  · subst hpq
    rw [if_pos rfl, if_pos rfl]
  · rw [if_neg hpq, if_neg (Ne.symm hpq), h.neg]

theorem page_update_xfer (h : Represents d x) {xfer : XferModule xferMax} {p : CStr}
    {s : Option XferState}
    (hxfer : ∀ q, xferStateOf xfer q = if p = q then s else xferStateOf d.xfer q) (q : CStr) :
    pageOf { d with xfer } q = Function.update x.page p { x.page p with xfer := s } q := by
  rw [pageOf, hxfer, h.neg, Function.update_apply]
  by_cases hpq : p = q
  · subst hpq
    rw [if_pos rfl, if_pos rfl]
  · rw [if_neg hpq, if_neg (Ne.symm hpq), h.xfer]

/-- What a search finds once a record is put behind those of the same id. -/
theorem or_ite {υ : Type*} (f : CStr → Option υ) (p q : CStr) (v : υ) :
    (f q).or (if p = q then some v else none) = if p = q then (f p).or (some v) else f q := by
  by_cases h : p = q
  · subst h
    rw [if_pos rfl, if_pos rfl]
  · rw [if_neg h, if_neg h, Option.or_none]

end Represents

theorem boot_represents (store : RtcState.RtcStore negMax xferMax) (notify : Bool) :
    Represents (boot store notify) .empty := by
  have hneg : Neg.ledger (boot store notify).neg = [] := Neg.ledger_fill true
  have hxfer : Xfer.ledger (boot store notify).xfer = [] := Xfer.ledger_fill true notify []
  refine ⟨boot_wellFormed store notify, ?_, by rw [hneg]; rfl, by rw [hxfer]; rfl⟩
  intro p
  rw [pageOf, stateOf, findNeg, hneg, xferStateOf, Xfer.findXfer, hxfer]
  rfl

section Simulation

variable {d : Device negMax xferMax} {x : Books} {req : HttpdReq} {p : CStr}

/-- Answers agree and what is left of the tables represents what is left of the
books. -/
def Agree (r : Response × Device negMax xferMax) (r' : Response × Books) : Prop :=
  r.1 = r'.1 ∧ Represents r.2 r'.2

theorem offers_agree (h : Represents d x) (hd : offersDemand req = .ok p) :
    Agree (serve d .offers req) (x.answer negMax xferMax .offers p) := by
  have hid := offersDemand_ok hd
  have hwf := serve_wellFormed h.wellFormed .offers req
  rcases offers_cases h.wellFormed.neg req with ⟨hrefused, -, -⟩ | ⟨q, m', hq, hlt, heq, -, -, hl⟩
  · have hfull : ¬ x.negUsed < negMax := by
      rw [← h.negUsed, not_lt]
      exact hrefused.resolve_left (by simp [hid])
    have haccepts := offers_accepts (m := d.neg) hid
    rcases create_cases h.wellFormed.neg p Jsonld.configProviderId with ⟨-, hc⟩ | ⟨_, hlt, -⟩
    · rw [hc] at haccepts
      simp only [serve, haccepts, Books.answer, Books.full, hfull, if_false]
      exact ⟨rfl, h⟩
    · rw [h.negUsed] at hlt
      exact absurd hlt hfull
  · obtain rfl := Option.some.inj (hid.symm.trans hq)
    rw [h.negUsed] at hlt
    simp only [serve, heq] at hwf ⊢
    simp only [Books.answer, Books.full, hlt, if_true, Cell.step]
    refine ⟨rfl, hwf, ?_, ?_, h.xferUsed⟩
    · apply page_update_neg h
      intro q
      rw [stateOf_offer (offersProcessId_length hid).2 hl, or_ite, h.neg p]
    · rw [hl, List.length_append, List.length_singleton, h.negUsed]
      rfl

theorem agree_agree (h : Represents d x) (hd : negPathDemand req = .ok p) :
    Agree (serve d .agree req) (x.answer negMax xferMax .agree p) := by
  have hid := negPathDemand_ok hd
  have hwf := serve_wellFormed h.wellFormed .agree req
  have hstate := h.neg p
  rcases agree_cases h.wellFormed.neg req with ⟨hrefused, -, -⟩ |
    ⟨q, i, e, m', hq, hfi, hget, hp, hf, hagrees, heq, -, -, hl⟩
  · have haccepts := agree_accepts (m := d.neg) req
    rw [hid] at haccepts
    simp only at haccepts
    rcases find_cases h.wellFormed.neg p with ⟨hidx, hf⟩ | ⟨i, e, hidx, -, hget, -, hf⟩
    · rw [stateOf, hf] at hstate
      rw [hidx] at haccepts
      simp only [serve, haccepts, Books.answer, Books.full, Cell.step, ← hstate]
      exact ⟨rfl, h.same p⟩
    · rw [stateOf_of_find hf] at hstate
      have hnot := hrefused p e hid hf
      obtain ⟨-, hnext, hne⟩ := (smNext_agree e.state).resolve_left fun hs => hnot hs.1
      rw [hidx, if_neg (by omega), apply_absorbed hget hnext, if_pos hne] at haccepts
      simp only [serve, haccepts, Books.answer, Books.full, Cell.step, ← hstate, hnot, if_false]
      exact ⟨rfl, h.same p⟩
  · obtain rfl := Option.some.inj (hid.symm.trans hq)
    rw [stateOf_of_find hf] at hstate
    simp only [serve, heq] at hwf ⊢
    simp only [Books.answer, Books.full, Cell.step, ← hstate, hagrees, if_true]
    refine ⟨rfl, hwf, ?_, ?_, h.xferUsed⟩
    · exact page_update_neg h (stateOf_set hfi hget hp hl)
    · rw [hl, List.length_set, h.negUsed]
      rfl

theorem terminate_agree (h : Represents d x) (hd : terminateDemand req = .ok p) :
    Agree (serve d .terminate req) (x.answer negMax xferMax .terminate p) := by
  have hid := terminateDemand_ok hd
  have hwf := serve_wellFormed h.wellFormed .terminate req
  have hstate := h.neg p
  rcases terminate_cases h.wellFormed.neg req with ⟨hrefused, -, -⟩ |
    ⟨q, i, e, m', hq, hfi, hget, hp, hf, heq, -, -, hl⟩
  · have haccepts := terminate_accepts (m := d.neg) hid
    rw [stateOf, hrefused p hid] at hstate
    have hidx := (find_eq_neg_one_iff h.wellFormed.neg p).mpr (by rw [stateOf, hrefused p hid]; rfl)
    rw [hidx] at haccepts
    simp only [serve, haccepts, Books.answer, Books.full, Cell.step, ← hstate]
    exact ⟨rfl, h.same p⟩
  · obtain rfl := Option.some.inj (hid.symm.trans hq)
    rw [stateOf_of_find hf] at hstate
    simp only [serve, heq] at hwf ⊢
    simp only [Books.answer, Books.full, Cell.step, ← hstate]
    refine ⟨rfl, hwf, ?_, ?_, h.xferUsed⟩
    · exact page_update_neg h (stateOf_set hfi hget hp hl)
    · rw [hl, List.length_set, h.negUsed]
      rfl

theorem negGet_agree (h : Represents d x) (hd : negPathDemand req = .ok p) :
    Agree (serve d .negGet req) (x.answer negMax xferMax .negGet p) := by
  have hid := negPathDemand_ok hd
  have hstate := h.neg p
  rw [serve_negGet, negGet_snd]
  cases hf : findNeg d.neg p with
  | none =>
    have haccepts := Neg.get_accepts (m := d.neg) req
    rw [stateOf, hf] at hstate
    have hidx := (find_eq_neg_one_iff h.wellFormed.neg p).mpr (by rw [stateOf, hf]; rfl)
    rw [hid] at haccepts
    simp only [hidx] at haccepts
    simp only [haccepts, Books.answer, Books.full, Cell.step, ← hstate]
    exact ⟨rfl, h.same p⟩
  | some e =>
    rw [stateOf_of_find hf] at hstate
    simp only [Neg.get_found h.wellFormed.neg hid hf, Books.answer, Books.full, Cell.step, ← hstate]
    exact ⟨rfl, h.same p⟩

theorem xferStart_agree (h : Represents d x) (hd : startDemand req = .ok p) :
    Agree (serve d .xferStart req) (x.answer negMax xferMax .xferStart p) := by
  have hid := startDemand_ok hd
  have hwf := serve_wellFormed h.wellFormed .xferStart req
  have hagreed : Xfer.agreed d.neg p ↔ (x.page p).neg = some .agreed := by
    rw [← h.neg, stateOf, Option.map_eq_some_iff]
    rfl
  rcases Xfer.start_cases h.wellFormed.neg h.wellFormed.xfer req with ⟨hrefused, -, -⟩ |
    ⟨q, m', hq, ha, hlt, heq, -, -, -, -, hl⟩
  · have haccepts := @Xfer.start_accepts _ _ d.neg d.xfer req p hid
    by_cases ha : Xfer.agreed d.neg p
    · have hfull : ¬ x.xferUsed < xferMax := by
        rw [← h.xferUsed, not_lt]
        exact hrefused p hid ha
      rw [if_neg ((Xfer.agreed_iff h.wellFormed.neg p).mpr ha)] at haccepts
      rcases Xfer.create_cases h.wellFormed.xfer p with ⟨-, hc⟩ | ⟨_, hlt, -⟩
      · rw [hc] at haccepts
        simp only [serve, haccepts, Books.answer, Books.full, hagreed.mp ha, hfull, if_true,
          if_false]
        exact ⟨rfl, h⟩
      · rw [h.xferUsed] at hlt
        exact absurd hlt hfull
    · rw [if_pos (not_not.mp fun hn => ha ((Xfer.agreed_iff h.wellFormed.neg p).mp hn))] at haccepts
      simp only [serve, haccepts, Books.answer, Books.full, Cell.step, mt hagreed.mpr ha, if_false]
      exact ⟨rfl, h.same p⟩
  · obtain rfl := Option.some.inj (hid.symm.trans hq)
    rw [h.xferUsed] at hlt
    simp only [serve, heq] at hwf ⊢
    simp only [Books.answer, Books.full, Cell.step, hagreed.mp ha, hlt, if_true]
    refine ⟨rfl, hwf, ?_, h.negUsed, ?_⟩
    · have hpage : ∀ q, pageOf { d with xfer := m' } q = Function.update x.page p
          { x.page p with xfer := (x.page p).xfer.or (some .transferring) } q := by
        apply page_update_xfer h
        intro q
        rw [Xfer.xferStateOf_start (Xfer.startProcessId_length hid).2 hl, or_ite, h.xfer p]
      simpa only [hagreed.mp ha] using hpage
    · rw [hl, List.length_append, List.length_singleton, h.xferUsed]
      rfl

theorem xferComplete_agree (h : Represents d x) (hd : xferPathDemand req = .ok p) :
    Agree (serve d .xferComplete req) (x.answer negMax xferMax .xferComplete p) := by
  have hid := xferPathDemand_ok hd
  have hwf := serve_wellFormed h.wellFormed .xferComplete req
  have hstate := h.xfer p
  rcases Xfer.complete_cases h.wellFormed.xfer req with ⟨hrefused, -, -⟩ |
    ⟨q, i, e, m', hq, hfi, hget, hp, hf, hst, heq, -, -, -, -, hl⟩
  · have haccepts := Xfer.complete_accepts (m := d.xfer) req
    rw [hid] at haccepts
    simp only at haccepts
    rcases Xfer.find_cases h.wellFormed.xfer p with ⟨hidx, hf⟩ | ⟨i, e, hidx, -, hget, -, hf⟩
    · rw [xferStateOf, hf] at hstate
      rw [hidx] at haccepts
      simp only [serve, haccepts, Books.answer, Books.full, Cell.step, ← hstate]
      exact ⟨rfl, h.same p⟩
    · rw [Xfer.xferStateOf_of_find hf] at hstate
      have hnot := hrefused p e hid hf
      rw [hidx, if_neg (by omega), Xfer.getState_of_ledger hget, if_pos hnot] at haccepts
      simp only [serve, haccepts, Books.answer, Books.full, Cell.step, ← hstate, hnot, if_false]
      exact ⟨rfl, h.same p⟩
  · obtain rfl := Option.some.inj (hid.symm.trans hq)
    rw [Xfer.xferStateOf_of_find hf, hst] at hstate
    simp only [serve, heq] at hwf ⊢
    simp only [Books.answer, Books.full, Cell.step, ← hstate, if_true]
    refine ⟨rfl, hwf, ?_, h.negUsed, ?_⟩
    · exact page_update_xfer h (Xfer.xferStateOf_set hfi hget hp hl)
    · rw [hl, List.length_set, h.xferUsed]
      rfl

theorem xferGet_agree (h : Represents d x) (hd : xferPathDemand req = .ok p) :
    Agree (serve d .xferGet req) (x.answer negMax xferMax .xferGet p) := by
  have hid := xferPathDemand_ok hd
  have hstate := h.xfer p
  rw [serve_xferGet, Xfer.xferGet_snd]
  cases hf : Xfer.findXfer d.xfer p with
  | none =>
    have haccepts := Xfer.get_accepts (m := d.xfer) req
    rw [xferStateOf, hf] at hstate
    rw [hid] at haccepts
    simp only [(Xfer.find_eq_neg_one_iff h.wellFormed.xfer p).mpr hf] at haccepts
    simp only [haccepts, Books.answer, Books.full, Cell.step, ← hstate]
    exact ⟨rfl, h.same p⟩
  | some e =>
    rw [Xfer.xferStateOf_of_find hf] at hstate
    simp only [Xfer.get_found h.wellFormed.xfer hid hf, Books.answer, Books.full, Cell.step,
      ← hstate]
    exact ⟨rfl, h.same p⟩

/-- What cannot be read is refused without a look at the tables. -/
theorem serve_refused (d : Device negMax xferMax) {endpoint : Endpoint} {text : String}
    (h : demand endpoint req = .error text) :
    serve d endpoint req = (httpdRespSendErr .badRequest text, d) := by
  cases endpoint with
  | offers => simp only [serve, offers_refused d.neg h]
  | agree =>
    obtain ⟨hid, rfl⟩ := negPathDemand_error h
    simp only [serve, agree_accepts (m := d.neg) req, hid]
  | terminate => simp only [serve, terminate_refused d.neg h]
  | negGet =>
    obtain ⟨hid, rfl⟩ := negPathDemand_error h
    simp only [serve, Neg.get_accepts (m := d.neg) req, hid]
  | xferStart => simp only [serve, start_refused d.neg d.xfer h]
  | xferComplete =>
    obtain ⟨hid, rfl⟩ := xferPathDemand_error h
    simp only [serve, Xfer.complete_accepts (m := d.xfer) req, hid]
  | xferGet =>
    obtain ⟨hid, rfl⟩ := xferPathDemand_error h
    simp only [serve, Xfer.get_accepts (m := d.xfer) req, hid]

theorem serve_agree (h : Represents d x) (endpoint : Endpoint) (req : HttpdReq) :
    Agree (serve d endpoint req) (x.serve negMax xferMax endpoint req) := by
  unfold Books.serve
  cases hd : demand endpoint req with
  | error text =>
    rw [serve_refused d hd]
    exact ⟨rfl, h⟩
  | ok p =>
    cases endpoint with
    | offers => exact offers_agree h hd
    | agree => exact agree_agree h hd
    | terminate => exact terminate_agree h hd
    | negGet => exact negGet_agree h hd
    | xferStart => exact xferStart_agree h hd
    | xferComplete => exact xferComplete_agree h hd
    | xferGet => exact xferGet_agree h hd

end Simulation

theorem step_agree {d : Device negMax xferMax} {x : Books} (h : Represents d x) (a : Action) :
    (step d a).1 = (x.step negMax xferMax a).1 ∧
      Represents (step d a).2 (x.step negMax xferMax a).2 := by
  cases a with
  | request endpoint req =>
    obtain ⟨hanswer, hnext⟩ := serve_agree h endpoint req
    exact ⟨congrArg some hanswer, hnext⟩
  | sleep =>
    simp only [step, sleepCycle_eq h.wellFormed.storable]
    exact ⟨rfl, ⟨h.wellFormed.neg, h.wellFormed.xfer, h.wellFormed.negInit, h.wellFormed.xferInit⟩,
      h.page, h.negUsed, h.xferUsed⟩

/-- From related states every history is answered alike and leads to related states. -/
theorem run_agree {d : Device negMax xferMax} {x : Books} (h : Represents d x)
    (as : List Action) :
    trace step d as = trace (Books.step negMax xferMax) x as ∧
      Represents (final step d as) (final (Books.step negMax xferMax) x as) :=
  trace_simulates (R := Represents) (fun _ _ a hr => step_agree hr a) as h

/-- Every history of a device is answered as the books answer it, and the tables
at its end say what the books say. -/
theorem device_refines_books (store : RtcState.RtcStore negMax xferMax) (notify : Bool)
    (as : List Action) :
    trace step (boot store notify) as = trace (Books.step negMax xferMax) .empty as ∧
      Represents (final step (boot store notify) as)
        (final (Books.step negMax xferMax) .empty as) :=
  run_agree (boot_represents store notify) as

end DspEmbedded.Audit.Exchange
