import DspEmbedded.CJson.Extend
import DspEmbedded.CJson.RoundTrip
import DspEmbedded.Audit.Delivery
import DspEmbedded.Audit.Isolation
import DspEmbedded.Audit.Requests
import DspEmbedded.Model.Counterpart

/-!
# The consumer and the device

The counterpart makes its calls in any order and at the same time, other clients send
what they like, also to the counterpart, the device sleeps, and the network loses, delays,
reorders and repeats requests and answers. Whatever happens, what the counterpart believes
of a process has happened on the device, as long as it has nobody else's word for it.
-/
namespace DspEmbedded.Audit.TwoParties

open Lib.CString Lib.Runs CJson Model Model.Esp Model.Json Model.Neg Model.Board Model.Counterpart
  Audit.Exchange
open Model.Xfer (XferState pathXferId startProcessId xferStateOf dspXferPidLen xferBufSize)
open Audit.Delivery ( ofBytes_prefix recvBody_isPrefix)
open Audit.Isolation (page_answer_ne)
open Audit.Requests (processIdOf_iff validPid_of)

variable {negMax xferMax : Nat}

/-! ## The system -/

/-- Requests stay in `sent` and answers in `replies`: each may arrive any number of
times, or never. `away` are the calls with a `provider_url` of their own. -/
structure World (negMax xferMax : Nat) where
  device : Device negMax xferMax
  records : Records
  sent : List Op
  replies : List (Op × Response)
  away : List Op

def World.start (store : RtcState.RtcStore negMax xferMax) (notify : Bool) :
    World negMax xferMax :=
  ⟨boot store notify, .empty, [], [], []⟩

inductive Event where
  /-- The counterpart starts a call. -/
  | begin (op : Op)
  /-- A request that was sent reaches the device. -/
  | deliver (n : Nat)
  /-- An answer reaches the counterpart, which can decode its body or not. -/
  | receive (n : Nat) (json : Bool)
  /-- The counterpart gives up waiting. -/
  | giveUp (op : Op)
  /-- The counterpart starts a call with a `provider_url` other than the device's. -/
  | beginAway (op : Op)
  /-- Whatever is there answers, with success or not. -/
  | receiveAway (n : Nat) (success json : Bool)
  /-- Somebody posts to a callback endpoint. -/
  | callback (kind : Callback) (key : CStr) (json : Bool)
  | otherRequest (endpoint : Endpoint) (req : HttpdReq)
  | sleep

/-- `wire` is what the client library makes of a call, as the server receives it. -/
def step (wire : Op → HttpdReq) (w : World negMax xferMax) :
    Event → Unit × World negMax xferMax
  | .begin op => ((), { w with records := w.records.begin op, sent := w.sent ++ [op] })
  | .deliver n =>
    match w.sent[n]? with
    | none => ((), w)
    | some op =>
      let (resp, device) := serve w.device op.endpoint (wire op)
      ((), { w with device, replies := w.replies ++ [(op, resp)] })
  | .receive n json =>
    match w.replies[n]? with
    | none => ((), w)
    | some (op, resp) =>
      ((), { w with records := if resp.success then w.records.succeed json op
        else w.records.fail op })
  | .giveUp op => ((), { w with records := w.records.fail op })
  | .beginAway op => ((), { w with records := w.records.begin op, away := w.away ++ [op] })
  | .receiveAway n success json =>
    match w.away[n]? with
    | none => ((), w)
    | some op =>
      ((), { w with records := if success then w.records.succeed json op
        else w.records.fail op })
  | .callback kind key json => ((), { w with records := w.records.callback key json kind })
  | .otherRequest endpoint req => ((), { w with device := (serve w.device endpoint req).2 })
  | .sleep => ((), { w with device := (sleepCycle w.device).2 })

/-- A byte that a client leaves as it is in the segment of a path. -/
def plainInPath (b : UInt8) : Bool :=
  (48 ≤ b && b ≤ 58) || (65 ≤ b && b ≤ 90) || (97 ≤ b && b ≤ 122) || b == 45 || b == 46 ||
    b == 95 || b == 126

/-- A pid whose process id fits the device and needs no escape in a path. -/
def Addressable : Op → Prop
  | .agree consumerPid | .transferComplete consumerPid =>
    (processUri consumerPid).length < dspNegPidLen ∧
      ∀ b ∈ (processUri consumerPid).bytes, plainInPath b = true
  | _ => True

/-- What is relied on of the client library: the body is the compact JSON text of the
message, of which a receive call may return the first bytes only, and a plain path is
sent as it is. -/
structure Conveys (wire : Op → HttpdReq) : Prop where
  body : ∀ op json text, op.message = some json → cJSONPrintUnformatted json = some text →
    ∀ chunk ∈ (wire op).delivery.head?, chunk <+: text
  path : ∀ op, Addressable op → (wire op).uri = op.path

/-! ## The device reads the process that was meant -/

section Names

variable {wire : Op → HttpdReq} {op : Op} {p : CStr}

/-- No message has a number in it or is nested deeply. -/
theorem message_prints {json : Json} (hm : op.message = some json) :
    (∃ text, cJSONPrintUnformatted json = some text) ∧ nesting json ≤ nestingLimit ∧
      ∀ l, json ≠ .number l := by
  cases op with
  | negotiate =>
    obtain rfl := Option.some.inj hm
    exact ⟨⟨_, rfl⟩, Nat.le_of_ble_eq_true rfl, fun _ h => nomatch h⟩
  | agree => cases hm
  | transfer =>
    obtain rfl := Option.some.inj hm
    exact ⟨⟨_, rfl⟩, Nat.le_of_ble_eq_true rfl, fun _ h => nomatch h⟩
  | transferComplete => cases hm

/-- However little of a message arrives: where the device can read it, it reads what
was sent. -/
theorem message_read (hw : Conveys wire) {json msg : Json} (hm : op.message = some json)
    {cap : Nat} {body : CStr} (hbody : recvBody (wire op) cap = some body)
    (hparse : dspJsonParse (some body) = some msg) : msg = json := by
  obtain ⟨⟨text, htext⟩, hnesting, hnumber⟩ := message_prints hm
  have hwhole : cJSONParse (CStr.ofBytes text) = some json := by
    apply cJSONParse_print htext hnesting
    exact congrArg CStr.bytes (CStr.ofBytes_bytes ⟨text, printValue_noNul json htext⟩)
  have hpre : body.bytes <+: (CStr.ofBytes text).bytes := by
    obtain ⟨chunk, hchunk, hbody⟩ := recvBody_isPrefix hbody
    exact hbody.trans ( ofBytes_prefix (hw.body op json text hm htext chunk hchunk))
  rcases cJSONParse_prefix hpre hparse with h | ⟨l, l', rfl, h⟩
  · exact Option.some.inj (h.symm.trans hwhole)
  · exact absurd (Option.some.inj (hwhole.symm.trans h)) (hnumber l')

theorem namedProcess_member {body : CStr} {child : List (CStr × Json)} {q : CStr}
    (hmsg : ∀ msg, dspJsonParse (some body) = some msg → msg = .object child)
    (hq : stringItem (getObjectItemCaseSensitive (.object child) Jsonld.fieldProcessId) = some q)
    (h : namedProcess body = .ok p) : p = q := by
  obtain ⟨msg, hparse, hid⟩ := namedProcess_ok h
  obtain rfl := hmsg msg hparse
  have hvalid := validPid_of (processIdOf_length hid)
  rw [processIdOf_iff hvalid, hq] at hid
  exact (Option.some.inj hid).symm

/-- A plain path names the id in it. -/
theorem extractId_path (pathPrefix suffix : CStr) {consumerPid : CStr}
    (hlen : (processUri consumerPid).length < dspNegPidLen)
    (hplain : ∀ b ∈ (processUri consumerPid).bytes, plainInPath b = true)
    (hsuffix : ∃ t, suffix.bytes = PathId.slash :: t) :
    PathId.extractId pathPrefix
      (some (PathId.resourcePath pathPrefix (processUri consumerPid) suffix)) dspNegPidLen =
      urn (lookupKey consumerPid) := by
  rw [← processUri_eq]
  apply PathId.extractId_resourcePath hlen _ (.inr hsuffix)
  intro hmem
  exact absurd (hplain _ hmem) (by decide)

/-- Whatever process the device reads from the request of a call is the one that the
counterpart keeps the answer under. -/
theorem names_key (hw : Conveys wire) (ha : Addressable op)
    (h : demand op.endpoint (wire op) = .ok p) : p = urn op.key := by
  cases op with
  | negotiate consumerPid assetId policyId providerId =>
    simp only [Op.endpoint, demand, offersDemand] at h
    cases hbody :
        recvBody (wire (.negotiate consumerPid assetId policyId providerId)) negBufSize with
    | none => simp [hbody] at h
    | some body =>
      simp only [hbody] at h
      split_ifs at h
      exact namedProcess_member (fun msg hparse => message_read hw rfl hbody hparse) rfl h
  | agree consumerPid =>
    have hid := negPathDemand_ok h
    have hpath := hw.path _ ha
    have hextract := extractId_path PathId.negPrefix (CStr.lit "/agree") ha.1 ha.2 ⟨_, rfl⟩
    rw [hpath] at hid
    simp only [pathNegId] at hid
    split_ifs at hid
    exact (Option.some.inj hid).symm.trans hextract
  | transfer consumerPid assetId =>
    simp only [Op.endpoint, demand, startDemand] at h
    cases hbody : recvBody (wire (.transfer consumerPid assetId)) xferBufSize with
    | none => simp [hbody] at h
    | some body =>
      simp only [hbody] at h
      split_ifs at h
      exact namedProcess_member (fun msg hparse => message_read hw rfl hbody hparse) rfl h
  | transferComplete consumerPid =>
    have hid := xferPathDemand_ok h
    have hpath := hw.path _ ha
    have hextract := extractId_path PathId.xferPrefix (CStr.lit "/complete") ha.1 ha.2 ⟨_, rfl⟩
    rw [hpath] at hid
    simp only [pathXferId] at hid
    split_ifs at hid
    exact (Option.some.inj hid).symm.trans hextract

end Names

/-! ## What is believed of a process -/

/-- The negotiation has been agreed to; it may have been terminated since. -/
def Concluded (c : Cell) : Prop := c.neg = some .agreed ∨ c.neg = some .terminated

/-- What the state of a negotiation says about the device. -/
def NegHolds : NegStatus → Cell → Prop
  | .offered, c => c.neg.isSome = true
  | .agreed, c => Concluded c
  | _, _ => True

def XferHolds : XferStatus → Cell → Prop
  | .started, c => Concluded c ∧ (c.xfer = some .transferring ∨ c.xfer = some .completed)
  | .completed, c => c.xfer = some .completed
  | _, _ => True

/-- What a positive answer to a call says. -/
def Confirmed : Op → Cell → Prop
  | .negotiate .. => NegHolds .offered
  | .agree _ => NegHolds .agreed
  | .transfer .. => XferHolds .started
  | .transferComplete _ => XferHolds .completed

/-- The states of a transfer that requests lead to. -/
def Sound (c : Cell) : Prop :=
  c.xfer = none ∨ c.xfer = some .transferring ∨ c.xfer = some .completed

section Cell

variable {c c' : Cell} {endpoint : Endpoint}

theorem concluded_moves (h : c.Moves endpoint c') (hc : Concluded c) : Concluded c' := by
  cases h with
  | offered =>
    rcases hc with hc | hc
    · exact .inl (by simp [hc])
    · exact .inr (by simp [hc])
  | agreed => exact .inl rfl
  | terminated hs =>
    rcases hc with hc | hc
    · obtain rfl := Option.some.inj (hs.symm.trans hc)
      exact .inr rfl
    · obtain rfl := Option.some.inj (hs.symm.trans hc)
      exact .inr rfl
  | started => exact hc
  | completed => exact hc

theorem negHolds_moves (h : c.Moves endpoint c') {s : NegStatus} (hs : NegHolds s c) :
    NegHolds s c' := by
  cases s with
  | requesting => trivial
  | failed => trivial
  | terminated => trivial
  | agreed => exact concluded_moves h hs
  | offered =>
    simp only [NegHolds] at hs ⊢
    cases h with
    | offered => simp
    | agreed => rfl
    | terminated => rfl
    | started => exact hs
    | completed => exact hs

theorem xferHolds_moves (h : c.Moves endpoint c') {s : XferStatus} (hs : XferHolds s c) :
    XferHolds s c' := by
  cases s with
  | requesting => trivial
  | failed => trivial
  | started =>
    refine ⟨concluded_moves h hs.1, ?_⟩
    cases h with
    | offered => exact hs.2
    | agreed => exact hs.2
    | terminated => exact hs.2
    | started => exact hs.2.imp (by simp +contextual) (by simp +contextual)
    | completed => exact .inr rfl
  | completed =>
    simp only [XferHolds] at hs ⊢
    cases h with
    | offered => exact hs
    | agreed => exact hs
    | terminated => exact hs
    | started => simp [hs]
    | completed => rfl

theorem confirmed_moves (h : c.Moves endpoint c') {op : Op} (hc : Confirmed op c) :
    Confirmed op c' := by
  cases op with
  | negotiate => exact negHolds_moves (s := .offered) h hc
  | agree => exact negHolds_moves (s := .agreed) h hc
  | transfer => exact xferHolds_moves (s := .started) h hc
  | transferComplete => exact xferHolds_moves (s := .completed) h hc

theorem sound_moves (h : c.Moves endpoint c') (hc : Sound c) : Sound c' := by
  cases h with
  | offered => exact hc
  | agreed => exact hc
  | terminated => exact hc
  | started =>
    rcases hc with hc | hc | hc
    · exact .inr (.inl (by simp [hc]))
    · exact .inr (.inl (by simp [hc]))
    · exact .inr (.inr (by simp [hc]))
  | completed => exact .inr (.inr rfl)

/-- The call has done on the page what its answer says. -/
theorem confirmed_of_moves {op : Op} (h : c.Moves op.endpoint c') (hc : Sound c) :
    Confirmed op c' := by
  cases op with
  | negotiate =>
    cases h with
    | offered => simp [Confirmed, NegHolds]
  | agree =>
    cases h with
    | agreed => exact .inl rfl
  | transfer =>
    cases h with
    | started ha =>
      refine ⟨.inl ha, ?_⟩
      rcases hc with hc | hc | hc
      · exact .inl (by simp [hc])
      · exact .inl (by simp [hc])
      · exact .inr (by simp [hc])
  | transferComplete =>
    cases h with
    | completed => rfl

end Cell

/-! ## Requests and the books -/

section Books

variable {x : Books} {endpoint : Endpoint} {req : HttpdReq} {wire : Op → HttpdReq} {op : Op}

/-- A request leaves a page as it was or moves it. -/
theorem serve_page (x : Books) (endpoint : Endpoint) (req : HttpdReq) (q : CStr) :
    (x.serve negMax xferMax endpoint req).2.page q = x.page q ∨
      (x.page q).Moves endpoint ((x.serve negMax xferMax endpoint req).2.page q) := by
  unfold Books.serve
  cases demand endpoint req with
  | error text => exact .inl rfl
  | ok p =>
    by_cases hpq : p = q
    · subst hpq
      simp only [Books.answer]
      cases x.full negMax xferMax endpoint p with
      | some text => exact .inl rfl
      | none =>
        simp only [Function.update_self]
        rcases (x.page p).step_cases p endpoint with hmove | ⟨hsame, -⟩
        · exact .inr hmove
        · exact .inl hsame
    · exact .inl (page_answer_ne hpq)

/-- What every move of a page keeps, every request keeps. -/
theorem serve_keeps {P : Cell → Prop} (hmoves : ∀ e c c', Cell.Moves c e c' → P c → P c')
    {q : CStr} (h : P (x.page q)) : P ((x.serve negMax xferMax endpoint req).2.page q) := by
  rcases serve_page x endpoint req q with hsame | hmove
  · rwa [hsame]
  · exact hmoves _ _ _ hmove h

/-- A positive answer to a call is about the process of its key, and is true. -/
theorem serve_confirms (hw : Conveys wire) (ha : Addressable op) (hsound : ∀ q, Sound (x.page q))
    (hok : (x.serve negMax xferMax op.endpoint (wire op)).1.success = true) :
    Confirmed op ((x.serve negMax xferMax op.endpoint (wire op)).2.page (urn op.key)) := by
  unfold Books.serve at hok ⊢
  cases hd : demand op.endpoint (wire op) with
  | error text =>
    rw [hd] at hok
    cases hok
  | ok p =>
    obtain rfl := names_key hw ha hd
    simp only [hd, Books.answer] at hok ⊢
    cases hfull : x.full negMax xferMax op.endpoint (urn op.key) with
    | some text =>
      rw [hfull] at hok
      cases hok
    | none =>
      simp only [hfull, Function.update_self] at hok ⊢
      rcases (x.page (urn op.key)).step_cases (urn op.key) op.endpoint with hmove | ⟨-, hread⟩
      · exact confirmed_of_moves hmove (hsound _)
      · rw [hok] at hread
        cases op <;> simp [Op.endpoint] at hread

end Books

/-! ## Runs -/

/-- Nobody but the device says that the process of a key has got anywhere: no callback
does, and no call about it goes anywhere else. -/
def Event.Spares (key : CStr) : Event → Prop
  | .callback kind k _ => kind = .negotiationTermination ∨ k ≠ key
  | .beginAway op => op.key ≠ key
  | _ => True

/-- The calls that an event starts are about addressable processes. -/
def Event.Fits : Event → Prop
  | .begin op => Addressable op
  | _ => True

/-- What holds in every state that the two can reach, of a process that is spared. -/
structure Consistent (key : CStr) (w : World negMax xferMax) (x : Books) : Prop where
  represents : Represents w.device x
  sound : ∀ q, Sound (x.page q)
  sent : ∀ op ∈ w.sent, Addressable op
  replies : ∀ e ∈ w.replies, e.2.success = true → Confirmed e.1 (x.page (urn e.1.key))
  away : ∀ op ∈ w.away, op.key ≠ key
  negotiation : ∀ s, w.records.negotiations key = some s → NegHolds s (x.page (urn key))
  transfer : ∀ s, w.records.transfers key = some s → XferHolds s (x.page (urn key))

section Steps

variable {w : World negMax xferMax} {x : Books} {wire : Op → HttpdReq} {op : Op} {key : CStr}

theorem start_consistent (key : CStr) (store : RtcState.RtcStore negMax xferMax)
    (notify : Bool) : Consistent key (World.start store notify) .empty where
  represents := boot_represents store notify
  sound := fun _ => .inl rfl
  sent := by simp [World.start]
  replies := by simp [World.start]
  away := by simp [World.start]
  negotiation := by simp [World.start, Records.empty]
  transfer := by simp [World.start, Records.empty]

theorem Consistent.served (h : Consistent key w x) (endpoint : Endpoint) (req : HttpdReq) :
    Consistent key { w with device := (serve w.device endpoint req).2 }
      (x.serve negMax xferMax endpoint req).2 where
  represents := (serve_agree h.represents endpoint req).2
  sound := fun q => serve_keeps (fun _ _ _ hm => sound_moves hm) (h.sound q)
  sent := h.sent
  replies := fun e he hok =>
    serve_keeps (fun _ _ _ hm => confirmed_moves hm) (h.replies e he hok)
  away := h.away
  negotiation := fun s hs =>
    serve_keeps (fun _ _ _ hm => negHolds_moves hm) (h.negotiation s hs)
  transfer := fun s hs =>
    serve_keeps (fun _ _ _ hm => xferHolds_moves hm) (h.transfer s hs)

theorem Consistent.setNegotiation (h : Consistent key w x) {k : CStr} {s : NegStatus}
    (hs : k = key → NegHolds s (x.page (urn key))) :
    Consistent key { w with records := w.records.setNegotiation k s } x := by
  refine ⟨h.represents, h.sound, h.sent, h.replies, h.away, ?_, h.transfer⟩
  intro s' hs'
  simp only [Records.setNegotiation, Function.update_apply] at hs'
  split_ifs at hs' with hkey
  · obtain rfl := Option.some.inj hs'
    exact hs hkey.symm
  · exact h.negotiation s' hs'

theorem Consistent.setTransfer (h : Consistent key w x) {k : CStr} {s : XferStatus}
    (hs : k = key → XferHolds s (x.page (urn key))) :
    Consistent key { w with records := w.records.setTransfer k s } x := by
  refine ⟨h.represents, h.sound, h.sent, h.replies, h.away, h.negotiation, ?_⟩
  intro s' hs'
  simp only [Records.setTransfer, Function.update_apply] at hs'
  split_ifs at hs' with hkey
  · obtain rfl := Option.some.inj hs'
    exact hs hkey.symm
  · exact h.transfer s' hs'

theorem Consistent.began (h : Consistent key w x) (op : Op) :
    Consistent key { w with records := w.records.begin op } x := by
  cases op with
  | negotiate => exact h.setNegotiation fun _ => trivial
  | agree => exact h
  | transfer => exact h.setTransfer fun _ => trivial
  | transferComplete => exact h

theorem Consistent.failed (h : Consistent key w x) (op : Op) :
    Consistent key { w with records := w.records.fail op } x := by
  cases op with
  | negotiate => exact h.setNegotiation fun _ => trivial
  | agree => exact h
  | transfer => exact h.setTransfer fun _ => trivial
  | transferComplete => exact h

/-- What is written down after a positive answer is true if the answer was. -/
theorem Consistent.succeeded (h : Consistent key w x) (json : Bool)
    (hc : op.key = key → Confirmed op (x.page (urn key))) :
    Consistent key { w with records := w.records.succeed json op } x := by
  cases op with
  | negotiate =>
    refine h.setNegotiation fun hkey => ?_
    cases json with
    | false => trivial
    | true => exact hc hkey
  | agree =>
    simp only [Records.succeed]
    split_ifs
    · exact h.setNegotiation hc
    · exact h
  | transfer =>
    refine h.setTransfer fun hkey => ?_
    cases json with
    | false => trivial
    | true => exact hc hkey
  | transferComplete =>
    simp only [Records.succeed]
    split_ifs
    · exact h.setTransfer hc
    · exact h

theorem Consistent.callbackNegotiation (h : Consistent key w x) {k : CStr} {s : NegStatus}
    (hs : k = key → NegHolds s (x.page (urn key))) :
    Consistent key { w with records := w.records.callbackNegotiation k s } x := by
  unfold Records.callbackNegotiation
  split_ifs
  · exact h.setNegotiation hs
  · exact h

theorem Consistent.callbackTransfer (h : Consistent key w x) {k : CStr} {s : XferStatus}
    (hs : k = key → XferHolds s (x.page (urn key))) :
    Consistent key { w with records := w.records.callbackTransfer k s } x := by
  unfold Records.callbackTransfer
  split_ifs
  · exact h.setTransfer hs
  · exact h

/-- A callback about another process, or one that ends a negotiation. -/
theorem Consistent.called (h : Consistent key w x) {kind : Callback} {k : CStr}
    (hs : kind = .negotiationTermination ∨ k ≠ key) (json : Bool) :
    Consistent key { w with records := w.records.callback k json kind } x := by
  have hother {P : Prop} (hkind : kind ≠ .negotiationTermination) (hkey : k = key) : P :=
    absurd hkey (hs.resolve_left hkind)
  cases kind with
  | negotiationOffer =>
    simp only [Records.callback]
    split_ifs
    · exact h.callbackNegotiation (hother (by decide))
    · exact h
  | negotiationAgreement =>
    simp only [Records.callback]
    split_ifs
    · exact h.callbackNegotiation (hother (by decide))
    · exact h
  | negotiationTermination => exact h.callbackNegotiation fun _ => trivial
  | transferStart =>
    simp only [Records.callback]
    split_ifs
    · exact h.callbackTransfer (hother (by decide))
    · exact h
  | transferCompletion => exact h.callbackTransfer (hother (by decide))

theorem step_consistent (hw : Conveys wire) {e : Event} (he : e.Fits) (hs : e.Spares key)
    (h : Consistent key w x) : ∃ x' : Books, Consistent key (step wire w e).2 x' := by
  cases e with
  | begin op =>
    refine ⟨x, ?_⟩
    have hbegan := h.began op
    refine ⟨hbegan.represents, hbegan.sound, ?_, hbegan.replies, hbegan.away,
      hbegan.negotiation, hbegan.transfer⟩
    intro op' hop
    rcases List.mem_append.mp hop with hop | hop
    · exact h.sent op' hop
    · obtain rfl := List.mem_singleton.mp hop
      exact he
  | deliver n =>
    cases hop : w.sent[n]? with
    | none =>
      simp only [step, hop]
      exact ⟨x, h⟩
    | some op =>
      simp only [step, hop]
      have ha := h.sent op (List.mem_of_getElem? hop)
      have hserved := h.served op.endpoint (wire op)
      have hanswer := (serve_agree h.represents op.endpoint (wire op)).1
      refine ⟨_, hserved.represents, hserved.sound, hserved.sent, ?_, hserved.away,
        hserved.negotiation, hserved.transfer⟩
      intro e he hok
      rcases List.mem_append.mp he with he | he
      · exact hserved.replies e he hok
      · obtain rfl := List.mem_singleton.mp he
        rw [hanswer] at hok
        exact serve_confirms hw ha h.sound hok
  | receive n json =>
    cases hreply : w.replies[n]? with
    | none =>
      simp only [step, hreply]
      exact ⟨x, h⟩
    | some reply =>
      obtain ⟨op, resp⟩ := reply
      simp only [step, hreply]
      refine ⟨x, ?_⟩
      split_ifs with hok
      · have hconfirmed := h.replies _ (List.mem_of_getElem? hreply) hok
        exact h.succeeded json fun hkey => hkey ▸ hconfirmed
      · exact h.failed op
  | giveUp op => exact ⟨x, h.failed op⟩
  | beginAway op =>
    have hbegan := h.began op
    refine ⟨x, hbegan.represents, hbegan.sound, hbegan.sent, hbegan.replies, ?_,
      hbegan.negotiation, hbegan.transfer⟩
    intro op' hop
    rcases List.mem_append.mp hop with hop | hop
    · exact h.away op' hop
    · obtain rfl := List.mem_singleton.mp hop
      exact hs
  | receiveAway n success json =>
    cases hop : w.away[n]? with
    | none =>
      simp only [step, hop]
      exact ⟨x, h⟩
    | some op =>
      simp only [step, hop]
      refine ⟨x, ?_⟩
      split_ifs with hok
      · have hne := h.away op (List.mem_of_getElem? hop)
        exact h.succeeded json fun hkey => absurd hkey hne
      · exact h.failed op
  | callback kind k json => exact ⟨x, h.called hs json⟩
  | otherRequest endpoint req => exact ⟨_, h.served endpoint req⟩
  | sleep =>
    have hslept := (step_agree h.represents .sleep).2
    exact ⟨x, hslept, h.sound, h.sent, h.replies, h.away, h.negotiation, h.transfer⟩

end Steps

/-- The client library where every message arrives in one piece. -/
def compactWire (op : Op) : HttpdReq where
  uri := op.path
  delivery := (op.message.bind cJSONPrintUnformatted).toList

theorem compactWire_conveys : Conveys compactWire where
  body := by
    intro op json text hm htext chunk hchunk
    simp only [compactWire, hm, Option.bind_some, htext, Option.toList_some,
      List.head?_cons, Option.mem_some_iff] at hchunk
    exact ⟨[], by rw [List.append_nil, hchunk]⟩
  path := fun _ _ => rfl

/-- An offer, its agreement and a transfer, with a request sent twice, and a call and a
callback about other processes. -/
def agreedTransfer : List Event :=
  [.begin (.negotiate (CStr.lit "a") (CStr.lit "data") (CStr.lit "policy") (CStr.lit "device")),
    .deliver 0, .receive 0 true, .beginAway (.agree (CStr.lit "b")),
    .begin (.agree (CStr.lit "urn:uuid:a")), .deliver 1, .deliver 0, .receive 1 true,
    .callback .negotiationAgreement (CStr.lit "c") true,
    .begin (.transfer (CStr.lit "a") (CStr.lit "data")), .deliver 2, .receive 3 true]

/-- A callback is believed. -/
example :
    (final (@step 4 2 compactWire)
      (World.start (RtcState.RtcStore.zero 4 2) false)
      [.begin (.negotiate (CStr.lit "a") (CStr.lit "data") (CStr.lit "policy") (CStr.lit "device")),
        .callback .negotiationAgreement (CStr.lit "a") true]).records.negotiations (CStr.lit "a") =
      some .agreed := by
  decide +kernel

end DspEmbedded.Audit.TwoParties
