import DspEmbedded.Lib.Runs
import DspEmbedded.Model.Neg
import DspEmbedded.Model.Xfer

/-!
# The history of the slot tables

Runs of create and apply on both tables, with any index and any event. Slots are
filled from index 0 on and never reclaimed, so the number of successful creates
says which slots are in use; what is in a slot only ever moves forward.
-/
namespace DspEmbedded.Audit.TableHistory

open Lib.CString Lib.Runs Lib.SlotTable Model Model.Neg
open Model.Xfer (XferModule XferEntry XferState XferEvent XferModule.boot dspXferInit
  dspXferSetNotify dspXferCreate dspXferApply dspXferIsActive dspXferSmNext)

variable {negMax xferMax : Nat}

/-! ## Runs -/

inductive Call where
  | negCreate (consumerPid providerPid : Option CStr)
  | negApply (idx : Int) (event : NegEvent)
  | xferCreate (processId : Option CStr)
  | xferApply (idx : Int) (event : XferEvent)

inductive Answer where
  | index (idx : Int)
  | negState (state : NegState)
  | xferState (state : XferState)

structure Tables (negMax xferMax : Nat) where
  neg : NegModule negMax
  xfer : XferModule xferMax

/-- Both tables after init, with a notification hook or without. -/
def init (negMax xferMax : Nat) (notify : Bool) : Tables negMax xferMax where
  neg := (dspNegInit (.boot negMax)).2
  xfer := dspXferSetNotify (dspXferInit (.boot xferMax)).2 notify

def perform (s : Tables negMax xferMax) : Call → Answer × Tables negMax xferMax
  | .negCreate consumerPid providerPid =>
    let (idx, neg) := dspNegCreate s.neg consumerPid providerPid
    (.index idx, { s with neg })
  | .negApply idx event =>
    let (state, neg) := dspNegApply s.neg idx event
    (.negState state, { s with neg })
  | .xferCreate processId =>
    let (idx, xfer) := dspXferCreate s.xfer processId
    (.index idx, { s with xfer })
  | .xferApply idx event =>
    let (state, xfer) := dspXferApply s.xfer idx event
    (.xferState state, { s with xfer })

/-- The negotiation slot that a call names: apply by its argument, create by its result. -/
def negNamed : Call → Answer → Option Int
  | .negCreate .., .index idx => some idx
  | .negApply idx _, _ => some idx
  | _, _ => none

def xferNamed : Call → Answer → Option Int
  | .xferCreate _, .index idx => some idx
  | .xferApply idx _, _ => some idx
  | _, _ => none

def negCreated : Call × Answer → Bool
  | (.negCreate .., .index idx) => decide (0 ≤ idx)
  | _ => false

def xferCreated : Call × Answer → Bool
  | (.xferCreate _, .index idx) => decide (0 ≤ idx)
  | _ => false

/-! ## Forward along a rank -/

/-- To stay, or to go up in a rank that both states have. -/
def Forward {α : Type*} (rank : α → Option Nat) (s t : α) : Prop :=
  s = t ∨ ∃ i j, rank s = some i ∧ rank t = some j ∧ i < j

section Forward

variable {α : Type*} {rank : α → Option Nat}

theorem Forward.refl (s : α) : Forward rank s s := .inl rfl

theorem Forward.trans {s t u : α} (h : Forward rank s t) (h' : Forward rank t u) :
    Forward rank s u := by
  rcases h with rfl | ⟨i, j, hs, ht, hij⟩
  · exact h'
  · rcases h' with rfl | ⟨j', k, ht', hu, hjk⟩
    · exact .inr ⟨i, j, hs, ht, hij⟩
    · obtain rfl := Option.some.inj (ht.symm.trans ht')
      exact .inr ⟨i, k, hs, hu, by omega⟩

/-- A state of the highest rank is never left. -/
theorem Forward.of_top {s t : α} {n : Nat} (hmax : ∀ u i, rank u = some i → i ≤ n)
    (hs : rank s = some n) (h : Forward rank s t) : t = s := by
  rcases h with rfl | ⟨i, j, hs', ht, hij⟩
  · rfl
  · obtain rfl := Option.some.inj (hs.symm.trans hs')
    have hj := hmax t j ht
    omega

theorem Forward.ranked {s t : α} (h : Forward rank s t) (hs : (rank s).isSome) :
    (rank t).isSome := by
  rcases h with rfl | ⟨i, j, -, ht, -⟩
  · exact hs
  · rw [ht]
    rfl

end Forward

/-- REQUESTED < OFFERED < AGREED < VERIFIED < FINALIZED, and TERMINATED above the
first four. -/
def negRank : NegState → Option Nat
  | .requested => some 0
  | .offered => some 1
  | .agreed => some 2
  | .verified => some 3
  | .finalized => some 4
  | .terminated => some 4
  | _ => none

/-- INITIAL < TRANSFERRING < COMPLETED, FAILED. -/
def xferRank : XferState → Option Nat
  | .initial => some 0
  | .transferring => some 1
  | .completed => some 2
  | .failed => some 2
  | _ => none

theorem negRank_le {s : NegState} {i : Nat} (h : negRank s = some i) : i ≤ 4 := by
  cases s <;> simp [negRank] at h <;> omega

theorem xferRank_le {s : XferState} {i : Nat} (h : xferRank s = some i) : i ≤ 2 := by
  cases s <;> simp [xferRank] at h <;> omega

theorem smNext_forward (s : NegState) (event : NegEvent) :
    Forward negRank s (dspNegSmNext s event) := by
  cases s <;> cases event <;> simp [Forward, negRank, dspNegSmNext]

theorem xferNext_forward (s : XferState) (event : XferEvent) :
    Forward xferRank s (dspXferSmNext s event) := by
  cases s <;> cases event <;> simp [Forward, xferRank, dspXferSmNext]

/-! ## What stays of a slot -/

/-- A negotiation slot later on: the same pids, a state further along. -/
structure NegKeeps (e f : NegEntry) : Prop where
  consumer : f.consumerPid = e.consumerPid
  provider : f.providerPid = e.providerPid
  forward : Forward negRank e.state f.state
  final : e.state = .finalized ∨ e.state = .terminated → f.state = e.state

structure XferKeeps (e f : XferEntry) : Prop where
  process : f.processId = e.processId
  forward : Forward xferRank e.state f.state
  final : e.state = .completed ∨ e.state = .failed → f.state = e.state

theorem negKeeps_of_forward {e f : NegEntry} (hc : f.consumerPid = e.consumerPid)
    (hp : f.providerPid = e.providerPid) (h : Forward negRank e.state f.state) :
    NegKeeps e f where
  consumer := hc
  provider := hp
  forward := h
  final := by
    intro hfinal
    apply h.of_top fun _ _ => negRank_le
    rcases hfinal with hs | hs <;> rw [hs] <;> rfl

theorem xferKeeps_of_forward {e f : XferEntry} (hp : f.processId = e.processId)
    (h : Forward xferRank e.state f.state) : XferKeeps e f where
  process := hp
  forward := h
  final := by
    intro hfinal
    apply h.of_top fun _ _ => xferRank_le
    rcases hfinal with hs | hs <;> rw [hs] <;> rfl

theorem NegKeeps.refl (e : NegEntry) : NegKeeps e e := negKeeps_of_forward rfl rfl (.refl _)

theorem XferKeeps.refl (e : XferEntry) : XferKeeps e e := xferKeeps_of_forward rfl (.refl _)

theorem NegKeeps.trans (e f g : NegEntry) (h : NegKeeps e f) (h' : NegKeeps f g) :
    NegKeeps e g :=
  negKeeps_of_forward (h'.consumer.trans h.consumer) (h'.provider.trans h.provider)
    (h.forward.trans h'.forward)

theorem XferKeeps.trans (e f g : XferEntry) (h : XferKeeps e f) (h' : XferKeeps f g) :
    XferKeeps e g :=
  xferKeeps_of_forward (h'.process.trans h.process) (h.forward.trans h'.forward)

/-! ## One call -/

/-- What a call does to the negotiation table. -/
structure NegStep (m m' : NegModule negMax) (call : Call) (answer : Answer) : Prop where
  wellFormed : Neg.WellFormed m'
  length : (Neg.ledger m').length =
    (Neg.ledger m).length + if negCreated (call, answer) then 1 else 0
  keeps : Persists NegKeeps (Neg.ledger m) (Neg.ledger m')
  ranked : (∀ e ∈ Neg.ledger m, (negRank e.state).isSome) →
    ∀ e ∈ Neg.ledger m', (negRank e.state).isSome
  frame : ∀ j : Nat, negNamed call answer ≠ some j → m'.table.slots[j]? = m.table.slots[j]?

structure XferStep (m m' : XferModule xferMax) (call : Call) (answer : Answer) : Prop where
  wellFormed : Xfer.WellFormed m'
  length : (Xfer.ledger m').length =
    (Xfer.ledger m).length + if xferCreated (call, answer) then 1 else 0
  keeps : Persists XferKeeps (Xfer.ledger m) (Xfer.ledger m')
  ranked : (∀ e ∈ Xfer.ledger m, (xferRank e.state).isSome) →
    ∀ e ∈ Xfer.ledger m', (xferRank e.state).isSome
  frame : ∀ j : Nat, xferNamed call answer ≠ some j → m'.table.slots[j]? = m.table.slots[j]?

section Neg

variable {m : NegModule negMax}

theorem negStep_idle (hw : Neg.WellFormed m) {call : Call} {answer : Answer}
    (hc : negCreated (call, answer) = false) : NegStep m m call answer where
  wellFormed := hw
  length := by simp [hc]
  keeps := .refl NegKeeps.refl _
  ranked := id
  frame := fun _ _ => rfl

theorem negCreate_step (hw : Neg.WellFormed m) (c p : Option CStr) :
    NegStep m (dspNegCreate m c p).2 (.negCreate c p) (.index (dspNegCreate m c p).1) := by
  match c, p with
  | some c, some p =>
    rcases Neg.create_cases hw c p with ⟨-, heq⟩ | ⟨m', -, heq, hw', -, hl⟩
    · rw [heq]
      exact negStep_idle hw rfl
    · rw [heq]
      have honly := onlyAt_of_live_append hw.packed hw'.packed hw.free_eq hw'.free_eq hl
      refine ⟨hw', ?_, ?_, ?_, ?_⟩
      · simp [hl, negCreated]
      · rw [hl]
        exact persists_append NegKeeps.refl _ _
      · intro hranked
        rw [hl, List.forall_mem_append, List.forall_mem_singleton]
        exact ⟨hranked, rfl⟩
      · intro j hj
        apply honly.2
        intro he
        subst he
        exact hj rfl
  | none, _ => exact negStep_idle hw rfl
  | some _, none => exact negStep_idle hw rfl

theorem negApply_step (hw : Neg.WellFormed m) (idx : Int) (event : NegEvent) :
    NegStep m (dspNegApply m idx event).2 (.negApply idx event)
      (.negState (dspNegApply m idx event).1) := by
  rcases Neg.apply_cases hw idx event with ⟨-, heq⟩ | ⟨i, e, m', rfl, hget, heq, hw', -, hl⟩
  · rw [heq]
    exact negStep_idle hw rfl
  · rw [heq]
    have hforward := smNext_forward e.state event
    refine ⟨hw', ?_, ?_, ?_, ?_⟩
    · simp [hl, negCreated]
    · rw [hl]
      exact persists_set NegKeeps.refl hget (negKeeps_of_forward rfl rfl hforward)
    · intro hranked
      rw [hl]
      exact forall_mem_set hranked (hforward.ranked (hranked e (List.mem_of_getElem? hget)))
    · intro j hj
      apply sameBut_of_live_set hw.packed hw'.packed hw.free_eq hw'.free_eq hl
      intro he
      subst he
      exact hj rfl

end Neg

section Xfer

variable {m : XferModule xferMax}

theorem xferStep_idle (hw : Xfer.WellFormed m) {call : Call} {answer : Answer}
    (hc : xferCreated (call, answer) = false) : XferStep m m call answer where
  wellFormed := hw
  length := by simp [hc]
  keeps := .refl XferKeeps.refl _
  ranked := id
  frame := fun _ _ => rfl

theorem xferCreate_step (hw : Xfer.WellFormed m) (p : Option CStr) :
    XferStep m (dspXferCreate m p).2 (.xferCreate p) (.index (dspXferCreate m p).1) := by
  match p with
  | some p =>
    rcases Xfer.create_cases hw p with ⟨-, heq⟩ | ⟨m', -, heq, hw', -, -, -, hl⟩
    · rw [heq]
      exact xferStep_idle hw rfl
    · rw [heq]
      have honly := onlyAt_of_live_append hw.packed hw'.packed hw.free_eq hw'.free_eq hl
      refine ⟨hw', ?_, ?_, ?_, ?_⟩
      · simp [hl, xferCreated]
      · rw [hl]
        exact persists_append XferKeeps.refl _ _
      · intro hranked
        rw [hl, List.forall_mem_append, List.forall_mem_singleton]
        exact ⟨hranked, rfl⟩
      · intro j hj
        apply honly.2
        intro he
        subst he
        exact hj rfl
  | none => exact xferStep_idle hw rfl

theorem xferApply_step (hw : Xfer.WellFormed m) (idx : Int) (event : XferEvent) :
    XferStep m (dspXferApply m idx event).2 (.xferApply idx event)
      (.xferState (dspXferApply m idx event).1) := by
  rcases Xfer.apply_cases hw idx event with ⟨-, heq⟩ |
    ⟨i, e, m', rfl, hget, heq, hw', -, -, -, hl⟩
  · rw [heq]
    exact xferStep_idle hw rfl
  · rw [heq]
    have hforward := xferNext_forward e.state event
    refine ⟨hw', ?_, ?_, ?_, ?_⟩
    · simp [hl, xferCreated]
    · rw [hl]
      exact persists_set XferKeeps.refl hget (xferKeeps_of_forward rfl hforward)
    · intro hranked
      rw [hl]
      exact forall_mem_set hranked (hforward.ranked (hranked e (List.mem_of_getElem? hget)))
    · intro j hj
      apply sameBut_of_live_set hw.packed hw'.packed hw.free_eq hw'.free_eq hl
      intro he
      subst he
      exact hj rfl

end Xfer

/-- A call steps both tables, of which it changes one at most. -/
theorem perform_step {s : Tables negMax xferMax} (hn : Neg.WellFormed s.neg)
    (hx : Xfer.WellFormed s.xfer) (call : Call) :
    NegStep s.neg (perform s call).2.neg call (perform s call).1 ∧
      XferStep s.xfer (perform s call).2.xfer call (perform s call).1 := by
  cases call with
  | negCreate c p => exact ⟨negCreate_step hn c p, xferStep_idle hx rfl⟩
  | negApply idx event => exact ⟨negApply_step hn idx event, xferStep_idle hx rfl⟩
  | xferCreate p => exact ⟨negStep_idle hn rfl, xferCreate_step hx p⟩
  | xferApply idx event => exact ⟨negStep_idle hn rfl, xferApply_step hx idx event⟩

/-! ## Whole runs -/

def negCreates (h : List (Call × Answer)) : Nat := h.countP negCreated

def xferCreates (h : List (Call × Answer)) : Nat := h.countP xferCreated

/-- The tables after the history `h`. -/
structure Fits (h : List (Call × Answer)) (s : Tables negMax xferMax) : Prop where
  neg : Neg.WellFormed s.neg
  negLength : (Neg.ledger s.neg).length = negCreates h
  negRanked : ∀ e ∈ Neg.ledger s.neg, (negRank e.state).isSome
  xfer : Xfer.WellFormed s.xfer
  xferLength : (Xfer.ledger s.xfer).length = xferCreates h
  xferRanked : ∀ e ∈ Xfer.ledger s.xfer, (xferRank e.state).isSome

theorem fits_init (notify : Bool) : Fits [] (init negMax xferMax notify) := by
  have hneg : Neg.ledger (init negMax xferMax notify).neg = [] := Neg.ledger_fill true
  have hxfer : Xfer.ledger (init negMax xferMax notify).xfer = [] := Xfer.ledger_fill true notify []
  refine ⟨Neg.wellFormed_fill true, ?_, ?_, Xfer.wellFormed_fill true notify [], ?_, ?_⟩
  · rw [hneg]
    rfl
  · simp [hneg]
  · rw [hxfer]
    rfl
  · simp [hxfer]

theorem fits_step (h : List (Call × Answer)) (s : Tables negMax xferMax) (call : Call)
    (hf : Fits h s) : Fits (h ++ [(call, (perform s call).1)]) (perform s call).2 := by
  obtain ⟨hn, hx⟩ := perform_step hf.neg hf.xfer call
  refine ⟨hn.wellFormed, ?_, hn.ranked hf.negRanked, hx.wellFormed, ?_, hx.ranked hf.xferRanked⟩
  · rw [hn.length, hf.negLength, negCreates, negCreates, List.countP_append,
      List.countP_singleton]
  · rw [hx.length, hf.xferLength, xferCreates, xferCreates, List.countP_append,
      List.countP_singleton]

theorem fits_run (notify : Bool) (calls : List Call) :
    Fits (trace perform (init negMax xferMax notify) calls)
      (final perform (init negMax xferMax notify) calls) :=
  trace_invariant fits_step calls (fits_init notify)

/-- What both ledgers keep over a continuation. -/
theorem keeps_run {s : Tables negMax xferMax} (hn : Neg.WellFormed s.neg)
    (hx : Xfer.WellFormed s.xfer) (more : List Call) :
    Persists NegKeeps (Neg.ledger s.neg) (Neg.ledger (final perform s more).neg) ∧
      Persists XferKeeps (Xfer.ledger s.xfer) (Xfer.ledger (final perform s more).xfer) :=
  final_relates
    (I := fun s : Tables negMax xferMax => Neg.WellFormed s.neg ∧ Xfer.WellFormed s.xfer)
    (R := fun s t => Persists NegKeeps (Neg.ledger s.neg) (Neg.ledger t.neg) ∧
      Persists XferKeeps (Xfer.ledger s.xfer) (Xfer.ledger t.xfer))
    (fun _ call h =>
      have hstep := perform_step h.1 h.2 call
      ⟨hstep.1.wellFormed, hstep.2.wellFormed⟩)
    (fun _ => ⟨.refl NegKeeps.refl _, .refl XferKeeps.refl _⟩)
    (fun _ _ _ h h' => ⟨h.1.trans NegKeeps.trans h'.1, h.2.trans XferKeeps.trans h'.2⟩)
    (fun _ call h =>
      have hstep := perform_step h.1 h.2 call
      ⟨hstep.1.keeps, hstep.2.keeps⟩)
    more ⟨hn, hx⟩

/-! ## The law -/

/-- Every slot in use at `t` is in use at `u`, related to what it was. -/
def SlotsKeep {ε : Type*} {cap : Nat} (active : ε → Bool) (R : ε → ε → Prop)
    (t u : Table ε cap) : Prop :=
  ∀ (i : Nat) (e : ε), t.slots[i]? = some e → active e = true →
    ∃ f, u.slots[i]? = some f ∧ active f = true ∧ R e f

/-- A negotiation table after `k` successful creates: the slots in use are those
below `k`, and create takes the slot `k` or finds the table full. -/
structure NegLaw (m : NegModule negMax) (k : Nat) : Prop where
  active : ∀ idx, dspNegIsActive m idx = true ↔ 0 ≤ idx ∧ idx < k
  create : ∀ c p, (dspNegCreate m c p).1 =
    if c.isSome ∧ p.isSome ∧ k < negMax then (k : Int) else -1
  ranked : ∀ e ∈ m.table.slots, e.active = true → (negRank e.state).isSome

structure XferLaw (m : XferModule xferMax) (k : Nat) : Prop where
  active : ∀ idx, dspXferIsActive m idx = true ↔ 0 ≤ idx ∧ idx < k
  create : ∀ p, (dspXferCreate m p).1 = if p.isSome ∧ k < xferMax then (k : Int) else -1
  ranked : ∀ e ∈ m.table.slots, e.active = true → (xferRank e.state).isSome

/-- The indices of a list, as C sees them. -/
theorem index_iff {α : Type*} (l : List α) (idx : Int) :
    (∃ (i : Nat) (e : α), idx = i ∧ l[i]? = some e) ↔ 0 ≤ idx ∧ idx < l.length := by
  constructor
  · intro hex
    obtain ⟨i, e, rfl, he⟩ := hex
    have hlt := (List.getElem?_eq_some_iff.mp he).1
    omega
  · intro hboth
    obtain ⟨h0, hlt⟩ := hboth
    have hi : idx.toNat < l.length := by omega
    exact ⟨idx.toNat, l[idx.toNat], by omega, List.getElem?_eq_getElem hi⟩

theorem Fits.negLaw {h : List (Call × Answer)} {s : Tables negMax xferMax} (hf : Fits h s) :
    NegLaw s.neg (negCreates h) where
  active := by
    intro idx
    rw [Neg.isActive_iff hf.neg, index_iff, hf.negLength]
  create := by
    intro c p
    match c, p with
    | some c, some p =>
      rcases Neg.create_cases hf.neg c p with ⟨hfull, heq⟩ | ⟨m', hlt, heq, -⟩
      · rw [hf.negLength] at hfull
        rw [heq, if_neg (by omega)]
      · rw [hf.negLength] at hlt
        rw [heq, if_pos ⟨rfl, rfl, hlt⟩, hf.negLength]
    | none, _ => simp [dspNegCreate]
    | some _, none => simp [dspNegCreate]
  ranked := fun e he ha => hf.negRanked e (mem_live hf.neg.packed he ha)

theorem Fits.xferLaw {h : List (Call × Answer)} {s : Tables negMax xferMax} (hf : Fits h s) :
    XferLaw s.xfer (xferCreates h) where
  active := by
    intro idx
    rw [Xfer.isActive_iff hf.xfer, index_iff, hf.xferLength]
  create := by
    intro p
    match p with
    | some p =>
      rcases Xfer.create_cases hf.xfer p with ⟨hfull, heq⟩ | ⟨m', hlt, heq, -⟩
      · rw [hf.xferLength] at hfull
        rw [heq, if_neg (by omega)]
      · rw [hf.xferLength] at hlt
        rw [heq, if_pos ⟨rfl, hlt⟩, hf.xferLength]
    | none => simp [dspXferCreate]
  ranked := fun e he ha => hf.xferRanked e (mem_live hf.xfer.packed he ha)

/-- **The history law of the slot tables.** After any run: the number of creates
that succeeded gives the slots in use and the next result of create; a further
call changes no slot but the one it names; a continuation keeps the pids of every
slot in use and moves its state forward only. -/
theorem slot_table_history (notify : Bool) (calls : List Call) :
    let h := trace perform (init negMax xferMax notify) calls
    let s := final perform (init negMax xferMax notify) calls
    NegLaw s.neg (negCreates h) ∧ XferLaw s.xfer (xferCreates h) ∧
    (∀ (call : Call) (j : Nat),
      (negNamed call (perform s call).1 ≠ some j →
        (perform s call).2.neg.table.slots[j]? = s.neg.table.slots[j]?) ∧
      (xferNamed call (perform s call).1 ≠ some j →
        (perform s call).2.xfer.table.slots[j]? = s.xfer.table.slots[j]?)) ∧
    ∀ more : List Call,
      SlotsKeep NegEntry.active NegKeeps s.neg.table (final perform s more).neg.table ∧
      SlotsKeep XferEntry.active XferKeeps s.xfer.table (final perform s more).xfer.table := by
  intro h s
  have hf : Fits h s := fits_run notify calls
  refine ⟨hf.negLaw, hf.xferLaw, ?_, ?_⟩
  · intro call j
    obtain ⟨hn, hx⟩ := perform_step hf.neg hf.xfer call
    exact ⟨hn.frame j, hx.frame j⟩
  · intro more
    obtain ⟨hn, hx⟩ := keeps_run hf.neg hf.xfer more
    exact ⟨fun _ _ he ha => hn.slots hf.neg.packed he ha,
      fun _ _ he ha => hx.slots hf.xfer.packed he ha⟩

end DspEmbedded.Audit.TableHistory
