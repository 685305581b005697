import DspEmbedded.Audit.Progress

/-!
# A device comes to rest

No slot is ever given back and no state is left twice, so the histories of a device,
events of the application included, hold only so many changes. `left` is what remains
to be changed at most: four steps for a negotiation slot, two for a transfer slot.
-/
namespace DspEmbedded.Audit.Quiescence

open Lib.CString Lib.Runs Lib.SlotTable Model Model.Esp Model.Neg Model.Board Audit.Progress
open Model.Xfer (XferState XferEntry XferEvent XferModule dspXferApply dspXferSmNext startedEntry)

variable {negMax xferMax : Nat}

/-- What happens to a device from outside or by its application. -/
inductive Event where
  | request (endpoint : Endpoint) (req : HttpdReq)
  | sleep
  | negApply (idx : Int) (event : NegEvent)
  | xferApply (idx : Int) (event : XferEvent)

def perform (d : Device negMax xferMax) : Event → Option Response × Device negMax xferMax
  | .request endpoint req => (some (serve d endpoint req).1, (serve d endpoint req).2)
  | .sleep => (none, (sleepCycle d).2)
  | .negApply idx event => (none, { d with neg := (dspNegApply d.neg idx event).2 })
  | .xferApply idx event => (none, { d with xfer := (dspXferApply d.xfer idx event).2 })

theorem perform_reachable (d : Device negMax xferMax) (event : Event) (h : Reachable d) :
    Reachable (perform d event).2 := by
  cases event with
  | request endpoint req => exact .request endpoint req h
  | sleep => exact .sleep h
  | negApply idx event => exact .negApply idx event h
  | xferApply idx event => exact .xferApply idx event h

/-- The contents of both tables. -/
def slots (d : Device negMax xferMax) : List NegEntry × List XferEntry :=
  (d.neg.table.slots, d.xfer.table.slots)

/-! ## What is left -/

/-- The longest way from a state to an end. -/
def negLeft : NegState → Nat
  | .offered => 3
  | .agreed => 2
  | .verified => 1
  | _ => 0

def xferLeft : XferState → Nat
  | .transferring => 1
  | _ => 0

/-- Records of a ledger on the way, and slots that are still free. -/
def ledgerLeft {ε : Type*} (cap perSlot : Nat) (rank : ε → Nat) (l : List ε) : Nat :=
  perSlot * (cap - l.length) + (l.map rank).sum

def left (d : Device negMax xferMax) : Nat :=
  ledgerLeft negMax 4 (fun e : NegEntry => negLeft e.state) (Neg.ledger d.neg) +
    ledgerLeft xferMax 2 (fun e : XferEntry => xferLeft e.state) (Xfer.ledger d.xfer)

section LedgerLeft

variable {ε : Type*} {cap : Nat} (perSlot : Nat) (rank : ε → Nat) {l : List ε}

theorem ledgerLeft_append {e : ε} (hroom : l.length < cap) (he : rank e < perSlot) :
    ledgerLeft cap perSlot rank (l ++ [e]) < ledgerLeft cap perSlot rank l := by
  have hslot : cap - l.length = cap - (l.length + 1) + 1 := by omega
  simp only [ledgerLeft, List.length_append, List.length_singleton, List.map_append,
    List.map_singleton, List.sum_append, List.sum_singleton]
  rw [hslot, Nat.mul_add, Nat.mul_one]
  omega

theorem ledgerLeft_set (cap : Nat) {i : Nat} {e f : ε} (hi : l[i]? = some e) (hlt : rank f < rank e) :
    ledgerLeft cap perSlot rank (l.set i f) < ledgerLeft cap perSlot rank l := by
  have hsum := sum_map_set rank (f := f) hi
  simp only [ledgerLeft, List.length_set]
  omega

end LedgerLeft

/-- Every event leads a negotiation on towards an end, or is absorbed. -/
theorem negLeft_smNext {s : NegState} (h : Opened s) (event : NegEvent) :
    dspNegSmNext s event = s ∨ negLeft (dspNegSmNext s event) < negLeft s := by
  rcases h with rfl | rfl | rfl | rfl | rfl <;> cases event <;> simp [dspNegSmNext, negLeft]

theorem xferLeft_smNext {s : XferState} (h : Started s) (event : XferEvent) :
    dspXferSmNext s event = s ∨ xferLeft (dspXferSmNext s event) < xferLeft s := by
  rcases h with rfl | rfl | rfl <;> cases event <;> simp [dspXferSmNext, xferLeft]

/-! ## One step -/

/-- The tables and what is left stay, or less is left. -/
def Descends (d d' : Device negMax xferMax) : Prop :=
  (slots d' = slots d ∧ left d' = left d) ∨ left d' < left d

theorem Descends.refl (d : Device negMax xferMax) : Descends d d := .inl ⟨rfl, rfl⟩

theorem descends_negSet {d : Device negMax xferMax} {neg : NegModule negMax} {i : Nat}
    {e : NegEntry} {s : NegState} (hw : Neg.WellFormed d.neg) (hw' : Neg.WellFormed neg)
    (hget : (Neg.ledger d.neg)[i]? = some e)
    (hl : Neg.ledger neg = (Neg.ledger d.neg).set i { e with state := s })
    (hs : s = e.state ∨ negLeft s < negLeft e.state) : Descends d { d with neg } := by
  rcases hs with hs | hlt
  · left
    have htable := negTable_set_same hw hw' hget hs.symm hl
    have hledger : Neg.ledger neg = Neg.ledger d.neg := by
      simp only [Neg.ledger, htable]
    exact ⟨by simp only [slots, htable], by simp only [left, hledger]⟩
  · right
    have hset := ledgerLeft_set 4 (fun e : NegEntry => negLeft e.state) negMax
      (f := { e with state := s }) hget hlt
    simp only [left, hl]
    omega

theorem descends_xferSet {d : Device negMax xferMax} {xfer : XferModule xferMax} {i : Nat}
    {e : XferEntry} {s : XferState} (hw : Xfer.WellFormed d.xfer) (hw' : Xfer.WellFormed xfer)
    (hget : (Xfer.ledger d.xfer)[i]? = some e)
    (hl : Xfer.ledger xfer = (Xfer.ledger d.xfer).set i { e with state := s })
    (hs : s = e.state ∨ xferLeft s < xferLeft e.state) : Descends d { d with xfer } := by
  rcases hs with hs | hlt
  · left
    have hledger : Xfer.ledger xfer = Xfer.ledger d.xfer := by
      obtain ⟨hlt, rfl⟩ := List.getElem?_eq_some_iff.mp hget
      rw [hl, hs]
      exact List.set_getElem_self hlt
    have htable := Xfer.table_eq_of_ledger hw' hw hledger
    exact ⟨by simp only [slots, htable], by simp only [left, hledger]⟩
  · right
    have hset := ledgerLeft_set 2 (fun e : XferEntry => xferLeft e.state) xferMax
      (f := { e with state := s }) hget hlt
    simp only [left, hl]
    omega

theorem serve_descends {d : Device negMax xferMax} (hr : Reachable d) (endpoint : Endpoint)
    (req : HttpdReq) : Descends d (serve d endpoint req).2 := by
  have hw := hr.wellFormed
  cases endpoint with
  | xferComplete =>
    rcases Xfer.complete_cases hw.xfer req with ⟨-, -, hm⟩ |
      ⟨p, i, e, m', -, -, hget, -, -, hs, heq, hw', -, -, -, hl⟩
    · simp only [serve, hm]
      exact .refl d
    · simp only [serve, heq]
      exact descends_xferSet hw.xfer hw' hget hl (.inr (by rw [hs]; decide))
  | offers =>
    rcases offers_cases hw.neg req with ⟨-, -, hm⟩ | ⟨p, m', -, hroom, heq, -, -, hl⟩
    · simp only [serve, hm]
      exact .refl d
    · right
      have happend := ledgerLeft_append 4 (fun e : NegEntry => negLeft e.state)
        (e := offeredEntry p) hroom (show negLeft .offered < 4 by decide)
      simp only [serve, heq, left, hl]
      omega
  | agree =>
    rcases agree_cases hw.neg req with ⟨-, -, hm⟩ |
      ⟨p, i, e, m', -, -, hget, -, -, hagrees, heq, hw', -, hl⟩
    · simp only [serve, hm]
      exact .refl d
    · have hnext : dspNegSmNext e.state .agree = .agreed :=
        ((smNext_agree e.state).resolve_right fun h => h.1 hagrees).2
      have hopened := (hr.served.neg e (List.mem_of_getElem? hget)).1
      have hleft := negLeft_smNext hopened .agree
      rw [hnext] at hleft
      simp only [serve, heq]
      exact descends_negSet hw.neg hw' hget hl hleft
  | terminate =>
    rcases terminate_cases hw.neg req with ⟨-, -, hm⟩ |
      ⟨p, i, e, m', -, -, hget, -, -, heq, hw', -, hl⟩
    · simp only [serve, hm]
      exact .refl d
    · have hopened := (hr.served.neg e (List.mem_of_getElem? hget)).1
      simp only [serve, heq]
      exact descends_negSet hw.neg hw' hget hl (negLeft_smNext hopened .terminate)
  | negGet =>
    simp only [serve, negGet_snd]
    exact .refl d
  | xferStart =>
    rcases Xfer.start_cases hw.neg hw.xfer req with ⟨-, -, hm⟩ |
      ⟨p, m', -, -, hroom, heq, -, -, -, -, hl⟩
    · simp only [serve, hm]
      exact .refl d
    · right
      have happend := ledgerLeft_append 2 (fun e : XferEntry => xferLeft e.state)
        (e := startedEntry p) hroom (show xferLeft .transferring < 2 by decide)
      simp only [serve, heq, left, hl]
      omega
  | xferGet =>
    simp only [serve, Xfer.xferGet_snd]
    exact .refl d

theorem perform_descends {d : Device negMax xferMax} (hr : Reachable d) (event : Event) :
    Descends d (perform d event).2 := by
  have hw := hr.wellFormed
  cases event with
  | request endpoint req => exact serve_descends hr endpoint req
  | sleep =>
    simp only [perform, sleepCycle_eq hw.storable]
    exact .inl ⟨rfl, rfl⟩
  | negApply idx event =>
    rcases Neg.apply_cases hw.neg idx event with ⟨-, heq⟩ | ⟨i, e, m', -, hget, heq, hw', -, hl⟩
    · simp only [perform, heq]
      exact .refl d
    · have hopened := (hr.served.neg e (List.mem_of_getElem? hget)).1
      simp only [perform, heq]
      exact descends_negSet hw.neg hw' hget hl (negLeft_smNext hopened event)
  | xferApply idx event =>
    rcases Xfer.apply_cases hw.xfer idx event with ⟨-, heq⟩ |
      ⟨i, e, m', -, hget, heq, hw', -, -, -, hl⟩
    · simp only [perform, heq]
      exact .refl d
    · have hstarted := (hr.served.xfer e (List.mem_of_getElem? hget)).1
      simp only [perform, heq]
      exact descends_xferSet hw.xfer hw' hget hl (xferLeft_smNext hstarted event)

/-! ## Histories -/

theorem left_boot (store : RtcState.RtcStore negMax xferMax) (notify : Bool) :
    left (boot store notify) = 4 * negMax + 2 * xferMax := by
  have hneg : Neg.ledger (boot store notify).neg = [] := Neg.ledger_fill true
  have hxfer : Xfer.ledger (boot store notify).xfer = [] := Xfer.ledger_fill true notify []
  simp [left, ledgerLeft, hneg, hxfer]

/-- However long a device runs, its tables change at most four times for each
negotiation slot and twice for each transfer slot. -/
theorem tables_come_to_rest (store : RtcState.RtcStore negMax xferMax) (notify : Bool)
    (events : List Event) :
    changes perform slots (boot store notify) events ≤ 4 * negMax + 2 * xferMax := by
  have hpaid := changes_add_le slots left perform_reachable
    (fun _ event hr => perform_descends hr event) events (.boot store notify)
  rw [left_boot] at hpaid
  omega

end DspEmbedded.Audit.Quiescence
