import DspEmbedded.Model.Board

/-!
# What a request leaves of the two tables

A handler may have called apply before it decides to answer with an error. The
tables show nothing of it: an error leaves every slot as it was, a read as well,
and a success touches one slot of one table, or none where the state machine
absorbs the event.
-/
namespace DspEmbedded.Audit.Footprint

open Lib.CString Lib.SlotTable Model Model.Esp Model.Neg Model.Board
open Model.Xfer (XferModule dspXferSmNext dspXferGetState completeSlot)
open Model.RtcState (RtcStore)

variable {negMax xferMax : Nat}

def IsGet (endpoint : Endpoint) : Prop := endpoint = .negGet ∨ endpoint = .xferGet

def SameTables (d d' : Device negMax xferMax) : Prop :=
  d'.neg.table = d.neg.table ∧ d'.xfer.table = d.xfer.table

/-- Exactly one slot of exactly one table differs. -/
def OneSlot (d d' : Device negMax xferMax) : Prop :=
  ((∃ i, OnlyAt i d.neg.table d'.neg.table) ∧ d'.xfer.table = d.xfer.table) ∨
    (d'.neg.table = d.neg.table ∧ ∃ i, OnlyAt i d.xfer.table d'.xfer.table)

/-- The state of the slot that the request raises its event on absorbs the event. -/
def Absorbed (d : Device negMax xferMax) (req : HttpdReq) : Endpoint → Prop
  | .agree =>
    let s := dspNegGetState d.neg (agreeSlot d.neg req)
    dspNegSmNext s .agree = s
  | .terminate => ∃ p, terminateProcessId req = some p ∧
    let s := dspNegGetState d.neg (dspNegFindByCpid d.neg (some p))
    dspNegSmNext s .terminate = s
  | .xferComplete =>
    let s := dspXferGetState d.xfer (completeSlot d.xfer req)
    dspXferSmNext s .complete = s
  | _ => False

/-! ## From ledgers to slots -/

section Ledgers

variable {m m' : NegModule negMax} {x x' : XferModule xferMax}

theorem neg_appended (hw : Neg.WellFormed m) (hw' : Neg.WellFormed m') {e : NegEntry}
    (hl : Neg.ledger m' = Neg.ledger m ++ [e]) : ∃ i, OnlyAt i m.table m'.table :=
  ⟨_, onlyAt_of_live_append hw.packed hw'.packed hw.free_eq hw'.free_eq hl⟩

/-- A record that is put into a state has moved, or the table is the same. -/
theorem neg_moved (hw : Neg.WellFormed m) (hw' : Neg.WellFormed m') {i : Nat} {e : NegEntry}
    {s : NegState} (hget : (Neg.ledger m)[i]? = some e)
    (hl : Neg.ledger m' = (Neg.ledger m).set i { e with state := s }) :
    (s = e.state ∧ m'.table = m.table) ∨ (s ≠ e.state ∧ ∃ i, OnlyAt i m.table m'.table) := by
  by_cases hs : s = e.state
  · left
    refine ⟨hs, ?_⟩
    apply table_eq_of_ledger hw' hw
    obtain ⟨hlt, hget⟩ := List.getElem?_eq_some_iff.mp hget
    rw [hl, hs, ← hget]
    exact List.set_getElem_self hlt
  · right
    refine ⟨hs, i, onlyAt_of_live_set hw.packed hw'.packed hw.free_eq hw'.free_eq hget ?_ hl⟩
    intro he
    exact hs (congrArg NegEntry.state he)

theorem xfer_appended (hw : Xfer.WellFormed x) (hw' : Xfer.WellFormed x') {e : Xfer.XferEntry}
    (hl : Xfer.ledger x' = Xfer.ledger x ++ [e]) : ∃ i, OnlyAt i x.table x'.table :=
  ⟨_, onlyAt_of_live_append hw.packed hw'.packed hw.free_eq hw'.free_eq hl⟩

theorem xfer_completed (hw : Xfer.WellFormed x) (hw' : Xfer.WellFormed x') {i : Nat}
    {e : Xfer.XferEntry} (hget : (Xfer.ledger x)[i]? = some e) (hst : e.state = .transferring)
    (hl : Xfer.ledger x' = (Xfer.ledger x).set i { e with state := .completed }) :
    ∃ i, OnlyAt i x.table x'.table := by
  refine ⟨i, onlyAt_of_live_set hw.packed hw'.packed hw.free_eq hw'.free_eq hget ?_ hl⟩
  intro he
  rw [← he] at hst
  cases hst

end Ledgers

/-! ## One endpoint after the other -/

section Endpoints

variable {d : Device negMax xferMax} {req : HttpdReq}

theorem agree_footprint (hw : WellFormed d) (hok : (serve d .agree req).1.success = true) :
    (Absorbed d req .agree ∧ SameTables d (serve d .agree req).2) ∨
      (¬ Absorbed d req .agree ∧ OneSlot d (serve d .agree req).2) := by
  rcases agree_cases hw.neg req with ⟨-, hfail, -⟩ |
    ⟨p, i, e, m', hreq, hfi, hget, -, -, hagrees, heq, hw', -, hl⟩
  · exact absurd (hok.symm.trans hfail) (by decide)
  · have hnext : dspNegSmNext e.state .agree = .agreed :=
      ((smNext_agree e.state).resolve_right fun h => h.1 hagrees).2
    have hstate : dspNegGetState d.neg (agreeSlot d.neg req) = e.state := by
      simp only [pathNegId] at hreq
      split_ifs at hreq
      rw [agreeSlot, Option.some.inj hreq, find_of_findIdx? hw.neg hfi, getState_of_ledger hget]
    simp only [Absorbed, hstate, hnext, serve, heq]
    exact (neg_moved hw.neg hw' hget hl).imp (fun h => ⟨h.1, h.2, rfl⟩)
      fun h => ⟨h.1, .inl ⟨h.2, rfl⟩⟩

theorem terminate_footprint (hw : WellFormed d)
    (hok : (serve d .terminate req).1.success = true) :
    (Absorbed d req .terminate ∧ SameTables d (serve d .terminate req).2) ∨
      (¬ Absorbed d req .terminate ∧ OneSlot d (serve d .terminate req).2) := by
  rcases terminate_cases hw.neg req with ⟨-, hfail, -⟩ |
    ⟨p, i, e, m', hreq, hfi, hget, -, -, heq, hw', -, hl⟩
  · exact absurd (hok.symm.trans hfail) (by decide)
  · have habsorbed : Absorbed d req .terminate ↔ dspNegSmNext e.state .terminate = e.state := by
      simp only [Absorbed, hreq, Option.some.injEq, exists_eq_left',
        find_of_findIdx? hw.neg hfi, getState_of_ledger hget]
    simp only [habsorbed, serve, heq]
    exact (neg_moved hw.neg hw' hget hl).imp (fun h => ⟨h.1, h.2, rfl⟩)
      fun h => ⟨h.1, .inl ⟨h.2, rfl⟩⟩

theorem complete_footprint (hw : WellFormed d)
    (hok : (serve d .xferComplete req).1.success = true) :
    ¬ Absorbed d req .xferComplete ∧ OneSlot d (serve d .xferComplete req).2 := by
  rcases Xfer.complete_cases hw.xfer req with ⟨-, hfail, -⟩ |
    ⟨p, i, e, m', hreq, hfi, hget, -, -, hst, heq, hw', -, -, -, hl⟩
  · exact absurd (hok.symm.trans hfail) (by decide)
  · have hstate : dspXferGetState d.xfer (completeSlot d.xfer req) = .transferring := by
      simp only [Xfer.pathXferId] at hreq
      split_ifs at hreq
      rw [completeSlot, Option.some.inj hreq, Xfer.find_of_findIdx? hw.xfer hfi,
        Xfer.getState_of_ledger hget, hst]
    simp only [Absorbed, hstate, serve, heq]
    exact ⟨by decide, .inr ⟨rfl, xfer_completed hw.xfer hw' hget hst hl⟩⟩

/-- The two handlers that append a record always change a slot. -/
theorem success_footprint (hw : WellFormed d) {endpoint : Endpoint} (hpost : ¬ IsGet endpoint)
    (hok : (serve d endpoint req).1.success = true) :
    (Absorbed d req endpoint ∧ SameTables d (serve d endpoint req).2) ∨
      (¬ Absorbed d req endpoint ∧ OneSlot d (serve d endpoint req).2) := by
  cases endpoint with
  | offers =>
    rcases offers_cases hw.neg req with ⟨-, hfail, -⟩ | ⟨p, m', -, -, heq, hw', -, hl⟩
    · exact absurd (hok.symm.trans hfail) (by decide)
    · simp only [serve, heq]
      exact .inr ⟨id, .inl ⟨neg_appended hw.neg hw' hl, rfl⟩⟩
  | agree => exact agree_footprint hw hok
  | terminate => exact terminate_footprint hw hok
  | negGet => exact absurd (.inl rfl) hpost
  | xferStart =>
    rcases Xfer.start_cases hw.neg hw.xfer req with ⟨-, hfail, -⟩ |
      ⟨p, m', -, -, -, heq, hw', -, -, -, hl⟩
    · exact absurd (hok.symm.trans hfail) (by decide)
    · simp only [serve, heq]
      exact .inr ⟨id, .inr ⟨rfl, xfer_appended hw.xfer hw' hl⟩⟩
  | xferComplete => exact .inr (complete_footprint hw hok)
  | xferGet => exact absurd (.inr rfl) hpost

theorem get_footprint {endpoint : Endpoint} (hget : IsGet endpoint) :
    (serve d endpoint req).2 = d := by
  rcases hget with rfl | rfl
  · rw [serve_negGet, negGet_snd]
  · rw [serve_xferGet, Xfer.xferGet_snd]

end Endpoints

/-- **Errors change nothing, a success changes one slot.** The calls of the notify
hook are part of the device: an error makes none. -/
theorem request_footprint {d : Device negMax xferMax} (hr : Reachable d) (endpoint : Endpoint)
    (req : HttpdReq) :
    (400 ≤ (serve d endpoint req).1.status.code →
      SameTables d (serve d endpoint req).2 ∧
        (serve d endpoint req).2.xfer.calls = d.xfer.calls) ∧
    (IsGet endpoint → SameTables d (serve d endpoint req).2) ∧
    (¬ IsGet endpoint → (serve d endpoint req).1.status.code / 100 = 2 →
      (Absorbed d req endpoint ∧ SameTables d (serve d endpoint req).2) ∨
        (¬ Absorbed d req endpoint ∧ OneSlot d (serve d endpoint req).2)) := by
  refine ⟨?_, ?_, ?_⟩
  · intro herror
    have hfail : (serve d endpoint req).1.success = false := by
      cases hok : (serve d endpoint req).1.success with
      | false => rfl
      | true =>
        have h2xx := (success_iff _).mp hok
        omega
    rw [serve_failed hr.wellFormed hfail]
    exact ⟨⟨rfl, rfl⟩, rfl⟩
  · intro hget
    rw [get_footprint hget]
    exact ⟨rfl, rfl⟩
  · intro hpost hok
    exact success_footprint hr.wellFormed hpost ((success_iff _).mpr hok)

/-- An offer on a device that has just been booted fills a slot. -/
theorem request_footprint_offer :
    SameTables (boot (RtcStore.zero 4 2) true)
        (serve (boot (RtcStore.zero 4 2) true) .offers completeRequest).2 ∧
      OneSlot (boot (RtcStore.zero 4 2) true)
        (serve (boot (RtcStore.zero 4 2) true) .offers offerRequest).2 := by
  have hboot : Reachable (boot (RtcStore.zero 4 2) true) := .boot _ _
  constructor
  · exact ((request_footprint hboot .offers completeRequest).1 (by decide +kernel)).1
  · have hpost : ¬ IsGet .offers := by simp [IsGet]
    rcases (request_footprint hboot .offers offerRequest).2.2 hpost (by decide +kernel) with
      ⟨habsorbed, -⟩ | ⟨-, hone⟩
    · exact habsorbed.elim
    · exact hone

end DspEmbedded.Audit.Footprint
