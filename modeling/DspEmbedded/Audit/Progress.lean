import DspEmbedded.Audit.Requests
import Mathlib.Algebra.BigOperators.Group.List.Basic
import Mathlib.Algebra.GroupWithZero.Nat

/-!
# Requests that change a table

`Effective` says of a request, by its input and the tables before it, whether it
changes them. No request takes anything back: the sum of the ranks of all records
grows with every effective request and stays with every other one.
-/
namespace DspEmbedded.Audit.Progress

open Lib.CString Lib.SlotTable Model Model.Esp Model.PathId Model.Neg Model.Board Audit.Requests
open Model.RtcState (RtcStore)
open Model.Xfer (XferState XferEntry XferModule completeSlot dspXferGetState dspXferCountActive
  startProcessId startedEntry)

variable {negMax xferMax : Nat}

/-- The requests that change a table. -/
def Effective (d : Device negMax xferMax) (req : HttpdReq) : Endpoint → Prop
  | .offers => ∃ p, ValidPid p ∧ RequestsOffer req p ∧ dspNegCountActive d.neg ≠ negMax
  | .agree => dspNegGetState d.neg (agreeSlot d.neg req) = .offered
  | .terminate => ∃ p, ValidPid p ∧ Carries req p ∧ dspNegFindByCpid d.neg (some p) ≠ -1 ∧
      dspNegGetState d.neg (dspNegFindByCpid d.neg (some p)) ≠ .finalized ∧
      dspNegGetState d.neg (dspNegFindByCpid d.neg (some p)) ≠ .terminated
  | .xferStart => ∃ p, ValidPid p ∧ RequestsTransfer req p ∧
      dspNegGetState d.neg (dspNegFindByCpid d.neg (some p)) = .agreed ∧
      dspXferCountActive d.xfer ≠ xferMax
  | .xferComplete => dspXferGetState d.xfer (completeSlot d.xfer req) = .transferring
  | .negGet => False
  | .xferGet => False

def negRank : NegState → Nat
  | .offered => 1
  | .agreed => 2
  | .verified => 3
  | .finalized => 4
  | .terminated => 5
  | _ => 0

def xferRank : XferState → Nat
  | .transferring => 1
  | .completed => 2
  | .failed => 3
  | _ => 0

def negProgress (m : NegModule negMax) : Nat :=
  ((Neg.ledger m).map fun e => 1 + negRank e.state).sum

def xferProgress (m : XferModule xferMax) : Nat :=
  ((Xfer.ledger m).map fun e => 1 + xferRank e.state).sum

/-- How far the two tables have come. -/
def progress (d : Device negMax xferMax) : Nat := negProgress d.neg + xferProgress d.xfer

/-- The two tables of a device are those of another. -/
def SameTables (d d' : Device negMax xferMax) : Prop :=
  d.neg.table = d'.neg.table ∧ d.xfer.table = d'.xfer.table

theorem SameTables.refl (d : Device negMax xferMax) : SameTables d d := ⟨rfl, rfl⟩

theorem SameTables.trans {d₁ d₂ d₃ : Device negMax xferMax} (h₁ : SameTables d₁ d₂)
    (h₂ : SameTables d₂ d₃) : SameTables d₁ d₃ := ⟨h₁.1.trans h₂.1, h₁.2.trans h₂.2⟩

theorem SameTables.progress_eq {d d' : Device negMax xferMax} (h : SameTables d d') :
    progress d = progress d' := by
  simp only [progress, negProgress, xferProgress, Neg.ledger, Xfer.ledger, h.1, h.2]

/-! ## Sums over a ledger -/

theorem sum_map_set {α : Type*} (rank : α → Nat) {l : List α} {i : Nat} {e f : α}
    (hi : l[i]? = some e) :
    ((l.set i f).map rank).sum + rank e = (l.map rank).sum + rank f := by
  induction l generalizing i with
  | nil => simp at hi
  | cons x l ih =>
    cases i with
    | zero =>
      obtain rfl := Option.some.inj hi
      simp only [List.set_cons_zero, List.map_cons, List.sum_cons]
      omega
    | succ i =>
      have hrest := ih (i := i) hi
      simp only [List.set_cons_succ, List.map_cons, List.sum_cons]
      omega

theorem negProgress_set {m m' : NegModule negMax} {i : Nat} {e : NegEntry} {s : NegState}
    (hget : (Neg.ledger m)[i]? = some e)
    (hl : Neg.ledger m' = (Neg.ledger m).set i { e with state := s }) :
    negProgress m' + negRank e.state = negProgress m + negRank s := by
  have hsum := sum_map_set (fun e : NegEntry => 1 + negRank e.state)
    (f := { e with state := s }) hget
  simp only at hsum
  simp only [negProgress, hl]
  omega

theorem xferProgress_set {m m' : XferModule xferMax} {i : Nat} {e : XferEntry} {s : XferState}
    (hget : (Xfer.ledger m)[i]? = some e)
    (hl : Xfer.ledger m' = (Xfer.ledger m).set i { e with state := s }) :
    xferProgress m' + xferRank e.state = xferProgress m + xferRank s := by
  have hsum := sum_map_set (fun e : XferEntry => 1 + xferRank e.state)
    (f := { e with state := s }) hget
  simp only at hsum
  simp only [xferProgress, hl]
  omega

/-- Writing back the state that a record has changes nothing. -/
theorem negTable_set_same {m m' : NegModule negMax} (hw : Neg.WellFormed m)
    (hw' : Neg.WellFormed m') {i : Nat} {e : NegEntry} {s : NegState}
    (hget : (Neg.ledger m)[i]? = some e) (hs : e.state = s)
    (hl : Neg.ledger m' = (Neg.ledger m).set i { e with state := s }) : m'.table = m.table := by
  apply Neg.table_eq_of_ledger hw' hw
  obtain ⟨hlt, rfl⟩ := List.getElem?_eq_some_iff.mp hget
  rw [hl, ← hs]
  exact List.set_getElem_self hlt

/-! ## One request -/

/-- What a request does: progress if it is effective, nothing if it is not. -/
def Progresses (d : Device negMax xferMax) (endpoint : Endpoint) (req : HttpdReq) : Prop :=
  (Effective d req endpoint ∧ progress d < progress (serve d endpoint req).2) ∨
    (¬ Effective d req endpoint ∧ SameTables (serve d endpoint req).2 d)

theorem offers_progress {d : Device negMax xferMax} (hr : Reachable d) (req : HttpdReq) :
    Progresses d .offers req := by
  have hn := hr.wellFormed.neg
  rcases offers_cases hn req with ⟨hwhy, -, hm⟩ | ⟨p, m', hreq, hlt, heq, -, -, hl⟩
  · right
    refine ⟨?_, by simp only [serve, hm]; exact .refl d⟩
    intro hex
    obtain ⟨p, hp, hoffer, hroom⟩ := hex
    have hle := length_ledger_le d.neg
    rw [(offersProcessId_iff hp).mpr hoffer] at hwhy
    rw [countActive_eq hn] at hroom
    rcases hwhy with hnone | hfull
    · cases hnone
    · omega
  · left
    have hp := validPid_of (offersProcessId_length hreq)
    refine ⟨⟨p, hp, (offersProcessId_iff hp).mp hreq, ?_⟩, ?_⟩
    · rw [countActive_eq hn]
      omega
    · simp only [serve, heq, progress, negProgress, hl, List.map_append, List.map_singleton,
        List.sum_append, List.sum_singleton]
      omega

theorem agree_progress {d : Device negMax xferMax} (hr : Reachable d) (req : HttpdReq) :
    Progresses d .agree req := by
  have hn := hr.wellFormed.neg
  have hid : ∀ e ∈ Neg.ledger d.neg, e.cpid.bytes ≠ [] := fun e he => (hr.served.neg e he).2
  rcases agree_cases hn req with ⟨-, hfail, hm⟩ |
    ⟨p, i, e, m', hreq, -, hget, -, hf, hagrees, heq, hw', -, hl⟩
  · right
    refine ⟨?_, by simp only [serve, hm]; exact .refl d⟩
    intro heff
    have hok := (agree_success_iff hn hid req).mpr (.inr (.inl heff))
    rw [hfail] at hok
    cases hok
  · have hstate := getState_agreeSlot hn hreq
    rw [stateOf_of_find hf, Option.getD_some] at hstate
    rcases hagrees with hs | hs | hs
    · have hopened := (hr.served.neg e (List.mem_of_getElem? hget)).1
      rw [hs] at hopened
      exact absurd hopened (by simp [Opened])
    · left
      refine ⟨hstate.trans hs, ?_⟩
      have hset := negProgress_set hget hl
      rw [hs] at hset
      simp only [negRank] at hset
      simp only [serve, heq, progress]
      omega
    · right
      refine ⟨?_, ?_⟩
      · intro heff
        rw [show e.state = .offered from hstate.symm.trans heff] at hs
        cases hs
      · simp only [serve, heq]
        exact ⟨negTable_set_same hn hw' hget hs hl, rfl⟩

/-- TERMINATE raises the rank of a negotiation that has not ended. -/
theorem terminate_rank {s : NegState} (h : Opened s) :
    (s ≠ .finalized ∧ s ≠ .terminated ∧ negRank s < negRank (dspNegSmNext s .terminate)) ∨
      ((s = .finalized ∨ s = .terminated) ∧ dspNegSmNext s .terminate = s) := by
  rcases h with rfl | rfl | rfl | rfl | rfl <;> simp [negRank, dspNegSmNext]

theorem terminate_progress {d : Device negMax xferMax} (hr : Reachable d) (req : HttpdReq) :
    Progresses d .terminate req := by
  have hn := hr.wellFormed.neg
  rcases terminate_cases hn req with ⟨hwhy, -, hm⟩ |
    ⟨p, i, e, m', hreq, -, hget, -, hf, heq, hw', -, hl⟩
  · right
    refine ⟨?_, by simp only [serve, hm]; exact .refl d⟩
    intro hex
    obtain ⟨p, hp, hcarries, hfound, -⟩ := hex
    rw [ne_eq, find_eq_neg_one_iff hn, stateOf,
      hwhy p ((terminateProcessId_iff hp).mpr hcarries)] at hfound
    exact hfound rfl
  · have hp := validPid_of (terminateProcessId_length hreq)
    have hstate := getState_find hn p
    rw [stateOf_of_find hf, Option.getD_some] at hstate
    rcases terminate_rank (hr.served.neg e (List.mem_of_getElem? hget)).1 with
      ⟨hnf, hnt, hrank⟩ | ⟨hended, hnext⟩
    · left
      refine ⟨⟨p, hp, (terminateProcessId_iff hp).mp hreq, ?_, ?_, ?_⟩, ?_⟩
      · rw [ne_eq, find_eq_neg_one_iff hn, stateOf_of_find hf]
        simp
      · rwa [hstate]
      · rwa [hstate]
      · have hset := negProgress_set hget hl
        simp only [serve, heq, progress]
        omega
    · right
      refine ⟨?_, ?_⟩
      · intro hex
        obtain ⟨q, hq, hcarries, -, hnf, hnt⟩ := hex
        obtain rfl := Option.some.inj (hreq.symm.trans ((terminateProcessId_iff hq).mpr hcarries))
        rw [hstate] at hnf hnt
        rcases hended with h | h
        · exact hnf h
        · exact hnt h
      · simp only [serve, heq]
        exact ⟨negTable_set_same hn hw' hget hnext.symm hl, rfl⟩

theorem start_progress {d : Device negMax xferMax} (hr : Reachable d) (req : HttpdReq) :
    Progresses d .xferStart req := by
  have hn := hr.wellFormed.neg
  have hx := hr.wellFormed.xfer
  rcases Xfer.start_cases hn hx req with ⟨hwhy, -, hm⟩ |
    ⟨p, m', hreq, ha, hlt, heq, -, -, -, -, hl⟩
  · right
    refine ⟨?_, by simp only [serve, hm]; exact .refl d⟩
    intro hex
    obtain ⟨p, hp, htransfer, hstate, hroom⟩ := hex
    have hfull := hwhy p ((startProcessId_iff hp).mpr htransfer)
      ((Xfer.agreed_iff_getState hn p).mpr hstate)
    have hle := Xfer.length_ledger_le d.xfer
    rw [Xfer.countActive_eq hx] at hroom
    omega
  · left
    have hp := validPid_of (Xfer.startProcessId_length hreq)
    have hagreed := (Xfer.agreed_iff_getState hn p).mp ha
    refine ⟨⟨p, hp, (startProcessId_iff hp).mp hreq, hagreed, ?_⟩, ?_⟩
    · rw [Xfer.countActive_eq hx]
      omega
    · simp only [serve, heq, progress, xferProgress, hl, List.map_append, List.map_singleton,
        List.sum_append, List.sum_singleton]
      omega

theorem complete_progress {d : Device negMax xferMax} (hr : Reachable d) (req : HttpdReq) :
    Progresses d .xferComplete req := by
  have hx := hr.wellFormed.xfer
  have hid : ∀ e ∈ Xfer.ledger d.xfer, e.pid.bytes ≠ [] := fun e he => (hr.served.xfer e he).2
  have hsuccess := Xfer.complete_success_iff hx hid req
  rcases Xfer.complete_cases hx req with ⟨-, hfail, hm⟩ |
    ⟨p, i, e, m', -, -, hget, -, -, hs, heq, -, -, -, -, hl⟩
  · right
    refine ⟨?_, by simp only [serve, hm]; exact .refl d⟩
    intro heff
    have hok := hsuccess.mpr heff
    rw [hfail] at hok
    cases hok
  · left
    refine ⟨hsuccess.mp (by rw [heq]; rfl), ?_⟩
    have hset := xferProgress_set hget hl
    rw [hs] at hset
    simp only [xferRank] at hset
    simp only [serve, heq, progress]
    omega

/-- **Step.** Every request makes progress or leaves the tables alone, by whether
it is effective. -/
theorem serve_progress {d : Device negMax xferMax} (hr : Reachable d) (endpoint : Endpoint)
    (req : HttpdReq) : Progresses d endpoint req := by
  cases endpoint with
  | offers => exact offers_progress hr req
  | agree => exact agree_progress hr req
  | terminate => exact terminate_progress hr req
  | negGet =>
    right
    refine ⟨fun h => h, ?_⟩
    simp only [serve, negGet_snd]
    exact .refl d
  | xferStart => exact start_progress hr req
  | xferComplete => exact complete_progress hr req
  | xferGet =>
    right
    refine ⟨fun h => h, ?_⟩
    simp only [serve, Xfer.xferGet_snd]
    exact .refl d

end DspEmbedded.Audit.Progress
