import DspEmbedded.Model.Board

/-!
# Sleep and wake-up are invisible

Save, deinit, init and restore bring back both tables slot by slot and notify
nobody, whatever strings, states and table sizes there are. So sleep cycles may
be put anywhere into a run of calls without a change to any other result.
-/
namespace DspEmbedded.Audit.SleepWake

open Lib.CString Lib.Runs Model Model.Esp Model.Neg Model.Xfer Model.Board
open Model.RtcState (RtcStore)

variable {negMax xferMax : Nat}

/-- The calls of the two modules, and a whole sleep cycle. -/
inductive Call where
  | negCreate (consumerPid providerPid : Option CStr)
  | negApply (idx : Int) (event : NegEvent)
  | negGetState (idx : Int)
  | negGetConsumerPid (idx : Int)
  | negGetProviderPid (idx : Int)
  | negFindByCpid (cpid : Option CStr)
  | negCountActive
  | negIsActive (idx : Int)
  | negLoadSlot (idx : Int) (state : NegState) (consumerPid providerPid : Option CStr)
  | xferCreate (processId : Option CStr)
  | xferApply (idx : Int) (event : XferEvent)
  | xferGetState (idx : Int)
  | xferGetProcessId (idx : Int)
  | xferFindByPid (pid : Option CStr)
  | xferCountActive
  | xferIsActive (idx : Int)
  | xferLoadSlot (idx : Int) (state : XferState) (processId : Option CStr)
  | xferSetNotify (fn : Bool)
  | sleepCycle

def isSleepCycle : Call → Bool
  | .sleepCycle => true
  | _ => false

/-- What a call returns. -/
inductive Result where
  | int (value : Int)
  | negState (value : NegState)
  | xferState (value : XferState)
  | str (value : Option CStr)
  | bool (value : Bool)
  | err (value : EspErr)
  | void

/-- Calls of the negotiation module. -/
def callNeg (m : NegModule negMax) : Call → Option (Result × NegModule negMax)
  | .negCreate c p => some (.int (dspNegCreate m c p).1, (dspNegCreate m c p).2)
  | .negApply idx event => some (.negState (dspNegApply m idx event).1, (dspNegApply m idx event).2)
  | .negGetState idx => some (.negState (dspNegGetState m idx), m)
  | .negGetConsumerPid idx => some (.str (dspNegGetConsumerPid m idx), m)
  | .negGetProviderPid idx => some (.str (dspNegGetProviderPid m idx), m)
  | .negFindByCpid cpid => some (.int (dspNegFindByCpid m cpid), m)
  | .negCountActive => some (.int (dspNegCountActive m), m)
  | .negIsActive idx => some (.bool (dspNegIsActive m idx), m)
  | .negLoadSlot idx state c p =>
    some (.err (dspNegLoadSlot m idx state c p).1, (dspNegLoadSlot m idx state c p).2)
  | _ => none

/-- Calls of the transfer module. -/
def callXfer (m : XferModule xferMax) : Call → Option (Result × XferModule xferMax)
  | .xferCreate p => some (.int (dspXferCreate m p).1, (dspXferCreate m p).2)
  | .xferApply idx event =>
    some (.xferState (dspXferApply m idx event).1, (dspXferApply m idx event).2)
  | .xferGetState idx => some (.xferState (dspXferGetState m idx), m)
  | .xferGetProcessId idx => some (.str (dspXferGetProcessId m idx), m)
  | .xferFindByPid pid => some (.int (dspXferFindByPid m pid), m)
  | .xferCountActive => some (.int (dspXferCountActive m), m)
  | .xferIsActive idx => some (.bool (dspXferIsActive m idx), m)
  | .xferLoadSlot idx state p =>
    some (.err (dspXferLoadSlot m idx state p).1, (dspXferLoadSlot m idx state p).2)
  | .xferSetNotify fn => some (.void, dspXferSetNotify m fn)
  | _ => none

/-- One call: its result, and the notify calls that have been made after it. -/
def call (d : Device negMax xferMax) (c : Call) :
    (Result × List (Int × XferState)) × Device negMax xferMax :=
  match callNeg d.neg c, callXfer d.xfer c with
  | some (result, neg), _ => ((result, d.xfer.calls), { d with neg })
  | none, some (result, xfer) => ((result, xfer.calls), { d with xfer })
  | none, none =>
    ((.err (Board.sleepCycle d).1, (Board.sleepCycle d).2.xfer.calls), (Board.sleepCycle d).2)

theorem callNeg_storable {m : NegModule negMax} (hc : ∀ e ∈ m.table.slots, e.Canonical) {c : Call}
    {r : Result × NegModule negMax} (h : callNeg m c = some r) :
    (∀ e ∈ r.2.table.slots, e.Canonical) ∧ r.2.initialized = m.initialized := by
  cases c <;> simp only [callNeg, Option.some.injEq, reduceCtorEq] at h <;> subst h
  case negCreate c p => exact Neg.create_canonical hc c p
  case negApply idx event => exact Neg.apply_canonical hc idx event
  case negLoadSlot idx state c p => exact Neg.loadSlot_canonical hc idx state c p
  all_goals exact ⟨hc, rfl⟩

theorem callXfer_storable {m : XferModule xferMax} (hc : ∀ e ∈ m.table.slots, e.Canonical)
    {c : Call} {r : Result × XferModule xferMax} (h : callXfer m c = some r) :
    (∀ e ∈ r.2.table.slots, e.Canonical) ∧ r.2.initialized = m.initialized := by
  cases c <;> simp only [callXfer, Option.some.injEq, reduceCtorEq] at h <;> subst h
  case xferCreate p => exact Xfer.create_canonical hc p
  case xferApply idx event => exact Xfer.apply_canonical hc idx event
  case xferLoadSlot idx state p => exact Xfer.loadSlot_canonical hc idx state p
  all_goals exact ⟨hc, rfl⟩

theorem call_storable {d : Device negMax xferMax} (hs : Storable d) (c : Call) :
    Storable (call d c).2 := by
  unfold call
  split
  · next r neg hcall =>
    obtain ⟨hc, hi⟩ := callNeg_storable hs.neg hcall
    exact ⟨hc, hs.xfer, hi.trans hs.negInit, hs.xferInit⟩
  · next r xfer hcall =>
    obtain ⟨hc, hi⟩ := callXfer_storable hs.xfer hcall
    exact ⟨hs.neg, hc, hs.negInit, hi.trans hs.xferInit⟩
  · rw [sleepCycle_eq hs]
    exact ⟨hs.neg, hs.xfer, hs.negInit, hs.xferInit⟩

/-- Two devices with the same modules, whatever their images hold. -/
structure SameModules (s t : Device negMax xferMax) : Prop where
  neg : s.neg = t.neg
  xfer : s.xfer = t.xfer
  storable : Storable s

theorem sameModules_sleep {s t : Device negMax xferMax} {c : Call} (hc : isSleepCycle c = true)
    (h : SameModules s t) : SameModules (call s c).2 t := by
  have hstorable := call_storable h.storable c
  cases c <;> simp only [isSleepCycle, Bool.false_eq_true] at hc
  case sleepCycle =>
    have heq : (call s .sleepCycle).2 = (Board.sleepCycle s).2 := rfl
    rw [heq, sleepCycle_eq h.storable] at hstorable ⊢
    exact ⟨h.neg, h.xfer, hstorable⟩

theorem sameModules_call {s t : Device negMax xferMax} {c : Call} (hc : isSleepCycle c = false)
    (h : SameModules s t) :
    (call s c).1 = (call t c).1 ∧ SameModules (call s c).2 (call t c).2 := by
  have hstorable := call_storable h.storable c
  have hout : (call s c).1 = (call t c).1 ∧ (call s c).2.neg = (call t c).2.neg ∧
      (call s c).2.xfer = (call t c).2.xfer := by
    unfold call
    rw [h.neg, h.xfer]
    cases hn : callNeg t.neg c with
    | some r => exact ⟨rfl, rfl, rfl⟩
    | none =>
      cases hx : callXfer t.xfer c with
      | some r => exact ⟨rfl, rfl, rfl⟩
      | none => cases c <;> simp [callNeg, callXfer, isSleepCycle] at hn hx hc
  exact ⟨hout.1, hout.2.1, hout.2.2, hstorable⟩

/-- **Sleep and wake-up are invisible.** After any run of calls a sleep cycle
succeeds and gives back the same modules, notify calls included; and the results
of the other calls are those of the run without its sleep cycles. -/
theorem sleepCycle_transparent (store : RtcStore negMax xferMax) (notify : Bool)
    (cs : List Call) :
    ((Board.sleepCycle (final call (boot store notify) cs)).1 = .ok ∧
      (Board.sleepCycle (final call (boot store notify) cs)).2.neg =
        (final call (boot store notify) cs).neg ∧
      (Board.sleepCycle (final call (boot store notify) cs)).2.xfer =
        (final call (boot store notify) cs).xfer) ∧
    (trace call (boot store notify) cs).filter (fun e => !isSleepCycle e.1) =
      trace call (boot store notify) (cs.filter fun c => !isSleepCycle c) ∧
    (final call (boot store notify) cs).neg =
      (final call (boot store notify) (cs.filter fun c => !isSleepCycle c)).neg ∧
    (final call (boot store notify) cs).xfer =
      (final call (boot store notify) (cs.filter fun c => !isSleepCycle c)).xfer := by
  have hboot := (boot_wellFormed store notify).storable
  have hs : Storable (final call (boot store notify) cs) :=
    final_invariant (P := Storable) (fun d c hd => call_storable hd c) cs hboot
  obtain ⟨htrace, hfinal⟩ := trace_filter_stutter isSleepCycle
    (fun s t c hc h => sameModules_sleep hc h) (fun s t c hc h => sameModules_call hc h) cs
    (⟨rfl, rfl, hboot⟩ : SameModules (boot store notify) (boot store notify))
  rw [sleepCycle_eq hs]
  exact ⟨⟨rfl, rfl, rfl⟩, htrace, hfinal.neg, hfinal.xfer⟩

end DspEmbedded.Audit.SleepWake
