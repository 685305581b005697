import DspEmbedded.Lib.Runs
import DspEmbedded.Model.Shared

/-!
# The ring buffer is a bounded queue

Any sequence of push, pop, drain and count, NULL arguments included, is answered
as a queue of at most 32 samples answers it, the newest sample dropped when it is
full. The relation between ring and queue is kept by every call.
-/
namespace DspEmbedded.Audit.RingBuffer

open Lib.Runs Lib.Fifo Model.Esp Model.Shared

/-! ## Calls on the shared state -/

/-- A flag says whether the pointer of that name is other than NULL. -/
inductive Call where
  | push (sh : Bool) (sample : Option DspSample)
  | pop (sh out : Bool)
  | drain (sh buf : Bool) (capacity : UInt32) (outCount : Bool)
  | count (sh : Bool)
  deriving DecidableEq

inductive Answer where
  | pushed (err : EspErr)
  | popped (err : EspErr) (out : Option DspSample)
  | drained (err : EspErr) (buf : List DspSample) (outCount : Option UInt32)
  | counted (n : UInt32)
  deriving DecidableEq

def Answer.err : Answer → EspErr
  | .pushed err => err
  | .popped err _ => err
  | .drained err _ _ => err
  | .counted _ => .ok

def pointer (s : DspShared) (sh : Bool) : Option DspShared := if sh then some s else none

def perform (s : DspShared) : Call → Answer × DspShared
  | .push sh sample =>
    let (err, after) := dspRingBufPush (pointer s sh) sample
    (.pushed err, after.getD s)
  | .pop sh out =>
    let (err, sample, after) := dspRingBufPop (pointer s sh) out
    (.popped err sample, after.getD s)
  | .drain sh buf capacity outCount =>
    let (err, samples, n, after) := dspRingBufDrain (pointer s sh) buf capacity outCount
    (.drained err samples n, after.getD s)
  | .count sh => (.counted (dspRingBufCount (pointer s sh)), s)

/-- The same calls on a bounded queue. -/
def queuePerform (q : SampleQueue) : Call → Answer × SampleQueue
  | .push true (some sample) =>
    match q.enqueue sample with
    | none => (.pushed .noMem, q)
    | some r => (.pushed .ok, r)
  | .push _ _ => (.pushed .invalidArg, q)
  | .pop true true =>
    match q.dequeue with
    | none => (.popped .notFound none, q)
    | some (sample, r) => (.popped .ok (some sample), r)
  | .pop _ _ => (.popped .invalidArg none, q)
  | .drain sh buf capacity outCount =>
    if capacity = 0 then (.drained .ok [] (if outCount then some 0 else none), q)
    else if sh && buf then
      let (samples, r) := q.drain capacity.toNat
      (.drained .ok samples (if outCount then some (.ofNat samples.length) else none), r)
    else (.drained .invalidArg [] none, q)
  | .count sh => (.counted (if sh then .ofNat q.items.length else 0), q)

/-- The shared state after a successful init, of either build. -/
inductive Initialized : DspShared → Prop
  | device {old sh : DspShared} {created : Created}
      (h : dspSharedInit (some old) created = (.ok, some sh)) : Initialized sh
  | host {old sh : DspShared} (h : dspSharedInitStub (some old) = (.ok, some sh)) : Initialized sh

theorem Initialized.ringBuf {sh : DspShared} (h : Initialized sh) : sh.ringBuf = .zero := by
  cases h with
  | device h =>
    simp only [dspSharedInit] at h
    split_ifs at h <;> simp only [Prod.mk.injEq, Option.some.injEq, reduceCtorEq, false_and] at h
    rw [← h.2]
    rfl
  | host h =>
    simp only [dspSharedInitStub, Prod.mk.injEq, Option.some.injEq] at h
    rw [← h.2]
    rfl

/-! ## One call -/

section Call

variable {s : DspShared} {q : SampleQueue}

theorem push_simulates (h : Holds s.ringBuf q) (sample : DspSample) :
    (perform s (.push true (some sample))).1 = (queuePerform q (.push true (some sample))).1 ∧
      Holds (perform s (.push true (some sample))).2.ringBuf
        (queuePerform q (.push true (some sample))).2 := by
  have hcount := h.count
  rcases q.enqueue_cases sample with ⟨hfull, hq⟩ | ⟨r, hroom, hq, hr⟩
  · have hc : s.ringBuf.count ≥ dspRingBufCapacity := by
      rw [ge_iff_le, UInt32.le_iff_toNat_le]
      omega
    simp only [perform, pointer, dspRingBufPush, queuePerform, hq, if_true, hc]
    exact ⟨trivial, h⟩
  · have hc : ¬ s.ringBuf.count ≥ dspRingBufCapacity := by
      rw [ge_iff_le, UInt32.le_iff_toNat_le]
      omega
    simp only [perform, pointer, dspRingBufPush, queuePerform, hq, if_true, hc, if_false]
    exact ⟨trivial, h.store hroom hr⟩

theorem pop_simulates (h : Holds s.ringBuf q) :
    (perform s (.pop true true)).1 = (queuePerform q (.pop true true)).1 ∧
      Holds (perform s (.pop true true)).2.ringBuf (queuePerform q (.pop true true)).2 := by
  have hcount := h.count
  rcases q.dequeue_cases with ⟨hempty, hq⟩ | ⟨x, r, hx, hq⟩
  · have hc : s.ringBuf.count = 0 := by
      rw [← UInt32.toNat_inj, hcount, hempty]
      rfl
    simp only [perform, pointer, dspRingBufPop, queuePerform, hq, if_true, hc]
    exact ⟨trivial, h⟩
  · have hc : ¬ s.ringBuf.count = 0 := by
      rw [← UInt32.toNat_inj, hcount, hx]
      exact Nat.succ_ne_zero _
    obtain ⟨hfirst, hrest⟩ := h.takeOldest hx
    simp only [perform, pointer, dspRingBufPop, queuePerform, hq, if_true, hc, if_false]
    exact ⟨by rw [hfirst], hrest⟩

/-- The loop takes the oldest samples, one after the other. -/
theorem drainLoop_spec : ∀ (n : Nat) {rb : DspRingBuf} {q : SampleQueue}, Holds rb q →
    n ≤ q.items.length → (drainLoop n rb).1 = q.items.take n ∧
      Holds (drainLoop n rb).2 (q.drain n).2 := by
  intro n
  induction n with
  | zero => exact fun h _ => ⟨rfl, h⟩
  | succ n ih =>
    intro rb q h hn
    rcases q.dequeue_cases with ⟨hempty, -⟩ | ⟨x, r, hx, -⟩
    · rw [hempty] at hn
      exact absurd hn (Nat.not_succ_le_zero n)
    · obtain ⟨hfirst, hrest⟩ := h.takeOldest hx
      rw [hx] at hn
      obtain ⟨htake, hdrop⟩ := ih hrest (Nat.le_of_succ_le_succ hn)
      have hqueue : (r.drain n).2 = (q.drain (n + 1)).2 := by
        apply Queue.ext_items
        simp only [Queue.drain, hx, List.drop_succ_cons]
      rw [← hqueue]
      simp only [drainLoop, hfirst, htake, hx, List.take_succ_cons]
      exact ⟨trivial, hdrop⟩

/-- How many samples a drain takes. -/
theorem drain_amount (h : Holds s.ringBuf q) (capacity : UInt32) :
    (if s.ringBuf.count < capacity then s.ringBuf.count else capacity).toNat =
      min capacity.toNat q.items.length := by
  have hcount := h.count
  split_ifs with hlt
  · rw [UInt32.lt_iff_toNat_lt] at hlt
    omega
  · rw [UInt32.lt_iff_toNat_lt] at hlt
    omega

theorem drain_simulates (h : Holds s.ringBuf q) {capacity : UInt32} (hc : capacity ≠ 0)
    (outCount : Bool) :
    (perform s (.drain true true capacity outCount)).1 =
        (queuePerform q (.drain true true capacity outCount)).1 ∧
      Holds (perform s (.drain true true capacity outCount)).2.ringBuf
        (queuePerform q (.drain true true capacity outCount)).2 := by
  have hamount := drain_amount h capacity
  have hle : min capacity.toNat q.items.length ≤ q.items.length := min_le_right _ _
  obtain ⟨htake, hdrop⟩ := drainLoop_spec _ h hle
  rw [← hamount] at htake hdrop
  have htake' : q.items.take (min capacity.toNat q.items.length) = q.items.take capacity.toNat := by
    rw [← List.take_eq_take_min]
  have hqueue : (q.drain (min capacity.toNat q.items.length)).2 = (q.drain capacity.toNat).2 := by
    apply Queue.ext_items
    simp only [Queue.drain]
    rw [← List.drop_eq_drop_min]
  have hlength : (if s.ringBuf.count < capacity then s.ringBuf.count else capacity) =
      .ofNat (q.items.take capacity.toNat).length := by
    rw [List.length_take, ← hamount, UInt32.ofNat_toNat]
  rw [hamount, htake'] at htake
  rw [hamount, hqueue] at hdrop
  simp only [perform, pointer, dspRingBufDrain, queuePerform, hc, if_false, if_true, Bool.and_self,
    hamount, htake]
  refine ⟨?_, hdrop⟩
  rw [hlength]
  rfl

/-- Every call is answered as the queue answers it. -/
theorem perform_simulates (s : DspShared) (q : SampleQueue) (call : Call)
    (h : Holds s.ringBuf q) :
    (perform s call).1 = (queuePerform q call).1 ∧
      Holds (perform s call).2.ringBuf (queuePerform q call).2 := by
  cases call with
  | push sh sample =>
    match sh, sample with
    | true, some sample => exact push_simulates h sample
    | true, none => exact ⟨rfl, h⟩
    | false, _ => exact ⟨rfl, h⟩
  | pop sh out =>
    match sh, out with
    | true, true => exact pop_simulates h
    | true, false => exact ⟨rfl, h⟩
    | false, _ => exact ⟨rfl, h⟩
  | drain sh buf capacity outCount =>
    by_cases hc : capacity = 0
    · subst hc
      cases sh <;> exact ⟨rfl, h⟩
    · match sh, buf with
      | true, true => exact drain_simulates h hc outCount
      | true, false =>
        simp only [perform, pointer, dspRingBufDrain, queuePerform, hc, if_false]
        exact ⟨rfl, h⟩
      | false, _ =>
        simp only [perform, pointer, dspRingBufDrain, queuePerform, hc, if_false]
        exact ⟨rfl, h⟩
  | count sh =>
    cases sh with
    | false => exact ⟨rfl, h⟩
    | true =>
      refine ⟨?_, h⟩
      simp only [perform, pointer, dspRingBufCount, queuePerform, if_true, ← h.count,
        UInt32.ofNat_toNat]

end Call

/-- A call that is answered with an error changes nothing. -/
theorem perform_error (s : DspShared) (call : Call) (h : (perform s call).1.err ≠ .ok) :
    (perform s call).2 = s := by
  cases call with
  | push sh sample =>
    match sh, sample with
    | true, some sample =>
      simp only [perform, pointer, dspRingBufPush, if_true] at h ⊢
      split_ifs at h ⊢ with hfull
      · rfl
      · exact absurd rfl h
    | true, none => rfl
    | false, _ => rfl
  | pop sh out =>
    match sh, out with
    | true, true =>
      simp only [perform, pointer, dspRingBufPop, if_true] at h ⊢
      split_ifs at h ⊢ with hempty
      · rfl
      · exact absurd rfl h
    | true, false => rfl
    | false, _ => rfl
  | drain sh buf capacity outCount =>
    by_cases hc : capacity = 0
    · subst hc
      exact absurd rfl h
    · match sh, buf with
      | true, true =>
        simp only [perform, pointer, dspRingBufDrain, hc, if_false, if_true] at h
        exact absurd rfl h
      | true, false => simp [perform, pointer, dspRingBufDrain, hc]
      | false, _ => simp [perform, pointer, dspRingBufDrain, hc]
  | count sh => rfl

/-! ## A drain is a series of pops -/

/-- A pop that gives `x`, as it stands in a trace. -/
def popped (x : DspSample) : Call × Answer := (.pop true true, .popped .ok (some x))

theorem pops_eq : ∀ (n : Nat) {s : DspShared} {q : SampleQueue}, Holds s.ringBuf q →
    n ≤ q.items.length →
    trace perform s (List.replicate n (.pop true true)) = (drainLoop n s.ringBuf).1.map popped ∧
      final perform s (List.replicate n (.pop true true)) =
        { s with ringBuf := (drainLoop n s.ringBuf).2 } := by
  intro n
  induction n with
  | zero => exact fun _ _ => ⟨rfl, rfl⟩
  | succ n ih =>
    intro s q h hn
    rcases q.dequeue_cases with ⟨hempty, -⟩ | ⟨x, r, hx, -⟩
    · rw [hempty] at hn
      exact absurd hn (Nat.not_succ_le_zero n)
    · have hcount := h.count
      have hc : ¬ s.ringBuf.count = 0 := by
        rw [← UInt32.toNat_inj, hcount, hx]
        exact Nat.succ_ne_zero _
      have hpop : perform s (.pop true true) = (.popped .ok (some (takeOldest s.ringBuf).1),
          { s with ringBuf := (takeOldest s.ringBuf).2 }) := by
        simp only [perform, pointer, dspRingBufPop, if_true, hc, if_false]
        rfl
      rw [hx] at hn
      obtain ⟨htrace, hfinal⟩ := ih (s := { s with ringBuf := (takeOldest s.ringBuf).2 })
        (h.takeOldest hx).2 (Nat.le_of_succ_le_succ hn)
      rw [List.replicate_succ, trace_cons, final_cons, hpop]
      exact ⟨by rw [htrace]; rfl, hfinal⟩

/-- A drain has the output and the effect of as many pops as it takes samples. -/
def DrainIsPops (s : DspShared) (capacity : UInt32) : Prop :=
  let n := min capacity.toNat s.ringBuf.count.toNat
  let pops := List.replicate n (Call.pop true true)
  ∃ samples, trace perform s pops = samples.map popped ∧
    ∀ outCount, perform s (.drain true true capacity outCount) =
      (.drained .ok samples (if outCount then some (.ofNat n) else none), final perform s pops)

theorem drain_is_pops {s : DspShared} {q : SampleQueue} (h : Holds s.ringBuf q)
    (capacity : UInt32) : DrainIsPops s capacity := by
  have hamount := drain_amount h capacity
  rw [← h.count] at hamount
  have hle : min capacity.toNat s.ringBuf.count.toNat ≤ q.items.length := by
    rw [← h.count]
    exact min_le_right _ _
  obtain ⟨htrace, hfinal⟩ := pops_eq _ h hle
  refine ⟨_, htrace, ?_⟩
  intro outCount
  rw [hfinal]
  by_cases hc : capacity = 0
  · subst hc
    have hzero : min (0 : UInt32).toNat s.ringBuf.count.toNat = 0 := Nat.zero_min _
    rw [hzero]
    rfl
  · simp only [perform, pointer, dspRingBufDrain, hc, if_false, if_true, hamount]
    rw [← hamount, UInt32.ofNat_toNat]
    rfl

/-! ## Nothing is lost or reordered -/

/-- The sample that a push brought in. -/
def accepted : Call × Answer → List DspSample
  | (.push _ (some sample), .pushed .ok) => [sample]
  | _ => []

/-- The samples that a call gave out. -/
def delivered : Call × Answer → List DspSample
  | (_, .popped _ (some sample)) => [sample]
  | (_, .drained _ samples _) => samples
  | _ => []

theorem queue_conserves (q : SampleQueue) (call : Call) :
    q.items ++ accepted (call, (queuePerform q call).1) =
      delivered (call, (queuePerform q call).1) ++ (queuePerform q call).2.items := by
  cases call with
  | push sh sample =>
    match sh, sample with
    | true, some sample =>
      rcases q.enqueue_cases sample with ⟨-, hq⟩ | ⟨r, -, hq, hr⟩
      · simp [queuePerform, hq, accepted, delivered]
      · simp [queuePerform, hq, accepted, delivered, hr]
    | true, none => simp [queuePerform, accepted, delivered]
    | false, _ => simp [queuePerform, accepted, delivered]
  | pop sh out =>
    match sh, out with
    | true, true =>
      rcases q.dequeue_cases with ⟨-, hq⟩ | ⟨x, r, hx, hq⟩
      · simp [queuePerform, hq, accepted, delivered]
      · simp [queuePerform, hq, accepted, delivered, hx]
    | true, false => simp [queuePerform, accepted, delivered]
    | false, _ => simp [queuePerform, accepted, delivered]
  | drain sh buf capacity outCount =>
    by_cases hc : capacity = 0
    · simp [queuePerform, hc, accepted, delivered]
    · by_cases hargs : (sh && buf) = true
      · simp [queuePerform, hc, hargs, accepted, delivered, Queue.drain]
      · simp [queuePerform, hc, hargs, accepted, delivered]
  | count sh => simp [queuePerform, accepted, delivered]

theorem run_conserves (calls : List Call) :
    (trace queuePerform Queue.empty calls).flatMap accepted =
      (trace queuePerform Queue.empty calls).flatMap delivered ++
        (final queuePerform Queue.empty calls).items := by
  apply trace_invariant (P := fun (h : List (Call × Answer)) (q : SampleQueue) =>
    h.flatMap accepted = h.flatMap delivered ++ q.items)
  · intro h q call hP
    have hstep := queue_conserves q call
    simp only [List.flatMap_append, List.flatMap_singleton]
    rw [hP, List.append_assoc, hstep, List.append_assoc]
  · rfl

/-- A push with both pointers is refused in one way only. -/
def PushAnswered (e : Call × Answer) : Prop :=
  ∀ sample, e.1 = .push true (some sample) → e.2 = .pushed .ok ∨ e.2 = .pushed .noMem

theorem push_answered (s : DspShared) (call : Call) : PushAnswered (call, (perform s call).1) := by
  rintro sample rfl
  simp only [perform, pointer, dspRingBufPush, if_true]
  split_ifs
  · exact .inr rfl
  · exact .inl rfl

/-! ## Whole runs -/

theorem run_simulates {sh : DspShared} (hinit : Initialized sh) (calls : List Call) :
    trace perform sh calls = trace queuePerform Queue.empty calls ∧
      Holds (final perform sh calls).ringBuf (final queuePerform Queue.empty calls) := by
  have hstart : Holds sh.ringBuf Queue.empty := by
    rw [hinit.ringBuf]
    exact holds_zero
  exact trace_simulates (R := fun (s : DspShared) (q : SampleQueue) => Holds s.ringBuf q)
    perform_simulates calls hstart

/-- The three redundant indices. -/
structure Indices (rb : DspRingBuf) : Prop where
  head_eq : rb.head.toNat = (rb.tail.toNat + rb.count.toNat) % dspRingBufCapacity.toNat
  count_le : rb.count.toNat ≤ dspRingBufCapacity.toNat
  head_lt : rb.head.toNat < dspRingBufCapacity.toNat
  tail_lt : rb.tail.toNat < dspRingBufCapacity.toNat

theorem Indices.of_holds {rb : DspRingBuf} {q : SampleQueue} (h : Holds rb q) : Indices rb where
  head_eq := by
    rw [h.count]
    exact h.ring.head_eq
  count_le := h.count_le
  head_lt := h.ring.head_lt
  tail_lt := h.ring.tail_lt

/-- **The ring buffer refines a bounded queue.** After init, every run is answered
as the queue answers it and leaves the ring in step with the queue; what was
accepted is what was delivered and what is still there, in this order; a drain is
a series of pops; an error changes nothing. -/
theorem ring_buffer_refines {sh : DspShared} (hinit : Initialized sh) (calls : List Call) :
    let h := trace perform sh calls
    let s := final perform sh calls
    let q : SampleQueue := final queuePerform Queue.empty calls
    h = trace queuePerform Queue.empty calls ∧ Holds s.ringBuf q ∧ Indices s.ringBuf ∧
    (h.flatMap accepted = h.flatMap delivered ++ q.items ∧ ∀ e ∈ h, PushAnswered e) ∧
    (∀ capacity, DrainIsPops s capacity) ∧
    ∀ call, (perform s call).1.err ≠ .ok → (perform s call).2 = s := by
  intro h s q
  obtain ⟨htrace, hholds⟩ : h = trace queuePerform Queue.empty calls ∧ Holds s.ringBuf q :=
    run_simulates hinit calls
  refine ⟨htrace, hholds, .of_holds hholds, ⟨?_, ?_⟩, ?_, ?_⟩
  · rw [htrace]
    exact run_conserves calls
  · exact trace_forall push_answered calls sh
  · exact fun capacity => drain_is_pops hholds capacity
  · exact fun call herr => perform_error s call herr

/-- Two samples through the ring of a device, in their order. -/
theorem ring_buffer_two_samples :
    let a : DspSample := { DspSample.zero with rawValue := 1 }
    let b : DspSample := { DspSample.zero with rawValue := 2 }
    let sh := { DspShared.zero with
      ringBufMutex := true, xferNotifyQ := some [], dataNotifyQ := some [] }
    trace perform sh [.push true (some a), .push true (some b), .drain true true 40 true] =
      [(.push true (some a), .pushed .ok), (.push true (some b), .pushed .ok),
        (.drain true true 40 true, .drained .ok [a, b] (some 2))] := by
  intro a b sh
  have hinit : dspSharedInit (some DspShared.zero) ⟨true, true, true⟩ = (.ok, some sh) := rfl
  exact (ring_buffer_refines (.device hinit) _).1.trans (by decide)

end DspEmbedded.Audit.RingBuffer
