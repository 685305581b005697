import DspEmbedded.Audit.RingBuffer
import DspEmbedded.Model.Application

/-!
# Measurements in the ring buffer

A measurement is two samples, pushed one after the other while core 0 takes samples
out. Whether a push is accepted depends on the fill level at that moment alone, so
a measurement is stored whole or not at all unless the buffer is full at exactly one
of its two pushes. Without such a measurement the channels alternate.
-/
namespace DspEmbedded.Audit.Measurements

open Lib.Fifo Lib.Runs Model.Esp Model.Dht20 Model.Shared Model.Application Audit.RingBuffer

/-! ## Runs of both cores -/

/-- What core 0 does to the ring buffer. -/
inductive Consume where
  | pop
  | drain (capacity : UInt32) (outCount : Bool)

def Consume.call : Consume → Call
  | .pop => .pop true true
  | .drain capacity outCount => .drain true true capacity outCount

/-- A cycle on core 1 with a successful read, and what core 0 does between its pushes. -/
structure Acquisition where
  reading : Dht20Reading
  timestampUs : UInt64
  during : List Consume

def Acquisition.temperature (a : Acquisition) : DspSample :=
  temperatureSample a.reading a.timestampUs

def Acquisition.humidity (a : Acquisition) : DspSample := humiditySample a.reading a.timestampUs

/-- The calls up to the second push. -/
def Acquisition.opening (a : Acquisition) : List Call :=
  .push true (some a.temperature) :: a.during.map Consume.call

def Acquisition.calls (a : Acquisition) : List Call :=
  a.opening ++ [.push true (some a.humidity)]

/-- Core 1 is the only one to push, so an interleaving is a list of cycles, with the
calls of core 0 before, between and inside of them. -/
inductive Event where
  | acquire (a : Acquisition)
  | consume (c : Consume)

def Event.calls : Event → List Call
  | .acquire a => a.calls
  | .consume c => [c.call]

/-- The samples of an event that were accepted, and the shared state after it. -/
def step (s : DspShared) (e : Event) : List DspSample × DspShared :=
  ((trace perform s e.calls).flatMap accepted, final perform s e.calls)

/-- The calls of a cycle are what `acquire_dht20_samples` does. -/
theorem acquire_eq (s : DspShared) (a : Acquisition) :
    acquireDht20Samples (.ok, a.reading) a.timestampUs
        (Option.map fun s => final perform s (a.during.map Consume.call)) (some s) =
      some (final perform s a.calls) := by
  have hpush : ∀ (s : DspShared) (x : DspSample),
      (dspRingBufPush (some s) (some x)).2 = some (perform s (.push true (some x))).2 := by
    intro s x
    simp only [perform, pointer, dspRingBufPush, if_true]
    split_ifs <;> rfl
  have htail := hpush (final perform s a.opening) a.humidity
  rw [Acquisition.calls, final_append, final_cons, final_nil, ← htail]
  simp only [acquireDht20Samples, ne_eq, not_true_eq_false, if_false]
  have hhead := hpush s a.temperature
  rw [Acquisition.temperature] at hhead
  rw [hhead]
  rfl

/-! ## The fill level -/

def Full (s : DspShared) : Prop := s.ringBuf.count ≥ dspRingBufCapacity

instance (s : DspShared) : Decidable (Full s) := by
  unfold Full
  infer_instance

/-- The state in which the second push of a cycle takes place. -/
def atSecond (s : DspShared) (a : Acquisition) : DspShared := final perform s a.opening

/-- The buffer is full at exactly one of the two pushes. -/
def Split (s : DspShared) (a : Acquisition) : Prop := ¬ (Full s ↔ Full (atSecond s a))

theorem accepted_push (s : DspShared) (x : DspSample) :
    accepted (.push true (some x), (perform s (.push true (some x))).1) =
      if Full s then [] else [x] := by
  by_cases h : Full s
  · have hfull : s.ringBuf.count ≥ dspRingBufCapacity := h
    simp only [perform, pointer, dspRingBufPush, if_true, hfull, h]
    rfl
  · have hroom : ¬ s.ringBuf.count ≥ dspRingBufCapacity := h
    simp only [perform, pointer, dspRingBufPush, if_true, hroom, h, if_false]
    rfl

/-- Core 0 brings nothing in. -/
theorem accepted_consume (s : DspShared) (cs : List Consume) :
    (trace perform s (cs.map Consume.call)).flatMap accepted = [] := by
  induction cs generalizing s with
  | nil => rfl
  | cons c cs ih =>
    rw [List.map_cons, trace_cons, List.flatMap_cons, ih]
    cases c <;> rfl

/-- What a cycle contributes to the stream. -/
theorem step_acquire (s : DspShared) (a : Acquisition) :
    (step s (.acquire a)).1 = (if Full s then [] else [a.temperature]) ++
      if Full (atSecond s a) then [] else [a.humidity] := by
  have hduring := accepted_consume (perform s (.push true (some a.temperature))).2 a.during
  have hfirst := accepted_push s a.temperature
  have hsecond := accepted_push (atSecond s a) a.humidity
  simp only [step, Event.calls, Acquisition.calls, trace_append, Acquisition.opening, trace_cons,
    trace_nil, List.flatMap_append, List.flatMap_cons, List.flatMap_nil, List.append_nil, hfirst,
    hduring]
  rw [← hsecond]
  rfl

theorem step_consume (s : DspShared) (c : Consume) : (step s (.consume c)).1 = [] := by
  cases c <;> rfl

/-- The samples accepted in a run are the contributions of its events. -/
theorem accepted_run (s : DspShared) (events : List Event) :
    (trace perform s (events.flatMap Event.calls)).flatMap accepted =
      (trace step s events).flatMap Prod.snd := by
  induction events generalizing s with
  | nil => rfl
  | cons e events ih =>
    rw [List.flatMap_cons, trace_append, List.flatMap_append, trace_cons, List.flatMap_cons, ih]
    rfl

/-! ## Whole measurements -/

/-- Both samples or none, as the claim about every acquisition has it. -/
def StoredWhole (sh : DspShared) (events : List Event) : Prop :=
  Along step (fun s e => ∀ a, e = .acquire a →
    (step s e).1 = [] ∨ (step s e).1 = [a.temperature, a.humidity]) sh events

/-- Both samples or none, unless the buffer is full at exactly one of the pushes: then
the other sample alone. -/
structure Contributes (s : DspShared) (a : Acquisition) (samples : List DspSample) : Prop where
  whole : ¬ Split s a → samples = [] ∨ samples = [a.temperature, a.humidity]
  split : Split s a → samples = if Full s then [a.humidity] else [a.temperature]

/-- No measurement of the run meets the end of the free space. -/
def Unsplit (sh : DspShared) (events : List Event) : Prop :=
  Along step (fun s e => ∀ a, e = .acquire a → ¬ Split s a) sh events

/-- Temperature first, then humidity and temperature in turn. -/
def Alternating (samples : List DspSample) : Prop :=
  ∀ i x, samples[i]? = some x → x.channel = if i % 2 = 0 then dspDht20ChTemp else dspDht20ChHum

theorem contributes (s : DspShared) (a : Acquisition) :
    Contributes s a (step s (.acquire a)).1 := by
  rw [step_acquire]
  by_cases hfirst : Full s <;> by_cases hsecond : Full (atSecond s a)
  all_goals
    simp only [hfirst, hsecond, if_true, if_false, List.nil_append, List.append_nil]
    constructor
  all_goals simp [Split, hfirst, hsecond]

theorem alternating_pair {l : List DspSample} (h : Alternating l) (a : Acquisition) :
    Alternating ([a.temperature, a.humidity] ++ l) := by
  intro i x hx
  match i with
  | 0 =>
    obtain rfl := Option.some.inj hx
    rfl
  | 1 =>
    obtain rfl := Option.some.inj hx
    rfl
  | i + 2 =>
    rw [Nat.add_mod_right]
    exact h i x hx

theorem Alternating.of_isPrefix {l l' : List DspSample} (h : Alternating l) (hpre : l' <+: l) :
    Alternating l' := by
  obtain ⟨t, rfl⟩ := hpre
  intro i x hx
  apply h i x
  rw [List.getElem?_append_left (List.getElem?_eq_some_iff.mp hx).1, hx]

/-- Whole measurements one after the other. -/
theorem alternating_run : ∀ (events : List Event) (s : DspShared), Unsplit s events →
    Alternating ((trace step s events).flatMap Prod.snd) := by
  intro events
  induction events with
  | nil =>
    intro s _ i x hx
    cases hx
  | cons e events ih =>
    intro s h
    obtain ⟨hsplit, hrest⟩ := h
    have hnext := ih _ hrest
    rw [trace_cons, List.flatMap_cons]
    cases e with
    | consume c =>
      simp only [step_consume, List.nil_append]
      exact hnext
    | acquire a =>
      rcases (contributes s a).whole (hsplit a rfl) with hnone | hboth
      · simp only [hnone, List.nil_append]
        exact hnext
      · simp only [hboth]
        exact alternating_pair hnext a

/-- What was delivered is the beginning of what was accepted. -/
theorem delivered_isPrefix {sh : DspShared} (hinit : Initialized sh) (calls : List Call) :
    (trace perform sh calls).flatMap delivered <+: (trace perform sh calls).flatMap accepted := by
  have htrace := (run_simulates hinit calls).1
  rw [htrace, run_conserves]
  exact List.prefix_append _ _

theorem accepted_isPrefix {calls calls' : List Call} (h : calls <+: calls') (s : DspShared) :
    (trace perform s calls).flatMap accepted <+: (trace perform s calls').flatMap accepted := by
  obtain ⟨rest, rfl⟩ := h
  rw [trace_append, List.flatMap_append]
  exact List.prefix_append _ _

/-- **Measurements in the stream.** In every run after init the accepted samples are the
contributions of the cycles, each whole or empty unless its measurement is split by
the end of the free space; where none is, the channels alternate at every point of
the run, for what was accepted and for what core 0 has read. -/
theorem measurements_stored {sh : DspShared} (hinit : Initialized sh) (events : List Event) :
    (trace perform sh (events.flatMap Event.calls)).flatMap accepted =
        (trace step sh events).flatMap Prod.snd ∧
      Along step (fun s e => ∀ a, e = .acquire a → Contributes s a (step s e).1) sh events ∧
      (Unsplit sh events → ∀ calls, calls <+: events.flatMap Event.calls →
        Alternating ((trace perform sh calls).flatMap accepted) ∧
        Alternating ((trace perform sh calls).flatMap delivered)) := by
  refine ⟨accepted_run sh events, along_of_forall ?_ sh events, ?_⟩
  · rintro s e a rfl
    exact contributes s a
  · intro hunsplit calls hpre
    have hwhole := alternating_run events sh hunsplit
    rw [← accepted_run] at hwhole
    have haccepted := hwhole.of_isPrefix (accepted_isPrefix hpre sh)
    exact ⟨haccepted, haccepted.of_isPrefix (delivered_isPrefix hinit calls)⟩

/-- A cycle that nobody interrupts. -/
def quiet : Acquisition := ⟨⟨0.0, 0.0⟩, 0, []⟩

/-- A cycle whose temperature is read before its humidity is there. -/
def watched : Acquisition := ⟨⟨0.0, 0.0⟩, 0, [.pop]⟩

/-- Two cycles, and core 0 reads inside, between and behind them. -/
def twoCycles : List Event :=
  [.acquire watched, .consume (.drain 4 true), .acquire quiet, .consume .pop]

theorem measurements_stored_two :
    Alternating ((trace perform DspShared.zero (twoCycles.flatMap Event.calls)).flatMap accepted) ∧
    Alternating
      ((trace perform DspShared.zero (twoCycles.flatMap Event.calls)).flatMap delivered) := by
  have hinit : Initialized DspShared.zero := @Initialized.host .zero .zero rfl
  have hcycle (s : DspShared) (a : Acquisition) (h : ¬ Split s a) :
      ∀ a', Event.acquire a = .acquire a' → ¬ Split s a' := by
    intro a' ha
    obtain rfl := Event.acquire.inj ha
    exact h
  have hunsplit : Unsplit DspShared.zero twoCycles := by
    refine ⟨hcycle _ _ ?_, by simp, hcycle _ _ ?_, by simp, trivial⟩
    · unfold Split
      decide +kernel
    · unfold Split
      decide +kernel
  exact (measurements_stored hinit twoCycles).2.2 hunsplit _ List.prefix_rfl

/-- Sixteen cycles fill the buffer, and one sample is read. -/
def oneFree : List Event := List.replicate 16 (.acquire quiet) ++ [.consume .pop]

/-- The next cycle finds room for its temperature only. -/
theorem split_counterexample :
    Initialized DspShared.zero ∧ ¬ StoredWhole DspShared.zero (oneFree ++ [.acquire quiet]) := by
  refine ⟨@Initialized.host .zero .zero rfl, ?_⟩
  intro h
  have hlast := h.append.1 quiet rfl
  have hroom : ¬ Full (final step DspShared.zero oneFree) := by decide +kernel
  have hfull : Full (atSecond (final step DspShared.zero oneFree) quiet) := by decide +kernel
  rw [step_acquire, if_neg hroom, if_pos hfull] at hlast
  simp at hlast

end DspEmbedded.Audit.Measurements
