import DspEmbedded.Lib.Critical
import DspEmbedded.Model.Shared

/-!
# `dsp_shared.c`, statement by statement

What the four ring buffer calls do between `ring_lock` and `ring_unlock`, one step
for each C statement on the shared structure, so that `head = (head + 1) % capacity`
reads and writes in one step. `answer` says what a caller makes of the results. A call
with a NULL argument and a drain of no samples return before they take the lock and are
not among them.
-/
namespace DspEmbedded.Model.Shared

open Lib.Critical Model.Esp

variable {ρ : Type}

/-- The body of `dsp_ring_buf_push`. -/
def ringBufPushSteps (answer : EspErr → ρ) (sample : DspSample) : Prog DspRingBuf ρ :=
  .act id fun rb =>
    if rb.count ≥ dspRingBufCapacity then .done (answer .noMem)
    else
      .act (fun rb => { rb with data := rb.data.setIfInBounds rb.head.toNat sample }) fun _ =>
      .act (fun rb => { rb with head := (rb.head + 1) % dspRingBufCapacity }) fun _ =>
      .act (fun rb => { rb with count := rb.count + 1 }) fun _ =>
      .done (answer .ok)

/-- The three statements that pop and drain share. -/
def takeOldestSteps (next : DspSample → Prog DspRingBuf ρ) : Prog DspRingBuf ρ :=
  .act id fun rb =>
    .act (fun rb => { rb with tail := (rb.tail + 1) % dspRingBufCapacity }) fun _ =>
    .act (fun rb => { rb with count := rb.count - 1 }) fun _ =>
    next (rb.cell rb.tail.toNat)

/-- The body of `dsp_ring_buf_pop`. -/
def ringBufPopSteps (answer : EspErr → Option DspSample → ρ) : Prog DspRingBuf ρ :=
  .act id fun rb =>
    if rb.count = 0 then .done (answer .notFound none)
    else takeOldestSteps fun sample => .done (answer .ok (some sample))

/-- The body of `dsp_ring_buf_count`. -/
def ringBufCountSteps (answer : UInt32 → ρ) : Prog DspRingBuf ρ :=
  .act id fun rb => .done (answer rb.count)

/-- The loop of `dsp_ring_buf_drain`, with `n` rounds to go. -/
def drainLoopSteps (finish : List DspSample → ρ) : Nat → List DspSample → Prog DspRingBuf ρ
  | 0, samples => .done (finish samples)
  | n + 1, samples =>
    takeOldestSteps fun sample => drainLoopSteps finish n (samples ++ [sample])

/-- The body of `dsp_ring_buf_drain`, which reads `count` once or twice. -/
def ringBufDrainSteps (answer : List DspSample → UInt32 → ρ) (capacity : UInt32) :
    Prog DspRingBuf ρ :=
  .act id fun rb =>
    if rb.count < capacity then
      .act id fun rb => drainLoopSteps (answer · rb.count) rb.count.toNat []
    else drainLoopSteps (answer · capacity) capacity.toNat []

/-! ## Without interruption -/

section Run

variable {rb : DspRingBuf}

theorem takeOldestSteps_run (next : DspSample → Prog DspRingBuf ρ) (rb : DspRingBuf) :
    (takeOldestSteps next).run rb = (next (takeOldest rb).1).run (takeOldest rb).2 := rfl

theorem drainLoopSteps_run (finish : List DspSample → ρ) (n : Nat) :
    ∀ (samples : List DspSample) (rb : DspRingBuf), (drainLoopSteps finish n samples).run rb =
      (finish (samples ++ (drainLoop n rb).1), (drainLoop n rb).2) := by
  induction n with
  | zero =>
    intro samples rb
    simp only [drainLoopSteps, drainLoop, List.append_nil]
    rfl
  | succ n ih =>
    intro samples rb
    rw [drainLoopSteps, takeOldestSteps_run, ih]
    simp only [drainLoop, List.append_assoc, List.singleton_append]

end Run

end DspEmbedded.Model.Shared
