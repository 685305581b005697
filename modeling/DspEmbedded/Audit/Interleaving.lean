import DspEmbedded.Audit.RingBuffer
import DspEmbedded.Model.SharedSteps

/-!
# The ring buffer under any schedule

Tasks of both cores call push, pop, drain and count, and may be interrupted between
any two statements. The mutex makes the calls act as on a bounded queue, each at one
moment between its start and its end. A task that is deleted under the mutex takes the
ring buffer with it.
-/
namespace DspEmbedded.Audit.Interleaving

open Lib.Runs Lib.Fifo Lib.Critical Model.Esp Model.Shared
open Audit.RingBuffer (Call Answer perform queuePerform perform_simulates)

/-- The calls that take the lock. -/
inductive RingCall where
  | push (sample : DspSample)
  | pop
  | drain (capacity : UInt32) (h : capacity ≠ 0)
  | count

/-- The statements under the lock. -/
def body : RingCall → Prog DspRingBuf Answer
  | .push sample => ringBufPushSteps .pushed sample
  | .pop => ringBufPopSteps .popped
  | .drain capacity _ => ringBufDrainSteps (fun samples n => .drained .ok samples (some n)) capacity
  | .count => ringBufCountSteps .counted

def RingCall.toCall : RingCall → Call
  | .push sample => .push true (some sample)
  | .pop => .pop true true
  | .drain capacity _ => .drain true true capacity true
  | .count => .count true

/-- A call on the bounded queue. -/
def queueCall (q : SampleQueue) (c : RingCall) : Answer × SampleQueue := queuePerform q c.toCall

/-! ## A call without interruption -/

/-- Left to itself, the sequence of statements is the call. -/
theorem atOnce_eq_perform (s : DspShared) (c : RingCall) :
    atOnce body s.ringBuf c = ((perform s c.toCall).1, (perform s c.toCall).2.ringBuf) := by
  cases c with
  | push sample =>
    simp only [atOnce, body, ringBufPushSteps, Prog.run, RingCall.toCall, perform, RingBuffer.pointer,
      dspRingBufPush, if_true]
    split_ifs <;> rfl
  | pop =>
    simp only [atOnce, body, ringBufPopSteps, Prog.run, RingCall.toCall, perform, RingBuffer.pointer,
      dspRingBufPop, if_true]
    split_ifs <;> rfl
  | drain capacity h =>
    simp only [atOnce, body, ringBufDrainSteps, Prog.run, RingCall.toCall, perform,
      RingBuffer.pointer, dspRingBufDrain, if_true, h, if_false]
    split_ifs
    · simp only [Prog.run, drainLoopSteps_run, List.nil_append, id]
      rfl
    · simp only [drainLoopSteps_run, List.nil_append, id]
      rfl
  | count => rfl

theorem atOnce_simulates (rb : DspRingBuf) (q : SampleQueue) (c : RingCall) (h : Holds rb q) :
    (atOnce body rb c).1 = (queueCall q c).1 ∧ Holds (atOnce body rb c).2 (queueCall q c).2 := by
  have hcall := atOnce_eq_perform { DspShared.zero with ringBuf := rb } c
  have hsim := perform_simulates { DspShared.zero with ringBuf := rb } q c.toCall h
  simp only at hcall
  rw [hcall]
  exact hsim

/-! ## Any schedule -/

variable {ι : Type} [DecidableEq ι]

/-- **The mutex makes the ring buffer a queue.** From an empty ring, whatever tasks
call and however they are interrupted: the results are those of a queue of 32 samples
on which the calls are made one after the other, in the order in which they give the
mutex back; each call gives it back once, between its start and its return; and while
the mutex is free the ring holds what the queue holds. -/
theorem ring_calls_atomic (events : List (Event ι RingCall)) :
    let h := trace (step body) (System.start DspRingBuf.zero) events
    let S := final (step body) (System.start DspRingBuf.zero) events
    let calls := (commits h).map Prod.fst
    trace queueCall Queue.empty calls = commits h ∧
      (S.holder = none → Holds S.shared (final queueCall Queue.empty calls)) ∧
      ∀ i, ∃ l, Complete l ∧ marksOf i h = l ++ (S.phase i).pending := by
  intro h S calls
  have hinv : Inv body DspRingBuf.zero h S := linearized body DspRingBuf.zero events
  have hsim := trace_simulates (R := Holds) atOnce_simulates calls holds_zero
  obtain ⟨htrace, hfinal⟩ := hsim
  refine ⟨htrace.symm.trans hinv.sequential, ?_, hinv.marks⟩
  intro hfree
  rw [hinv.free hfree]
  exact hfinal

/-- `dsp_application_stop` deletes the acquisition task wherever it is. Afterwards a
ring buffer call of another task comes to an end in some schedule exactly if the
deleted task was not under the mutex. -/
theorem deleted_task_blocks_iff (before : List (Event ι RingCall)) (task : ι)
    (hother : ∃ j, j ≠ task) :
    let S := final (step body) (System.start DspRingBuf.zero) before
    (∃ after, Without task after ∧ commits (trace (step body) S after) ≠ []) ↔
      ∀ c p, S.holder ≠ some (task, c, p) := by
  obtain ⟨j, hj⟩ := hother
  exact stopped_iff body DspRingBuf.zero before task hj .count

/-- Deleted right after it took the mutex for a push. -/
theorem deleted_during_push :
    ¬ ∃ after, Without true after ∧
      commits (trace (step body) (final (step body) (System.start DspRingBuf.zero)
        [.call true (.push .zero), .run true]) after) ≠ [] := by
  intro hex
  exact (deleted_task_blocks_iff [.call true (.push .zero), .run true] true
    ⟨false, by decide⟩).mp hex _ _ rfl

end DspEmbedded.Audit.Interleaving
