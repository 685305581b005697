import DspEmbedded.Lib.Fifo
import DspEmbedded.Model.Esp

/-!
# `dsp_shared.c`: the ring buffer between the cores

The mutex makes every call atomic and is not modelled further. A pointer that may
be NULL is an option, or a flag where only the presence of a buffer matters; what a
call writes through an output pointer is part of its result.
-/
namespace DspEmbedded.Model.Shared

open Lib.Fifo Model.Esp

/-- `DSP_RING_BUF_CAPACITY`. -/
def dspRingBufCapacity : UInt32 := 32

structure DspSample where
  timestampUs : UInt64
  rawValue : UInt32
  channel : UInt8
  pad : Vector UInt8 3
  deriving DecidableEq

def DspSample.zero : DspSample := ⟨0, 0, 0, Vector.replicate 3 0⟩

structure DspRingBuf where
  data : Vector DspSample dspRingBufCapacity.toNat
  head : UInt32
  tail : UInt32
  count : UInt32

def DspRingBuf.zero : DspRingBuf := ⟨Vector.replicate _ .zero, 0, 0, 0⟩

/-- `data[i]`; there is no such cell from the capacity on. -/
def DspRingBuf.cell (rb : DspRingBuf) (i : Nat) : DspSample := rb.data[i]?.getD .zero

/-- `dsp_shared_t`, each queue handle with the items that wait in it. -/
structure DspShared where
  ringBuf : DspRingBuf
  ringBufMutex : Bool
  xferNotifyQ : Option (List UInt32)
  dataNotifyQ : Option (List UInt32)
  core0Ready : UInt32
  core1Ready : UInt32

/-- What `memset` leaves. -/
def DspShared.zero : DspShared := ⟨.zero, false, none, none, 0, 0⟩

/-- `DATA_NOTIFY_Q_DEPTH`. -/
def dataNotifyQDepth : Nat := 1

/-- `xQueueSend` without waiting: a full queue keeps what it has. -/
def xQueueSend (depth : Nat) (q : List UInt32) (item : UInt32) : List UInt32 :=
  if q.length < depth then q ++ [item] else q

/-- Which FreeRTOS objects could be created. -/
structure Created where
  mutex : Bool
  xferNotifyQ : Bool
  dataNotifyQ : Bool

/-- `dsp_shared_init` on the device. -/
def dspSharedInit (sh : Option DspShared) (created : Created) : EspErr × Option DspShared :=
  match sh with
  | none => (.invalidArg, none)
  | some _ =>
    let sh := DspShared.zero
    if !created.mutex then (.noMem, some sh)
    else if !created.xferNotifyQ then (.noMem, some { sh with ringBufMutex := false })
    else if !created.dataNotifyQ then
      (.noMem, some { sh with xferNotifyQ := none, ringBufMutex := false })
    else
      (.ok, some { sh with ringBufMutex := true, xferNotifyQ := some [], dataNotifyQ := some [] })

/-- `dsp_shared_init` of the host build. -/
def dspSharedInitStub (sh : Option DspShared) : EspErr × Option DspShared :=
  match sh with
  | none => (.invalidArg, none)
  | some _ => (.ok, some .zero)

def dspRingBufPush (sh : Option DspShared) (sample : Option DspSample) :
    EspErr × Option DspShared :=
  match sh, sample with
  | some sh, some sample =>
    let rb := sh.ringBuf
    if rb.count ≥ dspRingBufCapacity then (.noMem, some sh)
    else
      let rb := { rb with
        data := rb.data.setIfInBounds rb.head.toNat sample
        head := (rb.head + 1) % dspRingBufCapacity
        count := rb.count + 1 }
      -- only the device has a queue to notify
      let dataNotifyQ := sh.dataNotifyQ.map (xQueueSend dataNotifyQDepth · 1)
      (.ok, some { sh with ringBuf := rb, dataNotifyQ := dataNotifyQ })
  | sh, _ => (.invalidArg, sh)

/-- The statements that pop and drain share: copy the cell at `tail`, step on. -/
def takeOldest (rb : DspRingBuf) : DspSample × DspRingBuf :=
  (rb.cell rb.tail.toNat,
    { rb with tail := (rb.tail + 1) % dspRingBufCapacity, count := rb.count - 1 })

/-- `out` says whether the caller gave a place for the sample. -/
def dspRingBufPop (sh : Option DspShared) (out : Bool) :
    EspErr × Option DspSample × Option DspShared :=
  match sh, out with
  | some sh, true =>
    if sh.ringBuf.count = 0 then (.notFound, none, some sh)
    else
      let (sample, rb) := takeOldest sh.ringBuf
      (.ok, some sample, some { sh with ringBuf := rb })
  | sh, _ => (.invalidArg, none, sh)

def dspRingBufCount (sh : Option DspShared) : UInt32 :=
  match sh with
  | none => 0
  | some sh => sh.ringBuf.count

/-- The loop of `dsp_ring_buf_drain` with `n` rounds to go: what it writes to `buf`. -/
def drainLoop : Nat → DspRingBuf → List DspSample × DspRingBuf
  | 0, rb => ([], rb)
  | n + 1, rb =>
    let (sample, rb) := takeOldest rb
    let (rest, rb) := drainLoop n rb
    (sample :: rest, rb)

/-- The error, the samples written to `buf`, the number written to `out_count`. -/
def dspRingBufDrain (sh : Option DspShared) (buf : Bool) (capacity : UInt32) (outCount : Bool) :
    EspErr × List DspSample × Option UInt32 × Option DspShared :=
  if capacity = 0 then (.ok, [], if outCount then some 0 else none, sh)
  else
    match sh, buf with
    | some sh, true =>
      let n := if sh.ringBuf.count < capacity then sh.ringBuf.count else capacity
      let (samples, rb) := drainLoop n.toNat sh.ringBuf
      (.ok, samples, if outCount then some n else none, some { sh with ringBuf := rb })
    | sh, _ => (.invalidArg, [], none, sh)

/-! ## The ring as a queue -/

abbrev SampleQueue := Queue DspSample dspRingBufCapacity.toNat

/-- The ring buffer holds the samples of the queue. -/
structure Holds (rb : DspRingBuf) (q : SampleQueue) : Prop where
  ring : Ring dspRingBufCapacity.toNat rb.cell rb.head.toNat rb.tail.toNat q.items
  count : rb.count.toNat = q.items.length

theorem holds_zero : Holds .zero Queue.empty where
  ring := ring_empty (by decide) _
  count := rfl

/-- An index one further, as 32-bit arithmetic computes it. -/
theorem toNat_next {i : UInt32} (h : i.toNat < dspRingBufCapacity.toNat) :
    ((i + 1) % dspRingBufCapacity).toNat = (i.toNat + 1) % dspRingBufCapacity.toNat := by
  have hcap : dspRingBufCapacity.toNat = 32 := rfl
  have hsmall : i.toNat + 1 < 2 ^ 32 := by omega
  rw [UInt32.toNat_mod, UInt32.toNat_add, show (1 : UInt32).toNat = 1 from rfl,
    Nat.mod_eq_of_lt hsmall]

section Holds

variable {rb : DspRingBuf} {q : SampleQueue}

theorem Holds.count_le (h : Holds rb q) : rb.count.toNat ≤ dspRingBufCapacity.toNat := by
  rw [h.count]
  exact q.bound

/-- Storing a sample in the cell at `head`. -/
theorem Holds.store (h : Holds rb q) (hroom : q.items.length < dspRingBufCapacity.toNat)
    {r : SampleQueue} {sample : DspSample} (hr : r.items = q.items ++ [sample]) :
    Holds { rb with
      data := rb.data.setIfInBounds rb.head.toNat sample
      head := (rb.head + 1) % dspRingBufCapacity
      count := rb.count + 1 } r where
  ring := by
    have hhead := h.ring.head_lt
    simp only [toNat_next hhead, hr]
    apply h.ring.write hroom
    · simp [DspRingBuf.cell, hhead]
    · intro j hj
      simp only [DspRingBuf.cell]
      rw [Vector.getElem?_setIfInBounds_ne (Ne.symm hj)]
  count := by
    have hcap : dspRingBufCapacity.toNat = 32 := rfl
    rw [hr, List.length_append, List.length_singleton, UInt32.toNat_add, h.count,
      show (1 : UInt32).toNat = 1 from rfl, Nat.mod_eq_of_lt (by omega)]

/-- Taking the sample in the cell at `tail`. -/
theorem Holds.takeOldest (h : Holds rb q) {r : SampleQueue} {x : DspSample}
    (hq : q.items = x :: r.items) :
    (takeOldest rb).1 = x ∧ Holds (takeOldest rb).2 r := by
  have hring := h.ring
  rw [hq] at hring
  obtain ⟨hx, hring'⟩ := hring.read_tail
  refine ⟨hx, ?_, ?_⟩
  · rwa [← toNat_next h.ring.tail_lt] at hring'
  · have hcount := h.count
    rw [hq, List.length_cons] at hcount
    have hone : (1 : UInt32) ≤ rb.count := by
      rw [UInt32.le_iff_toNat_le, hcount]
      exact Nat.le_add_left 1 _
    change (rb.count - 1).toNat = _
    rw [UInt32.toNat_sub_of_le _ _ hone, hcount]
    rfl

end Holds

end DspEmbedded.Model.Shared
