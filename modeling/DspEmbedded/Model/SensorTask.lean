import DspEmbedded.Lib.Calls
import DspEmbedded.Lib.Runs
import DspEmbedded.Model.Application

/-!
# `dsp_application.c`, `dsp_dht20.c`: the acquisition task, call by call

The tasks on core 1 and `dsp_application_stop` on core 0 as programs over the calls they
make: the heap, the I2C driver, the variables that both see. Delays and the watchdog are
left out. A handle is the block that it points to; bus and device are known by the block
that their handles are stored in. Starts and stops are calls of one caller, which makes
them one after the other.
-/
namespace DspEmbedded.Model.SensorTask

open Lib.CString Lib.Calls Lib.Runs Model.Esp Model.Dht20 Model.Application Model.Shared

/-! ## Calls -/

inductive Call where
  | calloc
  | free (h : Nat)
  | i2cNewMasterBus (h : Nat)
  | i2cMasterBusAddDevice (h : Nat)
  | i2cMasterBusRmDevice (h : Nat)
  | i2cDelMasterBus (h : Nat)
  | i2cMasterTransmit (h : Nat) (data : List UInt8)
  | i2cMasterReceive (h : Nat) (len : Nat)
  | espTimerGetTime
  | dspRingBufPush (sample : DspSample)
  /-- `s_dht20`. -/
  | loadSensor
  | storeSensor (h : Option Nat)
  /-- `s_running`. -/
  | storeRunning (running : Bool)
  /-- `core1_ready`. -/
  | storeReady (ready : Bool)
  /-- `s_sh`. -/
  | loadShared
  | clearShared
  | vTaskDelete
  deriving DecidableEq

structure Answer where
  err : EspErr
  ptr : Option Nat
  bytes : List UInt8
  time : UInt64

abbrev Sensor (α : Type) := Prog Call Answer α

/-- A buffer of zeros that the driver has written to. -/
def Answer.received (r : Answer) (n : Nat) : CharBuf n := ⟨padTo n r.bytes, length_padTo _ _⟩

def Answer.byte (r : Answer) (i : Nat) : UInt8 := r.bytes.getD i 0

/-! ## `dsp_dht20.c` -/

/-- `DHT20_CAL_REGS`. -/
def dht20CalRegs : List UInt8 := [0x1B, 0x1C, 0x1E]

/-- `DHT20_TRIGGER`. -/
def dht20Trigger : List UInt8 := [0xAC, 0x33, 0x00]

def dht20ResetRegister (h : Nat) (reg : UInt8) : Sensor EspErr :=
  .call (.i2cMasterTransmit h [reg, 0x00, 0x00]) fun r =>
  if r.err ≠ .ok then .done r.err
  else
    .call (.i2cMasterReceive h 3) fun r =>
    if r.err ≠ .ok then .done r.err
    else
      .call (.i2cMasterTransmit h [0xB0 ||| reg, r.byte 1, r.byte 2]) fun r =>
      if r.err ≠ .ok then .done r.err else .done .ok

/-- The loop over the registers. -/
def resetRegisters (h : Nat) : List UInt8 → Sensor EspErr
  | [] => .done .ok
  | reg :: regs =>
    (dht20ResetRegister h reg).bind fun err =>
    if err ≠ .ok then .done err else resetRegisters h regs

/-- The ways out of `dsp_dht20_init` once bus and device are there. -/
def removeAll (h : Nat) : Sensor EspErr :=
  .call (.i2cMasterBusRmDevice h) fun _ =>
  .call (.i2cDelMasterBus h) fun _ =>
  .call (.free h) fun _ => .done .fail

/-- `dsp_dht20_init` from the status byte on. -/
def checkCalibration (h : Nat) : Sensor EspErr :=
  .call (.i2cMasterReceive h 1) fun r =>
  if r.err ≠ .ok then removeAll h
  else
    (if r.byte 0 &&& 0x18 ≠ 0x18 then resetRegisters h dht20CalRegs else .done .ok).bind fun err =>
    if err ≠ .ok then removeAll h
    else .call (.storeSensor (some h)) fun _ => .done .ok

/-- `dsp_dht20_init` with the block at hand. -/
def openBus (h : Nat) : Sensor EspErr :=
  .call (.i2cNewMasterBus h) fun r =>
  if r.err ≠ .ok then .call (.free h) fun _ => .done .fail
  else
    .call (.i2cMasterBusAddDevice h) fun r =>
    if r.err ≠ .ok then
      .call (.i2cDelMasterBus h) fun _ => .call (.free h) fun _ => .done .fail
    else checkCalibration h

/-- `dsp_dht20_init`, which is called with `&s_dht20`. -/
def dspDht20Init : Sensor EspErr :=
  .call .calloc fun r =>
  match r.ptr with
  | none => .done .noMem
  | some h => openBus h

def pollBusyCalls (h waitedMs : Nat) : Sensor EspErr :=
  .call (.i2cMasterReceive h 1) fun r =>
  if r.err ≠ .ok then .done .fail
  else if r.byte 0 &&& 0x80 = 0 then .done .ok
  else if waitedMs ≥ dht20BusyTimeoutMs then .done .timeout
  else pollBusyCalls h (waitedMs + dht20BusyPollStepMs)
termination_by dht20BusyTimeoutMs - waitedMs
decreasing_by
  simp only [dht20BusyPollStepMs]
  omega

def dspDht20ReadCalls : Option Nat → Sensor (Except EspErr Dht20Reading)
  | none => .done (.error .invalidArg)
  | some h =>
    .call (.i2cMasterTransmit h dht20Trigger) fun r =>
    if r.err ≠ .ok then .done (.error .fail)
    else
      (pollBusyCalls h dht20MeasWaitMs).bind fun polled =>
      if polled ≠ .ok then .done (.error polled)
      else
        .call (.i2cMasterReceive h 7) fun r =>
        if r.err ≠ .ok then .done (.error .fail)
        else
          let buf := r.received 7
          if dht20Crc8 buf.bytes 6 ≠ frameByte buf 6 then .done (.error .invalidCrc)
          else .done (.ok (convert buf))

def dspDht20Deinit : Option Nat → Sensor Unit
  | none => .done ()
  | some h =>
    .call (.i2cMasterBusRmDevice h) fun _ =>
    .call (.i2cDelMasterBus h) fun _ =>
    .call (.free h) fun _ => .done ()

/-! ## `dsp_application.c` -/

/-- `acquire_dht20_samples`. -/
def acquireDht20SamplesCalls : Sensor Unit :=
  .call .loadSensor fun r =>
  (dspDht20ReadCalls r.ptr).bind fun read =>
  match read with
  | .error _ => .done ()
  | .ok reading =>
    .call .espTimerGetTime fun r =>
    .call (.dspRingBufPush (temperatureSample reading r.time)) fun _ =>
    .call (.dspRingBufPush (humiditySample reading r.time)) fun _ => .done ()

def applicationInit : Sensor Unit :=
  dspDht20Init.bind fun _ =>
  .call (.storeReady true) fun _ =>
  .call (.storeRunning true) fun _ => .done ()

/-- The body of the loop of `application_task`. -/
def applicationCycle : Sensor Unit :=
  .call .loadSensor fun r => if r.ptr.isSome then acquireDht20SamplesCalls else .done ()

/-- `dsp_application_stop` up to the handle. -/
def releaseSensor : Sensor Unit :=
  .call .loadSensor fun r =>
  if r.ptr.isSome then
    .call .loadSensor fun r =>
    (dspDht20Deinit r.ptr).bind fun _ => .call (.storeSensor none) fun _ => .done ()
  else .done ()

def deleteTask : Sensor Unit := .call .vTaskDelete fun _ => .done ()

def dspApplicationStop : Sensor Unit :=
  .call (.storeRunning false) fun _ =>
  releaseSensor.bind fun _ =>
  .call .loadShared fun r =>
  if r.ptr.isSome then
    .call (.storeReady false) fun _ => .call .clearShared fun _ => deleteTask
  else deleteTask

/-! ## What the calls do -/

/-- `bus` and `dev`: what the driver has on the port. `stuck`: it has failed to delete a
bus. `samples`: what has been pushed. -/
structure World where
  next : Nat
  blocks : List Nat
  bus : Option Nat
  dev : Option Nat
  stuck : Bool
  sensor : Option Nat
  running : Bool
  ready : Bool
  shared : Bool
  taskHandle : Bool
  samples : List DspSample

def World.boot : World := ⟨0, [], none, none, false, none, false, false, false, false, []⟩

/-- What the platform decides about a call. -/
structure Outcome where
  err : EspErr
  found : Bool
  bytes : List UInt8
  time : UInt64

def Outcome.answer (o : Outcome) (ptr : Option Nat) : Answer := ⟨o.err, ptr, o.bytes, o.time⟩

@[simp] theorem Outcome.answer_err (o : Outcome) (ptr : Option Nat) :
    (o.answer ptr).err = o.err := rfl

@[simp] theorem Outcome.answer_ptr (o : Outcome) (ptr : Option Nat) :
    (o.answer ptr).ptr = ptr := rfl

/-- The driver gives out one bus for a port. A removal that fails leaves things where they
are; a bus that is deleted takes its device along. -/
def World.answer (w : World) (c : Call) (o : Outcome) : Answer × World :=
  match c with
  | .calloc =>
    if o.found then
      (o.answer (some w.next), { w with next := w.next + 1, blocks := w.next :: w.blocks })
    else (o.answer none, w)
  | .free h => (o.answer none, { w with blocks := w.blocks.erase h })
  | .i2cNewMasterBus h =>
    if w.bus.isSome then (⟨.invalidState, none, [], 0⟩, w)
    else if o.err = .ok then (o.answer none, { w with bus := some h })
    else (o.answer none, w)
  | .i2cMasterBusAddDevice h =>
    if o.err = .ok then (o.answer none, { w with dev := some h }) else (o.answer none, w)
  | .i2cMasterBusRmDevice _ =>
    if o.err = .ok then (o.answer none, { w with dev := none }) else (o.answer none, w)
  | .i2cDelMasterBus _ =>
    if o.err = .ok then (o.answer none, { w with bus := none, dev := none })
    else (o.answer none, { w with stuck := true })
  | .i2cMasterTransmit _ _ | .i2cMasterReceive _ _ | .espTimerGetTime => (o.answer none, w)
  | .dspRingBufPush sample =>
    (o.answer none, if w.shared then { w with samples := w.samples ++ [sample] } else w)
  | .loadSensor => (o.answer w.sensor, w)
  | .storeSensor h => (o.answer none, { w with sensor := h })
  | .storeRunning running => (o.answer none, { w with running })
  | .storeReady ready => (o.answer none, { w with ready })
  | .loadShared => (o.answer (if w.shared then some 0 else none), w)
  | .clearShared => (o.answer none, { w with shared := false })
  | .vTaskDelete => (o.answer none, { w with taskHandle := false })

/-- What is reached through a handle is still there. -/
def World.Allowed (w : World) : Call → Prop
  | .free h | .i2cNewMasterBus h => h ∈ w.blocks
  | .i2cMasterBusAddDevice h => h ∈ w.blocks ∧ w.bus = some h
  | .i2cMasterBusRmDevice h | .i2cMasterTransmit h _ | .i2cMasterReceive h _ =>
    h ∈ w.blocks ∧ w.dev = some h
  | .i2cDelMasterBus h => h ∈ w.blocks ∧ w.bus = some h
  | _ => True

def platform : Env Call Answer World Outcome := ⟨World.answer, World.Allowed⟩

section Answers

variable {w : World} {o : Outcome} (h : Nat)

theorem answer_sensor {s : Option Nat} (hs : w.sensor = s) :
    platform.answer w .loadSensor o = (o.answer s, w) := by
  rw [← hs]
  rfl

theorem answer_busTaken {p : Nat} (hbus : w.bus = some p) :
    platform.answer w (.i2cNewMasterBus h) o = (⟨.invalidState, none, [], 0⟩, w) := by
  simp [platform, World.answer, hbus]

theorem answer_busFree (hbus : w.bus = none) (hok : o.err = .ok) :
    platform.answer w (.i2cNewMasterBus h) o = (o.answer none, { w with bus := some h }) := by
  simp [platform, World.answer, hbus, hok]

theorem answer_busRefused (hbus : w.bus = none) (hok : o.err ≠ .ok) :
    platform.answer w (.i2cNewMasterBus h) o = (o.answer none, w) := by
  simp [platform, World.answer, hbus, hok]

theorem answer_deviceAdded (hok : o.err = .ok) :
    platform.answer w (.i2cMasterBusAddDevice h) o = (o.answer none, { w with dev := some h }) :=
  if_pos hok

theorem answer_deviceRefused (hok : o.err ≠ .ok) :
    platform.answer w (.i2cMasterBusAddDevice h) o = (o.answer none, w) := if_neg hok

theorem answer_deviceRemoved (hok : o.err = .ok) :
    platform.answer w (.i2cMasterBusRmDevice h) o = (o.answer none, { w with dev := none }) :=
  if_pos hok

theorem answer_deviceKept (hok : o.err ≠ .ok) :
    platform.answer w (.i2cMasterBusRmDevice h) o = (o.answer none, w) := if_neg hok

theorem answer_busDeleted (hok : o.err = .ok) :
    platform.answer w (.i2cDelMasterBus h) o =
      (o.answer none, { w with bus := none, dev := none }) := if_pos hok

theorem answer_busKept (hok : o.err ≠ .ok) :
    platform.answer w (.i2cDelMasterBus h) o = (o.answer none, { w with stuck := true }) :=
  if_neg hok

end Answers

/-! ## The two cores -/

/-- What is left of the tasks' init or cycle, and of a stop on core 0. `task` is the one
that `s_task_handle` names; `orphans` are older ones that no handle names any more. -/
structure System where
  world : World
  task : Option (Sensor Unit)
  orphans : List (Sensor Unit)
  main : Sensor Unit

def System.boot : System := ⟨.boot, none, [], .done ()⟩

/-- Core 0 is not in a stop. -/
def System.Idle (S : System) : Prop := S.main.next? = none

instance (S : System) : Decidable S.Idle := inferInstanceAs (Decidable (_ = _))

inductive Event where
  /-- `dsp_application_start`; `created` if the task could be created. -/
  | start (created : Bool)
  | stop
  /-- The next call of the stop. -/
  | main (o : Outcome)
  /-- The next call of the task. -/
  | task (o : Outcome)
  /-- The next call of a task that has lost its handle. -/
  | orphan (n : Nat) (o : Outcome)

/-- What the platform decides in the call of an event. -/
def Event.outcome : Event → Option Outcome
  | .main o | .task o | .orphan _ o => some o
  | _ => none

/-- The next call of a task, or the next round of its loop. -/
def taskStep (p : Sensor Unit) (w : World) (o : Outcome) : Option Call × Sensor Unit × World :=
  if p.next?.isNone then (none, applicationCycle, w)
  else (p.next?, platform.advance p w o)

/-- The call that is made, and what follows. A start does not ask for a task that is
there already: the new one takes over its handle. -/
def step (S : System) : Event → Option Call × System
  | .start created =>
    if S.Idle then
      if created then
        (none, { S with
          world := { S.world with shared := true, taskHandle := true }
          task := some applicationInit
          orphans := S.task.toList ++ S.orphans })
      else (none, { S with world := { S.world with shared := false } })
    else (none, S)
  | .stop => (none, if S.Idle then { S with main := dspApplicationStop } else S)
  | .main o =>
    if S.Idle then (none, S)
    else
      let (main, world) := platform.advance S.main S.world o
      (S.main.next?, { S with
        world
        task := if world.taskHandle then S.task else none
        main })
  | .task o =>
    match S.task with
    | none => (none, S)
    | some p =>
      let (c, q, world) := taskStep p S.world o
      (c, { S with world, task := some q })
  | .orphan n o =>
    match S.orphans[n]? with
    | none => (none, S)
    | some p =>
      let (c, q, world) := taskStep p S.world o
      (c, { S with world, orphans := S.orphans.set n q })

/-! ## The calls of one read -/

/-- The bus of one read, which counts the status bytes. -/
def busAnswer (bus : Dht20Bus) (polls : Nat) : Call → Answer × Nat
  | .i2cMasterTransmit _ _ => (⟨bus.trigger, none, [], 0⟩, polls)
  | .i2cMasterReceive _ 1 =>
    (⟨(bus.status polls).1, none, [(bus.status polls).2], 0⟩, polls + 1)
  | .i2cMasterReceive _ _ => (⟨bus.data.1, none, bus.data.2.bytes, 0⟩, polls)
  | _ => (⟨.ok, none, [], 0⟩, polls)

theorem run_pollBusy (bus : Dht20Bus) (h k waitedMs : Nat) :
    ((pollBusyCalls h waitedMs).run (busAnswer bus) k).1 = pollBusy bus.status k waitedMs := by
  fun_induction pollBusy bus.status k waitedMs with
  | case1 k waitedMs herr =>
    rw [pollBusyCalls, Prog.run]
    simp [busAnswer, herr, Prog.run]
  | case2 k waitedMs herr hready =>
    rw [pollBusyCalls, Prog.run]
    simp [busAnswer, herr, Prog.run, Answer.byte, hready]
  | case3 k waitedMs herr hbusy hlate =>
    rw [pollBusyCalls, Prog.run]
    simp [busAnswer, herr, Prog.run, Answer.byte, hbusy, hlate]
  | case4 k waitedMs herr hbusy hlate ih =>
    rw [pollBusyCalls, Prog.run]
    simpa [busAnswer, herr, Prog.run, Answer.byte, hbusy, hlate] using ih

/-- Call by call a read comes to what it comes to on the whole bus. -/
theorem run_read (bus : Dht20Bus) (h : Nat) (out : Dht20Reading) :
    dspDht20Read true bus (some out) =
      match ((dspDht20ReadCalls (some h)).run (busAnswer bus) 0).1 with
      | .ok reading => (.ok, some reading)
      | .error err => (err, some out) := by
  simp only [dspDht20Read, dspDht20ReadCalls, Prog.run]
  have hframe : padTo 7 bus.data.2.bytes = bus.data.2.bytes := by
    rw [padTo, bus.data.2.length_eq, List.take_of_length_le (by rw [bus.data.2.length_eq])]
    exact List.append_nil _
  by_cases htrigger : bus.trigger = .ok
  · simp only [busAnswer, htrigger, ne_eq, not_true_eq_false, if_false, Prog.run_bind,
      run_pollBusy]
    by_cases hpolled : pollBusy bus.status 0 dht20MeasWaitMs = .ok
    · simp only [hpolled, not_true_eq_false, if_false, Prog.run, busAnswer]
      by_cases hdata : bus.data.1 = .ok
      · simp only [hdata, not_true_eq_false, if_false, Answer.received, hframe]
        split_ifs <;> rfl
      · simp [hdata, Prog.run]
    · simp [hpolled, Prog.run]
  · simp [busAnswer, htrigger, Prog.run]

end DspEmbedded.Model.SensorTask
