import DspEmbedded.Model.Protocol

/-!
# `dsp_power.c`

Entering deep sleep is save, then stop; the sleeping task may be interrupted
between the two, so each step is a function of its own. Deep sleep clears static
memory and keeps the image.
-/
namespace DspEmbedded.Model.Power

open Lib.CString Lib.SlotTable Model.Esp Model.Http Model.Neg Model.Xfer Model.RtcState Model.Board
  Model.Protocol

variable {negMax xferMax : Nat}

/-- `dsp_power_wakeup_cause_t`. -/
inductive WakeupCause where
  | undefined
  | timer
  | other
  deriving DecidableEq, Repr

/-- Step 1 of `dsp_power_enter_deep_sleep`; the result of the save is ignored. -/
def saveState (n : Node negMax xferMax) : Node negMax xferMax :=
  { n with device := { n.device with
      store := (dspRtcStateSave n.device.neg n.device.xfer n.device.store).2 } }

/-- Step 2. -/
def stopServer (n : Node negMax xferMax) : Node negMax xferMax :=
  { n with http := dspHttpStop n.http }

/-- The two steps with nothing between them; step 3 cuts the power. -/
def dspPowerEnterDeepSleep (n : Node negMax xferMax) : Node negMax xferMax :=
  stopServer (saveState n)

/-- Where the task that enters deep sleep is. -/
inductive SleepStage where
  | awake
  | saved
  | stopped
  deriving DecidableEq, Repr

/-- The next step of that task. -/
def sleepStep : SleepStage → Node negMax xferMax → SleepStage × Node negMax xferMax
  | .awake, n => (.saved, saveState n)
  | .saved, n => (.stopped, stopServer n)
  | .stopped, n => (.stopped, n)

/-- With nothing between them the two steps are the function. -/
theorem sleepStep_twice (n : Node negMax xferMax) :
    sleepStep (sleepStep .awake n).1 (sleepStep .awake n).2 =
      (.stopped, dspPowerEnterDeepSleep n) := rfl

/-- The results of the WiFi connection and of the restart are only logged;
`httpd` is what `httpd_start` returns. -/
def dspPowerHandleWakeup (uriMatch : CStr → CStr → Bool) (cause : WakeupCause) (httpd : EspErr)
    (n : Node negMax xferMax) : EspErr × Node negMax xferMax :=
  if cause ≠ .timer then (.invalidState, n)
  else
    let (err, neg, xfer) := dspRtcStateRestore n.device.store n.device.neg n.device.xfer
    let n := { n with device := { n.device with neg, xfer } }
    if err ≠ .ok then (err, n)
    else (.ok, { n with http := (dspHttpStart uriMatch httpd n.http).2 })

/-- Static memory after the power was cut, with the two modules set up again. -/
def reboot (n : Node negMax xferMax) : Node negMax xferMax :=
  let n := Node.boot n.device.store
  { n with device := { n.device with
      neg := (dspNegInit n.device.neg).2
      xfer := (dspXferInit n.device.xfer).2 } }

/-- A timer wake-up restores the tables that were saved. -/
theorem wakeup_saved (uriMatch : CStr → CStr → Bool) (httpd : EspErr) {n : Node negMax xferMax}
    {d : Device negMax xferMax} (hs : Storable d)
    (hstore : n.device.store = (dspRtcStateSave d.neg d.xfer d.store).2) :
    (dspPowerHandleWakeup uriMatch .timer httpd (reboot n)).1 = .ok ∧
      (dspPowerHandleWakeup uriMatch .timer httpd (reboot n)).2.device.neg.table = d.neg.table ∧
      (dspPowerHandleWakeup uriMatch .timer httpd (reboot n)).2.device.xfer.table =
        d.xfer.table := by
  have hrestore := @restore_save _ _ d.neg { d.xfer with notify := false, calls := [] }
    (reboot n).device.neg (reboot n).device.xfer d.store hs.neg hs.xfer rfl rfl
  have himage : (reboot n).device.store =
      (dspRtcStateSave d.neg { d.xfer with notify := false, calls := [] } d.store).2 := hstore
  simp only [dspPowerHandleWakeup, himage, hrestore]
  exact ⟨rfl, rfl, rfl⟩

end DspEmbedded.Model.Power
