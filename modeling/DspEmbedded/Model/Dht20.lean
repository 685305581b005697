import DspEmbedded.Model.Esp

/-!
# `dsp_dht20.c`: reading the sensor

A read talks to the sensor over I2C. What the bus answers to the calls of one read
is given as `Dht20Bus`; delays pass no information and are left out, but for the
count of milliseconds that bounds the polling.
-/
namespace DspEmbedded.Model.Dht20

open Lib.CString Model.Esp

def dspDht20ChTemp : UInt8 := 0
def dspDht20ChHum : UInt8 := 1

/-- `dsp_dht20_reading_t`. -/
structure Dht20Reading where
  temperatureC : Float32
  humidityPct : Float32

/-! ## CRC-8 -/

/-- One round of the inner loop. -/
def dht20Crc8Bit (crc : UInt8) : UInt8 :=
  if crc &&& 0x80 ≠ 0 then (crc <<< 1) ^^^ 0x31 else crc <<< 1

def dht20Crc8Byte (crc b : UInt8) : UInt8 :=
  (List.range 8).foldl (fun crc _ => dht20Crc8Bit crc) (crc ^^^ b)

/-- `len` is a `uint8_t`, which the loop counts down. -/
def dht20Crc8 (data : List UInt8) (len : UInt8) : UInt8 :=
  (data.take len.toNat).foldl dht20Crc8Byte 0xFF

/-! ## One read -/

structure Dht20Bus where
  /-- The result of sending the trigger command. -/
  trigger : EspErr
  /-- What the successive reads of the status byte return. -/
  status : Nat → EspErr × UInt8
  /-- What the read of the 7 bytes returns. -/
  data : EspErr × CharBuf 7

def dht20MeasWaitMs : Nat := 85
def dht20BusyPollStepMs : Nat := 5
def dht20BusyTimeoutMs : Nat := 1000

/-- The polling loop at its `k`-th status byte: `ok` once the sensor is not busy. -/
def pollBusy (status : Nat → EspErr × UInt8) (k waitedMs : Nat) : EspErr :=
  if (status k).1 ≠ .ok then .fail
  else if (status k).2 &&& 0x80 = 0 then .ok
  else if waitedMs ≥ dht20BusyTimeoutMs then .timeout
  else pollBusy status (k + 1) (waitedMs + dht20BusyPollStepMs)
termination_by dht20BusyTimeoutMs - waitedMs
decreasing_by
  simp only [dht20BusyPollStepMs]
  omega

/-- Byte `i` of the received frame. -/
def frameByte (buf : CharBuf 7) (i : Nat) : UInt8 := buf.bytes.getD i 0

/-- The 20-bit humidity. -/
def rawHumidity (buf : CharBuf 7) : UInt32 :=
  ((frameByte buf 1).toUInt32 <<< 12) ||| ((frameByte buf 2).toUInt32 <<< 4) |||
    ((frameByte buf 3).toUInt32 >>> 4)

/-- The 20-bit temperature. -/
def rawTemperature (buf : CharBuf 7) : UInt32 :=
  ((frameByte buf 3 &&& 0x0F).toUInt32 <<< 16) ||| ((frameByte buf 4).toUInt32 <<< 8) |||
    (frameByte buf 5).toUInt32

/-- The conversion formulas of the datasheet. -/
def convert (buf : CharBuf 7) : Dht20Reading where
  temperatureC := (rawTemperature buf).toFloat32 * (200.0 / 1048576.0) + -50.0
  humidityPct := (rawHumidity buf).toFloat32 * (100.0 / 1048576.0)

/-- `dsp_dht20_read` on the device: the result, and what `*out` holds afterwards. -/
def dspDht20Read (handle : Bool) (bus : Dht20Bus) (out : Option Dht20Reading) :
    EspErr × Option Dht20Reading :=
  match handle, out with
  | true, some out =>
    if bus.trigger ≠ .ok then (.fail, some out)
    else
      let polled := pollBusy bus.status 0 dht20MeasWaitMs
      if polled ≠ .ok then (polled, some out)
      else if bus.data.1 ≠ .ok then (.fail, some out)
      else
        let buf := bus.data.2
        if dht20Crc8 buf.bytes 6 ≠ frameByte buf 6 then (.invalidCrc, some out)
        else (.ok, some (convert buf))
  | _, out => (.invalidArg, out)

/-- `dsp_dht20_read` of the host build. -/
def dspDht20ReadStub (handle : Bool) (out : Option Dht20Reading) : EspErr × Option Dht20Reading :=
  match handle, out with
  | true, some _ => (.ok, some ⟨21.5, 55.0⟩)
  | _, out => (.invalidArg, out)

/-- What the sensor sends reaches the check of the frame. -/
structure Received (bus : Dht20Bus) (frame : CharBuf 7) : Prop where
  trigger : bus.trigger = .ok
  ready : pollBusy bus.status 0 dht20MeasWaitMs = .ok
  data : bus.data = (.ok, frame)

/-- A received frame is converted if its last byte is the checksum of the others. -/
theorem read_received {bus : Dht20Bus} {frame : CharBuf 7} (h : Received bus frame)
    (out : Dht20Reading) :
    dspDht20Read true bus (some out) =
      if dht20Crc8 frame.bytes 6 ≠ frameByte frame 6 then (.invalidCrc, some out)
      else (.ok, some (convert frame)) := by
  simp only [dspDht20Read, h.trigger, h.ready, h.data, ne_eq, not_true_eq_false, if_false]

end DspEmbedded.Model.Dht20
