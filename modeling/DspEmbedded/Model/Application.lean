import DspEmbedded.Model.Dht20
import DspEmbedded.Model.Shared

/-!
# `dsp_application.c`: acquisition

One cycle of the task on core 1. Each push holds the mutex of its own, so the other
core may act on the ring buffer between the two.
-/
namespace DspEmbedded.Model.Application

open Model.Esp Model.Dht20 Model.Shared

def temperatureSample (reading : Dht20Reading) (timestampUs : UInt64) : DspSample where
  timestampUs := timestampUs
  rawValue := (reading.temperatureC * 100.0).toInt32.toUInt32
  channel := dspDht20ChTemp
  pad := Vector.replicate 3 0

def humiditySample (reading : Dht20Reading) (timestampUs : UInt64) : DspSample where
  timestampUs := timestampUs
  rawValue := (reading.humidityPct * 100.0).toUInt32
  channel := dspDht20ChHum
  pad := Vector.replicate 3 0

/-- `acquire_dht20_samples`, for what the sensor returned and the time of the sample.
`between` is what core 0 does to the shared state between the two pushes, whose
results are only logged. -/
def acquireDht20Samples (read : EspErr × Dht20Reading) (timestampUs : UInt64)
    (between : Option DspShared → Option DspShared) (sh : Option DspShared) : Option DspShared :=
  if read.1 ≠ .ok then sh
  else
    let sh := (dspRingBufPush sh (some (temperatureSample read.2 timestampUs))).2
    let sh := between sh
    (dspRingBufPush sh (some (humiditySample read.2 timestampUs))).2

end DspEmbedded.Model.Application
