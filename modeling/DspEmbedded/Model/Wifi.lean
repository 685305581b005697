import DspEmbedded.Model.Esp

/-!
# `dsp_wifi.c`: connection manager

First the transition function, which also runs on a host, then the driver around
it with its one-shot retry timer. What the driver does to the WiFi stack, the timer
and the application is a list of effects. The retry counter is a C `int`.
-/
namespace DspEmbedded.Model.Wifi

open Model.Esp

/-! ## State machine -/

inductive WifiState where
  | idle
  | connecting
  | connected
  | disconnected
  | reconnecting
  | failed
  deriving DecidableEq, Repr

inductive WifiInput where
  | connect
  | connected
  | disconnected
  | retry
  | disconnect
  deriving DecidableEq, Repr

/-- The next state and the value left in `*retry_count`. -/
def dspWifiSmNext (state : WifiState) (input : WifiInput) (retryCount maxRetry : Int) :
    WifiState × Int :=
  if input = .disconnect then (.idle, 0)
  else
    match state with
    | .idle => if input = .connect then (.connecting, 0) else (state, retryCount)
    | .connecting =>
      if input = .connected then (.connected, 0)
      else if input = .disconnected then
        let retryCount := retryCount + 1
        if retryCount ≥ maxRetry then (.failed, retryCount) else (.reconnecting, retryCount)
      else (state, retryCount)
    | .connected =>
      if input = .disconnected then
        let retryCount := retryCount + 1
        if retryCount ≥ maxRetry then (.failed, retryCount) else (.reconnecting, retryCount)
      else (state, retryCount)
    | .reconnecting =>
      if input = .retry then (.connecting, retryCount)
      else if input = .connected then (.connected, 0)
      else if input = .disconnected then
        let retryCount := retryCount + 1
        if retryCount ≥ maxRetry then (.failed, retryCount) else (state, retryCount)
      else (state, retryCount)
    | .failed => (state, retryCount)
    | .disconnected => if input = .retry then (.connecting, retryCount) else (state, retryCount)

/-! ## Driver -/

inductive WifiEvent where
  | connected
  | disconnected
  | reconnecting
  | failed
  deriving DecidableEq, Repr

/-- What the driver calls, in order. -/
inductive Effect where
  | emit (event : WifiEvent)
  | espWifiConnect
  | espWifiStart
  | espWifiStop
  | timerStartOnce
  | timerStop
  deriving DecidableEq, Repr

/-- `s_state`, `s_retry`, whether a callback is set, whether the retry timer runs. -/
structure Driver where
  state : WifiState
  retry : Int
  cb : Bool
  armed : Bool
  deriving DecidableEq

/-- After `dsp_wifi_init`. -/
def Driver.init (cb : Bool) : Driver := ⟨.idle, 0, cb, false⟩

variable (maxRetry : Int)

def emit (d : Driver) (event : WifiEvent) : List Effect := if d.cb then [.emit event] else []

/-- A timer that runs already is left as it is, and the error is not looked at. -/
def espTimerStartOnce (d : Driver) : Driver := { d with armed := true }

def espTimerStop (d : Driver) : Driver := { d with armed := false }

def applyTransition (d : Driver) (input : WifiInput) : List Effect × Driver :=
  let (next, retry) := dspWifiSmNext d.state input d.retry maxRetry
  if next = d.state ∧ input ≠ .disconnect then ([], { d with retry })
  else
    let d := { d with state := next, retry }
    match next with
    | .connected => (emit d .connected, d)
    | .reconnecting => (emit d .reconnecting ++ [.timerStartOnce], espTimerStartOnce d)
    | .failed => (emit d .failed, d)
    | _ => ([], d)

def retryTimerCb (d : Driver) : List Effect × Driver :=
  let (effects, d) := applyTransition maxRetry d .retry
  (.espWifiConnect :: effects, d)

/-- The events that `wifi_event_handler` is registered for. -/
inductive EspEvent where
  | staStart
  | staDisconnected
  | gotIp
  | other
  deriving DecidableEq, Repr

def wifiEventHandler (d : Driver) (event : EspEvent) : List Effect × Driver :=
  match event with
  | .staStart => ([.espWifiConnect], d)
  | .staDisconnected =>
    let (effects, after) := applyTransition maxRetry d .disconnected
    (emit d .disconnected ++ effects, after)
  | .gotIp => applyTransition maxRetry d .connected
  | .other => ([], d)

/-- `start` is the result of `esp_wifi_start`. -/
def dspWifiConnect (d : Driver) (start : EspErr) : EspErr × List Effect × Driver :=
  if d.state ≠ .idle then (.invalidState, [], d)
  else
    let (effects, d) := applyTransition maxRetry d .connect
    (start, effects ++ [.espWifiStart], d)

def dspWifiDisconnect (d : Driver) : List Effect × Driver :=
  let (effects, d) := applyTransition maxRetry (espTimerStop d) .disconnect
  ([.timerStop, .espWifiStop] ++ effects, d)

/-! ## Atomic steps -/

inductive Step where
  | connect (start : EspErr)
  | disconnect
  | event (event : EspEvent)
  | expiry
  deriving DecidableEq

/-- The one-shot timer fires only while it runs, and is off when its callback runs. -/
def driverStep (d : Driver) : Step → List Effect × Driver
  | .connect start => (dspWifiConnect maxRetry d start).2
  | .disconnect => dspWifiDisconnect maxRetry d
  | .event event => wifiEventHandler maxRetry d event
  | .expiry => if d.armed then retryTimerCb maxRetry { d with armed := false } else ([], d)

/-! ## What one input can do -/

variable {maxRetry}

/-- The five changes of state, and inputs without effect. -/
theorem smNext_cases (state : WifiState) (input : WifiInput) (retryCount maxRetry : Int) :
    (input = .disconnect ∧ dspWifiSmNext state input retryCount maxRetry = (.idle, 0)) ∨
    (input = .connect ∧ state = .idle ∧
      dspWifiSmNext state input retryCount maxRetry = (.connecting, 0)) ∨
    (input = .connected ∧ (state = .connecting ∨ state = .reconnecting) ∧
      dspWifiSmNext state input retryCount maxRetry = (.connected, 0)) ∨
    (input = .disconnected ∧
      (state = .connecting ∨ state = .connected ∨ state = .reconnecting) ∧
      dspWifiSmNext state input retryCount maxRetry =
        (if maxRetry ≤ retryCount + 1 then .failed else .reconnecting, retryCount + 1)) ∨
    (input = .retry ∧ (state = .reconnecting ∨ state = .disconnected) ∧
      dspWifiSmNext state input retryCount maxRetry = (.connecting, retryCount)) ∨
    (input ≠ .disconnect ∧ ¬ (input = .connect ∧ state = .idle) ∧
      ¬ (input = .disconnected ∧
        (state = .connecting ∨ state = .connected ∨ state = .reconnecting)) ∧
      ¬ (input = .retry ∧ state = .reconnecting) ∧
      dspWifiSmNext state input retryCount maxRetry = (state, retryCount)) := by
  cases state <;> cases input <;> simp [dspWifiSmNext] <;> split_ifs <;> rfl

end DspEmbedded.Model.Wifi
