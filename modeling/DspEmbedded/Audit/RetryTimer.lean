import DspEmbedded.Lib.Runs
import DspEmbedded.Model.Wifi

/-!
# The retry timer and the state

Interleavings of the driver's steps. The timer runs whenever the manager is
RECONNECTING, so it never gets stuck. The converse fails: an address or the last
disconnect takes the manager out of RECONNECTING and leaves the timer running.
-/
namespace DspEmbedded.Audit.RetryTimer

open Lib.Runs Model.Esp Model.Wifi

variable {maxRetry : Int}

/-! ## What a transition does to the timer -/

theorem applyTransition_state (d : Driver) (input : WifiInput) :
    (applyTransition maxRetry d input).2.state =
      (dspWifiSmNext d.state input d.retry maxRetry).1 := by
  unfold applyTransition
  generalize dspWifiSmNext d.state input d.retry maxRetry = r
  obtain ⟨next, retry⟩ := r
  simp only
  split_ifs with h
  · exact h.1.symm
  · cases next <;> rfl

/-- The timer is started on the way into RECONNECTING and touched nowhere else. -/
theorem applyTransition_armed (d : Driver) (input : WifiInput) :
    (applyTransition maxRetry d input).2.armed = true ↔ d.armed = true ∨
      (d.state ≠ .reconnecting ∧
        (dspWifiSmNext d.state input d.retry maxRetry).1 = .reconnecting) := by
  have hidle : input = .disconnect → (dspWifiSmNext d.state input d.retry maxRetry).1 = .idle := by
    intro he
    subst he
    simp [dspWifiSmNext]
  unfold applyTransition
  generalize dspWifiSmNext d.state input d.retry maxRetry = r at hidle ⊢
  obtain ⟨next, retry⟩ := r
  simp only at hidle ⊢
  split_ifs with h
  · rw [h.1]
    simp
  · cases next with
    | reconnecting =>
      have hst : d.state ≠ .reconnecting := by
        intro hst
        exact h ⟨hst.symm, fun hinput => by cases hidle hinput⟩
      simp [espTimerStartOnce, hst]
    | _ => simp

/-! ## The timer runs in RECONNECTING -/

def TimerRuns (d : Driver) : Prop := d.state = .reconnecting → d.armed = true

theorem transition_timerRuns {d : Driver} (h : TimerRuns d) (input : WifiInput) :
    TimerRuns (applyTransition maxRetry d input).2 := by
  intro hnext
  rw [applyTransition_state] at hnext
  rw [applyTransition_armed]
  by_cases hst : d.state = .reconnecting
  · exact .inl (h hst)
  · exact .inr ⟨hst, hnext⟩

/-- The callback leaves RECONNECTING, so it does not need the timer it used up. -/
theorem retry_leaves (state : WifiState) (retry : Int) :
    (dspWifiSmNext state .retry retry maxRetry).1 ≠ .reconnecting := by
  cases state <;> simp [dspWifiSmNext]

theorem step_timerRuns (d : Driver) (step : Step) (h : TimerRuns d) :
    TimerRuns (driverStep maxRetry d step).2 := by
  cases step with
  | connect start =>
    simp only [driverStep, dspWifiConnect]
    split_ifs
    · exact h
    · exact transition_timerRuns h .connect
  | disconnect =>
    intro hnext
    simp only [driverStep, dspWifiDisconnect, applyTransition_state] at hnext
    simp [dspWifiSmNext] at hnext
  | event event =>
    cases event with
    | staStart => exact h
    | staDisconnected => exact transition_timerRuns h .disconnected
    | gotIp => exact transition_timerRuns h .connected
    | other => exact h
  | expiry =>
    simp only [driverStep]
    split_ifs
    · intro hnext
      simp only [retryTimerCb, applyTransition_state] at hnext
      exact absurd hnext (retry_leaves _ _)
    · exact h

/-- **The reconnect logic never gets stuck.** After any interleaving of steps, for any
maximum, a manager that is RECONNECTING has its timer running. -/
theorem reconnecting_armed (maxRetry : Int) (cb : Bool) (steps : List Step) :
    let d := final (driverStep maxRetry) (.init cb) steps
    d.state = .reconnecting → d.armed = true :=
  final_invariant step_timerRuns steps (P := TimerRuns) nofun

/-- Three disconnects in a row, on their way to a maximum of five. -/
example : (final (driverStep 5) (.init false)
    [.connect .ok, .event .staDisconnected, .expiry, .event .staDisconnected,
      .event .staDisconnected]).armed = true := by decide

/-! ## The timer runs only in RECONNECTING -/

/-- If the timer fires now, its callback finds the manager RECONNECTING. -/
def TimerInStep (d : Driver) : Prop := d.armed = true → d.state = .reconnecting

/-- The callback runs in this step, and it finds the manager RECONNECTING. -/
def CallbackInStep (d : Driver) (step : Step) : Prop :=
  step = .expiry → d.armed = true → d.state = .reconnecting

/-- An address, or a disconnect that fills the counter, arrives in RECONNECTING. -/
def LeavesTimer (maxRetry : Int) (d : Driver) (step : Step) : Prop :=
  d.state = .reconnecting ∧
    (step = .event .gotIp ∨ (step = .event .staDisconnected ∧ maxRetry ≤ d.retry + 1))

instance (d : Driver) (step : Step) : Decidable (CallbackInStep d step) := by
  unfold CallbackInStep
  infer_instance

section Step

variable {d : Driver}

/-- A transition out of RECONNECTING leaves the timer running. -/
theorem transition_timerInStep (hr : TimerRuns d) (hs : TimerInStep d) (input : WifiInput) :
    TimerInStep (applyTransition maxRetry d input).2 ↔
      ¬ (d.state = .reconnecting ∧
        (dspWifiSmNext d.state input d.retry maxRetry).1 ≠ .reconnecting) := by
  unfold TimerInStep
  rw [applyTransition_state, applyTransition_armed]
  constructor
  · rintro h ⟨hst, hnext⟩
    exact hnext (h (.inl (hr hst)))
  · rintro h (harmed | ⟨-, hnext⟩)
    · by_contra hnext
      exact h ⟨hs harmed, hnext⟩
    · exact hnext

/-- With the timer off, no transition lets it run anywhere else. -/
theorem transition_unarmed (harmed : d.armed = false) (input : WifiInput) :
    TimerInStep (applyTransition maxRetry d input).2 := by
  intro h
  rw [applyTransition_armed, harmed] at h
  rw [applyTransition_state]
  exact (h.resolve_left Bool.false_ne_true).2

theorem step_timerInStep (step : Step) (hr : TimerRuns d) (hs : TimerInStep d) :
    TimerInStep (driverStep maxRetry d step).2 ↔ ¬ LeavesTimer maxRetry d step := by
  cases step with
  | connect start =>
    refine iff_of_true ?_ (by simp [LeavesTimer])
    simp only [driverStep, dspWifiConnect]
    split_ifs with hidle
    · exact hs
    · rw [transition_timerInStep hr hs]
      intro hboth
      obtain ⟨hst, -⟩ := hboth
      exact hidle (by rw [hst]; decide)
  | disconnect =>
    have hafter : TimerInStep (applyTransition maxRetry (espTimerStop d) .disconnect).2 :=
      transition_unarmed rfl .disconnect
    exact iff_of_true hafter (by simp [LeavesTimer])
  | event event =>
    cases event with
    | staStart => exact iff_of_true hs (by simp [LeavesTimer])
    | staDisconnected =>
      refine (transition_timerInStep hr hs .disconnected).trans (not_congr ?_)
      unfold LeavesTimer
      apply and_congr_right
      intro hst
      by_cases hfull : maxRetry ≤ d.retry + 1
      · simp [dspWifiSmNext, hst, hfull]
      · simp [dspWifiSmNext, hst, hfull]
    | gotIp =>
      refine (transition_timerInStep hr hs .connected).trans (not_congr ?_)
      unfold LeavesTimer
      apply and_congr_right
      intro hst
      simp [dspWifiSmNext, hst]
    | other => exact iff_of_true hs (by simp [LeavesTimer])
  | expiry =>
    refine iff_of_true ?_ (by simp [LeavesTimer])
    simp only [driverStep]
    split_ifs
    · exact transition_unarmed rfl .retry
    · exact hs

end Step

theorem callbackInStep_of_always {d : Driver} {steps : List Step}
    (h : Always (driverStep maxRetry) TimerInStep d steps) :
    Along (driverStep maxRetry) CallbackInStep d steps := by
  induction steps generalizing d with
  | nil => trivial
  | cons step steps ih => exact ⟨fun _ => h.1, ih h.2⟩

/-- **When the retry timer is in step.** In every run the timer can fire in RECONNECTING
only, if and only if no step of the run takes the manager out of RECONNECTING by an
address or by the last disconnect; its callback then finds RECONNECTING every time. -/
theorem timer_in_step_iff (maxRetry : Int) (cb : Bool) (steps : List Step) :
    (Always (driverStep maxRetry) TimerInStep (.init cb) steps ↔
      Along (driverStep maxRetry) (fun d step => ¬ LeavesTimer maxRetry d step)
        (.init cb) steps) ∧
    (Along (driverStep maxRetry) (fun d step => ¬ LeavesTimer maxRetry d step)
        (.init cb) steps →
      Along (driverStep maxRetry) CallbackInStep (.init cb) steps) := by
  have hiff : Always (driverStep maxRetry) TimerInStep (.init cb) steps ↔
      Along (driverStep maxRetry) (fun d step => ¬ LeavesTimer maxRetry d step)
        (.init cb) steps :=
    always_iff_along (I := TimerRuns) step_timerRuns (fun _ step => step_timerInStep step)
      steps nofun nofun
  exact ⟨hiff, fun h => callbackInStep_of_always (hiff.mpr h)⟩

/-- An address before the timer fires: the callback finds the manager CONNECTED and
issues a connect. -/
theorem late_timer_counterexample :
    ¬ Along (driverStep 5) CallbackInStep (.init true)
      [.connect .ok, .event .staDisconnected, .event .gotIp, .expiry] ∧
    (trace (driverStep 5) (.init true)
      [.connect .ok, .event .staDisconnected, .event .gotIp, .expiry]).getLast? =
        some (.expiry, [.espWifiConnect]) ∧
    (final (driverStep 5) (.init true)
      [.connect .ok, .event .staDisconnected, .event .gotIp]).state = .connected := by
  decide

end DspEmbedded.Audit.RetryTimer
