import DspEmbedded.Audit.Progress
import DspEmbedded.Model.Power

/-!
# Requests against the task that enters deep sleep

The image is written before the server stops, so requests are answered that the
image does not know. What survives is what the tables were at the save: an
interleaving loses nothing exactly when no request served between the two steps
changes a table.
-/
namespace DspEmbedded.Audit.SleepRace

open Lib.CString Lib.Runs Model Model.Esp Model.Http Model.RtcState Model.Board Model.Protocol
  Model.Power Audit.Requests Audit.Progress

variable {negMax xferMax : Nat}

/-! ## Interleavings -/

/-- What can happen next: the HTTP task serves a request, or the task that enters
deep sleep takes its next step. -/
inductive Event where
  | request (endpoint : Endpoint) (req : HttpdReq)
  | sleeper

structure Race (negMax xferMax : Nat) where
  stage : SleepStage
  node : Node negMax xferMax

/-- A request is served while the server runs; nobody answers it afterwards. -/
def step (s : Race negMax xferMax) : Event → Option Response × Race negMax xferMax
  | .request endpoint req =>
    if dspHttpIsRunning s.node.http then
      (some (serve s.node.device endpoint req).1,
        { s with node := { s.node with device := (serve s.node.device endpoint req).2 } })
    else (none, s)
  | .sleeper => (none, ⟨(sleepStep s.stage s.node).1, (sleepStep s.stage s.node).2⟩)

/-- The requests of a run that were answered with a 2xx status. -/
def acknowledged : List (Event × Option Response) → List (Endpoint × HttpdReq)
  | [] => []
  | (.request endpoint req, some resp) :: rest =>
    if resp.success then (endpoint, req) :: acknowledged rest else acknowledged rest
  | _ :: rest => acknowledged rest

/-- After the timer wake-up the tables are those that the acknowledged requests
make of the tables at the start. -/
def Recovers (uriMatch : CStr → CStr → Bool) (httpd : EspErr) (s : Race negMax xferMax)
    (events : List Event) : Prop :=
  (dspPowerHandleWakeup uriMatch .timer httpd (reboot (final step s events).node)).1 = .ok ∧
    SameTables
      (dspPowerHandleWakeup uriMatch .timer httpd (reboot (final step s events).node)).2.device
      (final serveOne s.node.device (acknowledged (trace step s events)))

/-- An event that is no effective request between the save and the stop. -/
def Quiet (s : Race negMax xferMax) : Event → Prop
  | .request endpoint req => s.stage = .saved → ¬ Effective s.node.device req endpoint
  | .sleeper => True

/-- The server runs up to the stop. -/
structure Coherent (s : Race negMax xferMax) : Prop where
  reachable : Reachable s.node.device
  server : (s.stage ≠ .stopped ∧ ∃ server, Serving s.node.http server) ∨
    (s.stage = .stopped ∧ s.node.http.running = false)

/-! ## One step -/

theorem serve_store (d : Device negMax xferMax) (store : RtcStore negMax xferMax)
    (endpoint : Endpoint) (req : HttpdReq) :
    serve { d with store := store } endpoint req =
      ((serve d endpoint req).1, { (serve d endpoint req).2 with store := store }) := by
  cases endpoint <;> rfl

theorem serve_keeps_store (d : Device negMax xferMax) (endpoint : Endpoint) (req : HttpdReq) :
    (serve d endpoint req).2.store = d.store := by
  cases endpoint <;> rfl

/-- Saving is what a sleep cycle amounts to on a reachable device. -/
theorem saveState_reachable {n : Node negMax xferMax} (h : Reachable n.device) :
    Reachable (saveState n).device := by
  have hsleep := h.sleep
  rwa [sleepCycle_eq h.wellFormed.storable] at hsleep

theorem stopServer_running {n : Node negMax xferMax} {server : List (Route Handler)}
    (h : Serving n.http server) : (stopServer n).http.running = false := by
  simp [stopServer, dspHttpStop, h.running, h.started]

theorem step_coherent (s : Race negMax xferMax) (event : Event) (hc : Coherent s) :
    Coherent (step s event).2 := by
  cases event with
  | request endpoint req =>
    simp only [step]
    split_ifs
    · exact ⟨.request endpoint req hc.reachable, hc.server⟩
    · exact hc
  | sleeper =>
    obtain ⟨stage, node⟩ := s
    rcases hc with ⟨hreach, ⟨hne, server, hserving⟩ | ⟨hstage, hrunning⟩⟩
    · cases stage with
      | awake => exact ⟨saveState_reachable hreach, .inl ⟨fun h => (by cases h), server, hserving⟩⟩
      | saved => exact ⟨hreach, .inr ⟨rfl, stopServer_running hserving⟩⟩
      | stopped => exact absurd rfl hne
    · simp only at hstage
      subst hstage
      exact ⟨hreach, .inr ⟨rfl, hrunning⟩⟩

/-! ## Replay of the acknowledged requests -/

theorem eq_withStore {d d' : Device negMax xferMax} (hneg : d.neg = d'.neg)
    (hxfer : d.xfer = d'.xfer) : d = { d' with store := d.store } := by
  obtain ⟨neg, xfer, store⟩ := d
  obtain ⟨neg', xfer', store'⟩ := d'
  obtain rfl : neg = neg' := hneg
  obtain rfl : xfer = xfer' := hxfer
  rfl

/-- The acknowledged requests alone lead to the same tables: the others change
nothing. -/
theorem replay_run (events : List Event) {s : Race negMax xferMax}
    {d : Device negMax xferMax} (hc : Coherent s) (hneg : d.neg = s.node.device.neg)
    (hxfer : d.xfer = s.node.device.xfer) :
    (final serveOne d (acknowledged (trace step s events))).neg =
        (final step s events).node.device.neg ∧
      (final serveOne d (acknowledged (trace step s events))).xfer =
        (final step s events).node.device.xfer := by
  induction events generalizing s d with
  | nil => exact ⟨hneg, hxfer⟩
  | cons event events ih =>
    have hc' := step_coherent s event hc
    cases event with
    | request endpoint req =>
      rw [trace_cons, final_cons]
      by_cases hrun : dspHttpIsRunning s.node.http = true
      · simp only [step, if_pos hrun] at hc' ⊢
        cases hok : (serve s.node.device endpoint req).1.success with
        | true =>
          have hd := eq_withStore hneg hxfer
          rw [acknowledged, if_pos hok, final_cons]
          apply ih hc'
          · rw [serveOne, hd, serve_store]
          · rw [serveOne, hd, serve_store]
        | false =>
          have hsame := serve_failed hc.reachable.wellFormed hok
          rw [acknowledged, if_neg (by simp [hok])]
          apply ih hc'
          · rw [hsame, hneg]
          · rw [hsame, hxfer]
      · simp only [step, if_neg hrun] at hc' ⊢
        exact ih hc' hneg hxfer
    | sleeper =>
      rw [trace_cons, final_cons]
      apply ih hc'
      · rw [hneg]
        cases hstage : s.stage <;> simp only [step, hstage] <;> rfl
      · rw [hxfer]
        cases hstage : s.stage <;> simp only [step, hstage] <;> rfl

/-! ## What a run does to the tables and to the image -/

/-- The tables are those of `d` and all was quiet, or they are ahead of it and it
was not. -/
def Outcome (d : Device negMax xferMax) (quiet : Prop) (d' : Device negMax xferMax) : Prop :=
  (quiet ∧ SameTables d' d) ∨ (¬ quiet ∧ progress d < progress d')

theorem Outcome.progress_le {d d' : Device negMax xferMax} {quiet : Prop}
    (h : Outcome d quiet d') : progress d ≤ progress d' := by
  rcases h with ⟨-, hsame⟩ | ⟨-, hlt⟩
  · rw [hsame.progress_eq]
  · omega

/-- Once the state is saved, the image stays what it is. -/
theorem saved_step {s : Race negMax xferMax} (hc : Coherent s) (hstage : s.stage ≠ .awake)
    (event : Event) :
    (step s event).2.stage ≠ .awake ∧
      (step s event).2.node.device.store = s.node.device.store ∧
      Outcome s.node.device (Quiet s event) (step s event).2.node.device := by
  obtain ⟨stage, node⟩ := s
  cases event with
  | request endpoint req =>
    by_cases hrun : dspHttpIsRunning node.http = true
    · have hsaved : stage = .saved := by
        rcases hc.server with ⟨hne, -⟩ | ⟨-, hoff⟩
        · cases stage with
          | awake => exact absurd rfl hstage
          | saved => rfl
          | stopped => exact absurd rfl hne
        · rw [show dspHttpIsRunning node.http = false from hoff] at hrun
          cases hrun
      simp only [step, if_pos hrun]
      refine ⟨hstage, serve_keeps_store _ _ _, ?_⟩
      rcases serve_progress hc.reachable endpoint req with ⟨heff, hlt⟩ | ⟨hidle, hsame⟩
      · exact .inr ⟨fun hq => hq hsaved heff, hlt⟩
      · exact .inl ⟨fun _ => hidle, hsame⟩
    · have hstopped : stage ≠ .saved := by
        rcases hc.server with ⟨-, server, hserving⟩ | ⟨hst, -⟩
        · exact absurd hserving.running hrun
        · rw [show stage = .stopped from hst]
          decide
      simp only [step, if_neg hrun]
      exact ⟨hstage, trivial, .inl ⟨fun h => absurd h hstopped, .refl _⟩⟩
  | sleeper =>
    cases stage with
    | awake => exact absurd rfl hstage
    | saved => exact ⟨fun h => (by cases h), rfl, .inl ⟨trivial, .refl _⟩⟩
    | stopped => exact ⟨fun h => (by cases h), rfl, .inl ⟨trivial, .refl _⟩⟩

theorem saved_run (events : List Event) {s : Race negMax xferMax} (hc : Coherent s)
    (hstage : s.stage ≠ .awake) :
    (final step s events).node.device.store = s.node.device.store ∧
      Outcome s.node.device (Along step Quiet s events) (final step s events).node.device := by
  induction events generalizing s with
  | nil => exact ⟨rfl, .inl ⟨trivial, .refl _⟩⟩
  | cons event events ih =>
    obtain ⟨hstage', hstore, hone⟩ := saved_step hc hstage event
    obtain ⟨hstore', hrest⟩ := ih (step_coherent s event hc) hstage'
    refine ⟨hstore'.trans hstore, ?_⟩
    have hle := hrest.progress_le
    rcases hone with ⟨hquiet, hsame⟩ | ⟨hloud, hlt⟩
    · rcases hrest with ⟨hquiet', hsame'⟩ | ⟨hloud', hlt'⟩
      · exact .inl ⟨⟨hquiet, hquiet'⟩, hsame'.trans hsame⟩
      · rw [hsame.progress_eq] at hlt'
        exact .inr ⟨fun h => hloud' h.2, hlt'⟩
    · exact .inr ⟨fun h => hloud h.1, lt_of_lt_of_le hlt hle⟩

/-- A run from an awake device that has saved holds an image of some device whose
tables its own are compared with. -/
theorem awake_run (events : List Event) {s : Race negMax xferMax} (hc : Coherent s)
    (hstage : s.stage = .awake) (hslept : (final step s events).stage ≠ .awake) :
    ∃ d : Device negMax xferMax, Storable d ∧
      (final step s events).node.device.store = (dspRtcStateSave d.neg d.xfer d.store).2 ∧
      Outcome d (Along step Quiet s events) (final step s events).node.device := by
  induction events generalizing s with
  | nil => exact absurd hstage hslept
  | cons event events ih =>
    cases event with
    | request endpoint req =>
      have hquiet : Quiet s (.request endpoint req) := by
        intro h
        rw [hstage] at h
        cases h
      have hstage' : (step s (.request endpoint req)).2.stage = .awake := by
        simp only [step]
        split_ifs <;> exact hstage
      obtain ⟨d, hd, hstore, hout⟩ := ih (step_coherent s _ hc) hstage' hslept
      refine ⟨d, hd, hstore, ?_⟩
      rcases hout with ⟨hq, hsame⟩ | ⟨hq, hlt⟩
      · exact .inl ⟨⟨hquiet, hq⟩, hsame⟩
      · exact .inr ⟨fun h => hq h.2, hlt⟩
    | sleeper =>
      obtain ⟨stage, node⟩ := s
      obtain rfl : stage = .awake := hstage
      obtain ⟨hstore, hout⟩ := saved_run events (step_coherent _ .sleeper hc)
        (fun h => (by cases h))
      refine ⟨node.device, hc.reachable.wellFormed.storable, hstore, ?_⟩
      rcases hout with ⟨hq, hsame⟩ | ⟨hq, hlt⟩
      · exact .inl ⟨⟨trivial, hq⟩, hsame⟩
      · exact .inr ⟨fun h => hq h.2, hlt⟩

/-- **What survives deep sleep.** In every interleaving that reaches deep sleep,
the wake-up recovers the effect of the acknowledged requests exactly when no
effective request was served between the save and the stop. -/
theorem recovers_iff (uriMatch : CStr → CStr → Bool) (httpd : EspErr) {s : Race negMax xferMax}
    (hc : Coherent s) (hstage : s.stage = .awake) (events : List Event)
    (hslept : (final step s events).stage = .stopped) :
    Recovers uriMatch httpd s events ↔ Along step Quiet s events := by
  obtain ⟨d, hd, hstore, hout⟩ := awake_run events hc hstage (by rw [hslept]; decide)
  obtain ⟨hok, hneg, hxfer⟩ := wakeup_saved uriMatch httpd hd hstore
  obtain ⟨hrneg, hrxfer⟩ := replay_run events (d := s.node.device) hc rfl rfl
  have hrecovers : Recovers uriMatch httpd s events ↔
      SameTables d (final step s events).node.device := by
    rw [Recovers, and_iff_right hok, SameTables, SameTables, hneg, hxfer, hrneg, hrxfer]
  rw [hrecovers]
  rcases hout with ⟨hq, hsame⟩ | ⟨hq, hlt⟩
  · exact iff_of_true ⟨hsame.1.symm, hsame.2.symm⟩ hq
  · refine iff_of_false ?_ hq
    intro hsame
    rw [hsame.progress_eq] at hlt
    exact lt_irrefl _ hlt

/-- A device as `protocol_init` leaves it, with the server running. -/
def freshRace : Race 4 2 where
  stage := .awake
  node := { Node.boot (RtcStore.zero 4 2) with
    device := boot (RtcStore.zero 4 2) false
    http := (dspHttpStart (fun _ _ => false) .ok .boot).2 }

theorem freshRace_coherent : Coherent freshRace where
  reachable := .boot _ _
  server := .inl ⟨by decide, [], serving_start⟩

/-- An offer that is answered before the save survives. -/
theorem recovers_early :
    Recovers (fun _ _ => false) .ok freshRace [.request .offers offerRequest, .sleeper, .sleeper] :=
  (recovers_iff (fun _ _ => false) .ok freshRace_coherent rfl _ rfl).mpr
    ⟨fun h => (by cases h), trivial, trivial, trivial⟩

/-- An offer that is answered between the save and the stop is lost. -/
theorem late_offer_counterexample :
    ¬ Recovers (fun _ _ => false) .ok freshRace
      [.sleeper, .request .offers offerRequest, .sleeper] := by
  intro hboth
  obtain ⟨-, hneg, -⟩ := hboth
  have hsaved := wakeup_saved (fun _ _ => false) .ok
    (n := (final step freshRace [.sleeper, .request .offers offerRequest, .sleeper]).node)
    (boot_wellFormed (RtcStore.zero 4 2) false).storable rfl
  rw [hsaved.2.1] at hneg
  have hcount := congrArg (fun t => t.slots.countP (·.active)) hneg
  exact absurd hcount (by decide +kernel)

end DspEmbedded.Audit.SleepRace
