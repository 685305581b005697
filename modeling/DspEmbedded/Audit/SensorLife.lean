import DspEmbedded.Model.SensorTask

/-!
# The life of the sensor handle

A stop gives back what `s_dht20` points to and then deletes the task, wherever that is.
As long as there is one task and it does nothing meanwhile, no call reaches anything that
is gone. What the task had not published yet is lost: a block costs memory, a bus costs
the sensor, since no later init gets the port again. A bus that the driver does not
delete costs the sensor as well.
-/
namespace DspEmbedded.Audit.SensorLife

open Lib.Calls Lib.Runs Model.Esp Model.Dht20 Model.Application Model.Shared Model.SensorTask

variable {L : List Nat} {b : Option Nat} {w : World} {S : System} {h : Nat}

/-! ## What a program of the task keeps -/

/-- Besides the blocks `L` and the bus `b`, which nobody reaches any more, there is what
is published, or what the task still keeps to itself. -/
inductive Held (L : List Nat) (b : Option Nat) (w : World) : Prop
  | unpublished (hsensor : w.sensor = none) (hblocks : L <:+ w.blocks)
      (hbus : b.isSome → w.bus = b) (hstuck : w.stuck → w.bus.isSome)
      (hdev : w.bus = none → w.dev = none)
  | published (h : Nat) (hsensor : w.sensor = some h) (hblocks : w.blocks = h :: L)
      (hbus : w.bus = some h) (hdev : w.dev = some h) (hb : b = none) (hfree : w.stuck = false)

/-- Nothing but what is lost. -/
structure Rest (L : List Nat) (b : Option Nat) (w : World) : Prop where
  sensor : w.sensor = none
  blocks : w.blocks = L
  bus : b.isSome ∨ w.stuck = false → w.bus = b
  stuck : w.stuck → w.bus.isSome
  dev : w.bus = none → w.dev = none

/-- The device is there, and nobody else knows it. -/
structure Private (L : List Nat) (h : Nat) (w : World) : Prop where
  sensor : w.sensor = none
  blocks : w.blocks = h :: L
  bus : w.bus = some h
  dev : w.dev = some h
  free : w.stuck = false

theorem Rest.held (hr : Rest L b w) : Held L b w :=
  .unpublished hr.sensor ⟨[], hr.blocks.symm⟩ (fun hb => hr.bus (.inl hb)) hr.stuck hr.dev

theorem Private.held (hp : Private L h w) : Held L none w :=
  .unpublished hp.sensor (by rw [hp.blocks]; exact List.suffix_cons h L) (by simp)
    (by simp [hp.free]) (fun hbus => by rw [hp.bus] at hbus; cases hbus)

/-- Only the heap, the driver and the handle count. -/
theorem held_congr {w' : World} (hw : Held L b w) (hsensor : w'.sensor = w.sensor)
    (hblocks : w'.blocks = w.blocks) (hbus : w'.bus = w.bus) (hdev : w'.dev = w.dev)
    (hstuck : w'.stuck = w.stuck) : Held L b w' := by
  cases hw with
  | unpublished hs hb hB hS hd =>
    exact .unpublished (hsensor.trans hs) (hblocks ▸ hb) (fun h => hbus.trans (hB h))
      (fun h => by rw [hbus]; exact hS (hstuck ▸ h))
      (fun h => hdev.trans (hd (hbus.symm.trans h)))
  | published h hs hb hB hd hnone hfree =>
    exact .published h (hsensor.trans hs) (hblocks.trans hb) (hbus.trans hB) (hdev.trans hd) hnone
      (hstuck.trans hfree)

/-- The flags do not count. -/
def Unflagged (R : World → Prop) : Prop :=
  ∀ {w} (running ready shared taskHandle : Bool), R w →
    R { w with running, ready, shared, taskHandle }

theorem unflagged_held : Unflagged (Held L b) := fun _ _ _ _ hw =>
  held_congr hw rfl rfl rfl rfl rfl

theorem unflagged_rest : Unflagged (Rest L b) := fun _ _ _ _ hr =>
  ⟨hr.sensor, hr.blocks, hr.bus, hr.stuck, hr.dev⟩

section Transfers

variable {I : World → Prop} {α : Type} {Q : α → World → Prop}

/-- Transfers change nothing here. -/
theorem careful_reset {Q : EspErr → World → Prop} (hI : I w) (hin : h ∈ w.blocks)
    (hdev : w.dev = some h) (hQ : ∀ err, Q err w) (reg : UInt8) :
    platform.Careful I Q (dht20ResetRegister h reg) w := by
  refine careful_call hI ⟨hin, hdev⟩ fun o => ?_
  split_ifs
  · exact hQ _
  · refine careful_call hI ⟨hin, hdev⟩ fun o => ?_
    split_ifs
    · exact hQ _
    · refine careful_call hI ⟨hin, hdev⟩ fun o => ?_
      split_ifs
      · exact hQ _
      · exact hQ _

theorem careful_resets {Q : EspErr → World → Prop} (hI : I w) (hin : h ∈ w.blocks)
    (hdev : w.dev = some h) (hQ : ∀ err, Q err w) (regs : List UInt8) :
    platform.Careful I Q (resetRegisters h regs) w := by
  induction regs with
  | nil => exact hQ _
  | cons reg regs ih =>
    refine careful_bind (careful_reset hI hin hdev (fun err => ?_) reg)
    split_ifs
    · exact hQ err
    · exact ih

theorem careful_poll {Q : EspErr → World → Prop} (hI : I w) (hin : h ∈ w.blocks)
    (hdev : w.dev = some h) (hQ : ∀ err, Q err w) (waitedMs : Nat) :
    platform.Careful I Q (pollBusyCalls h waitedMs) w := by
  induction hn : dht20BusyTimeoutMs - waitedMs using Nat.strong_induction_on
    generalizing waitedMs with
  | h n ih =>
    rw [pollBusyCalls]
    refine careful_call hI ⟨hin, hdev⟩ fun o => ?_
    split_ifs with herr hready hlate
    · exact hQ _
    · exact hQ _
    · exact hQ _
    · exact ih _ (by simp only [dht20BusyPollStepMs]; omega) _ rfl

theorem careful_read {Q : Except EspErr Dht20Reading → World → Prop} (hI : I w)
    (hin : h ∈ w.blocks) (hdev : w.dev = some h) (hQ : ∀ read, Q read w) :
    platform.Careful I Q (dspDht20ReadCalls (some h)) w := by
  refine careful_call hI ⟨hin, hdev⟩ fun o => ?_
  split_ifs
  · exact hQ _
  · refine careful_bind (careful_poll hI hin hdev (fun polled => ?_) _)
    split_ifs
    · exact hQ _
    · refine careful_call hI ⟨hin, hdev⟩ fun o => ?_
      split_ifs
      · exact hQ _
      · dsimp only
        split_ifs
        · exact hQ _
        · exact hQ _

end Transfers

theorem Rest.begun (hr : Rest (h :: L) b w) : Held L b w :=
  .unpublished hr.sensor ⟨[h], hr.blocks.symm⟩ (fun hb => hr.bus (.inl hb)) hr.stuck hr.dev

theorem Rest.bus_begun (hr : Rest (h :: L) (some h) w) : Held L none w :=
  .unpublished hr.sensor ⟨[h], hr.blocks.symm⟩ (by simp) hr.stuck hr.dev

theorem careful_free (hr : Rest (h :: L) b w) :
    platform.Careful (Held L b) (fun _ => Rest L b) (.call (.free h) fun _ => .done EspErr.fail)
      w := by
  refine careful_call hr.begun (by simp [platform, World.Allowed, hr.blocks]) fun _ => ?_
  exact ⟨hr.sensor, by simp [platform, World.answer, hr.blocks], hr.bus, hr.stuck, hr.dev⟩

/-- A bus that is not deleted stays on the port. -/
theorem careful_delBus (hr : Rest (h :: L) (some h) w) (hfree : w.stuck = false) :
    platform.Careful (Held L none) (fun _ => Rest L none)
      (.call (.i2cDelMasterBus h) fun _ => .call (.free h) fun _ => .done EspErr.fail) w := by
  have hbus := hr.bus (.inl rfl)
  refine careful_call hr.bus_begun ⟨by simp [hr.blocks], hbus⟩ fun o => ?_
  by_cases hok : o.err = .ok
  · rw [answer_busDeleted h hok]
    exact careful_free ⟨hr.sensor, hr.blocks, fun _ => rfl, by simp [hfree], fun _ => rfl⟩
  · rw [answer_busKept h hok]
    exact careful_free ⟨hr.sensor, hr.blocks, by simp, by simp [hbus], hr.dev⟩

theorem Private.opened (hp : Private L h w) : Rest (h :: L) (some h) w :=
  ⟨hp.sensor, hp.blocks, fun _ => hp.bus, by simp [hp.free], by simp [hp.bus]⟩

/-- On the way out everything is given back that the driver takes back. -/
theorem careful_removeAll (hp : Private L h w) :
    platform.Careful (Held L none) (fun _ => Rest L none) (removeAll h) w := by
  refine careful_call hp.held ⟨by simp [hp.blocks], hp.dev⟩ fun o => ?_
  by_cases hok : o.err = .ok
  · rw [answer_deviceRemoved h hok]
    exact careful_delBus ⟨hp.sensor, hp.blocks, fun _ => hp.bus, by simp [hp.free],
      fun _ => rfl⟩ hp.free
  · rw [answer_deviceKept h hok]
    exact careful_delBus hp.opened hp.free

theorem careful_publish (hp : Private L h w) :
    platform.Careful (Held L none) (fun _ => Held L none)
      (.call (.storeSensor (some h)) fun _ => .done EspErr.ok) w :=
  careful_call hp.held trivial fun _ => .published h rfl hp.blocks hp.bus hp.dev rfl hp.free

theorem careful_calibration (hp : Private L h w) :
    platform.Careful (Held L none) (fun _ => Held L none) (checkCalibration h) w := by
  have hin : h ∈ w.blocks := by simp [hp.blocks]
  have hout : platform.Careful (Held L none) (fun _ => Held L none) (removeAll h) w :=
    careful_mono (fun _ hI => hI) (fun _ _ hr => hr.held) (careful_removeAll hp)
  have hrest (err : EspErr) : platform.Careful (Held L none) (fun _ => Held L none)
      (if err ≠ .ok then removeAll h else .call (.storeSensor (some h)) fun _ => .done .ok) w := by
    split_ifs
    · exact hout
    · exact careful_publish hp
  refine careful_call hp.held ⟨hin, hp.dev⟩ fun o => ?_
  split_ifs
  · exact hout
  · exact careful_bind (careful_resets hp.held hin hp.dev hrest dht20CalRegs)
  · exact hrest .ok

/-- From the block on. -/
theorem careful_bus (hr : Rest (h :: L) b w) :
    platform.Careful (Held L b) (fun _ => Held L b) (openBus h) w := by
  have hfree : platform.Careful (Held L b) (fun _ => Held L b)
      (.call (.free h) fun _ => .done EspErr.fail) w :=
    careful_mono (fun _ hI => hI) (fun _ _ hr => hr.held) (careful_free hr)
  refine careful_call hr.begun (by simp [platform, World.Allowed, hr.blocks]) fun o => ?_
  cases hbus : w.bus with
  | some p =>
    rw [answer_busTaken h hbus]
    exact hfree
  | none =>
    have hdeletes : w.stuck = false := by
      by_contra hstuck
      have hsome := hr.stuck (by simpa using hstuck)
      rw [hbus] at hsome
      cases hsome
    obtain rfl : b = none := (hr.bus (.inr hdeletes)).symm.trans hbus
    by_cases hok : o.err = .ok
    · have hopen : Rest (h :: L) (some h) { w with bus := some h } :=
        ⟨hr.sensor, hr.blocks, fun _ => rfl, fun _ => rfl, by simp⟩
      simp only [answer_busFree h hbus hok, Outcome.answer_err, hok, ne_eq, not_true_eq_false,
        if_false]
      refine careful_call hopen.bus_begun ⟨by simp [hr.blocks], rfl⟩ fun o => ?_
      by_cases hadded : o.err = .ok
      · simp only [answer_deviceAdded h hadded, Outcome.answer_err, hadded, not_true_eq_false,
          if_false]
        exact careful_calibration ⟨hr.sensor, hr.blocks, rfl, rfl, hdeletes⟩
      · simp only [answer_deviceRefused h hadded, Outcome.answer_err, hadded, not_false_eq_true,
          if_true]
        exact careful_mono (fun _ hI => hI) (fun _ _ hr => hr.held) (careful_delBus hopen hdeletes)
    · simp only [answer_busRefused h hbus hok, Outcome.answer_err, hok, ne_eq, not_false_eq_true,
        if_true]
      exact hfree

/-- An init ends with the handle published, or with nothing but what was lost. -/
theorem careful_init (hr : Rest L b w) :
    platform.Careful (Held L b) (fun _ => Held L b) dspDht20Init w := by
  refine careful_call hr.held trivial fun o => ?_
  by_cases hfound : o.found = true
  · have hnew : platform.answer w .calloc o = (o.answer (some w.next),
        { w with next := w.next + 1, blocks := w.next :: w.blocks }) := if_pos hfound
    rw [hnew]
    exact careful_bus ⟨hr.sensor, congrArg _ hr.blocks, hr.bus, hr.stuck, hr.dev⟩
  · have hnone : platform.answer w .calloc o = (o.answer none, w) := if_neg hfound
    rw [hnone]
    exact hr.held

/-- After the sensor the task sets its flags. -/
theorem careful_applicationInit {K : World → Prop} (hK : Unflagged K)
    (hinit : platform.Careful K (fun _ => K) dspDht20Init w) :
    platform.Careful K (fun _ => K) applicationInit w := by
  refine careful_then hinit fun _ w hw => ?_
  refine careful_call hw trivial fun _ => ?_
  have hready := hK w.running true w.shared w.taskHandle hw
  refine careful_call hready trivial fun _ => ?_
  exact hK true true w.shared w.taskHandle hready

theorem held_push (hw : Held L b w) (sample : DspSample) (o : Outcome) :
    Held L b (World.answer w (.dspRingBufPush sample) o).2 := by
  simp only [World.answer]
  split_ifs
  · exact held_congr hw rfl rfl rfl rfl rfl
  · exact hw

theorem careful_samples (hw : Held L b w) :
    platform.Careful (Held L b) (fun _ => Held L b) acquireDht20SamplesCalls w := by
  refine careful_call hw trivial fun o => ?_
  simp only [platform, World.answer, Outcome.answer]
  cases hw with
  | unpublished hs hb hB hS hd =>
    rw [hs]
    exact .unpublished hs hb hB hS hd
  | published h hs hb hB hd hnone hfree =>
    have hw : Held L b w := .published h hs hb hB hd hnone hfree
    rw [hs]
    refine careful_bind (careful_read hw (by simp [hb]) hd fun read => ?_)
    cases read with
    | error err => exact hw
    | ok reading =>
      refine careful_call hw trivial fun o => ?_
      refine careful_call hw trivial fun o' => ?_
      have hpushed := held_push hw (temperatureSample reading o.time) o'
      refine careful_call hpushed trivial fun o' => ?_
      exact held_push hpushed _ o'

theorem careful_cycle (hw : Held L b w) :
    platform.Careful (Held L b) (fun _ => Held L b) applicationCycle w := by
  refine careful_call hw trivial fun o => ?_
  split_ifs
  · exact careful_samples hw
  · exact hw

/-! ## A stop -/

/-- What a stop leaves that begins in `w`. -/
def leftBlocks (w : World) : List Nat :=
  match w.sensor with
  | none => w.blocks
  | some h => w.blocks.erase h

def leftBus (w : World) : Option Nat :=
  match w.sensor with
  | none => w.bus
  | some _ => none

/-- What is left of the stop sets flags, and the task is gone at its end. -/
theorem careful_stopOf {R J : World → Prop} (hR : Unflagged R) (hRJ : ∀ w, R w → J w) (hw : J w)
    (hrelease : platform.Careful J (fun _ => R) releaseSensor { w with running := false }) :
    platform.Careful J (fun _ w => R w ∧ w.taskHandle = false) dspApplicationStop w := by
  have hdelete {w : World} (hr : R w) :
      platform.Careful J (fun _ w => R w ∧ w.taskHandle = false) deleteTask w :=
    careful_call (hRJ _ hr) trivial fun _ => ⟨hR w.running w.ready w.shared false hr, rfl⟩
  refine careful_call hw trivial fun _ => ?_
  refine careful_then hrelease fun _ w hr => ?_
  refine careful_call (hRJ _ hr) trivial fun o => ?_
  split_ifs
  · refine careful_call (hRJ _ hr) trivial fun _ => ?_
    have hready := hR w.running false w.shared w.taskHandle hr
    refine careful_call (hRJ _ hready) trivial fun _ => ?_
    exact hdelete (hR w.running false false w.taskHandle hready)
  · exact hdelete hr

def Anything : World → Prop := fun _ => True

/-- From the bus on nothing stays published, and the block is freed. -/
theorem careful_giveBack (hblocks : w.blocks = h :: L) (hbus : w.bus = some h)
    (hfree : w.stuck = false) :
    platform.Careful Anything (fun _ => Rest L none)
      (.call (.i2cDelMasterBus h) fun _ => .call (.free h) fun _ =>
        .call (.storeSensor none) fun _ => .done ()) w := by
  have hin : h ∈ w.blocks := by simp [hblocks]
  have herase : w.blocks.erase h = L := by simp [hblocks]
  refine careful_call trivial ⟨hin, hbus⟩ fun o => ?_
  by_cases hok : o.err = .ok
  · rw [answer_busDeleted h hok]
    refine careful_call trivial hin fun _ => careful_call trivial trivial fun _ => ?_
    exact ⟨rfl, herase, fun _ => rfl, by simp [platform, World.answer, hfree], fun _ => rfl⟩
  · rw [answer_busKept h hok]
    refine careful_call trivial hin fun _ => careful_call trivial trivial fun _ => ?_
    exact ⟨rfl, herase, by simp [platform, World.answer], by simp [platform, World.answer, hbus],
      by simp [platform, World.answer, hbus]⟩

theorem careful_release (hw : Held L b w) :
    platform.Careful Anything (fun _ => Rest (leftBlocks w) (leftBus w)) releaseSensor w := by
  refine careful_call trivial trivial fun o => ?_
  cases hw with
  | unpublished hs hb hB hS hd =>
    simp only [answer_sensor hs, Outcome.answer_ptr, Option.isSome_none, Bool.false_eq_true,
      if_false]
    exact ⟨hs, by simp [leftBlocks, hs], by simp [leftBus, hs], hS, hd⟩
  | published h hs hb hB hd hnone hfree =>
    have hblocks : leftBlocks w = L := by simp [leftBlocks, hs, hb]
    have hbus : leftBus w = none := by simp [leftBus, hs]
    have hin : h ∈ w.blocks := by simp [hb]
    rw [hblocks, hbus]
    simp only [answer_sensor hs, Outcome.answer_ptr, Option.isSome_some, if_true]
    refine careful_call trivial trivial fun o => ?_
    simp only [answer_sensor hs, Outcome.answer_ptr]
    refine careful_call trivial ⟨hin, hd⟩ fun o => ?_
    by_cases hok : o.err = .ok
    · rw [answer_deviceRemoved h hok]
      exact careful_giveBack hb hB hfree
    · rw [answer_deviceKept h hok]
      exact careful_giveBack hb hB hfree

theorem careful_stop (hw : Held L b w) :
    platform.Careful Anything
      (fun _ w' => Rest (leftBlocks w) (leftBus w) w' ∧ w'.taskHandle = false)
      dspApplicationStop w := by
  have hrunning := unflagged_held false w.ready w.shared w.taskHandle hw
  exact careful_stopOf unflagged_rest (fun _ _ => trivial) trivial (careful_release hrunning)

/-! ## Runs -/

/-- No task makes a call while core 0 is in a stop. -/
def Undisturbed (S : System) : Event → Prop
  | .task _ | .orphan _ _ => S.Idle
  | _ => True

/-- No second task is started. -/
def Single (S : System) : Event → Prop
  | .start _ => S.task = none
  | _ => True

def Calm (S : System) (e : Event) : Prop := Undisturbed S e ∧ Single S e

/-- The call that is made, if any, reaches nothing that is gone. -/
def CallAllowed (S : System) (e : Event) : Prop :=
  ∀ c, (step S e).1 = some c → S.world.Allowed c

/-- `R` holds while there is no task, `K` where the task can be cut off, `J` during a
stop. -/
inductive Phase (R K J : World → Prop) (S : System) : Prop
  | resting (hidle : S.Idle) (horphans : S.orphans = []) (htask : S.task = none) (hr : R S.world)
  | working (p : Sensor Unit) (hidle : S.Idle) (horphans : S.orphans = []) (htask : S.task = some p)
      (hp : platform.Careful K (fun _ => K) p S.world)
  | stopping (hbusy : ¬ S.Idle) (horphans : S.orphans = [])
      (hmain : platform.Careful J (fun _ w => R w ∧ w.taskHandle = false) S.main S.world)

/-- What the programs of the task have to keep. -/
structure Keeps (R K : World → Prop) : Prop where
  flags : Unflagged R
  init : ∀ {w}, R w → platform.Careful K (fun _ => K) applicationInit w
  cycle : ∀ {w}, K w → platform.Careful K (fun _ => K) applicationCycle w

/-- A stop that begins. -/
def Stops (S : System) (e : Event) : Prop := e = .stop ∧ S.Idle

theorem taskStep_call (p : Sensor Unit) (w : World) (o : Outcome) :
    (taskStep p w o).1 = p.next? := by
  unfold taskStep
  split_ifs with hdone
  · exact (Option.isNone_iff_eq_none.mp hdone).symm
  · rfl

section Phases

variable {R K J : World → Prop}

theorem Phase.orphans (hi : Phase R K J S) : S.orphans = [] := by
  cases hi with
  | resting _ horphans _ _ => exact horphans
  | working _ _ horphans _ _ => exact horphans
  | stopping _ horphans _ => exact horphans

theorem Phase.cut (hi : Phase R K J S) (hR : ∀ w, R w → K w) (hidle : S.Idle) : K S.world := by
  cases hi with
  | resting _ _ _ hr => exact hR _ hr
  | working p _ _ _ hp => exact careful_cut hp fun _ _ hw => hw
  | stopping hbusy _ _ => exact absurd hidle hbusy

/-- The task ends a round of its loop and begins the next, or makes its next call. -/
theorem careful_taskStep (hk : Keeps R K) {p : Sensor Unit}
    (hp : platform.Careful K (fun _ => K) p w) (o : Outcome) :
    platform.Careful K (fun _ => K) (taskStep p w o).2.1 (taskStep p w o).2.2 := by
  cases p with
  | done a => exact hk.cycle hp
  | call c k => exact careful_advance hp o

theorem Phase.allowed (hi : Phase R K J S) {e : Event} (hu : Undisturbed S e) :
    CallAllowed S e := by
  intro c hc
  cases e with
  | start created =>
    simp only [step] at hc
    split_ifs at hc
  | stop => cases hc
  | main o =>
    by_cases hidle : S.Idle
    · simp only [step, if_pos hidle] at hc
      cases hc
    · simp only [step, if_neg hidle] at hc
      cases hi with
      | resting hidle' _ _ _ => exact absurd hidle' hidle
      | working p hidle' _ _ _ => exact absurd hidle' hidle
      | stopping hbusy _ hmain => exact careful_next hmain hc
  | task o =>
    cases hi with
    | resting _ _ htask _ =>
      simp only [step, htask] at hc
      cases hc
    | working p _ _ htask hp =>
      simp only [step, htask, taskStep_call] at hc
      exact careful_next hp hc
    | stopping hbusy _ _ => exact absurd hu hbusy
  | orphan n o =>
    simp only [step, hi.orphans, List.getElem?_nil] at hc
    cases hc

/-- A stop may lead to another `R`. -/
theorem Phase.stop {R' : World → Prop} (hidle : S.Idle) (horphans : S.orphans = [])
    (hstop : platform.Careful J (fun _ w => R' w ∧ w.taskHandle = false) dspApplicationStop
      S.world) : Phase R' K J (step S .stop).2 := by
  simp only [step, if_pos hidle]
  exact .stopping (by simp [System.Idle, dspApplicationStop, Prog.next?]) horphans hstop

theorem Phase.main (hi : Phase R K J S) (o : Outcome) : Phase R K J (step S (.main o)).2 := by
  by_cases hidle : S.Idle
  · simp only [step, if_pos hidle]
    exact hi
  simp only [step, if_neg hidle]
  cases hi with
  | resting hidle' _ _ _ => exact absurd hidle' hidle
  | working p hidle' _ _ _ => exact absurd hidle' hidle
  | stopping hbusy horphans hmain =>
    have hnext := careful_advance hmain o
    generalize platform.advance S.main S.world o = next at hnext ⊢
    obtain ⟨main, world⟩ := next
    cases main with
    | done a =>
      obtain ⟨hr, hhandle⟩ := hnext
      exact .resting rfl horphans (if_neg (by simpa using hhandle)) hr
    | call c k => exact .stopping (by simp [System.Idle, Prog.next?]) horphans hnext

theorem Phase.task (hk : Keeps R K) (hi : Phase R K J S) (hidle : S.Idle) (o : Outcome) :
    Phase R K J (step S (.task o)).2 := by
  cases hi with
  | resting hidle horphans htask hr =>
    simp only [step, htask]
    exact .resting hidle horphans htask hr
  | working p hidle horphans htask hp =>
    simp only [step, htask]
    exact .working _ hidle horphans rfl (careful_taskStep hk hp o)
  | stopping hbusy _ _ => exact absurd hidle hbusy

theorem Phase.start (hk : Keeps R K) (hi : Phase R K J S) {created : Bool}
    (hnone : S.task = none) : Phase R K J (step S (.start created)).2 := by
  cases hi with
  | resting hidle horphans htask hr =>
    simp only [step, if_pos hidle]
    cases created with
    | true =>
      exact .working _ hidle (by simp [htask, horphans]) rfl
        (hk.init (hk.flags S.world.running S.world.ready true true hr))
    | false =>
      exact .resting hidle horphans htask
        (hk.flags S.world.running S.world.ready false S.world.taskHandle hr)
  | working p _ _ htask _ => cases htask.symm.trans hnone
  | stopping hbusy horphans hmain =>
    simp only [step, if_neg hbusy]
    exact .stopping hbusy horphans hmain

/-- Every event but a stop that begins. -/
theorem Phase.keep (hk : Keeps R K) (hi : Phase R K J S) {e : Event} (hc : Calm S e)
    (hstops : ¬ Stops S e) : Phase R K J (step S e).2 := by
  cases e with
  | start created => exact hi.start hk hc.2
  | stop =>
    have hbusy : ¬ S.Idle := fun hidle => hstops ⟨rfl, hidle⟩
    simp only [step, if_neg hbusy]
    exact hi
  | main o => exact hi.main o
  | task o => exact hi.task hk hc.1 o
  | orphan n o =>
    simp only [step, hi.orphans, List.getElem?_nil]
    exact hi

end Phases

/-! ## A bus that stays -/

/-- The driver is asked to delete a bus and answers with an error. -/
def DeletionFails (S : System) (e : Event) : Prop :=
  ∃ h o, (step S e).1 = some (.i2cDelMasterBus h) ∧ e.outcome = some o ∧ o.err ≠ .ok

theorem answer_stuck (w : World) (c : Call) (o : Outcome) :
    (World.answer w c o).2.stuck = true ↔
      w.stuck = true ∨ ∃ h, c = .i2cDelMasterBus h ∧ o.err ≠ .ok := by
  cases c with
  | i2cDelMasterBus h => by_cases hok : o.err = .ok <;> simp [World.answer, hok]
  | _ =>
    simp only [World.answer]
    repeat' split
    all_goals simp

theorem advance_stuck (p : Sensor Unit) (w : World) (o : Outcome) :
    (platform.advance p w o).2.stuck = true ↔
      w.stuck = true ∨ ∃ h, p.next? = some (.i2cDelMasterBus h) ∧ o.err ≠ .ok := by
  cases p with
  | done a => simp [Env.advance, Prog.next?]
  | call c next =>
    simp only [Prog.next?, Option.some.injEq]
    exact answer_stuck w c o

theorem taskStep_stuck (p : Sensor Unit) (w : World) (o : Outcome) :
    (taskStep p w o).2.2.stuck = true ↔
      w.stuck = true ∨ ∃ h, p.next? = some (.i2cDelMasterBus h) ∧ o.err ≠ .ok := by
  unfold taskStep
  split_ifs with hdone
  · simp [Option.isNone_iff_eq_none.mp hdone]
  · exact advance_stuck p w o

theorem step_stuck (S : System) (e : Event) :
    (step S e).2.world.stuck = true ↔ S.world.stuck = true ∨ DeletionFails S e := by
  unfold DeletionFails
  cases e with
  | start created =>
    by_cases hidle : S.Idle
    · cases created <;> simp [step, hidle]
    · simp [step, hidle]
  | stop => by_cases hidle : S.Idle <;> simp [step, hidle]
  | main o =>
    by_cases hidle : S.Idle
    · simp [step, hidle]
    · simp only [step, if_neg hidle, Event.outcome, Option.some.injEq]
      rw [advance_stuck]
      simp
  | task o =>
    cases htask : S.task with
    | none => simp [step, htask]
    | some p =>
      simp only [step, htask, Event.outcome, taskStep_call]
      rw [taskStep_stuck]
      simp
  | orphan n o =>
    cases hat : S.orphans[n]? with
    | none => simp [step, hat]
    | some p =>
      simp only [step, hat, Event.outcome, taskStep_call]
      rw [taskStep_stuck]
      simp

/-! ## What is lost -/

/-- `L` and `b` are lost for good. -/
abbrev Lost (L : List Nat) (b : Option Nat) (S : System) : Prop :=
  Phase (Rest L b) (Held L b) Anything S

theorem keeps_lost (L : List Nat) (b : Option Nat) : Keeps (Rest L b) (Held L b) where
  flags := unflagged_rest
  init := fun hr => careful_applicationInit unflagged_held (careful_init hr)
  cycle := careful_cycle

theorem lost_boot : Lost [] none .boot :=
  .resting rfl rfl rfl ⟨rfl, rfl, fun _ => rfl, fun h => Bool.noConfusion h, fun _ => rfl⟩

theorem Phase.lost_stop (hi : Lost L b S) (hidle : S.Idle) :
    Lost (leftBlocks S.world) (leftBus S.world) (step S .stop).2 :=
  Phase.stop hidle hi.orphans (careful_stop (hi.cut (fun _ hr => hr.held) hidle))

/-- The stop finds no block that has not been published. -/
def SparesBlocks (S : System) (e : Event) : Prop :=
  Stops S e → S.world.sensor = none → S.world.blocks = []

/-- The stop finds no bus that has not been published, and the driver takes back every
bus that it is given. -/
def SparesBus (S : System) (e : Event) : Prop :=
  (Stops S e → S.world.sensor = none → S.world.bus = none) ∧ ¬ DeletionFails S e

theorem leftBlocks_nil_iff (hw : Held L b w) :
    leftBlocks w = [] ↔ L = [] ∧ (w.sensor = none → w.blocks = []) := by
  cases hw with
  | unpublished hs hb hB hS hd =>
    simp only [leftBlocks, hs, true_implies]
    refine ⟨fun hnil => ⟨?_, hnil⟩, fun h => h.2⟩
    rw [hnil] at hb
    exact List.suffix_nil.mp hb
  | published h hs hb hB hd hnone hfree => simp [leftBlocks, hs, hb]

theorem leftBus_none_iff (hw : Held L b w) :
    leftBus w = none ↔ b = none ∧ (w.sensor = none → w.bus = none) := by
  cases hw with
  | unpublished hs hb hB hS hd =>
    simp only [leftBus, hs, true_implies]
    refine ⟨fun hnone => ⟨?_, hnone⟩, fun h => h.2⟩
    by_contra hsome
    have hbus := hB (Option.isSome_iff_ne_none.mpr hsome)
    exact hsome (hbus.symm.trans hnone)
  | published h hs hb hB hd hnone hfree => simp [leftBus, hs, hnone]

theorem not_fails_of_stops {e : Event} (h : Stops S e) : ¬ DeletionFails S e := by
  obtain ⟨rfl, -⟩ := h
  rintro ⟨h, o, -, ho, -⟩
  cases ho

/-- What is lost by the history. -/
theorem lost_history (events : List Event) (hc : Along step Calm .boot events) :
    ∃ L b, Lost L b (final step .boot events) ∧
      (L = [] ↔ Along step SparesBlocks .boot events) ∧
      (b = none ∧ ¬ (final step .boot events).world.stuck ↔ Along step SparesBus .boot events) := by
  induction events using List.reverseRecOn with
  | nil => exact ⟨[], none, lost_boot, by simp [Along], by simp [Along, System.boot, World.boot]⟩
  | append_singleton events e ih =>
    obtain ⟨hbefore, hlast, -⟩ := (along_append events [e]).mp hc
    obtain ⟨L, b, hi, hblocks, hbus⟩ := ih hbefore
    have hsnoc (Q : System → Event → Prop) : Along step Q .boot (events ++ [e]) ↔
        Along step Q .boot events ∧ Q (final step .boot events) e :=
      (along_append events [e]).trans (and_congr_right fun _ => and_iff_left trivial)
    rw [hsnoc, hsnoc, final_append, ← hblocks, ← hbus]
    show ∃ L b, Lost L b (step (final step .boot events) e).2 ∧ _ ∧
      (b = none ∧ ¬ (step (final step .boot events) e).2.world.stuck ↔ _)
    generalize final step .boot events = S at hi hlast ⊢
    rw [step_stuck, SparesBus]
    by_cases hstops : Stops S e
    · have hfails := not_fails_of_stops hstops
      have hheld := hi.cut (fun _ hr => hr.held) hstops.2
      refine ⟨leftBlocks S.world, leftBus S.world, ?_, ?_, ?_⟩
      · obtain ⟨rfl, hidle⟩ := hstops
        exact hi.lost_stop hidle
      · rw [leftBlocks_nil_iff hheld, SparesBlocks]
        simp only [hstops, true_implies]
      · rw [leftBus_none_iff hheld]
        simp only [hstops, hfails, true_implies, or_false, not_false_eq_true, and_true]
        exact and_right_comm
    · refine ⟨L, b, hi.keep (keeps_lost L b) hlast hstops, ?_, ?_⟩
      · exact (and_iff_left fun h => absurd h hstops).symm
      · simp only [hstops, false_implies, true_and, not_or, and_assoc]

/-! ## A lost bus -/

/-- The port is taken, nothing is published, and `samples` is what has been pushed. -/
structure Dead (samples : List DspSample) (w : World) : Prop where
  bus : w.bus.isSome = true
  sensor : w.sensor = none
  samples : w.samples = samples

section Dead

variable {samples : List DspSample}

/-- No bus, no handle. -/
theorem dead_init (hd : Dead samples w) :
    platform.Careful (Dead samples) (fun _ => Dead samples) dspDht20Init w := by
  refine careful_call hd trivial fun o => ?_
  by_cases hfound : o.found = true
  · have hnew : platform.answer w .calloc o = (o.answer (some w.next),
        { w with next := w.next + 1, blocks := w.next :: w.blocks }) := if_pos hfound
    obtain ⟨p, hp⟩ := Option.isSome_iff_exists.mp hd.bus
    have hblock : Dead samples { w with next := w.next + 1, blocks := w.next :: w.blocks } :=
      ⟨hd.bus, hd.sensor, hd.samples⟩
    rw [hnew]
    refine careful_call hblock (by simp [platform, World.Allowed]) fun o => ?_
    rw [answer_busTaken (w := { w with next := w.next + 1, blocks := w.next :: w.blocks }) _ hp]
    refine careful_call hblock (by simp [platform, World.Allowed]) fun _ => ?_
    exact ⟨hd.bus, hd.sensor, hd.samples⟩
  · have hnone : platform.answer w .calloc o = (o.answer none, w) := if_neg hfound
    rw [hnone]
    exact hd

theorem unflagged_dead : Unflagged (Dead samples) := fun _ _ _ _ hd =>
  ⟨hd.bus, hd.sensor, hd.samples⟩

theorem keeps_dead : Keeps (Dead samples) (Dead samples) where
  flags := unflagged_dead
  init := fun hd => careful_applicationInit unflagged_dead (dead_init hd)
  cycle := fun {w} hd => by
    refine careful_call hd trivial fun o => ?_
    simp only [answer_sensor hd.sensor, Outcome.answer_ptr, Option.isSome_none,
      Bool.false_eq_true, if_false]
    exact hd

theorem dead_stop (hd : Dead samples w) :
    platform.Careful (Dead samples) (fun _ w => Dead samples w ∧ w.taskHandle = false)
      dspApplicationStop w := by
  have hrunning := unflagged_dead false w.ready w.shared w.taskHandle hd
  refine careful_stopOf unflagged_dead (fun _ hd => hd) hd ?_
  refine careful_call hrunning trivial fun o => ?_
  simp only [answer_sensor hrunning.sensor, Outcome.answer_ptr, Option.isSome_none,
    Bool.false_eq_true, if_false]
  exact hrunning

/-- It stays so. -/
theorem dead_run {more : List Event}
    (hi : Phase (Dead samples) (Dead samples) (Dead samples) S)
    (hc : Along step Calm S more) :
    Phase (Dead samples) (Dead samples) (Dead samples) (final step S more) := by
  induction more generalizing S with
  | nil => exact hi
  | cons e more ih =>
    refine ih ?_ hc.2
    by_cases hstops : Stops S e
    · obtain ⟨rfl, hidle⟩ := hstops
      exact Phase.stop hidle hi.orphans (dead_stop (hi.cut (fun _ hd => hd) hidle))
    · exact hi.keep keeps_dead hc.1 hstops

theorem Phase.world (hi : Phase (Dead samples) (Dead samples) (Dead samples) S) :
    Dead samples S.world := by
  cases hi with
  | resting _ _ _ hd => exact hd
  | working p _ _ _ hp => exact careful_cut hp fun _ _ hd => hd
  | stopping _ _ hmain => exact careful_cut hmain fun _ _ hd => hd.1

end Dead

/-! ## Safety -/

/-- An I2C transfer or an allocation that works, with a calibrated sensor. -/
def works : Outcome := ⟨.ok, true, [0x18], 0⟩

/-- Up to a read that has its handle at hand, and a stop that has freed it. -/
def race : List Event :=
  .start true :: List.replicate 10 (.task works) ++ .stop :: List.replicate 6 (.main works)

/-- Up to a read that has its handle at hand, a second start, and a whole stop, which
deletes the second task only. -/
def orphaned : List Event :=
  .start true :: List.replicate 10 (.task works) ++ .start true :: .stop ::
    List.replicate 11 (.main works)

/-- A transfer through a block that is not there. -/
theorem not_allowed {events : List Event} {e : Event}
    (hblocks : (final step .boot events).world.blocks = [])
    (hnext : (step (final step .boot events) e).1 = some (.i2cMasterTransmit 0 dht20Trigger)) :
    ¬ Along step CallAllowed .boot (events ++ [e]) := by
  intro h
  obtain ⟨-, hlast, -⟩ := (along_append events [e]).mp h
  have hin := (hlast _ hnext).1
  rw [hblocks] at hin
  cases hin

/-- **Nothing that is gone is touched** in any run that starts no second task and whose
stops are not disturbed by the task. With the task on the other core going on meanwhile,
or with an older task that no stop deletes, a read goes through a freed handle. -/
theorem handle_safe :
    (∀ events, Along step Calm .boot events → Along step CallAllowed .boot events) ∧
      (∃ events, Along step Single .boot events ∧ ¬ Along step CallAllowed .boot events) ∧
      ∃ events, Along step Undisturbed .boot events ∧ ¬ Along step CallAllowed .boot events := by
  refine ⟨?_, ⟨race ++ [.task works], ?_, not_allowed (by rfl) (by rfl)⟩,
    ⟨orphaned ++ [.orphan 0 works], ?_, not_allowed (by rfl) (by rfl)⟩⟩
  · intro events hc
    induction events using List.reverseRecOn with
    | nil => trivial
    | append_singleton events e ih =>
      obtain ⟨hbefore, hlast, -⟩ := (along_append events [e]).mp hc
      obtain ⟨L, b, hi, -⟩ := lost_history events hbefore
      exact (along_append events [e]).mpr ⟨ih hbefore, hi.allowed hlast.1, trivial⟩
  · exact ⟨rfl, by repeat' constructor⟩
  · repeat' constructor

/-! ## Loss -/

/-- No task, and no stop under way. -/
def AtRest (S : System) : Prop := S.Idle ∧ S.task = none

theorem Phase.rest (hi : Lost L b S) (hrest : AtRest S) : Rest L b S.world := by
  cases hi with
  | resting _ _ _ hr => exact hr
  | working p _ _ htask _ => cases htask.symm.trans hrest.2
  | stopping hbusy _ _ => exact absurd hrest.1 hbusy

/-- With the port free a start can succeed. -/
theorem revive (hr : Rest L none S.world) (hfree : ¬ S.world.stuck) (hrest : AtRest S) :
    ∃ more, Along step Calm S more ∧ (final step S more).world.sensor.isSome = true := by
  rw [Bool.not_eq_true] at hfree
  have hbus := hr.bus (.inr hfree)
  obtain ⟨hidle, htask⟩ := hrest
  obtain ⟨⟨next, blocks, bus, dev, stuck, sensor, running, ready, shared, taskHandle, samples⟩,
    task, orphans, main⟩ := S
  have hnone := hr.dev hbus
  have hsensor := hr.sensor
  simp only at hsensor hbus hnone htask hfree
  subst hsensor hbus hnone htask hfree
  cases main with
  | call c k => cases hidle
  | done a =>
    refine ⟨.start true :: List.replicate 5 (.task works), ?_, ?_⟩
    · exact ⟨⟨trivial, rfl⟩, ⟨rfl, trivial⟩, ⟨rfl, trivial⟩, ⟨rfl, trivial⟩, ⟨rfl, trivial⟩,
        ⟨rfl, trivial⟩, trivial⟩
    · simp [final, step, taskStep, System.Idle, Prog.next?, applicationInit, dspDht20Init,
        openBus, checkCalibration, works, Env.advance, platform, World.answer, Outcome.answer,
        Answer.byte, Prog.bind]

theorem dead_of_rest (hi : Lost L b S) (hrest : AtRest S) (hlost : ¬ (b = none ∧ ¬ S.world.stuck)) :
    Phase (Dead S.world.samples) (Dead S.world.samples) (Dead S.world.samples) S := by
  have hr := hi.rest hrest
  refine .resting hrest.1 hi.orphans hrest.2 ⟨?_, hr.sensor, rfl⟩
  by_cases hb : b = none
  · exact hr.stuck (not_not.mp fun hfree => hlost ⟨hb, hfree⟩)
  · have hsome := Option.isSome_iff_ne_none.mpr hb
    rw [hr.bus (.inl hsome)]
    exact hsome

/-- **What is lost.** After any such run that has come to rest: memory is lost if and only
if some stop found a block that was not published yet; the sensor can be had again if and
only if no stop found a bus that was not, and no deletion of a bus failed; and otherwise
no sample is pushed any more, whatever follows. -/
theorem sensor_lost_iff (events : List Event) (hc : Along step Calm .boot events)
    (hrest : AtRest (final step .boot events)) :
    ((final step .boot events).world.blocks = [] ↔ Along step SparesBlocks .boot events) ∧
    ((∃ more, Along step Calm (final step .boot events) more ∧
        (final step .boot (events ++ more)).world.sensor.isSome = true) ↔
      Along step SparesBus .boot events) ∧
    (¬ Along step SparesBus .boot events → ∀ more,
      Along step Calm (final step .boot events) more →
      (final step .boot (events ++ more)).world.samples =
        (final step .boot events).world.samples) := by
  obtain ⟨L, b, hi, hblocks, hbus⟩ := lost_history events hc
  have hr := hi.rest hrest
  refine ⟨by rw [hr.blocks, hblocks], ?_, ?_⟩
  · rw [← hbus]
    constructor
    · rintro ⟨more, hmore, hsome⟩
      by_contra hlost
      have hdead := (dead_run (dead_of_rest hi hrest hlost) hmore).world
      rw [final_append, hdead.sensor] at hsome
      cases hsome
    · rintro ⟨rfl, hfree⟩
      obtain ⟨more, hmore, hsome⟩ := revive hr hfree hrest
      exact ⟨more, hmore, by rwa [final_append]⟩
  · intro hlost more hmore
    rw [← hbus] at hlost
    rw [final_append]
    exact (dead_run (dead_of_rest hi hrest hlost) hmore).world.samples

/-- The task is deleted right after it has got the bus. -/
def cutShort : List Event :=
  .start true :: List.replicate 2 (.task works) ++ .stop :: List.replicate 6 (.main works)

theorem cutShort_lost : ¬ ∃ more, Along step Calm (final step .boot cutShort) more ∧
    (final step .boot (cutShort ++ more)).world.sensor.isSome = true := by
  have hc : Along step Calm .boot cutShort := by
    exact ⟨⟨trivial, rfl⟩, ⟨rfl, trivial⟩, ⟨rfl, trivial⟩, ⟨trivial, trivial⟩, ⟨trivial, trivial⟩,
      ⟨trivial, trivial⟩, ⟨trivial, trivial⟩, ⟨trivial, trivial⟩, ⟨trivial, trivial⟩,
      ⟨trivial, trivial⟩, trivial⟩
  have hrest : AtRest (final step .boot cutShort) := ⟨by rfl, by rfl⟩
  rw [(sensor_lost_iff cutShort hc hrest).2.1]
  intro hspares
  have hbus := hspares.2.2.2.1.1 ⟨rfl, rfl⟩ rfl
  cases hbus

end DspEmbedded.Audit.SensorLife
