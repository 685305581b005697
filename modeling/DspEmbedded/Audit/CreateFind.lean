import DspEmbedded.Lib.CutKeys
import DspEmbedded.Model.Board
import DspEmbedded.Audit.ImageIds

/-!
# What create was given, and what find returns

Create copies 63 bytes of an id, find compares its whole argument with them. The
tables are followed over runs of the two modules with save, restore and reboot
between the calls, next to the strings that create was given. While these have at
most 63 bytes, each is found again and told apart from the others; a longer one is
never found.
-/
namespace DspEmbedded.Audit.CreateFind

open Lib.CString Lib.CutKeys Lib.Runs Lib.SlotTable Model.Esp Model.RtcState
open Audit.ImageIds Audit.RestoreResult
open Model.Board (Device Endpoint Action boot serve sleepCycle)
open Model.Neg (NegModule NegEntry NegEvent dspNegPidLen dspNegInit dspNegDeinit dspNegCreate
  dspNegApply dspNegFindByCpid dspNegGetConsumerPid dspNegCountActive offersProcessId)
open Model.Xfer (XferModule XferEntry XferEvent dspXferPidLen dspXferInit dspXferDeinit
  dspXferSetNotify dspXferCreate dspXferApply dspXferFindByPid dspXferGetProcessId
  dspXferCountActive startProcessId)

variable {negMax xferMax : Nat}

/-! ## Runs -/

/-- The functions that change the tables or the image. Slots are loaded by restore
only, and a reboot clears all memory but the image. -/
inductive Call where
  | negInit
  | negDeinit
  | negCreate (consumerPid providerPid : Option CStr)
  | negApply (idx : Int) (event : NegEvent)
  | xferInit
  | xferDeinit
  | xferSetNotify (fn : Bool)
  | xferCreate (processId : Option CStr)
  | xferApply (idx : Int) (event : XferEvent)
  | save
  | restore
  | clear
  | reboot

/-- A call answers with the index that create returns. -/
def call (d : Device negMax xferMax) : Call → Option Int × Device negMax xferMax
  | .negInit => (none, { d with neg := (dspNegInit d.neg).2 })
  | .negDeinit => (none, { d with neg := dspNegDeinit d.neg })
  | .negCreate consumerPid providerPid =>
    let (idx, neg) := dspNegCreate d.neg consumerPid providerPid
    (some idx, { d with neg })
  | .negApply idx event => (none, { d with neg := (dspNegApply d.neg idx event).2 })
  | .xferInit => (none, { d with xfer := (dspXferInit d.xfer).2 })
  | .xferDeinit => (none, { d with xfer := dspXferDeinit d.xfer })
  | .xferSetNotify fn => (none, { d with xfer := dspXferSetNotify d.xfer fn })
  | .xferCreate processId =>
    let (idx, xfer) := dspXferCreate d.xfer processId
    (some idx, { d with xfer })
  | .xferApply idx event => (none, { d with xfer := (dspXferApply d.xfer idx event).2 })
  | .save => (none, { d with store := (dspRtcStateSave d.neg d.xfer d.store).2 })
  | .restore =>
    let (_, neg, xfer) := dspRtcStateRestore d.store d.neg d.xfer
    (none, { d with neg, xfer })
  | .clear => (none, { d with store := dspRtcStateClear d.store })
  | .reboot => (none, { d with neg := .boot negMax, xfer := .boot xferMax })

/-- The string that the process in a slot was created with. -/
abbrev Given := Int → Option CStr

/-- A device with the strings behind its slots and behind those of its image. -/
structure Session (negMax xferMax : Nat) where
  device : Device negMax xferMax
  neg : Given
  xfer : Given
  savedNeg : Given
  savedXfer : Given

/-- Power-on. The image is static memory too, and zero. -/
def cold (negMax xferMax : Nat) : Session negMax xferMax where
  device := ⟨.boot negMax, .boot xferMax, .zero negMax xferMax⟩
  neg := fun _ => none
  xfer := fun _ => none
  savedNeg := fun _ => none
  savedXfer := fun _ => none

/-- What a call does to the strings. A restored process is the one that was saved. -/
def note (s : Session negMax xferMax) : Call → Session negMax xferMax
  | .negInit => if s.device.neg.initialized then s else { s with neg := fun _ => none }
  | .negDeinit => { s with neg := fun _ => none }
  | .negCreate consumerPid providerPid =>
    let (idx, _) := dspNegCreate s.device.neg consumerPid providerPid
    if 0 ≤ idx then { s with neg := Function.update s.neg idx consumerPid } else s
  | .xferInit => if s.device.xfer.initialized then s else { s with xfer := fun _ => none }
  | .xferDeinit => { s with xfer := fun _ => none }
  | .xferCreate processId =>
    let (idx, _) := dspXferCreate s.device.xfer processId
    if 0 ≤ idx then { s with xfer := Function.update s.xfer idx processId } else s
  | .save => { s with savedNeg := s.neg, savedXfer := s.xfer }
  | .restore =>
    let (err, _) := dspRtcStateRestore s.device.store s.device.neg s.device.xfer
    if err = .ok then
      { s with
        neg := if s.device.neg.initialized then overlay s.savedNeg s.neg else s.neg
        xfer := if s.device.xfer.initialized then overlay s.savedXfer s.xfer else s.xfer }
    else s
  | .clear => { s with savedNeg := fun _ => none, savedXfer := fun _ => none }
  | .reboot => { s with neg := fun _ => none, xfer := fun _ => none }
  | _ => s

def perform (s : Session negMax xferMax) (c : Call) : Option Int × Session negMax xferMax :=
  let (answer, device) := call s.device c
  (answer, { note s c with device })

/-- The strings are only written down: the device runs as it does without them. -/
theorem device_final (s : Session negMax xferMax) (calls : List Call) :
    (final perform s calls).device = final call s.device calls := by
  have hstep : ∀ (s : Session negMax xferMax) (d : Device negMax xferMax) (c : Call),
      s.device = d → (perform s c).1 = (call d c).1 ∧ (perform s c).2.device = (call d c).2 := by
    rintro s d c rfl
    exact ⟨rfl, rfl⟩
  exact (trace_simulates hstep calls rfl).2

/-! ## Agreement -/

/-- The slot passes the test that the search makes. -/
def NegMatches (m : NegModule negMax) (idx : Int) (cpid : CStr) : Prop :=
  ∃ e, m.table.get? idx = some e ∧ e.active = true ∧
    strncmp e.consumerPid.bytes cpid.bytes dspNegPidLen = 0

def XferMatches (m : XferModule xferMax) (idx : Int) (pid : CStr) : Prop :=
  ∃ e, m.table.get? idx = some e ∧ e.active = true ∧
    strncmp e.processId.bytes pid.bytes dspXferPidLen = 0

/-- The search returns a slot created with exactly this string. -/
def NegFound (s : Session negMax xferMax) (cpid : CStr) : Prop :=
  s.neg (dspNegFindByCpid s.device.neg (some cpid)) = some cpid

def XferFound (s : Session negMax xferMax) (pid : CStr) : Prop :=
  s.xfer (dspXferFindByPid s.device.xfer (some pid)) = some pid

/-- No argument of the search matches two slots created with different strings. -/
def NegApart (s : Session negMax xferMax) : Prop :=
  ∀ i j a b, s.neg i = some a → s.neg j = some b → a ≠ b →
    ∀ q, NegMatches s.device.neg i q → ¬ NegMatches s.device.neg j q

def XferApart (s : Session negMax xferMax) : Prop :=
  ∀ i j a b, s.xfer i = some a → s.xfer j = some b → a ≠ b →
    ∀ q, XferMatches s.device.xfer i q → ¬ XferMatches s.device.xfer j q

/-- After the call, a create that returned an index is found by its string, and the
slots are told apart. -/
structure Agrees (s : Session negMax xferMax) (c : Call) : Prop where
  negFound : ∀ cpid ppid idx, c = .negCreate (some cpid) ppid → (perform s c).1 = some idx →
    0 ≤ idx → NegFound (perform s c).2 cpid
  xferFound : ∀ pid idx, c = .xferCreate (some pid) → (perform s c).1 = some idx →
    0 ≤ idx → XferFound (perform s c).2 pid
  negApart : NegApart (perform s c).2
  xferApart : XferApart (perform s c).2

/-- A create is given a string that fits its field, or finds no free slot. -/
def FitsOrFull (d : Device negMax xferMax) : Call → Prop
  | .negCreate (some cpid) (some _) =>
    cpid.length < dspNegPidLen ∨ dspNegCountActive d.neg = negMax
  | .xferCreate (some pid) => pid.length < dspXferPidLen ∨ dspXferCountActive d.xfer = xferMax
  | _ => True

/-! ## What the strings say about the tables -/

/-- Slots and image hold the strings cut to 63 bytes. -/
structure NegRecorded (neg : NegModule negMax) (store : RtcStore negMax xferMax)
    (given saved : Given) : Prop where
  canonical : ∀ e ∈ neg.table.slots, e.Canonical
  slots : Stores (CStr.take (dspNegPidLen - 1)) (dspNegGetConsumerPid neg) given
  image : Stores (CStr.take (dspNegPidLen - 1)) (imageCpid store) saved

structure XferRecorded (xfer : XferModule xferMax) (store : RtcStore negMax xferMax)
    (given saved : Given) : Prop where
  canonical : ∀ e ∈ xfer.table.slots, e.Canonical
  slots : Stores (CStr.take (dspXferPidLen - 1)) (dspXferGetProcessId xfer) given
  image : Stores (CStr.take (dspXferPidLen - 1)) (imagePid store) saved

structure Recorded (s : Session negMax xferMax) : Prop where
  neg : NegRecorded s.device.neg s.device.store s.neg s.savedNeg
  xfer : XferRecorded s.device.xfer s.device.store s.xfer s.savedXfer

section Recorded

variable {store : RtcStore negMax xferMax} {given saved : Given}

/-- A table just cleared stands for no strings. -/
theorem negRecorded_cleared {neg : NegModule negMax} (ht : neg.table = Table.fill negMax .zero)
    (himage : Stores (CStr.take (dspNegPidLen - 1)) (imageCpid store) saved) :
    NegRecorded neg store (fun _ => none) saved where
  canonical := by
    rw [ht]
    exact (Model.Neg.wellFormed_fill true).canonical
  slots := by
    rw [Model.Neg.getConsumerPid_eq, ht, keyAt_fill rfl]
    exact stores_none
  image := himage

theorem xferRecorded_cleared {xfer : XferModule xferMax}
    (ht : xfer.table = Table.fill xferMax .zero)
    (himage : Stores (CStr.take (dspXferPidLen - 1)) (imagePid store) saved) :
    XferRecorded xfer store (fun _ => none) saved where
  canonical := by
    rw [ht]
    exact (Model.Xfer.wellFormed_fill true true []).canonical
  slots := by
    rw [Model.Xfer.getProcessId_eq, ht, keyAt_fill rfl]
    exact stores_none
  image := himage

/-- One slot written for a new string. -/
theorem NegRecorded.created {neg : NegModule negMax} (h : NegRecorded neg store given saved)
    {i : Int} {old : NegEntry} (hget : neg.table.get? i = some old) (cpid ppid : CStr) :
    NegRecorded { neg with table := neg.table.set i (Model.Neg.newEntry cpid ppid) } store
      (Function.update given i (some cpid)) saved where
  canonical := Table.forall_mem_set h.canonical (Model.Neg.newEntry_canonical _ _ .requested)
  slots := by
    rw [Model.Neg.getConsumerPid_eq, keyAt_set hget rfl, Model.Neg.newEntry_cpid,
      ← Model.Neg.getConsumerPid_eq]
    exact h.slots.update i cpid
  image := h.image

theorem XferRecorded.created {xfer : XferModule xferMax}
    (h : XferRecorded xfer store given saved) {i : Int} {old : XferEntry}
    (hget : xfer.table.get? i = some old) (pid : CStr) :
    XferRecorded { xfer with table := xfer.table.set i (Model.Xfer.newEntry pid) } store
      (Function.update given i (some pid)) saved where
  canonical := Table.forall_mem_set h.canonical (Model.Xfer.newEntry_canonical _ .initial)
  slots := by
    rw [Model.Xfer.getProcessId_eq, keyAt_set hget rfl, Model.Xfer.newEntry_pid,
      ← Model.Xfer.getProcessId_eq]
    exact h.slots.update i pid
  image := h.image

theorem NegRecorded.restored {neg : NegModule negMax} (h : NegRecorded neg store given saved) :
    NegRecorded ((List.range negMax).foldl (restoreNegSlot store) neg) store
      (if neg.initialized then overlay saved given else given) saved where
  canonical := restoreNeg_canonical store h.canonical _
  slots := by
    cases hi : neg.initialized with
    | false =>
      rw [restoreNeg_uninitialized store hi]
      exact h.slots
    | true =>
      rw [getConsumerPid_restore store hi]
      exact h.image.overlay h.slots
  image := h.image

theorem XferRecorded.restored {xfer : XferModule xferMax}
    (h : XferRecorded xfer store given saved) :
    XferRecorded ((List.range xferMax).foldl (restoreXferSlot store) xfer) store
      (if xfer.initialized then overlay saved given else given) saved where
  canonical := restoreXfer_canonical store h.canonical _
  slots := by
    cases hi : xfer.initialized with
    | false =>
      rw [restoreXfer_uninitialized store hi]
      exact h.slots
    | true =>
      rw [getProcessId_restore store hi]
      exact h.image.overlay h.slots
  image := h.image

end Recorded

theorem recorded_cold : Recorded (cold negMax xferMax) where
  neg := negRecorded_cleared rfl (by rw [cold, imageCpid_zero]; exact stores_none)
  xfer := xferRecorded_cleared rfl (by rw [cold, imagePid_zero]; exact stores_none)

/-! ## One lemma for each kind of call -/

/-- Where a slot is free, the condition is about the string. -/
theorem negFits_iff {d : Device negMax xferMax} {i : Int} {old : NegEntry}
    (hget : d.neg.table.get? i = some old) (ha : old.active = false) (cpid ppid : CStr) :
    FitsOrFull d (.negCreate (some cpid) (some ppid)) ↔ cpid.length < dspNegPidLen := by
  refine or_iff_left fun hfull => ?_
  have hact := Model.Neg.countActive_full_iff.mp hfull old (Table.mem_of_get? hget)
  exact absurd (ha.symm.trans hact) (by decide)

theorem xferFits_iff {d : Device negMax xferMax} {i : Int} {old : XferEntry}
    (hget : d.xfer.table.get? i = some old) (ha : old.active = false) (pid : CStr) :
    FitsOrFull d (.xferCreate (some pid)) ↔ pid.length < dspXferPidLen := by
  refine or_iff_left fun hfull => ?_
  have hact := Model.Xfer.countActive_full_iff.mp hfull old (Table.mem_of_get? hget)
  exact absurd (ha.symm.trans hact) (by decide)

/-- Create refuses, with nothing to ask of its string, or writes to a slot. -/
theorem perform_negCreate (s : Session negMax xferMax) (cpid ppid : Option CStr) :
    (FitsOrFull s.device (.negCreate cpid ppid) ∧
      perform s (.negCreate cpid ppid) = (some (-1), s)) ∨
    ∃ (c p : CStr) (i : Nat) (old : NegEntry), cpid = some c ∧ ppid = some p ∧
      s.device.neg.table.get? i = some old ∧
      (FitsOrFull s.device (.negCreate cpid ppid) ↔ c.length < dspNegPidLen) ∧
      perform s (.negCreate cpid ppid) = (some (i : Int), { s with
        device := { s.device with neg := { s.device.neg with
          table := s.device.neg.table.set i (Model.Neg.newEntry c p) } }
        neg := Function.update s.neg i (some c) }) := by
  rcases cpid with _ | cpid
  · exact .inl ⟨trivial, rfl⟩
  rcases ppid with _ | ppid
  · exact .inl ⟨trivial, rfl⟩
  rcases Model.Neg.create_slot s.device.neg cpid ppid with ⟨hfull, heq⟩ | ⟨i, old, hget, ha, heq⟩
  · left
    refine ⟨.inr (Model.Neg.countActive_full_iff.mpr hfull), ?_⟩
    simp only [perform, call, note, heq]
    rfl
  · right
    refine ⟨cpid, ppid, i, old, rfl, rfl, hget, negFits_iff hget ha cpid ppid, ?_⟩
    simp only [perform, call, note, heq]
    rw [if_pos (by omega)]

theorem perform_xferCreate (s : Session negMax xferMax) (pid : Option CStr) :
    (FitsOrFull s.device (.xferCreate pid) ∧ perform s (.xferCreate pid) = (some (-1), s)) ∨
    ∃ (p : CStr) (i : Nat) (old : XferEntry), pid = some p ∧
      s.device.xfer.table.get? i = some old ∧
      (FitsOrFull s.device (.xferCreate pid) ↔ p.length < dspXferPidLen) ∧
      perform s (.xferCreate pid) = (some (i : Int), { s with
        device := { s.device with xfer := { s.device.xfer with
          table := s.device.xfer.table.set i (Model.Xfer.newEntry p) } }
        xfer := Function.update s.xfer i (some p) }) := by
  rcases pid with _ | pid
  · exact .inl ⟨trivial, rfl⟩
  rcases Model.Xfer.create_slot s.device.xfer pid with ⟨hfull, heq⟩ | ⟨i, old, hget, ha, heq⟩
  · left
    refine ⟨.inr (Model.Xfer.countActive_full_iff.mpr hfull), ?_⟩
    simp only [perform, call, note, heq]
    rfl
  · right
    refine ⟨pid, i, old, rfl, hget, xferFits_iff hget ha pid, ?_⟩
    simp only [perform, call, note, heq]
    rw [if_pos (by omega)]

theorem perform_negInit (s : Session negMax xferMax) :
    perform s .negInit = (none, s) ∨
    perform s .negInit = (none, { s with
      device := { s.device with neg := ⟨Table.fill negMax .zero, true⟩ }
      neg := fun _ => none }) := by
  cases hi : s.device.neg.initialized with
  | true => exact .inl (by simp [perform, call, note, dspNegInit, hi])
  | false => exact .inr (by simp [perform, call, note, dspNegInit, hi])

theorem perform_xferInit (s : Session negMax xferMax) :
    perform s .xferInit = (none, s) ∨
    perform s .xferInit = (none, { s with
      device := { s.device with xfer := { s.device.xfer with
        table := Table.fill xferMax .zero, initialized := true } }
      xfer := fun _ => none }) := by
  cases hi : s.device.xfer.initialized with
  | true => exact .inl (by simp [perform, call, note, dspXferInit, hi])
  | false => exact .inr (by simp [perform, call, note, dspXferInit, hi])

/-- A restore does nothing, or overlays every initialized table. -/
theorem perform_restore (s : Session negMax xferMax) :
    perform s .restore = (none, s) ∨
    perform s .restore = (none, { s with
      device := { s.device with
        neg := (List.range negMax).foldl (restoreNegSlot s.device.store) s.device.neg
        xfer := (List.range xferMax).foldl (restoreXferSlot s.device.store) s.device.xfer }
      neg := if s.device.neg.initialized then overlay s.savedNeg s.neg else s.neg
      xfer := if s.device.xfer.initialized then overlay s.savedXfer s.xfer else s.xfer }) := by
  by_cases hbad : s.device.store.magic ≠ dspRtcMagic ∨
      computeCrc32 s.device.store ≠ s.device.store.crc32
  · left
    obtain ⟨herr, hsame⟩ := refused hbad s.device.neg s.device.xfer
    simp only [perform, call, note, hsame]
    rw [if_neg herr]
  · right
    simp only [not_or, not_not] at hbad
    simp only [perform, call, note, accepted hbad.1 hbad.2]
    rfl

/-! ## The strings are right in every run -/

theorem perform_recorded {s : Session negMax xferMax} (h : Recorded s) (c : Call) :
    Recorded (perform s c).2 := by
  cases c with
  | negInit =>
    rcases perform_negInit s with heq | heq
    · rw [heq]
      exact h
    · rw [heq]
      exact ⟨negRecorded_cleared rfl h.neg.image, h.xfer⟩
  | negDeinit => exact ⟨negRecorded_cleared rfl h.neg.image, h.xfer⟩
  | negCreate cpid ppid =>
    rcases perform_negCreate s cpid ppid with ⟨-, heq⟩ | ⟨c, p, i, old, -, -, hget, -, heq⟩
    · rw [heq]
      exact h
    · rw [heq]
      exact ⟨h.neg.created hget c p, h.xfer⟩
  | negApply idx event =>
    refine ⟨⟨(Model.Neg.apply_canonical h.neg.canonical idx event).1, ?_, h.neg.image⟩, h.xfer⟩
    simp only [perform, call, note, Model.Neg.getConsumerPid_apply]
    exact h.neg.slots
  | xferInit =>
    rcases perform_xferInit s with heq | heq
    · rw [heq]
      exact h
    · rw [heq]
      exact ⟨h.neg, xferRecorded_cleared rfl h.xfer.image⟩
  | xferDeinit => exact ⟨h.neg, xferRecorded_cleared rfl h.xfer.image⟩
  | xferSetNotify fn => exact ⟨h.neg, h.xfer.canonical, h.xfer.slots, h.xfer.image⟩
  | xferCreate pid =>
    rcases perform_xferCreate s pid with ⟨-, heq⟩ | ⟨p, i, old, -, hget, -, heq⟩
    · rw [heq]
      exact h
    · rw [heq]
      exact ⟨h.neg, h.xfer.created hget p⟩
  | xferApply idx event =>
    refine ⟨h.neg, (Model.Xfer.apply_canonical h.xfer.canonical idx event).1, ?_, h.xfer.image⟩
    simp only [perform, call, note, Model.Xfer.getProcessId_apply]
    exact h.xfer.slots
  | save =>
    refine ⟨⟨h.neg.canonical, h.neg.slots, ?_⟩, h.xfer.canonical, h.xfer.slots, ?_⟩
    · simp only [perform, call, note, imageCpid_save h.neg.canonical]
      exact h.neg.slots
    · simp only [perform, call, note, imagePid_save h.xfer.canonical]
      exact h.xfer.slots
  | restore =>
    rcases perform_restore s with heq | heq
    · rw [heq]
      exact h
    · rw [heq]
      exact ⟨h.neg.restored, h.xfer.restored⟩
  | clear =>
    refine ⟨⟨h.neg.canonical, h.neg.slots, ?_⟩, h.xfer.canonical, h.xfer.slots, ?_⟩
    · simp only [perform, call, note, dspRtcStateClear, imageCpid_zero]
      exact stores_none
    · simp only [perform, call, note, dspRtcStateClear, imagePid_zero]
      exact stores_none
  | reboot => exact ⟨negRecorded_cleared rfl h.neg.image, xferRecorded_cleared rfl h.xfer.image⟩

/-! ## Strings that were not cut -/

/-- Every string behind the slots and the image fits its field. -/
structure Uncut (s : Session negMax xferMax) : Prop where
  neg : Whole (CStr.take (dspNegPidLen - 1)) s.neg
  xfer : Whole (CStr.take (dspXferPidLen - 1)) s.xfer
  savedNeg : Whole (CStr.take (dspNegPidLen - 1)) s.savedNeg
  savedXfer : Whole (CStr.take (dspXferPidLen - 1)) s.savedXfer

theorem uncut_cold : Uncut (cold negMax xferMax) := ⟨whole_none, whole_none, whole_none, whole_none⟩

theorem cpid_uncut_iff {cpid : CStr} :
    cpid.take (dspNegPidLen - 1) = cpid ↔ cpid.length < dspNegPidLen := by
  rw [CStr.take_eq_self_iff]
  exact Nat.le_sub_one_iff_lt (by decide)

theorem pid_uncut_iff {pid : CStr} :
    pid.take (dspXferPidLen - 1) = pid ↔ pid.length < dspXferPidLen := by
  rw [CStr.take_eq_self_iff]
  exact Nat.le_sub_one_iff_lt (by decide)

/-- A call that meets the condition brings in no string that is cut. -/
theorem perform_uncut {s : Session negMax xferMax} (h : Uncut s) {c : Call}
    (hfit : FitsOrFull s.device c) : Uncut (perform s c).2 := by
  cases c with
  | negInit =>
    rcases perform_negInit s with heq | heq
    · rw [heq]
      exact h
    · rw [heq]
      exact { h with neg := whole_none }
  | negCreate cpid ppid =>
    rcases perform_negCreate s cpid ppid with ⟨-, heq⟩ | ⟨c, p, i, old, -, -, -, hcond, heq⟩
    · rw [heq]
      exact h
    · rw [heq]
      exact { h with neg := h.neg.update i (cpid_uncut_iff.mpr (hcond.mp hfit)) }
  | xferInit =>
    rcases perform_xferInit s with heq | heq
    · rw [heq]
      exact h
    · rw [heq]
      exact { h with xfer := whole_none }
  | xferCreate pid =>
    rcases perform_xferCreate s pid with ⟨-, heq⟩ | ⟨p, i, old, -, -, hcond, heq⟩
    · rw [heq]
      exact h
    · rw [heq]
      exact { h with xfer := h.xfer.update i (pid_uncut_iff.mpr (hcond.mp hfit)) }
  | restore =>
    rcases perform_restore s with heq | heq
    · rw [heq]
      exact h
    · rw [heq]
      refine ⟨?_, ?_, h.savedNeg, h.savedXfer⟩
      · simp only
        split_ifs
        · exact h.savedNeg.overlay h.neg
        · exact h.neg
      · simp only
        split_ifs
        · exact h.savedXfer.overlay h.xfer
        · exact h.xfer
  | negDeinit => exact ⟨whole_none, h.xfer, h.savedNeg, h.savedXfer⟩
  | negApply idx event => exact ⟨h.neg, h.xfer, h.savedNeg, h.savedXfer⟩
  | xferDeinit => exact ⟨h.neg, whole_none, h.savedNeg, h.savedXfer⟩
  | xferSetNotify fn => exact ⟨h.neg, h.xfer, h.savedNeg, h.savedXfer⟩
  | xferApply idx event => exact ⟨h.neg, h.xfer, h.savedNeg, h.savedXfer⟩
  | save => exact ⟨h.neg, h.xfer, h.neg, h.xfer⟩
  | clear => exact ⟨h.neg, h.xfer, whole_none, whole_none⟩
  | reboot => exact ⟨whole_none, whole_none, h.savedNeg, h.savedXfer⟩

/-! ## Create and find -/

/-- The test of the search is whether the slot holds the string. -/
theorem negMatches_iff {m : NegModule negMax} (hc : ∀ e ∈ m.table.slots, e.Canonical) {i : Int}
    {cpid : CStr} : NegMatches m i cpid ↔ dspNegGetConsumerPid m i = some cpid := by
  rw [Model.Neg.getConsumerPid_eq, keyAt_eq_some_iff]
  refine exists_congr fun e => and_congr_right fun hget => and_congr_right fun _ => ?_
  exact Model.Neg.matches_iff (hc e (Table.mem_of_get? hget)) cpid

theorem xferMatches_iff {m : XferModule xferMax} (hc : ∀ e ∈ m.table.slots, e.Canonical) {i : Int}
    {pid : CStr} : XferMatches m i pid ↔ dspXferGetProcessId m i = some pid := by
  rw [Model.Xfer.getProcessId_eq, keyAt_eq_some_iff]
  refine exists_congr fun e => and_congr_right fun hget => and_congr_right fun _ => ?_
  exact Model.Xfer.matches_iff (hc e (Table.mem_of_get? hget)) pid

/-- While no string was cut, every one behind a slot is found. -/
theorem negFound_of_uncut {s : Session negMax xferMax} (hr : Recorded s) (hu : Uncut s) {i : Int}
    {cpid : CStr} (h : s.neg i = some cpid) : NegFound s cpid :=
  given_find hr.neg.slots (Model.Neg.findByCpid_finds hr.neg.canonical) hu.neg h

theorem xferFound_of_uncut {s : Session negMax xferMax} (hr : Recorded s) (hu : Uncut s) {i : Int}
    {pid : CStr} (h : s.xfer i = some pid) : XferFound s pid :=
  given_find hr.xfer.slots (Model.Xfer.findByPid_finds hr.xfer.canonical) hu.xfer h

/-- A string that the field cuts is never found, whatever the other slots hold. -/
theorem not_negFound_of_long {s : Session negMax xferMax} (hr : Recorded s) {cpid : CStr}
    (hlong : ¬ cpid.length < dspNegPidLen) : ¬ NegFound s cpid :=
  given_find_ne hr.neg.slots (Model.Neg.findByCpid_finds hr.neg.canonical)
    (mt cpid_uncut_iff.mp hlong)

theorem not_xferFound_of_long {s : Session negMax xferMax} (hr : Recorded s) {pid : CStr}
    (hlong : ¬ pid.length < dspXferPidLen) : ¬ XferFound s pid :=
  given_find_ne hr.xfer.slots (Model.Xfer.findByPid_finds hr.xfer.canonical)
    (mt pid_uncut_iff.mp hlong)

theorem negApart_of_uncut {s : Session negMax xferMax} (hr : Recorded s) (hu : Uncut s) :
    NegApart s := by
  intro i j a b hi hj hne q
  rw [negMatches_iff hr.neg.canonical, negMatches_iff hr.neg.canonical]
  exact matches_apart hr.neg.slots hu.neg hi hj hne

theorem xferApart_of_uncut {s : Session negMax xferMax} (hr : Recorded s) (hu : Uncut s) :
    XferApart s := by
  intro i j a b hi hj hne q
  rw [xferMatches_iff hr.xfer.canonical, xferMatches_iff hr.xfer.canonical]
  exact matches_apart hr.xfer.slots hu.xfer hi hj hne

/-- What a create that returned an index has written down. -/
theorem neg_created {s : Session negMax xferMax} {cpid ppid : Option CStr} {idx : Int}
    (h : (perform s (.negCreate cpid ppid)).1 = some idx) (hidx : 0 ≤ idx) :
    (perform s (.negCreate cpid ppid)).2.neg idx = cpid := by
  rcases perform_negCreate s cpid ppid with ⟨-, heq⟩ | ⟨c, p, i, old, rfl, rfl, -, -, heq⟩
  · rw [heq] at h
    obtain rfl := Option.some.inj h
    omega
  · rw [heq] at h ⊢
    obtain rfl := Option.some.inj h
    exact Function.update_self _ _ _

theorem xfer_created {s : Session negMax xferMax} {pid : Option CStr} {idx : Int}
    (h : (perform s (.xferCreate pid)).1 = some idx) (hidx : 0 ≤ idx) :
    (perform s (.xferCreate pid)).2.xfer idx = pid := by
  rcases perform_xferCreate s pid with ⟨-, heq⟩ | ⟨p, i, old, rfl, -, -, heq⟩
  · rw [heq] at h
    obtain rfl := Option.some.inj h
    omega
  · rw [heq] at h ⊢
    obtain rfl := Option.some.inj h
    exact Function.update_self _ _ _

theorem agrees_of_uncut {s : Session negMax xferMax} {c : Call} (hr : Recorded (perform s c).2)
    (hu : Uncut (perform s c).2) : Agrees s c where
  negFound := by
    rintro cpid ppid idx rfl h hidx
    exact negFound_of_uncut hr hu (neg_created h hidx)
  xferFound := by
    rintro pid idx rfl h hidx
    exact xferFound_of_uncut hr hu (xfer_created h hidx)
  negApart := negApart_of_uncut hr hu
  xferApart := xferApart_of_uncut hr hu

/-- A create that took a slot for a string that was cut shows at once. -/
theorem fitsOrFull_of_agrees {s : Session negMax xferMax} {c : Call} (hr : Recorded s)
    (h : Agrees s c) : FitsOrFull s.device c := by
  have hr' := perform_recorded hr c
  cases c with
  | negCreate cpid ppid =>
    rcases perform_negCreate s cpid ppid with ⟨hfit, -⟩ |
      ⟨c, p, i, old, rfl, rfl, -, hcond, heq⟩
    · exact hfit
    · rw [hcond]
      by_contra hlong
      exact not_negFound_of_long hr' hlong
        (h.negFound c (some p) i rfl (by rw [heq]) (by omega))
  | xferCreate pid =>
    rcases perform_xferCreate s pid with ⟨hfit, -⟩ | ⟨p, i, old, rfl, -, hcond, heq⟩
    · exact hfit
    · rw [hcond]
      by_contra hlong
      exact not_xferFound_of_long hr' hlong (h.xferFound p i rfl (by rw [heq]) (by omega))
  | _ => trivial

theorem agrees_iff {s : Session negMax xferMax} (hr : Recorded s) (hu : Uncut s) (c : Call) :
    Agrees s c ↔ FitsOrFull s.device c := by
  constructor
  · exact fitsOrFull_of_agrees hr
  · intro hfit
    exact agrees_of_uncut (perform_recorded hr c) (perform_uncut hu hfit)

theorem along_agrees_iff {s : Session negMax xferMax} (hr : Recorded s) (hu : Uncut s)
    (calls : List Call) :
    Along perform Agrees s calls ↔ Along perform (fun s c => FitsOrFull s.device c) s calls := by
  have hkeep : ∀ (s : Session negMax xferMax) (c : Call), Recorded s ∧ Uncut s →
      FitsOrFull s.device c → Recorded (perform s c).2 ∧ Uncut (perform s c).2 :=
    fun s c h hfit => ⟨perform_recorded h.1 c, perform_uncut h.2 hfit⟩
  exact along_iff hkeep (fun s c h => agrees_iff h.1 h.2 c) calls ⟨hr, hu⟩

/-- **Create and find.** From power-on they agree in every state of a run exactly
when each create of the run is given an id of at most 63 bytes or finds its table
full. -/
theorem create_find_iff (negMax xferMax : Nat) (calls : List Call) :
    Along perform Agrees (cold negMax xferMax) calls ↔
      Along perform (fun s c => FitsOrFull s.device c) (cold negMax xferMax) calls :=
  along_agrees_iff recorded_cold uncut_cold calls

/-- `n` letters a. -/
def letters (n : Nat) : CStr := ⟨List.replicate n 97, by simp⟩

/-- A boot with ids of 64 and 65 letters. -/
def longIds : List Call :=
  [.negInit, .negCreate (some (letters 64)) (some (CStr.lit "urn:p")),
    .negCreate (some (letters 65)) (some (CStr.lit "urn:p")),
    .xferInit, .xferCreate (some (letters 64))]

/-- Every create returns an index and no find returns it; the two negotiations are
stored under the same id. -/
theorem long_ids_counterexample :
    (trace perform (cold 4 2) longIds).map Prod.snd = [none, some 0, some 1, none, some 0] ∧
      dspNegFindByCpid (final perform (cold 4 2) longIds).device.neg (some (letters 64)) = -1 ∧
      dspXferFindByPid (final perform (cold 4 2) longIds).device.xfer (some (letters 64)) = -1 ∧
      dspNegGetConsumerPid (final perform (cold 4 2) longIds).device.neg 0 =
        dspNegGetConsumerPid (final perform (cold 4 2) longIds).device.neg 1 ∧
      ¬ Along perform Agrees (cold 4 2) longIds := by
  refine ⟨by decide +kernel, by decide +kernel, by decide +kernel, by decide +kernel, ?_⟩
  intro h
  have hfound := h.2.1.negFound (letters 64) (some (CStr.lit "urn:p")) 0 rfl
    (by decide +kernel) (by decide)
  exact absurd hfound (by unfold NegFound; decide +kernel)

/-! ## Requests and sleep cycles -/

/-- `d'` comes about by calls that meet the condition. -/
def FitsTo (d d' : Device negMax xferMax) : Prop :=
  ∃ calls, Along call FitsOrFull d calls ∧ final call d calls = d'

theorem FitsTo.refl (d : Device negMax xferMax) : FitsTo d d := ⟨[], trivial, rfl⟩

theorem FitsTo.trans {d d' d'' : Device negMax xferMax} (h : FitsTo d d') (h' : FitsTo d' d'') :
    FitsTo d d'' := by
  obtain ⟨calls, hfit, rfl⟩ := h
  obtain ⟨calls', hfit', rfl⟩ := h'
  exact ⟨calls ++ calls', (along_append calls calls').mpr ⟨hfit, hfit'⟩,
    final_append d calls calls'⟩

theorem FitsTo.one (d : Device negMax xferMax) (c : Call) (h : FitsOrFull d c) :
    FitsTo d (call d c).2 := ⟨[c], ⟨h, trivial⟩, rfl⟩

theorem offers_fitsTo (d : Device negMax xferMax) (req : HttpdReq) :
    FitsTo d (serve d .offers req).2 := by
  cases hreq : offersProcessId req with
  | none =>
    obtain ⟨message, heq⟩ := Model.Neg.offers_rejects (m := d.neg) hreq
    simp only [serve, heq]
    exact .refl d
  | some p =>
    have hcreate := FitsTo.one d (.negCreate (some p) (some Model.Jsonld.configProviderId))
      (.inl (Model.Neg.offersProcessId_length hreq).2)
    simp only [serve, Model.Neg.offers_accepts hreq]
    split_ifs
    · exact hcreate
    · exact hcreate.trans (.one _ (.negApply _ .offer) trivial)

theorem xferStart_fitsTo (d : Device negMax xferMax) (req : HttpdReq) :
    FitsTo d (serve d .xferStart req).2 := by
  cases hreq : startProcessId req with
  | none =>
    obtain ⟨message, heq⟩ := @Model.Xfer.start_rejects _ _ d.neg d.xfer _ hreq
    simp only [serve, heq]
    exact .refl d
  | some p =>
    have hcreate := FitsTo.one d (.xferCreate (some p))
      (.inl (Model.Xfer.startProcessId_length hreq).2)
    simp only [serve, Model.Xfer.start_accepts hreq]
    split_ifs
    · exact .refl d
    · exact hcreate
    · exact hcreate.trans (.one _ (.xferApply _ .start) trivial)

/-- The handlers create with ids that they have read into a buffer of 64 bytes. -/
theorem serve_fitsTo (d : Device negMax xferMax) (endpoint : Endpoint) (req : HttpdReq) :
    FitsTo d (serve d endpoint req).2 := by
  cases endpoint with
  | offers => exact offers_fitsTo d req
  | agree =>
    simp only [serve, Model.Neg.agree_accepts]
    split
    · exact .refl d
    · split_ifs
      · exact .refl d
      · exact .one d (.negApply _ .agree) trivial
      · exact .one d (.negApply _ .agree) trivial
  | terminate =>
    cases hreq : Model.Neg.terminateProcessId req with
    | none =>
      obtain ⟨message, heq⟩ := Model.Neg.terminate_rejects (m := d.neg) hreq
      simp only [serve, heq]
      exact .refl d
    | some p =>
      simp only [serve, Model.Neg.terminate_accepts hreq]
      split_ifs
      · exact .refl d
      · exact .one d (.negApply _ .terminate) trivial
  | negGet =>
    simp only [serve, Model.Neg.negGet_snd]
    exact .refl d
  | xferStart => exact xferStart_fitsTo d req
  | xferComplete =>
    simp only [serve, Model.Xfer.complete_accepts]
    split
    · exact .refl d
    · split_ifs
      · exact .refl d
      · exact .refl d
      · exact .one d (.xferApply _ .complete) trivial
  | xferGet =>
    simp only [serve, Model.Xfer.xferGet_snd]
    exact .refl d

theorem sleepCycle_fitsTo (d : Device negMax xferMax) : FitsTo d (sleepCycle d).2 :=
  ⟨[.save, .negDeinit, .negInit, .xferDeinit, .xferInit, .restore],
    ⟨trivial, trivial, trivial, trivial, trivial, trivial, trivial⟩, rfl⟩

theorem boot_fitsTo (notify : Bool) :
    FitsTo (cold negMax xferMax).device (boot (.zero negMax xferMax) notify) :=
  ⟨[.negInit, .xferInit, .xferSetNotify notify], ⟨trivial, trivial, trivial, trivial⟩, rfl⟩

theorem run_fitsTo (notify : Bool) (actions : List Action) :
    FitsTo (cold negMax xferMax).device
      (final Model.Board.step (boot (.zero negMax xferMax) notify) actions) := by
  refine (boot_fitsTo notify).trans ?_
  refine final_relates (I := fun _ => True) (R := FitsTo) (fun _ _ _ => trivial) FitsTo.refl
    (fun _ _ _ => FitsTo.trans) ?_ actions trivial
  intro d a _
  cases a with
  | request endpoint req => exact serve_fitsTo d endpoint req
  | sleep => exact sleepCycle_fitsTo d

/-- What is asked of the device alone can be asked of it without the strings. -/
theorem along_device {P : Device negMax xferMax → Call → Prop} (s : Session negMax xferMax)
    (calls : List Call) :
    Along perform (fun s c => P s.device c) s calls ↔ Along call P s.device calls := by
  induction calls generalizing s with
  | nil => exact Iff.rfl
  | cons c calls ih => exact and_congr Iff.rfl (ih (perform s c).2)

/-- Requests and sleep cycles never show the difference. -/
theorem requests_agree (notify : Bool) (actions : List Action) :
    ∃ calls, Along perform Agrees (cold negMax xferMax) calls ∧
      (final perform (cold negMax xferMax) calls).device =
        final Model.Board.step (boot (.zero negMax xferMax) notify) actions := by
  obtain ⟨calls, hfit, hfinal⟩ := @run_fitsTo negMax xferMax notify actions
  exact ⟨calls, (along_agrees_iff recorded_cold uncut_cold calls).mpr
    ((along_device _ calls).mpr hfit),
    (device_final _ calls).trans hfinal⟩

end DspEmbedded.Audit.CreateFind
