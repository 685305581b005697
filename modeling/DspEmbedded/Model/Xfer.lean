import DspEmbedded.Lib.CutKeys
import DspEmbedded.Lib.SlotTable
import DspEmbedded.Model.Esp

/-!
# `dsp_xfer.c`: state machine and slot table

As `Model.Neg`, with one process id for each slot and the notification hook. The
callback itself is foreign code; the module records the calls made through it,
each with the state that the slot had at that moment.
-/
namespace DspEmbedded.Model.Xfer

open Lib.CString Lib.CutKeys Lib.SlotTable Model.Esp

/-- `DSP_XFER_PID_LEN`. -/
def dspXferPidLen : Nat := 64

/-! ## State machine -/

/-- `dsp_xfer_state_t`, with the values outside the enumeration that a stored
image may bring in. -/
inductive XferState where
  | initial
  | transferring
  | completed
  | failed
  | other (raw : UInt32) (h : 4 ≤ raw)
  deriving DecidableEq

inductive XferEvent where
  | start
  | complete
  | fail
  deriving DecidableEq, Repr

def XferState.toUInt32 : XferState → UInt32
  | .initial => 0
  | .transferring => 1
  | .completed => 2
  | .failed => 3
  | .other raw _ => raw

/-- The cast `(dsp_xfer_state_t)raw`. -/
def XferState.ofUInt32 (raw : UInt32) : XferState :=
  if h : 4 ≤ raw then .other raw h
  else if raw = 0 then .initial
  else if raw = 1 then .transferring
  else if raw = 2 then .completed
  else .failed

theorem XferState.ofUInt32_toUInt32 (s : XferState) : XferState.ofUInt32 s.toUInt32 = s := by
  cases s with
  | other raw h => simp [XferState.toUInt32, XferState.ofUInt32, h]
  | _ => rfl

theorem XferState.toUInt32_ofUInt32 (raw : UInt32) :
    (XferState.ofUInt32 raw).toUInt32 = raw := by
  unfold XferState.ofUInt32
  split_ifs <;> simp only [XferState.toUInt32]
  -- what is below 4 and none of the numbers from 0 to 2 is 3
  all_goals grind

def dspXferSmNext (state : XferState) (event : XferEvent) : XferState :=
  match state with
  | .initial => if event = .start then .transferring else .initial
  | .transferring =>
    match event with
    | .complete => .completed
    | .fail => .failed
    | _ => .transferring
  | s => s

/-! ## Slot table -/

structure XferEntry where
  state : XferState
  processId : CharBuf dspXferPidLen
  active : Bool
  deriving DecidableEq

def XferEntry.zero : XferEntry := ⟨.initial, .zero _, false⟩

/-- The static variables, and the notify calls made so far. -/
structure XferModule (xferMax : Nat) where
  table : Table XferEntry xferMax
  initialized : Bool
  notify : Bool
  calls : List (Int × XferState)

variable {xferMax : Nat}

def XferModule.boot (xferMax : Nat) : XferModule xferMax :=
  ⟨Table.fill xferMax .zero, false, false, []⟩

def dspXferInit (m : XferModule xferMax) : EspErr × XferModule xferMax :=
  if m.initialized then (.ok, m)
  else (.ok, { m with table := Table.fill xferMax .zero, initialized := true })

def dspXferDeinit (m : XferModule xferMax) : XferModule xferMax :=
  { m with table := Table.fill xferMax .zero, initialized := false }

def dspXferIsInitialized (m : XferModule xferMax) : Bool := m.initialized

/-- `dsp_xfer_set_notify`: whether the function pointer is other than NULL. -/
def dspXferSetNotify (m : XferModule xferMax) (fn : Bool) : XferModule xferMax :=
  { m with notify := fn }

/-- `strncpy(pid, src, DSP_XFER_PID_LEN - 1)` and the terminator behind it. -/
def copyPid (dst : CharBuf dspXferPidLen) (src : CStr) : CharBuf dspXferPidLen :=
  (strncpy dst src (dspXferPidLen - 1)).set (dspXferPidLen - 1) 0

def dspXferCreate (m : XferModule xferMax) (processId : Option CStr) : Int × XferModule xferMax :=
  match processId with
  | none => (-1, m)
  | some processId =>
    let i := firstIdx (fun e => !e.active) m.table.slots
    match m.table.get? i with
    | none => (-1, m)
    | some e =>
      let e := { e with
        active := true
        state := .initial
        processId := copyPid e.processId processId }
      (i, { m with table := m.table.set i e })

def dspXferApply (m : XferModule xferMax) (idx : Int) (event : XferEvent) :
    XferState × XferModule xferMax :=
  match m.table.get? idx with
  | none => (.initial, m)
  | some e =>
    if !e.active then (.initial, m)
    else
      let next := dspXferSmNext e.state event
      let m := { m with table := m.table.set idx { e with state := next } }
      -- only on the actual transition into TRANSFERRING
      if e.state != .transferring && next == .transferring && m.notify then
        (next, { m with calls := m.calls ++ [(idx, next)] })
      else (next, m)

def dspXferGetState (m : XferModule xferMax) (idx : Int) : XferState :=
  match m.table.get? idx with
  | none => .initial
  | some e => if !e.active then .initial else e.state

def dspXferGetProcessId (m : XferModule xferMax) (idx : Int) : Option CStr :=
  match m.table.get? idx with
  | none => none
  | some e => if !e.active then none else some e.processId.str

def dspXferFindByPid (m : XferModule xferMax) (pid : Option CStr) : Int :=
  match pid with
  | none => -1
  | some pid =>
    firstIdx (fun e => e.active && (strncmp e.processId.bytes pid.bytes dspXferPidLen == 0))
      m.table.slots

def dspXferCountActive (m : XferModule xferMax) : Int := m.table.slots.countP (·.active)

def dspXferIsActive (m : XferModule xferMax) (idx : Int) : Bool :=
  match m.table.get? idx with
  | none => false
  | some e => e.active

def dspXferLoadSlot (m : XferModule xferMax) (idx : Int) (state : XferState)
    (processId : Option CStr) : EspErr × XferModule xferMax :=
  match m.table.get? idx, processId with
  | some e, some processId =>
    if !m.initialized then (.invalidState, m)
    else
      let e := { e with
        active := true
        state := state
        processId := copyPid e.processId processId }
      (.ok, { m with table := m.table.set idx e })
  | _, _ => (.invalidArg, m)

/-! ## Well-formed tables -/

/-- The process id that searches compare with. -/
def XferEntry.pid (e : XferEntry) : CStr := e.processId.str

structure XferEntry.Canonical (e : XferEntry) : Prop where
  free : e.active = false → e = .zero
  process : ∃ s : CStr, s.length < dspXferPidLen ∧ e.processId = .ofStr _ s

/-- The ledger of the transfers created so far, oldest first. -/
def ledger (m : XferModule xferMax) : List XferEntry := live XferEntry.active m.table

structure WellFormed (m : XferModule xferMax) : Prop where
  packed : Packed XferEntry.active m.table
  canonical : ∀ e ∈ m.table.slots, e.Canonical

variable {m : XferModule xferMax}

theorem copyPid_eq (dst : CharBuf dspXferPidLen) (src : CStr) :
    copyPid dst src = .ofStr _ (src.take (dspXferPidLen - 1)) :=
  strncpy_terminated (by decide) dst src

theorem length_take_pid (src : CStr) : (src.take (dspXferPidLen - 1)).length < dspXferPidLen :=
  Nat.lt_succ_of_le (CStr.length_take_le _ src)

/-- What create writes into the slot it finds. -/
def newEntry (processId : CStr) : XferEntry where
  state := .initial
  processId := .ofStr _ (processId.take (dspXferPidLen - 1))
  active := true

theorem newEntry_canonical (processId : CStr) (state : XferState) :
    ({ newEntry processId with state := state } : XferEntry).Canonical where
  free := by
    intro h
    cases h
  process := ⟨_, length_take_pid processId, rfl⟩

@[simp] theorem newEntry_pid (processId : CStr) :
    (newEntry processId).pid = processId.take (dspXferPidLen - 1) :=
  CharBuf.str_ofStr (length_take_pid processId)

theorem XferEntry.Canonical.pid_length {e : XferEntry} (h : e.Canonical) :
    e.pid.length < dspXferPidLen := by
  obtain ⟨s, hs, he⟩ := h.process
  rw [XferEntry.pid, he, CharBuf.str_ofStr hs]
  exact hs

theorem XferEntry.Canonical.withState {e : XferEntry} (h : e.Canonical) (ha : e.active = true)
    (state : XferState) : ({ e with state := state } : XferEntry).Canonical where
  free := by
    intro hf
    rw [show e.active = false from hf] at ha
    cases ha
  process := h.process

theorem zero_canonical : XferEntry.zero.Canonical where
  free := fun _ => rfl
  process := ⟨CStr.empty, by decide, rfl⟩

theorem wellFormed_fill (b n : Bool) (calls : List (Int × XferState)) :
    WellFormed (⟨Table.fill xferMax .zero, b, n, calls⟩ : XferModule xferMax) where
  packed := packed_fill rfl
  canonical := by
    intro e he
    rw [List.eq_of_mem_replicate he]
    exact zero_canonical

theorem ledger_fill (b n : Bool) (calls : List (Int × XferState)) :
    ledger (⟨Table.fill xferMax .zero, b, n, calls⟩ : XferModule xferMax) = [] :=
  live_fill rfl

theorem length_ledger_le (m : XferModule xferMax) : (ledger m).length ≤ xferMax :=
  length_live_le m.table

theorem WellFormed.canonical_of_mem (hw : WellFormed m) {e : XferEntry} (h : e ∈ ledger m) :
    e.Canonical := hw.canonical e (mem_slots_of_mem_live h)

theorem active_of_mem_ledger {e : XferEntry} (h : e ∈ ledger m) : e.active = true :=
  active_of_mem_live (show e ∈ live XferEntry.active m.table from h)

theorem WellFormed.free_eq (hw : WellFormed m) :
    ∀ e ∈ m.table.slots, XferEntry.active e = false → e = .zero :=
  fun e he ha => (hw.canonical e he).free ha

/-- A well-formed table is determined by its ledger. -/
theorem table_eq_of_ledger {m' : XferModule xferMax} (hw : WellFormed m) (hw' : WellFormed m')
    (h : ledger m = ledger m') : m.table = m'.table :=
  Table.ext_live hw.packed hw'.packed hw.free_eq hw'.free_eq h

/-! ## Canonical entries survive every operation -/

theorem create_canonical (hc : ∀ e ∈ m.table.slots, e.Canonical) (p : Option CStr) :
    (∀ e ∈ (dspXferCreate m p).2.table.slots, e.Canonical) ∧
      (dspXferCreate m p).2.initialized = m.initialized := by
  unfold dspXferCreate
  split
  · exact ⟨hc, rfl⟩
  · simp only
    split
    · exact ⟨hc, rfl⟩
    · refine ⟨Table.forall_mem_set hc ?_, rfl⟩
      simp only [copyPid_eq]
      exact newEntry_canonical _ .initial

theorem loadSlot_canonical (hc : ∀ e ∈ m.table.slots, e.Canonical) (idx : Int) (state : XferState)
    (p : Option CStr) :
    (∀ e ∈ (dspXferLoadSlot m idx state p).2.table.slots, e.Canonical) ∧
      (dspXferLoadSlot m idx state p).2.initialized = m.initialized := by
  unfold dspXferLoadSlot
  split
  · split
    · exact ⟨hc, rfl⟩
    · refine ⟨Table.forall_mem_set hc ?_, rfl⟩
      simp only [copyPid_eq]
      exact newEntry_canonical _ state
  · exact ⟨hc, rfl⟩

/-! ## Single slots, whatever the others hold -/

/-- Create takes the first free slot, or finds none and changes nothing. -/
theorem create_slot (m : XferModule xferMax) (processId : CStr) :
    ((∀ e ∈ m.table.slots, e.active = true) ∧ dspXferCreate m (some processId) = (-1, m)) ∨
    ∃ (i : Nat) (old : XferEntry), m.table.get? i = some old ∧ old.active = false ∧
      dspXferCreate m (some processId) =
        ((i : Int), { m with table := m.table.set i (newEntry processId) }) := by
  rcases firstIdx_cases (fun e : XferEntry => !e.active) m.table.slots with
    ⟨hidx, -, hnone⟩ | ⟨i, old, hidx, -, hslot, hfree, -⟩
  · left
    have hget : m.table.get? (-1) = none := rfl
    refine ⟨?_, by simp only [dspXferCreate, hidx, hget]⟩
    intro e he
    simpa using List.find?_eq_none.mp hnone e he
  · right
    have hget : m.table.get? (i : Int) = some old := by rw [Table.get?_ofNat, hslot]
    refine ⟨i, old, hget, by simpa using hfree, ?_⟩
    simp only [dspXferCreate, hidx, hget, copyPid_eq]
    rfl

/-- Create finds no slot exactly where all are counted. -/
theorem countActive_full_iff :
    dspXferCountActive m = xferMax ↔ ∀ e ∈ m.table.slots, e.active = true := by
  rw [← List.countP_eq_length, m.table.length_eq]
  exact Int.ofNat_inj

theorem getProcessId_eq (m : XferModule xferMax) :
    dspXferGetProcessId m = keyAt XferEntry.active XferEntry.pid m.table := by
  funext idx
  unfold dspXferGetProcessId keyAt
  cases m.table.get? idx with
  | none => rfl
  | some e => cases ha : e.active <;> simp [ha, XferEntry.pid]

/-- The string comparison of a search is equality with the stored id. -/
theorem matches_iff {e : XferEntry} (hc : e.Canonical) (pid : CStr) :
    strncmp e.processId.bytes pid.bytes dspXferPidLen = 0 ↔ e.pid = pid :=
  strncmp_charBuf hc.pid_length

theorem findByPid_slots (hc : ∀ e ∈ m.table.slots, e.Canonical) (pid : CStr) :
    dspXferFindByPid m (some pid) =
      firstIdx (fun e => e.active && decide (e.pid = pid)) m.table.slots := by
  apply firstIdx_congr
  intro e he
  rw [Bool.eq_iff_iff, Bool.and_eq_true, Bool.and_eq_true, beq_iff_eq, decide_eq_true_iff,
    matches_iff (hc e he)]

theorem findByPid_finds (hc : ∀ e ∈ m.table.slots, e.Canonical) :
    Finds (dspXferGetProcessId m) fun pid => dspXferFindByPid m (some pid) := by
  simp only [getProcessId_eq, findByPid_slots hc]
  exact finds_keyAt

/-! ## One lemma for each operation -/

/-- Create appends to the ledger, or finds the table full and changes nothing. -/
theorem create_cases (hw : WellFormed m) (processId : CStr) :
    (xferMax ≤ (ledger m).length ∧ dspXferCreate m (some processId) = (-1, m)) ∨
    ∃ m', (ledger m).length < xferMax ∧
      dspXferCreate m (some processId) = (((ledger m).length : Int), m') ∧
      WellFormed m' ∧ m'.initialized = m.initialized ∧ m'.notify = m.notify ∧
      m'.calls = m.calls ∧ ledger m' = ledger m ++ [newEntry processId] := by
  rcases free_slot_cases hw.packed with ⟨hfull, hget⟩ | ⟨old, hlt, hidx, hget, -⟩
  · left
    refine ⟨hfull, ?_⟩
    simp only [dspXferCreate, hget]
  · right
    have hset := live_set_free (e := newEntry processId) hw.packed rfl hlt
    refine ⟨{ m with table := m.table.set ((ledger m).length : Int) (newEntry processId) },
      hlt, ?_, ⟨hset.2, ?_⟩, rfl, rfl, rfl, hset.1⟩
    · simp only [dspXferCreate, hidx, hget, copyPid_eq]
      rfl
    · exact Table.forall_mem_set hw.canonical (newEntry_canonical _ .initial)

/-- The notify call that an event causes in a slot, if any. -/
def notifyCalls (m : XferModule xferMax) (idx : Int) (s : XferState) (event : XferEvent) :
    List (Int × XferState) :=
  if s ≠ .transferring ∧ dspXferSmNext s event = .transferring ∧ m.notify = true then
    [(idx, .transferring)]
  else []

theorem apply_active {idx : Int} {e : XferEntry} (hget : m.table.get? idx = some e)
    (ha : e.active = true) (event : XferEvent) :
    dspXferApply m idx event = (dspXferSmNext e.state event,
      { m with
        table := m.table.set idx { e with state := dspXferSmNext e.state event }
        calls := m.calls ++ notifyCalls m idx e.state event }) := by
  have hcond : (e.state != .transferring && dspXferSmNext e.state event == .transferring &&
      m.notify) = true ↔ e.state ≠ .transferring ∧
        dspXferSmNext e.state event = .transferring ∧ m.notify = true := by
    simp [and_assoc]
  simp only [dspXferApply, hget, hcond]
  rw [if_neg (by simp [ha])]
  by_cases h : e.state ≠ .transferring ∧ dspXferSmNext e.state event = .transferring ∧
      m.notify = true
  · rw [if_pos h, notifyCalls, if_pos h, h.2.1]
  · rw [if_neg h, notifyCalls, if_neg h, List.append_nil]

/-- No event touches the id. -/
theorem getProcessId_apply (m : XferModule xferMax) (idx : Int) (event : XferEvent) :
    dspXferGetProcessId (dspXferApply m idx event).2 = dspXferGetProcessId m := by
  cases hget : m.table.get? idx with
  | none => simp only [dspXferApply, hget]
  | some e =>
    cases ha : e.active with
    | false => simp [dspXferApply, hget, ha]
    | true =>
      rw [getProcessId_eq, getProcessId_eq, apply_active hget ha]
      exact keyAt_set_same hget ha (by exact ha) rfl

theorem apply_canonical (hc : ∀ e ∈ m.table.slots, e.Canonical) (idx : Int) (event : XferEvent) :
    (∀ e ∈ (dspXferApply m idx event).2.table.slots, e.Canonical) ∧
      (dspXferApply m idx event).2.initialized = m.initialized := by
  cases hget : m.table.get? idx with
  | none =>
    simp only [dspXferApply, hget]
    exact ⟨hc, trivial⟩
  | some e =>
    cases ha : e.active with
    | false =>
      simp only [dspXferApply, hget, ha, Bool.not_false, if_true]
      exact ⟨hc, trivial⟩
    | true =>
      rw [apply_active hget ha]
      have hcanonical := (hc e (Table.mem_of_get? hget)).withState ha
      exact ⟨Table.forall_mem_set hc (hcanonical _), rfl⟩

/-- Apply moves one record of the ledger, or refers to none and changes nothing. -/
theorem apply_cases (hw : WellFormed m) (idx : Int) (event : XferEvent) :
    ((∀ i : Nat, idx = i → (ledger m)[i]? = none) ∧ dspXferApply m idx event = (.initial, m)) ∨
    ∃ (i : Nat) (e : XferEntry) (m' : XferModule xferMax), idx = i ∧ (ledger m)[i]? = some e ∧
      dspXferApply m idx event = (dspXferSmNext e.state event, m') ∧
      WellFormed m' ∧ m'.initialized = m.initialized ∧ m'.notify = m.notify ∧
      m'.calls = m.calls ++ notifyCalls m i e.state event ∧
      ledger m' = (ledger m).set i { e with state := dspXferSmNext e.state event } := by
  cases hget : m.table.get? idx with
  | none =>
    left
    refine ⟨?_, by simp only [dspXferApply, hget]⟩
    rintro i rfl
    cases hi : (ledger m)[i]? with
    | none => rfl
    | some e => rw [get?_of_live hi] at hget; cases hget
  | some e =>
    cases ha : e.active with
    | false =>
      left
      refine ⟨?_, by simp [dspXferApply, hget, ha]⟩
      rintro i rfl
      cases hi : (ledger m)[i]? with
      | none => rfl
      | some e' =>
        have hact := active_of_mem_ledger (List.mem_of_getElem? hi)
        rw [get?_of_live hi] at hget
        rw [Option.some.inj hget, ha] at hact
        cases hact
    | true =>
      right
      obtain ⟨i, rfl, hi⟩ := live_of_get? hw.packed hget ha
      have hset := live_set (f := { e with state := dspXferSmNext e.state event }) hw.packed hi ha
      have hcanonical := (hw.canonical_of_mem (List.mem_of_getElem? hi)).withState ha
      exact ⟨i, e, _, rfl, hi, apply_active hget ha event,
        ⟨hset.2, Table.forall_mem_set hw.canonical (hcanonical _)⟩, rfl, rfl, rfl, hset.1⟩

theorem getState_of_ledger {i : Nat} {e : XferEntry} (hi : (ledger m)[i]? = some e) :
    dspXferGetState m i = e.state := by
  have hget : m.table.get? (i : Int) = some e := get?_of_live hi
  have ha := active_of_mem_ledger (List.mem_of_getElem? hi)
  simp [dspXferGetState, hget, ha]

theorem getProcessId_of_ledger {i : Nat} {e : XferEntry} (hi : (ledger m)[i]? = some e) :
    dspXferGetProcessId m i = some e.pid := by
  have hget : m.table.get? (i : Int) = some e := get?_of_live hi
  have ha := active_of_mem_ledger (List.mem_of_getElem? hi)
  simp [dspXferGetProcessId, hget, ha, XferEntry.pid]

theorem getState_absent (m : XferModule xferMax) : dspXferGetState m (-1) = .initial := by
  have hget : m.table.get? (-1) = none := rfl
  simp only [dspXferGetState, hget]

/-- The active indices are those of the ledger. -/
theorem isActive_iff (hw : WellFormed m) (idx : Int) :
    dspXferIsActive m idx = true ↔
      ∃ (i : Nat) (e : XferEntry), idx = i ∧ (ledger m)[i]? = some e := by
  constructor
  · intro h
    unfold dspXferIsActive at h
    cases hget : m.table.get? idx with
    | none => simp [hget] at h
    | some e =>
      rw [hget] at h
      obtain ⟨i, hi, he⟩ := live_of_get? hw.packed hget h
      exact ⟨i, e, hi, he⟩
  · intro hex
    obtain ⟨i, e, rfl, he⟩ := hex
    have hget : m.table.get? (i : Int) = some e := get?_of_live he
    simp only [dspXferIsActive, hget]
    exact active_of_mem_ledger (List.mem_of_getElem? he)

theorem countActive_eq (hw : WellFormed m) : dspXferCountActive m = ((ledger m).length : Int) := by
  have hcount := countP_active hw.packed
  simp only [dspXferCountActive, ledger, ← hcount]

/-- The search by id is a search of the ledger, for the exact string. -/
theorem findByPid_eq (hw : WellFormed m) (pid : CStr) :
    dspXferFindByPid m (some pid) = firstIdx (fun e => decide (e.pid = pid)) (ledger m) := by
  rw [findByPid_slots hw.canonical]
  exact firstIdx_active hw.packed fun e : XferEntry => decide (e.pid = pid)

/-- The records as an id-keyed search sees them. -/
def findXfer (m : XferModule xferMax) (p : CStr) : Option XferEntry :=
  lookup XferEntry.pid p (ledger m)

theorem find_cases (hw : WellFormed m) (p : CStr) :
    (dspXferFindByPid m (some p) = -1 ∧ findXfer m p = none) ∨
    ∃ (i : Nat) (e : XferEntry), dspXferFindByPid m (some p) = i ∧
      (ledger m).findIdx? (fun e => decide (e.pid = p)) = some i ∧
      (ledger m)[i]? = some e ∧ e.pid = p ∧ findXfer m p = some e := by
  rw [findByPid_eq hw]
  rcases firstIdx_cases (fun e : XferEntry => decide (e.pid = p)) (ledger m) with
    ⟨h, -, hf⟩ | ⟨i, e, h, hidx, hget, hp, hf⟩
  · exact .inl ⟨h, hf⟩
  · exact .inr ⟨i, e, h, hidx, hget, by simpa using hp, hf⟩

theorem find_of_findIdx? (hw : WellFormed m) {p : CStr} {i : Nat}
    (h : (ledger m).findIdx? (fun e => decide (e.pid = p)) = some i) :
    dspXferFindByPid m (some p) = i := by
  rw [findByPid_eq hw, firstIdx, h]

theorem find_eq_neg_one_iff (hw : WellFormed m) (p : CStr) :
    dspXferFindByPid m (some p) = -1 ↔ findXfer m p = none := by
  rcases find_cases hw p with ⟨hidx, hf⟩ | ⟨i, e, hidx, -, -, -, hf⟩
  · exact iff_of_true hidx hf
  · rw [hidx, hf]
    exact iff_of_false (by omega) (by simp)

/-! ## The state of the first record of an id -/

def xferStateOf (m : XferModule xferMax) (p : CStr) : Option XferState :=
  (findXfer m p).map (·.state)

theorem xferStateOf_of_find {p : CStr} {e : XferEntry} (h : findXfer m p = some e) :
    xferStateOf m p = some e.state := by
  rw [xferStateOf, h]
  rfl

/-- The first record of `p` after a change of state of the first record of `q`. -/
theorem xferStateOf_set {m' : XferModule xferMax} {q : CStr} {i : Nat} {e : XferEntry}
    {s : XferState} (hfi : (ledger m).findIdx? (fun e => decide (e.pid = q)) = some i)
    (hget : (ledger m)[i]? = some e) (hq : e.pid = q)
    (hl : ledger m' = (ledger m).set i { e with state := s }) (p : CStr) :
    xferStateOf m' p = if q = p then some s else xferStateOf m p := by
  by_cases hqp : q = p
  · subst hqp
    have hself := lookup_set_self XferEntry.pid (f := { e with state := s }) hfi hget rfl
    rw [if_pos rfl, xferStateOf, findXfer, hl, hself]
    rfl
  · have hne := lookup_set_ne XferEntry.pid (f := { e with state := s }) hget rfl
      (by rw [hq]; exact hqp)
    rw [if_neg hqp, xferStateOf, findXfer, hl, hne]
    rfl

end DspEmbedded.Model.Xfer
