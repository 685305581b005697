import DspEmbedded.Lib.CutKeys
import DspEmbedded.Lib.SlotTable
import DspEmbedded.Model.Esp

/-!
# `dsp_neg.c`: state machine and slot table

The module state is the table and the `initialized` flag. Indices are C `int`s,
strings that may be NULL are options. The slot of a negotiation keeps both
process ids as 64-byte arrays.
-/
namespace DspEmbedded.Model.Neg

open Lib.CString Lib.CutKeys Lib.SlotTable Model.Esp

/-- `DSP_NEG_PID_LEN`. -/
def dspNegPidLen : Nat := 64

/-! ## State machine -/

/-- `dsp_neg_state_t`. A value of the type that is none of the enumerators can
only come from a stored image. -/
inductive NegState where
  | initial
  | requested
  | offered
  | agreed
  | verified
  | finalized
  | terminated
  | other (raw : UInt32) (h : 7 ≤ raw)
  deriving DecidableEq

inductive NegEvent where
  | offer
  | agree
  | verify
  | finalize
  | terminate
  deriving DecidableEq, Repr

def NegState.toUInt32 : NegState → UInt32
  | .initial => 0
  | .requested => 1
  | .offered => 2
  | .agreed => 3
  | .verified => 4
  | .finalized => 5
  | .terminated => 6
  | .other raw _ => raw

/-- The cast `(dsp_neg_state_t)raw`. -/
def NegState.ofUInt32 (raw : UInt32) : NegState :=
  if h : 7 ≤ raw then .other raw h
  else if raw = 0 then .initial
  else if raw = 1 then .requested
  else if raw = 2 then .offered
  else if raw = 3 then .agreed
  else if raw = 4 then .verified
  else if raw = 5 then .finalized
  else .terminated

theorem NegState.ofUInt32_toUInt32 (s : NegState) : NegState.ofUInt32 s.toUInt32 = s := by
  cases s with
  | other raw h => simp [NegState.toUInt32, NegState.ofUInt32, h]
  | _ => rfl

theorem NegState.toUInt32_ofUInt32 (raw : UInt32) : (NegState.ofUInt32 raw).toUInt32 = raw := by
  unfold NegState.ofUInt32
  split_ifs <;> simp only [NegState.toUInt32]
  -- what is below 7 and none of the numbers from 0 to 5 is 6
  all_goals grind

def dspNegSmNext (state : NegState) (event : NegEvent) : NegState :=
  match state with
  | .requested =>
    match event with
    | .offer => .offered
    | .agree => .agreed
    | .terminate => .terminated
    | _ => .requested
  | .offered =>
    match event with
    | .agree => .agreed
    | .terminate => .terminated
    | _ => .offered
  | .agreed =>
    match event with
    | .verify => .verified
    | .terminate => .terminated
    | _ => .agreed
  | .verified =>
    match event with
    | .finalize => .finalized
    | .terminate => .terminated
    | _ => .verified
  | s => s

/-! ## Slot table -/

structure NegEntry where
  state : NegState
  consumerPid : CharBuf dspNegPidLen
  providerPid : CharBuf dspNegPidLen
  active : Bool
  deriving DecidableEq

/-- The entry that `memset` leaves. -/
def NegEntry.zero : NegEntry := ⟨.initial, .zero _, .zero _, false⟩

/-- The static variables `s_table` and `s_initialized`. -/
structure NegModule (negMax : Nat) where
  table : Table NegEntry negMax
  initialized : Bool

variable {negMax : Nat}

/-- The module before any call. -/
def NegModule.boot (negMax : Nat) : NegModule negMax := ⟨Table.fill negMax .zero, false⟩

def dspNegInit (m : NegModule negMax) : EspErr × NegModule negMax :=
  if m.initialized then (.ok, m) else (.ok, ⟨Table.fill negMax .zero, true⟩)

def dspNegDeinit (_ : NegModule negMax) : NegModule negMax := ⟨Table.fill negMax .zero, false⟩

/-- `strncpy(pid, src, DSP_NEG_PID_LEN - 1)` and the terminator behind it. -/
def copyPid (dst : CharBuf dspNegPidLen) (src : CStr) : CharBuf dspNegPidLen :=
  (strncpy dst src (dspNegPidLen - 1)).set (dspNegPidLen - 1) 0

def dspNegCreate (m : NegModule negMax) (consumerPid providerPid : Option CStr) :
    Int × NegModule negMax :=
  match consumerPid, providerPid with
  | some consumerPid, some providerPid =>
    let i := firstIdx (fun e => !e.active) m.table.slots
    match m.table.get? i with
    | none => (-1, m)
    | some e =>
      let e := { e with
        active := true
        state := .requested
        consumerPid := copyPid e.consumerPid consumerPid
        providerPid := copyPid e.providerPid providerPid }
      (i, { m with table := m.table.set i e })
  | _, _ => (-1, m)

def dspNegApply (m : NegModule negMax) (idx : Int) (event : NegEvent) :
    NegState × NegModule negMax :=
  match m.table.get? idx with
  | none => (.initial, m)
  | some e =>
    if !e.active then (.initial, m)
    else
      let next := dspNegSmNext e.state event
      (next, { m with table := m.table.set idx { e with state := next } })

def dspNegGetState (m : NegModule negMax) (idx : Int) : NegState :=
  match m.table.get? idx with
  | none => .initial
  | some e => if !e.active then .initial else e.state

def dspNegGetConsumerPid (m : NegModule negMax) (idx : Int) : Option CStr :=
  match m.table.get? idx with
  | none => none
  | some e => if !e.active then none else some e.consumerPid.str

def dspNegGetProviderPid (m : NegModule negMax) (idx : Int) : Option CStr :=
  match m.table.get? idx with
  | none => none
  | some e => if !e.active then none else some e.providerPid.str

def dspNegFindByCpid (m : NegModule negMax) (cpid : Option CStr) : Int :=
  match cpid with
  | none => -1
  | some cpid =>
    firstIdx
      (fun e => e.active && (strncmp e.consumerPid.bytes cpid.bytes dspNegPidLen == 0))
      m.table.slots

def dspNegCountActive (m : NegModule negMax) : Int := m.table.slots.countP (·.active)

def dspNegIsActive (m : NegModule negMax) (idx : Int) : Bool :=
  match m.table.get? idx with
  | none => false
  | some e => e.active

def dspNegLoadSlot (m : NegModule negMax) (idx : Int) (state : NegState)
    (consumerPid providerPid : Option CStr) : EspErr × NegModule negMax :=
  match m.table.get? idx, consumerPid, providerPid with
  | some e, some consumerPid, some providerPid =>
    if !m.initialized then (.invalidState, m)
    else
      let e := { e with
        active := true
        state := state
        consumerPid := copyPid e.consumerPid consumerPid
        providerPid := copyPid e.providerPid providerPid }
      (.ok, { m with table := m.table.set idx e })
  | _, _, _ => (.invalidArg, m)

/-! ## Well-formed tables -/

/-- The consumer id that searches compare with. -/
def NegEntry.cpid (e : NegEntry) : CStr := e.consumerPid.str

/-- An entry as create and load leave it: a string of at most 63 bytes in each
array, zeros behind it, and all zeros in a free slot. -/
structure NegEntry.Canonical (e : NegEntry) : Prop where
  free : e.active = false → e = .zero
  consumer : ∃ s : CStr, s.length < dspNegPidLen ∧ e.consumerPid = .ofStr _ s
  provider : ∃ s : CStr, s.length < dspNegPidLen ∧ e.providerPid = .ofStr _ s

/-- The ledger of the negotiations created so far, oldest first. -/
def ledger (m : NegModule negMax) : List NegEntry := live NegEntry.active m.table

structure WellFormed (m : NegModule negMax) : Prop where
  packed : Packed NegEntry.active m.table
  canonical : ∀ e ∈ m.table.slots, e.Canonical

variable {m : NegModule negMax}

theorem copyPid_eq (dst : CharBuf dspNegPidLen) (src : CStr) :
    copyPid dst src = .ofStr _ (src.take (dspNegPidLen - 1)) :=
  strncpy_terminated (by decide) dst src

theorem length_take_pid (src : CStr) : (src.take (dspNegPidLen - 1)).length < dspNegPidLen :=
  Nat.lt_succ_of_le (CStr.length_take_le _ src)

/-- What create writes into the slot it finds. -/
def newEntry (consumerPid providerPid : CStr) : NegEntry where
  state := .requested
  consumerPid := .ofStr _ (consumerPid.take (dspNegPidLen - 1))
  providerPid := .ofStr _ (providerPid.take (dspNegPidLen - 1))
  active := true

theorem newEntry_canonical (consumerPid providerPid : CStr) (state : NegState) :
    ({ newEntry consumerPid providerPid with state := state } : NegEntry).Canonical where
  free := by
    intro h
    cases h
  consumer := ⟨_, length_take_pid consumerPid, rfl⟩
  provider := ⟨_, length_take_pid providerPid, rfl⟩

@[simp] theorem newEntry_cpid (consumerPid providerPid : CStr) :
    (newEntry consumerPid providerPid).cpid = consumerPid.take (dspNegPidLen - 1) :=
  CharBuf.str_ofStr (length_take_pid consumerPid)

theorem NegEntry.Canonical.cpid_length {e : NegEntry} (h : e.Canonical) :
    e.cpid.length < dspNegPidLen := by
  obtain ⟨s, hs, he⟩ := h.consumer
  rw [NegEntry.cpid, he, CharBuf.str_ofStr hs]
  exact hs

/-- A state change keeps a slot in use well formed. -/
theorem NegEntry.Canonical.withState {e : NegEntry} (h : e.Canonical) (ha : e.active = true)
    (state : NegState) : ({ e with state := state } : NegEntry).Canonical where
  free := by
    intro hf
    rw [show e.active = false from hf] at ha
    cases ha
  consumer := h.consumer
  provider := h.provider

theorem zero_canonical : NegEntry.zero.Canonical where
  free := fun _ => rfl
  consumer := ⟨CStr.empty, by decide, rfl⟩
  provider := ⟨CStr.empty, by decide, rfl⟩

/-- Cleared tables are well formed, initialized or not. -/
theorem wellFormed_fill (b : Bool) :
    WellFormed (⟨Table.fill negMax .zero, b⟩ : NegModule negMax) where
  packed := packed_fill rfl
  canonical := by
    intro e he
    rw [List.eq_of_mem_replicate he]
    exact zero_canonical

theorem ledger_fill (b : Bool) : ledger (⟨Table.fill negMax .zero, b⟩ : NegModule negMax) = [] :=
  live_fill rfl

theorem length_ledger_le (m : NegModule negMax) : (ledger m).length ≤ negMax :=
  length_live_le m.table

theorem WellFormed.canonical_of_mem (hw : WellFormed m) {e : NegEntry} (h : e ∈ ledger m) :
    e.Canonical := hw.canonical e (mem_slots_of_mem_live h)

theorem active_of_mem_ledger {e : NegEntry} (h : e ∈ ledger m) : e.active = true :=
  active_of_mem_live (show e ∈ live NegEntry.active m.table from h)

theorem WellFormed.free_eq (hw : WellFormed m) :
    ∀ e ∈ m.table.slots, NegEntry.active e = false → e = .zero :=
  fun e he ha => (hw.canonical e he).free ha

/-- A well-formed table is determined by its ledger. -/
theorem table_eq_of_ledger {m' : NegModule negMax} (hw : WellFormed m) (hw' : WellFormed m')
    (h : ledger m = ledger m') : m.table = m'.table :=
  Table.ext_live hw.packed hw'.packed hw.free_eq hw'.free_eq h

/-! ## Canonical entries survive every operation -/

theorem create_canonical (hc : ∀ e ∈ m.table.slots, e.Canonical) (c p : Option CStr) :
    (∀ e ∈ (dspNegCreate m c p).2.table.slots, e.Canonical) ∧
      (dspNegCreate m c p).2.initialized = m.initialized := by
  unfold dspNegCreate
  split
  · simp only
    split
    · exact ⟨hc, rfl⟩
    · refine ⟨Table.forall_mem_set hc ?_, rfl⟩
      simp only [copyPid_eq]
      exact newEntry_canonical _ _ .requested
  · exact ⟨hc, rfl⟩

theorem apply_canonical (hc : ∀ e ∈ m.table.slots, e.Canonical) (idx : Int) (event : NegEvent) :
    (∀ e ∈ (dspNegApply m idx event).2.table.slots, e.Canonical) ∧
      (dspNegApply m idx event).2.initialized = m.initialized := by
  unfold dspNegApply
  split
  · exact ⟨hc, rfl⟩
  · next e hget =>
    split
    · exact ⟨hc, rfl⟩
    · next ha =>
      have hcanonical := (hc e (Table.mem_of_get? hget)).withState (by simpa using ha)
      exact ⟨Table.forall_mem_set hc (hcanonical _), rfl⟩

theorem loadSlot_canonical (hc : ∀ e ∈ m.table.slots, e.Canonical) (idx : Int) (state : NegState)
    (c p : Option CStr) :
    (∀ e ∈ (dspNegLoadSlot m idx state c p).2.table.slots, e.Canonical) ∧
      (dspNegLoadSlot m idx state c p).2.initialized = m.initialized := by
  unfold dspNegLoadSlot
  split
  · split
    · exact ⟨hc, rfl⟩
    · refine ⟨Table.forall_mem_set hc ?_, rfl⟩
      simp only [copyPid_eq]
      exact newEntry_canonical _ _ state
  · exact ⟨hc, rfl⟩

/-! ## Single slots, whatever the others hold -/

/-- Create takes the first free slot, or finds none and changes nothing. -/
theorem create_slot (m : NegModule negMax) (consumerPid providerPid : CStr) :
    ((∀ e ∈ m.table.slots, e.active = true) ∧
      dspNegCreate m (some consumerPid) (some providerPid) = (-1, m)) ∨
    ∃ (i : Nat) (old : NegEntry), m.table.get? i = some old ∧ old.active = false ∧
      dspNegCreate m (some consumerPid) (some providerPid) =
        ((i : Int), { m with table := m.table.set i (newEntry consumerPid providerPid) }) := by
  rcases firstIdx_cases (fun e : NegEntry => !e.active) m.table.slots with
    ⟨hidx, -, hnone⟩ | ⟨i, old, hidx, -, hslot, hfree, -⟩
  · left
    have hget : m.table.get? (-1) = none := rfl
    refine ⟨?_, by simp only [dspNegCreate, hidx, hget]⟩
    intro e he
    simpa using List.find?_eq_none.mp hnone e he
  · right
    have hget : m.table.get? (i : Int) = some old := by rw [Table.get?_ofNat, hslot]
    refine ⟨i, old, hget, by simpa using hfree, ?_⟩
    simp only [dspNegCreate, hidx, hget, copyPid_eq]
    rfl

/-- Create finds no slot exactly where all are counted. -/
theorem countActive_full_iff :
    dspNegCountActive m = negMax ↔ ∀ e ∈ m.table.slots, e.active = true := by
  rw [← List.countP_eq_length, m.table.length_eq]
  exact Int.ofNat_inj

theorem getConsumerPid_eq (m : NegModule negMax) :
    dspNegGetConsumerPid m = keyAt NegEntry.active NegEntry.cpid m.table := by
  funext idx
  unfold dspNegGetConsumerPid keyAt
  cases m.table.get? idx with
  | none => rfl
  | some e => cases ha : e.active <;> simp [ha, NegEntry.cpid]

/-- The string comparison of a search is equality with the stored id. -/
theorem matches_iff {e : NegEntry} (hc : e.Canonical) (cpid : CStr) :
    strncmp e.consumerPid.bytes cpid.bytes dspNegPidLen = 0 ↔ e.cpid = cpid :=
  strncmp_charBuf hc.cpid_length

theorem findByCpid_slots (hc : ∀ e ∈ m.table.slots, e.Canonical) (cpid : CStr) :
    dspNegFindByCpid m (some cpid) =
      firstIdx (fun e => e.active && decide (e.cpid = cpid)) m.table.slots := by
  apply firstIdx_congr
  intro e he
  rw [Bool.eq_iff_iff, Bool.and_eq_true, Bool.and_eq_true, beq_iff_eq, decide_eq_true_iff,
    matches_iff (hc e he)]

theorem findByCpid_finds (hc : ∀ e ∈ m.table.slots, e.Canonical) :
    Finds (dspNegGetConsumerPid m) fun cpid => dspNegFindByCpid m (some cpid) := by
  simp only [getConsumerPid_eq, findByCpid_slots hc]
  exact finds_keyAt

/-! ## One lemma for each operation -/

/-- Create appends to the ledger, or finds the table full and changes nothing. -/
theorem create_cases (hw : WellFormed m) (consumerPid providerPid : CStr) :
    (negMax ≤ (ledger m).length ∧
      dspNegCreate m (some consumerPid) (some providerPid) = (-1, m)) ∨
    ∃ m', (ledger m).length < negMax ∧
      dspNegCreate m (some consumerPid) (some providerPid) = (((ledger m).length : Int), m') ∧
      WellFormed m' ∧ m'.initialized = m.initialized ∧
      ledger m' = ledger m ++ [newEntry consumerPid providerPid] := by
  rcases free_slot_cases hw.packed with ⟨hfull, hget⟩ | ⟨old, hlt, hidx, hget, -⟩
  · left
    refine ⟨hfull, ?_⟩
    simp only [dspNegCreate, hget]
  · right
    have hset := live_set_free (e := newEntry consumerPid providerPid) hw.packed rfl hlt
    refine ⟨{ m with
      table := m.table.set ((ledger m).length : Int) (newEntry consumerPid providerPid) },
      hlt, ?_, ⟨hset.2, ?_⟩, rfl, hset.1⟩
    · simp only [dspNegCreate, hidx, hget, copyPid_eq]
      rfl
    · exact Table.forall_mem_set hw.canonical (newEntry_canonical _ _ .requested)

theorem apply_active {idx : Int} {e : NegEntry} (hget : m.table.get? idx = some e)
    (ha : e.active = true) (event : NegEvent) :
    dspNegApply m idx event = (dspNegSmNext e.state event,
      { m with table := m.table.set idx { e with state := dspNegSmNext e.state event } }) := by
  simp only [dspNegApply, hget]
  rw [if_neg (by simp [ha])]

/-- No event touches the ids. -/
theorem getConsumerPid_apply (m : NegModule negMax) (idx : Int) (event : NegEvent) :
    dspNegGetConsumerPid (dspNegApply m idx event).2 = dspNegGetConsumerPid m := by
  cases hget : m.table.get? idx with
  | none => simp only [dspNegApply, hget]
  | some e =>
    cases ha : e.active with
    | false => simp [dspNegApply, hget, ha]
    | true =>
      rw [getConsumerPid_eq, getConsumerPid_eq, apply_active hget ha]
      exact keyAt_set_same hget ha (by exact ha) rfl

/-- Apply moves one record of the ledger, or refers to none and changes nothing. -/
theorem apply_cases (hw : WellFormed m) (idx : Int) (event : NegEvent) :
    ((∀ i : Nat, idx = i → (ledger m)[i]? = none) ∧ dspNegApply m idx event = (.initial, m)) ∨
    ∃ (i : Nat) (e : NegEntry) (m' : NegModule negMax), idx = i ∧ (ledger m)[i]? = some e ∧
      dspNegApply m idx event = (dspNegSmNext e.state event, m') ∧
      WellFormed m' ∧ m'.initialized = m.initialized ∧
      ledger m' = (ledger m).set i { e with state := dspNegSmNext e.state event } := by
  cases hget : m.table.get? idx with
  | none =>
    left
    refine ⟨?_, by simp only [dspNegApply, hget]⟩
    rintro i rfl
    cases hi : (ledger m)[i]? with
    | none => rfl
    | some e => rw [get?_of_live hi] at hget; cases hget
  | some e =>
    cases ha : e.active with
    | false =>
      left
      refine ⟨?_, by simp [dspNegApply, hget, ha]⟩
      rintro i rfl
      cases hi : (ledger m)[i]? with
      | none => rfl
      | some e' =>
        have hact := active_of_mem_ledger (List.mem_of_getElem? hi)
        rw [get?_of_live hi] at hget
        rw [Option.some.inj hget, ha] at hact
        cases hact
    | true =>
      right
      obtain ⟨i, rfl, hi⟩ := live_of_get? hw.packed hget ha
      have hset := live_set (f := { e with state := dspNegSmNext e.state event }) hw.packed hi ha
      have hcanonical := (hw.canonical_of_mem (List.mem_of_getElem? hi)).withState ha
      exact ⟨i, e, _, rfl, hi, apply_active hget ha event,
        ⟨hset.2, Table.forall_mem_set hw.canonical (hcanonical _)⟩, rfl, hset.1⟩

/-- The event is absorbed: nothing is written that was not there. -/
theorem apply_absorbed {i : Nat} {e : NegEntry} {event : NegEvent} (hi : (ledger m)[i]? = some e)
    (h : dspNegSmNext e.state event = e.state) : dspNegApply m i event = (e.state, m) := by
  have hget : m.table.get? (i : Int) = some e := get?_of_live hi
  have ha := active_of_mem_ledger (List.mem_of_getElem? hi)
  rw [apply_active hget ha, h, Table.set_get? hget]

theorem getState_of_ledger {i : Nat} {e : NegEntry} (hi : (ledger m)[i]? = some e) :
    dspNegGetState m i = e.state := by
  have hget : m.table.get? (i : Int) = some e := get?_of_live hi
  have ha := active_of_mem_ledger (List.mem_of_getElem? hi)
  simp [dspNegGetState, hget, ha]

theorem getState_absent (m : NegModule negMax) : dspNegGetState m (-1) = .initial := by
  have hget : m.table.get? (-1) = none := rfl
  simp only [dspNegGetState, hget]

/-- The active indices are those of the ledger. -/
theorem isActive_iff (hw : WellFormed m) (idx : Int) :
    dspNegIsActive m idx = true ↔
      ∃ (i : Nat) (e : NegEntry), idx = i ∧ (ledger m)[i]? = some e := by
  constructor
  · intro h
    unfold dspNegIsActive at h
    cases hget : m.table.get? idx with
    | none => simp [hget] at h
    | some e =>
      rw [hget] at h
      obtain ⟨i, hi, he⟩ := live_of_get? hw.packed hget h
      exact ⟨i, e, hi, he⟩
  · intro hex
    obtain ⟨i, e, rfl, he⟩ := hex
    have hget : m.table.get? (i : Int) = some e := get?_of_live he
    simp only [dspNegIsActive, hget]
    exact active_of_mem_ledger (List.mem_of_getElem? he)

theorem getConsumerPid_of_ledger {i : Nat} {e : NegEntry} (hi : (ledger m)[i]? = some e) :
    dspNegGetConsumerPid m i = some e.cpid := by
  have hget : m.table.get? (i : Int) = some e := get?_of_live hi
  have ha := active_of_mem_ledger (List.mem_of_getElem? hi)
  simp [dspNegGetConsumerPid, hget, ha, NegEntry.cpid]

theorem countActive_eq (hw : WellFormed m) : dspNegCountActive m = ((ledger m).length : Int) := by
  have hcount := countP_active hw.packed
  simp only [dspNegCountActive, ledger, ← hcount]

/-- The search by id is a search of the ledger, for the exact string. -/
theorem findByCpid_eq (hw : WellFormed m) (cpid : CStr) :
    dspNegFindByCpid m (some cpid) = firstIdx (fun e => decide (e.cpid = cpid)) (ledger m) := by
  rw [findByCpid_slots hw.canonical]
  exact firstIdx_active hw.packed fun e : NegEntry => decide (e.cpid = cpid)

/-- The records as an id-keyed search sees them. -/
def findNeg (m : NegModule negMax) (p : CStr) : Option NegEntry :=
  lookup NegEntry.cpid p (ledger m)

theorem find_cases (hw : WellFormed m) (p : CStr) :
    (dspNegFindByCpid m (some p) = -1 ∧ findNeg m p = none) ∨
    ∃ (i : Nat) (e : NegEntry), dspNegFindByCpid m (some p) = i ∧
      (ledger m).findIdx? (fun e => decide (e.cpid = p)) = some i ∧
      (ledger m)[i]? = some e ∧ e.cpid = p ∧ findNeg m p = some e := by
  rw [findByCpid_eq hw]
  rcases firstIdx_cases (fun e : NegEntry => decide (e.cpid = p)) (ledger m) with
    ⟨h, -, hf⟩ | ⟨i, e, h, hidx, hget, hp, hf⟩
  · exact .inl ⟨h, hf⟩
  · exact .inr ⟨i, e, h, hidx, hget, by simpa using hp, hf⟩

/-! ## The state of the first record of an id -/

def stateOf (m : NegModule negMax) (p : CStr) : Option NegState := (findNeg m p).map (·.state)

theorem stateOf_of_find {p : CStr} {e : NegEntry}
    (h : findNeg m p = some e) : stateOf m p = some e.state := by
  rw [stateOf, h]
  rfl

/-- The first record of `p` after a change of state of the first record of `q`. -/
theorem stateOf_set {m' : NegModule negMax} {q : CStr} {i : Nat} {e : NegEntry} {s : NegState}
    (hfi : (ledger m).findIdx? (fun e => decide (e.cpid = q)) = some i)
    (hget : (ledger m)[i]? = some e) (hq : e.cpid = q)
    (hl : ledger m' = (ledger m).set i { e with state := s }) (p : CStr) :
    stateOf m' p = if q = p then some s else stateOf m p := by
  by_cases hqp : q = p
  · subst hqp
    have hself := lookup_set_self NegEntry.cpid (f := { e with state := s }) hfi hget rfl
    rw [if_pos rfl, stateOf, findNeg, hl, hself]
    rfl
  · have hne := lookup_set_ne NegEntry.cpid (f := { e with state := s }) hget rfl
      (by rw [hq]; exact hqp)
    rw [if_neg hqp, stateOf, findNeg, hl, hne]
    rfl

theorem find_of_findIdx? (hw : WellFormed m) {p : CStr} {i : Nat}
    (h : (ledger m).findIdx? (fun e => decide (e.cpid = p)) = some i) :
    dspNegFindByCpid m (some p) = i := by
  rw [findByCpid_eq hw, firstIdx, h]

theorem find_eq_neg_one_iff (hw : WellFormed m) (p : CStr) :
    dspNegFindByCpid m (some p) = -1 ↔ stateOf m p = none := by
  rcases find_cases hw p with ⟨hidx, hf⟩ | ⟨i, e, hidx, -, -, -, hf⟩
  · exact iff_of_true hidx (by rw [stateOf, hf]; rfl)
  · rw [stateOf_of_find hf, hidx]
    exact iff_of_false (by omega) (by simp)

/-- What the handlers read through the search. -/
theorem getState_find (hw : WellFormed m) (p : CStr) :
    dspNegGetState m (dspNegFindByCpid m (some p)) = (stateOf m p).getD .initial := by
  rcases find_cases hw p with ⟨hidx, hf⟩ | ⟨i, e, hidx, -, hget, -, hf⟩
  · rw [hidx, getState_absent, stateOf, hf]
    rfl
  · rw [hidx, getState_of_ledger hget, stateOf_of_find hf]
    rfl

end DspEmbedded.Model.Neg
