import DspEmbedded.Lib.Runs
import DspEmbedded.Model.Xfer

/-!
# One notification for each transfer

Runs of create and apply, with slots restored between them, which may leave holes
in the table. A transfer enters TRANSFERRING from INITIAL only and never comes
back to INITIAL, so the callback is called once for each transfer that was
created in the run and has started, and for no other slot.
-/
namespace DspEmbedded.Audit.Notify

open Lib.CString Lib.Runs Lib.SlotTable Model.Esp Model.Xfer

variable {xferMax : Nat} {m : XferModule xferMax}

/-! ## Runs -/

inductive Call where
  | create (processId : Option CStr)
  | apply (idx : Int) (event : XferEvent)
  | loadSlot (idx : Int) (state : XferState) (processId : Option CStr)

/-- A call answers with the index that create returns. -/
def perform (m : XferModule xferMax) : Call → Option Int × XferModule xferMax
  | .create processId =>
    let (idx, m) := dspXferCreate m processId
    (some idx, m)
  | .apply idx event => (none, (dspXferApply m idx event).2)
  | .loadSlot idx state processId => (none, (dspXferLoadSlot m idx state processId).2)

/-- The module with an empty table and no callback, before or after init. -/
def powerOn (initialized : Bool) : XferModule xferMax :=
  if initialized then (dspXferInit (.boot xferMax)).2 else .boot xferMax

/-- Only empty slots are loaded, and not with the state of a new transfer. -/
def LoadsEmpty (m : XferModule xferMax) : Call → Prop
  | .loadSlot idx state _ => dspXferIsActive m idx = false ∧ state ≠ .initial
  | _ => True

instance (m : XferModule xferMax) (c : Call) : Decidable (LoadsEmpty m c) := by
  unfold LoadsEmpty
  split <;> infer_instance

def IsCreate : Call → Bool
  | .create _ => true
  | _ => false

/-- A create of the history has returned this slot. -/
def CreatedIn (h : List (Call × Option Int)) (i : Int) : Prop :=
  0 ≤ i ∧ ∃ e ∈ h, IsCreate e.1 = true ∧ e.2 = some i

instance (h : List (Call × Option Int)) (i : Int) : Decidable (CreatedIn h i) :=
  inferInstanceAs (Decidable (0 ≤ i ∧ ∃ e ∈ h, IsCreate e.1 = true ∧ e.2 = some i))

def Started (s : XferState) : Prop := s = .transferring ∨ s = .completed ∨ s = .failed

instance (s : XferState) : Decidable (Started s) :=
  inferInstanceAs (Decidable (s = .transferring ∨ s = .completed ∨ s = .failed))

/-- The callback invocations with this argument so far. -/
def notifications (m : XferModule xferMax) (i : Int) : Nat := m.calls.countP fun c => c.1 == i

/-- A step calls the callback for no slot, or for one that is then TRANSFERRING. -/
def CallsWhenTransferring (m m' : XferModule xferMax) : Prop :=
  m'.calls = m.calls ∨
    ∃ i, m'.calls = m.calls ++ [(i, .transferring)] ∧ dspXferGetState m' i = .transferring

/-! ## One write to the table -/

/-- The module after a write of an active entry to a slot. -/
structure Writes (m m' : XferModule xferMax) (idx : Int) (e : XferEntry) : Prop where
  slot : ∃ old, m.table.get? idx = some old
  active : e.active = true
  table : m'.table = m.table.set idx e
  notify : m'.notify = m.notify

theorem Writes.isActive {m' : XferModule xferMax} {idx : Int} {e : XferEntry}
    (h : Writes m m' idx e) (j : Int) :
    dspXferIsActive m' j = if j = idx then true else dspXferIsActive m j := by
  obtain ⟨old, hold⟩ := h.slot
  simp only [dspXferIsActive, h.table, Table.get?_set hold]
  by_cases hj : j = idx
  · simp [hj, h.active]
  · simp [hj]

theorem Writes.getState {m' : XferModule xferMax} {idx : Int} {e : XferEntry}
    (h : Writes m m' idx e) (j : Int) :
    dspXferGetState m' j = if j = idx then e.state else dspXferGetState m j := by
  obtain ⟨old, hold⟩ := h.slot
  simp only [dspXferGetState, h.table, Table.get?_set hold]
  by_cases hj : j = idx
  · simp [hj, h.active]
  · simp [hj]

/-- Create finds no slot, or takes an empty one for a transfer in INITIAL. -/
theorem create_writes (m : XferModule xferMax) (p : Option CStr) :
    dspXferCreate m p = (-1, m) ∨
    ∃ (idx : Int) (e : XferEntry) (m' : XferModule xferMax),
      dspXferCreate m p = (idx, m') ∧ 0 ≤ idx ∧ dspXferIsActive m idx = false ∧
      Writes m m' idx e ∧ e.state = .initial ∧ m'.calls = m.calls := by
  cases p with
  | none => exact .inl rfl
  | some p =>
    rcases create_slot m p with ⟨-, heq⟩ | ⟨i, old, hget, hfree, heq⟩
    · exact .inl heq
    · right
      have hinactive : dspXferIsActive m i = false := by
        simp only [dspXferIsActive, hget, hfree]
      exact ⟨i, newEntry p, _, heq, by omega, hinactive, ⟨⟨old, hget⟩, rfl, rfl, rfl⟩, rfl, rfl⟩

/-- Load refuses, or fills its slot with the given state. -/
theorem loadSlot_writes (m : XferModule xferMax) (idx : Int) (state : XferState)
    (p : Option CStr) :
    (dspXferLoadSlot m idx state p).2 = m ∨
    ∃ (e : XferEntry) (m' : XferModule xferMax), (dspXferLoadSlot m idx state p).2 = m' ∧
      Writes m m' idx e ∧ e.state = state ∧ m'.calls = m.calls := by
  unfold dspXferLoadSlot
  split
  · next old p hget =>
    split
    · exact .inl rfl
    · exact .inr ⟨_, _, rfl, ⟨⟨old, hget⟩, rfl, rfl, rfl⟩, rfl, rfl⟩
  · exact .inl rfl

/-- Apply refers to no transfer, or moves one on and calls the callback as it starts. -/
theorem apply_writes (m : XferModule xferMax) (idx : Int) (event : XferEvent) :
    (dspXferApply m idx event).2 = m ∨
    ∃ (e : XferEntry) (m' : XferModule xferMax), (dspXferApply m idx event).2 = m' ∧
      dspXferIsActive m idx = true ∧ Writes m m' idx e ∧
      e.state = dspXferSmNext (dspXferGetState m idx) event ∧
      m'.calls = m.calls ++ notifyCalls m idx (dspXferGetState m idx) event := by
  cases hget : m.table.get? idx with
  | none =>
    left
    simp only [dspXferApply, hget]
  | some old =>
    cases ha : old.active with
    | false =>
      left
      simp [dspXferApply, hget, ha]
    | true =>
      right
      have hstate : dspXferGetState m idx = old.state := by simp [dspXferGetState, hget, ha]
      have hactive : dspXferIsActive m idx = true := by simp [dspXferIsActive, hget, ha]
      rw [apply_active hget ha, hstate]
      exact ⟨{ old with state := dspXferSmNext old.state event }, _, rfl, hactive,
        ⟨⟨old, hget⟩, ha, rfl, rfl⟩, rfl, rfl⟩

/-! ## The state machine and the callback -/

/-- The callback is due exactly when START moves a transfer out of INITIAL. -/
theorem notifyCalls_eq (hn : m.notify = true) (idx : Int) (s : XferState) (event : XferEvent) :
    notifyCalls m idx s event =
      if s = .initial ∧ event = .start then [(idx, .transferring)] else [] := by
  cases s <;> cases event <;> simp [notifyCalls, dspXferSmNext, hn]

/-- Any other event leaves a started transfer started and INITIAL alone. -/
theorem started_next {s : XferState} {event : XferEvent} (h : ¬ (s = .initial ∧ event = .start)) :
    Started (dspXferSmNext s event) ↔ Started s := by
  cases s <;> cases event <;> simp_all [Started, dspXferSmNext]

theorem initial_of_starts {s : XferState} {event : XferEvent} (hs : s ≠ .transferring)
    (h : dspXferSmNext s event = .transferring) : s = .initial := by
  cases s <;> cases event <;> simp_all [dspXferSmNext]

theorem next_ne_initial {s : XferState} (h : s ≠ .initial) (event : XferEvent) :
    dspXferSmNext s event ≠ .initial := by
  cases s <;> cases event <;> simp_all [dspXferSmNext]

/-! ## Before the callback is set -/

/-- No notification so far, and no slot that could still cause one. -/
structure Quiet (m : XferModule xferMax) : Prop where
  calls : m.calls = []
  settled : ∀ i, dspXferIsActive m i = true → dspXferGetState m i ≠ .initial

theorem quiet_powerOn (initialized : Bool) : Quiet (powerOn initialized : XferModule xferMax) := by
  have hfree : ∀ e ∈ (powerOn initialized : XferModule xferMax).table.slots, e = .zero := by
    intro e he
    cases initialized <;> exact List.eq_of_mem_replicate he
  refine ⟨by cases initialized <;> rfl, ?_⟩
  intro i hi
  unfold dspXferIsActive at hi
  split at hi
  · cases hi
  · next e hget =>
    rw [hfree e (Table.mem_of_get? hget)] at hi
    cases hi

/-- Slots that are restored or moved on do not come back to INITIAL. -/
theorem quiet_step {c : Call} (hload : LoadsEmpty m c) (hc : IsCreate c = false) (hq : Quiet m) :
    Quiet (perform m c).2 := by
  have hwrites : ∀ (m' : XferModule xferMax) (idx : Int) (e : XferEntry), Writes m m' idx e →
      m'.calls = m.calls → e.state ≠ .initial → Quiet m' := by
    intro m' idx e hw hcalls hne
    refine ⟨hcalls.trans hq.calls, ?_⟩
    intro i hi
    rw [hw.getState]
    split_ifs with h
    · exact hne
    · rw [hw.isActive, if_neg h] at hi
      exact hq.settled i hi
  cases c with
  | create p => cases hc
  | apply idx event =>
    show Quiet (dspXferApply m idx event).2
    rcases apply_writes m idx event with heq | ⟨e, m', heq, ha, hw, hstate, hcalls⟩
    · rwa [heq]
    · rw [heq]
      have hne := hq.settled idx ha
      have hnone : notifyCalls m idx (dspXferGetState m idx) event = [] := by
        rw [notifyCalls, if_neg]
        intro h
        exact hne (initial_of_starts h.1 h.2.1)
      rw [hnone, List.append_nil] at hcalls
      exact hwrites m' idx e hw hcalls (hstate ▸ next_ne_initial hne event)
  | loadSlot idx state p =>
    show Quiet (dspXferLoadSlot m idx state p).2
    rcases loadSlot_writes m idx state p with heq | ⟨e, m', heq, hw, hstate, hcalls⟩
    · rwa [heq]
    · rw [heq]
      exact hwrites m' idx e hw hcalls (hstate ▸ hload.2)

/-! ## With the callback -/

/-- The module after the history `h`, which began as the callback was set. -/
structure Notified (h : List (Call × Option Int)) (m : XferModule xferMax) : Prop where
  armed : m.notify = true
  created : ∀ i, CreatedIn h i → dspXferIsActive m i = true
  restored : ∀ i, dspXferIsActive m i = true → ¬ CreatedIn h i → dspXferGetState m i ≠ .initial
  once : ∀ i, notifications m i =
    if CreatedIn h i ∧ Started (dspXferGetState m i) then 1 else 0

theorem createdIn_snoc (h : List (Call × Option Int)) (e : Call × Option Int) (i : Int) :
    CreatedIn (h ++ [e]) i ↔ CreatedIn h i ∨ 0 ≤ i ∧ IsCreate e.1 = true ∧ e.2 = some i := by
  simp only [CreatedIn, List.mem_append, List.mem_singleton]
  constructor
  · intro hi
    obtain ⟨hpos, e', he' | rfl, hc⟩ := hi
    · exact .inl ⟨hpos, e', he', hc⟩
    · exact .inr ⟨hpos, hc⟩
  · intro hi
    rcases hi with ⟨hpos, e', he', hc⟩ | ⟨hpos, hc⟩
    · exact ⟨hpos, e', .inl he', hc⟩
    · exact ⟨hpos, e, .inr rfl, hc⟩

/-- Only a create that finds a slot adds to the slots created. -/
theorem createdIn_snoc_of_not (h : List (Call × Option Int)) {e : Call × Option Int}
    (he : IsCreate e.1 = false ∨ e.2 = some (-1)) (i : Int) :
    CreatedIn (h ++ [e]) i ↔ CreatedIn h i := by
  rw [createdIn_snoc]
  apply or_iff_left
  intro hi
  obtain ⟨hpos, hc, hidx⟩ := hi
  rcases he with he | he
  · rw [he] at hc
    cases hc
  · rw [he] at hidx
    obtain rfl := Option.some.inj hidx
    omega

theorem notified_quiet (hq : Quiet m) : Notified [] (dspXferSetNotify m true) where
  armed := rfl
  created := by
    intro i hi
    obtain ⟨-, e, he, -⟩ := hi
    cases he
  restored := fun i hi _ => hq.settled i hi
  once := by
    intro i
    have hnone : ¬ CreatedIn [] i := by
      intro hi
      obtain ⟨-, e, he, -⟩ := hi
      cases he
    have hcalls : (dspXferSetNotify m true).calls = [] := hq.calls
    rw [if_neg fun h => hnone h.1, notifications, hcalls]
    rfl

variable {h : List (Call × Option Int)}

theorem Notified.idle {e : Call × Option Int} (hn : Notified h m)
    (he : IsCreate e.1 = false ∨ e.2 = some (-1)) : Notified (h ++ [e]) m where
  armed := hn.armed
  created := fun i hi => hn.created i ((createdIn_snoc_of_not h he i).mp hi)
  restored := fun i hi hc => hn.restored i hi (mt (createdIn_snoc_of_not h he i).mpr hc)
  once := by
    intro i
    simp only [createdIn_snoc_of_not h he]
    exact hn.once i

section Writes

variable {m' : XferModule xferMax} {idx : Int} {e : XferEntry} {x : Call × Option Int}

/-- A write that creates nothing keeps the slots created in use. -/
theorem Notified.created_writes (hn : Notified h m) (hw : Writes m m' idx e)
    (hx : IsCreate x.1 = false ∨ x.2 = some (-1)) (i : Int) (hi : CreatedIn (h ++ [x]) i) :
    dspXferIsActive m' i = true := by
  rw [hw.isActive]
  split_ifs
  · rfl
  · exact hn.created i ((createdIn_snoc_of_not h hx i).mp hi)

/-- Nor does it leave a slot in INITIAL that was not created, unless it writes that state. -/
theorem Notified.restored_writes (hn : Notified h m) (hw : Writes m m' idx e)
    (hx : IsCreate x.1 = false ∨ x.2 = some (-1)) (hne : ¬ CreatedIn h idx → e.state ≠ .initial)
    (i : Int) (hi : dspXferIsActive m' i = true) (hc : ¬ CreatedIn (h ++ [x]) i) :
    dspXferGetState m' i ≠ .initial := by
  rw [createdIn_snoc_of_not h hx] at hc
  rw [hw.getState]
  split_ifs with hidx
  · exact hne (hidx ▸ hc)
  · rw [hw.isActive, if_neg hidx] at hi
    exact hn.restored i hi hc

end Writes

theorem notified_create (hn : Notified h m) (p : Option CStr) :
    Notified (h ++ [(.create p, (perform m (.create p)).1)]) (perform m (.create p)).2 := by
  rcases create_writes m p with heq | ⟨idx, e, m', heq, hpos, hfree, hw, hstate, hcalls⟩
  · simp only [perform, heq]
    exact hn.idle (.inr rfl)
  · simp only [perform, heq]
    have hsnoc : ∀ i, CreatedIn (h ++ [(.create p, some idx)]) i ↔ CreatedIn h i ∨ i = idx := by
      intro i
      rw [createdIn_snoc]
      apply or_congr_right
      constructor
      · exact fun hi => (Option.some.inj hi.2.2).symm
      · exact fun hi => ⟨hi ▸ hpos, rfl, by rw [hi]⟩
    have hnew : ¬ CreatedIn h idx := by
      intro hi
      rw [hn.created idx hi] at hfree
      cases hfree
    refine ⟨hw.notify.trans hn.armed, ?_, ?_, ?_⟩
    · intro i hi
      rw [hw.isActive]
      split_ifs with hidx
      · rfl
      · exact hn.created i (((hsnoc i).mp hi).resolve_right hidx)
    · intro i hi hc
      rw [hsnoc, not_or] at hc
      rw [hw.isActive, if_neg hc.2] at hi
      rw [hw.getState, if_neg hc.2]
      exact hn.restored i hi hc.1
    · intro i
      rw [notifications, hcalls, hw.getState]
      simp only [hsnoc]
      by_cases hidx : i = idx
      · subst hidx
        have hbefore := hn.once i
        rw [if_neg fun hi => hnew hi.1] at hbefore
        rw [if_pos rfl, hstate, if_neg (by simp [Started])]
        exact hbefore
      · simp only [hidx, or_false, if_false]
        exact hn.once i

theorem notified_loadSlot (hn : Notified h m) {idx : Int} {state : XferState} (p : Option CStr)
    (hload : LoadsEmpty m (.loadSlot idx state p)) :
    Notified (h ++ [(.loadSlot idx state p, none)]) (dspXferLoadSlot m idx state p).2 := by
  have hsnoc := createdIn_snoc_of_not h (e := (.loadSlot idx state p, none)) (.inl rfl)
  rcases loadSlot_writes m idx state p with heq | ⟨e, m', heq, hw, hstate, hcalls⟩
  · rw [heq]
    exact hn.idle (.inl rfl)
  · rw [heq]
    have hnew : ¬ CreatedIn h idx := by
      intro hi
      have hfree := hload.1
      rw [hn.created idx hi] at hfree
      cases hfree
    have hne : e.state ≠ .initial := hstate ▸ hload.2
    refine ⟨hw.notify.trans hn.armed, hn.created_writes hw (.inl rfl),
      hn.restored_writes hw (.inl rfl) fun _ => hne, ?_⟩
    intro i
    rw [notifications, hcalls, hw.getState]
    simp only [hsnoc]
    by_cases hidx : i = idx
    · subst hidx
      have hbefore := hn.once i
      rw [if_neg fun hi => hnew hi.1] at hbefore
      rw [if_neg fun hi => hnew hi.1]
      exact hbefore
    · rw [if_neg hidx]
      exact hn.once i

theorem notified_apply (hn : Notified h m) (idx : Int) (event : XferEvent) :
    Notified (h ++ [(.apply idx event, none)]) (dspXferApply m idx event).2 := by
  have hsnoc := createdIn_snoc_of_not h (e := (.apply idx event, none)) (.inl rfl)
  rcases apply_writes m idx event with heq | ⟨e, m', heq, ha, hw, hstate, hcalls⟩
  · rw [heq]
    exact hn.idle (.inl rfl)
  · rw [heq]
    have hne : ¬ CreatedIn h idx → e.state ≠ .initial := fun hc =>
      hstate ▸ next_ne_initial (hn.restored idx ha hc) event
    refine ⟨hw.notify.trans hn.armed, hn.created_writes hw (.inl rfl),
      hn.restored_writes hw (.inl rfl) hne, ?_⟩
    intro i
    have hbefore := hn.once i
    rw [notifications] at hbefore ⊢
    rw [hcalls, List.countP_append, hbefore, hw.getState, notifyCalls_eq hn.armed]
    simp only [hsnoc]
    by_cases hidx : i = idx
    · subst hidx
      rw [if_pos rfl, hstate]
      by_cases hstarts : dspXferGetState m i = .initial ∧ event = .start
      · have hc : CreatedIn h i := by
          by_contra hc
          exact hn.restored i ha hc hstarts.1
        rw [if_pos hstarts, hstarts.1, hstarts.2]
        simp [hc, Started, dspXferSmNext]
      · simp only [if_neg hstarts, started_next hstarts, List.countP_nil, Nat.add_zero]
    · have hother : ((if dspXferGetState m idx = .initial ∧ event = .start then
          [(idx, XferState.transferring)] else []).countP fun c => c.1 == i) = 0 := by
        split_ifs <;> simp [Ne.symm hidx]
      rw [hother, if_neg hidx, Nat.add_zero]

theorem notified_step (h : List (Call × Option Int)) (m : XferModule xferMax) (c : Call)
    (hload : LoadsEmpty m c) (hn : Notified h m) :
    Notified (h ++ [(c, (perform m c).1)]) (perform m c).2 := by
  cases c with
  | create p => exact notified_create hn p
  | apply idx event => exact notified_apply hn idx event
  | loadSlot idx state p => exact notified_loadSlot hn p hload

/-- The state is stored before the callback is called. -/
theorem calls_step (hn : m.notify = true) (c : Call) :
    CallsWhenTransferring m (perform m c).2 := by
  cases c with
  | create p =>
    rcases create_writes m p with heq | ⟨idx, e, m', heq, -, -, -, -, hcalls⟩
    · simp only [perform, heq]
      exact .inl rfl
    · simp only [perform, heq]
      exact .inl hcalls
  | apply idx event =>
    show CallsWhenTransferring m (dspXferApply m idx event).2
    rcases apply_writes m idx event with heq | ⟨e, m', heq, -, hw, hstate, hcalls⟩
    · rw [heq]
      exact .inl rfl
    · rw [heq]
      rw [notifyCalls_eq hn] at hcalls
      split_ifs at hcalls with hstarts
      · right
        refine ⟨idx, hcalls, ?_⟩
        rw [hw.getState, if_pos rfl, hstate, hstarts.1, hstarts.2]
        rfl
      · rw [List.append_nil] at hcalls
        exact .inl hcalls
  | loadSlot idx state p =>
    show CallsWhenTransferring m (dspXferLoadSlot m idx state p).2
    rcases loadSlot_writes m idx state p with heq | ⟨e, m', heq, -, -, hcalls⟩
    · rw [heq]
      exact .inl rfl
    · rw [heq]
      exact .inl hcalls

/-! ## Every run -/

theorem quiet_run {m : XferModule xferMax} (hq : Quiet m) {before : List Call}
    (hnone : ∀ c ∈ before, IsCreate c = false) (hloads : Along perform LoadsEmpty m before) :
    Quiet (final perform m before) := by
  induction before generalizing m with
  | nil => exact hq
  | cons c before ih =>
    exact ih (quiet_step hloads.1 (hnone c List.mem_cons_self) hq)
      (fun c' hc' => hnone c' (List.mem_cons_of_mem _ hc')) hloads.2

theorem notified_run {m : XferModule xferMax} (hq : Quiet m) {after : List Call}
    (hloads : Along perform LoadsEmpty (dspXferSetNotify m true) after) :
    Notified (trace perform (dspXferSetNotify m true) after)
      (final perform (dspXferSetNotify m true) after) :=
  trace_invariant_along notified_step after hloads (notified_quiet hq)

/-- The module when the callback is set, after calls that created nothing. -/
def armed (xferMax : Nat) (initialized : Bool) (before : List Call) : XferModule xferMax :=
  dspXferSetNotify (final perform (powerOn initialized) before) true

/-- **Exactly once.** From an empty table, with the callback set before the first
create, the callback has been called once for every transfer that was created and
has started, and for no other slot; its state is TRANSFERRING at that moment. -/
theorem notified_once (initialized : Bool) {before after : List Call}
    (hnone : ∀ c ∈ before, IsCreate c = false)
    (hbefore : Along perform LoadsEmpty (powerOn initialized : XferModule xferMax) before)
    (hafter : Along perform LoadsEmpty (armed xferMax initialized before) after) :
    (∀ i, notifications (final perform (armed xferMax initialized before) after) i =
      if CreatedIn (trace perform (armed xferMax initialized before) after) i ∧
        Started (dspXferGetState (final perform (armed xferMax initialized before) after) i)
      then 1 else 0) ∧
    ∀ done c rest, after = done ++ c :: rest →
      CallsWhenTransferring (final perform (armed xferMax initialized before) done)
        (perform (final perform (armed xferMax initialized before) done) c).2 := by
  have hquiet := quiet_run (quiet_powerOn initialized) hnone hbefore
  refine ⟨(notified_run hquiet hafter).once, ?_⟩
  intro done c rest hsplit
  rw [hsplit, along_append] at hafter
  exact calls_step (notified_run hquiet hafter.1).armed c

/-- A transfer restored while running, one that is started twice and completed,
and one that stays INITIAL. -/
def mixedRun : List Call :=
  [.create (some .empty), .apply 0 .start, .apply 0 .start, .apply 1 .complete,
    .create (some .empty), .apply 0 .complete]

theorem notified_once_mixed :
    (notifications (final perform
        (armed 3 true [.loadSlot 1 .transferring (some .empty)]) mixedRun) 0,
      notifications (final perform
        (armed 3 true [.loadSlot 1 .transferring (some .empty)]) mixedRun) 1,
      notifications (final perform
        (armed 3 true [.loadSlot 1 .transferring (some .empty)]) mixedRun) 2) = (1, 0, 0) := by
  have hcount := (notified_once true (by decide) (by decide +kernel)
    (by decide +kernel : Along perform LoadsEmpty
      (armed 3 true [.loadSlot 1 .transferring (some .empty)]) mixedRun)).1
  rw [hcount 0, hcount 1, hcount 2]
  decide +kernel

end DspEmbedded.Audit.Notify
