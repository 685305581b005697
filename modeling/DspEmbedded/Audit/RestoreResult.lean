import DspEmbedded.Model.RtcState

/-!
# What the result of a restore says

`dsp_rtc_state_restore` checks the image and then loads slot after slot. The loads
have failure conditions of their own, and copy 63 bytes of an id; their results are
not looked at. The report is therefore right exactly when the image is refused, or
every slot it marks active finds its module initialized and its ids terminated.
-/
namespace DspEmbedded.Audit.RestoreResult

open Lib.CString Lib.SlotTable Model.Esp Model.RtcState
open Model.Neg (NegModule NegState NegEntry dspNegPidLen dspNegIsActive dspNegGetState
  dspNegGetConsumerPid dspNegGetProviderPid dspNegLoadSlot)
open Model.Xfer (XferModule XferState XferEntry dspXferPidLen dspXferIsActive dspXferGetState
  dspXferGetProcessId dspXferLoadSlot)

variable {negMax xferMax : Nat}

/-! ## A truthful report -/

/-- Slot `i` is active with the stored state and ids if the image marks it active, and
not active otherwise. -/
def NegSlotRestored (slot : RtcNegSlot) (neg : NegModule negMax) (i : Nat) : Prop :=
  if slot.active = 0 then dspNegIsActive neg i = false
  else dspNegIsActive neg i = true ∧ (dspNegGetState neg i).toUInt32 = slot.state ∧
    dspNegGetConsumerPid neg i = some slot.consumerPid.str ∧
    dspNegGetProviderPid neg i = some slot.providerPid.str

def XferSlotRestored (slot : RtcXferSlot) (xfer : XferModule xferMax) (i : Nat) : Prop :=
  if slot.active = 0 then dspXferIsActive xfer i = false
  else dspXferIsActive xfer i = true ∧ (dspXferGetState xfer i).toUInt32 = slot.state ∧
    dspXferGetProcessId xfer i = some slot.processId.str

def NegRestored (store : RtcStore negMax xferMax) (neg : NegModule negMax) : Prop :=
  ∀ (i : Nat) (slot : RtcNegSlot), store.neg.get? i = some slot → NegSlotRestored slot neg i

def XferRestored (store : RtcStore negMax xferMax) (xfer : XferModule xferMax) : Prop :=
  ∀ (i : Nat) (slot : RtcXferSlot), store.xfer.get? i = some slot → XferSlotRestored slot xfer i

/-- Success means that both tables were restored, failure that neither was touched. -/
structure Truthful (store : RtcStore negMax xferMax) (neg : NegModule negMax)
    (xfer : XferModule xferMax) : Prop where
  success : (dspRtcStateRestore store neg xfer).1 = .ok →
    NegRestored store (dspRtcStateRestore store neg xfer).2.1 ∧
      XferRestored store (dspRtcStateRestore store neg xfer).2.2
  failure : (dspRtcStateRestore store neg xfer).1 ≠ .ok →
    (dspRtcStateRestore store neg xfer).2.1.table = neg.table ∧
      (dspRtcStateRestore store neg xfer).2.2.table = xfer.table

def NegEmpty (neg : NegModule negMax) : Prop := ∀ e ∈ neg.table.slots, e.active = false

def XferEmpty (xfer : XferModule xferMax) : Prop := ∀ e ∈ xfer.table.slots, e.active = false

/-! ## Images that can be loaded -/

/-- A slot marked active finds its module initialized, and its ids end in their fields. -/
def NegLoadable (store : RtcStore negMax xferMax) (neg : NegModule negMax) : Prop :=
  ∀ slot ∈ store.neg.slots, slot.active ≠ 0 →
    neg.initialized = true ∧ (0 : UInt8) ∈ slot.consumerPid.bytes ∧
      (0 : UInt8) ∈ slot.providerPid.bytes

def XferLoadable (store : RtcStore negMax xferMax) (xfer : XferModule xferMax) : Prop :=
  ∀ slot ∈ store.xfer.slots, slot.active ≠ 0 →
    xfer.initialized = true ∧ (0 : UInt8) ∈ slot.processId.bytes

/-- The image is refused, or can be loaded whole. -/
def Restorable (store : RtcStore negMax xferMax) (neg : NegModule negMax)
    (xfer : XferModule xferMax) : Prop :=
  store.magic ≠ dspRtcMagic ∨ computeCrc32 store ≠ store.crc32 ∨
    (NegLoadable store neg ∧ XferLoadable store xfer)

/-! ## The two loops -/

/-- Without initialization every load is refused. -/
theorem restoreNeg_uninitialized (store : RtcStore negMax xferMax) {neg : NegModule negMax}
    (hi : neg.initialized = false) (l : List Nat) :
    l.foldl (restoreNegSlot store) neg = neg := by
  have hstep : ∀ i : Nat, restoreNegSlot store neg i = neg := by
    intro i
    unfold restoreNegSlot
    cases store.neg.get? (i : Int) with
    | none => rfl
    | some slot =>
      by_cases ha : slot.active = 0
      · simp only [ha, if_true]
      · simp only [ha, if_false, dspNegLoadSlot, hi]
        cases neg.table.get? (i : Int) <;> rfl
  exact List.foldl_fixed' hstep l

theorem restoreXfer_uninitialized (store : RtcStore negMax xferMax) {xfer : XferModule xferMax}
    (hi : xfer.initialized = false) (l : List Nat) :
    l.foldl (restoreXferSlot store) xfer = xfer := by
  have hstep : ∀ i : Nat, restoreXferSlot store xfer i = xfer := by
    intro i
    unfold restoreXferSlot
    cases store.xfer.get? (i : Int) with
    | none => rfl
    | some slot =>
      by_cases ha : slot.active = 0
      · simp only [ha, if_true]
      · simp only [ha, if_false, dspXferLoadSlot, hi]
        cases xfer.table.get? (i : Int) <;> rfl
  exact List.foldl_fixed' hstep l

/-- What a slot of an empty, initialized table holds after its loop. -/
theorem get?_restoreNeg {store : RtcStore negMax xferMax} {neg : NegModule negMax}
    (hi : neg.initialized = true) {i : Nat} (hlt : i < negMax) :
    ((List.range negMax).foldl (restoreNegSlot store) neg).table.get? (i : Int) =
      (storedNeg store i).or (neg.table.get? (i : Int)) := by
  rw [restoreNeg_eq store hi le_rfl, Table.get?_ofNat, Table.get?_ofNat,
    Table.getElem?_overlay _ _ _ hlt, if_pos hlt]

theorem get?_restoreXfer {store : RtcStore negMax xferMax} {xfer : XferModule xferMax}
    (hi : xfer.initialized = true) {i : Nat} (hlt : i < xferMax) :
    ((List.range xferMax).foldl (restoreXferSlot store) xfer).table.get? (i : Int) =
      (storedXfer store i).or (xfer.table.get? (i : Int)) := by
  rw [restoreXfer_eq store hi le_rfl, Table.get?_ofNat, Table.get?_ofNat,
    Table.getElem?_overlay _ _ _ hlt, if_pos hlt]

/-- An id survives the copy of 63 bytes if its field holds a NUL. -/
theorem copied_eq_iff {cap : Nat} (hcap : 0 < cap) (pid : CharBuf cap) :
    (CharBuf.ofStr cap (pid.str.take (cap - 1))).str = pid.str ↔ (0 : UInt8) ∈ pid.bytes := by
  have hcut : (pid.str.take (cap - 1)).length < cap := by
    have hle := CStr.length_take_le (cap - 1) pid.str
    omega
  rw [CharBuf.str_ofStr hcut, ← CharBuf.length_str_lt_iff]
  constructor
  · intro h
    rwa [h] at hcut
  · intro h
    exact CStr.take_of_length_le (Nat.le_sub_one_of_lt h)

/-- Where nothing was loaded, only free slots come out as the image has them. -/
theorem negSlotRestored_free_iff {slot : RtcNegSlot} {neg : NegModule negMax} {i : Nat}
    (hfree : dspNegIsActive neg i = false) : NegSlotRestored slot neg i ↔ slot.active = 0 := by
  by_cases ha : slot.active = 0
  · simp [NegSlotRestored, ha, hfree]
  · simp [NegSlotRestored, ha, hfree]

theorem xferSlotRestored_free_iff {slot : RtcXferSlot} {xfer : XferModule xferMax} {i : Nat}
    (hfree : dspXferIsActive xfer i = false) :
    XferSlotRestored slot xfer i ↔ slot.active = 0 := by
  by_cases ha : slot.active = 0
  · simp [XferSlotRestored, ha, hfree]
  · simp [XferSlotRestored, ha, hfree]

theorem negEmpty_free {neg : NegModule negMax} (hempty : NegEmpty neg) (i : Int) :
    dspNegIsActive neg i = false := by
  unfold dspNegIsActive
  cases hget : neg.table.get? i with
  | none => rfl
  | some e => exact hempty e (Table.mem_of_get? hget)

theorem xferEmpty_free {xfer : XferModule xferMax} (hempty : XferEmpty xfer) (i : Int) :
    dspXferIsActive xfer i = false := by
  unfold dspXferIsActive
  cases hget : xfer.table.get? i with
  | none => rfl
  | some e => exact hempty e (Table.mem_of_get? hget)

/-- The loop over an initialized table brings in what has its ids terminated. -/
theorem negSlotRestored_loaded_iff {store : RtcStore negMax xferMax} {neg : NegModule negMax}
    (hi : neg.initialized = true) (hempty : NegEmpty neg) {i : Nat} {slot : RtcNegSlot}
    (hget : store.neg.get? (i : Int) = some slot) :
    NegSlotRestored slot ((List.range negMax).foldl (restoreNegSlot store) neg) i ↔
      (slot.active ≠ 0 → (0 : UInt8) ∈ slot.consumerPid.bytes ∧
        (0 : UInt8) ∈ slot.providerPid.bytes) := by
  have hnew := @get?_restoreNeg _ _ store _ hi _ (Table.lt_of_get? hget)
  by_cases ha : slot.active = 0
  · have hstored : storedNeg store i = none := by simp only [storedNeg, hget, ha, if_true]
    rw [hstored, Option.none_or] at hnew
    have hfree := negEmpty_free hempty (i : Int)
    rw [dspNegIsActive, ← hnew] at hfree
    rw [negSlotRestored_free_iff hfree]
    exact ⟨fun h hne => absurd h hne, fun _ => ha⟩
  · have hstored : storedNeg store i =
        some { Model.Neg.newEntry slot.consumerPid.str slot.providerPid.str with
          state := .ofUInt32 slot.state } := by simp only [storedNeg, hget, ha, if_false]
    rw [hstored, Option.some_or] at hnew
    have hc := copied_eq_iff (by decide : 0 < dspNegPidLen) slot.consumerPid
    have hp := copied_eq_iff (by decide : 0 < dspNegPidLen) slot.providerPid
    simp [NegSlotRestored, ha, dspNegIsActive, dspNegGetState, dspNegGetConsumerPid,
      dspNegGetProviderPid, hnew, Model.Neg.newEntry, NegState.toUInt32_ofUInt32, hc, hp]

theorem xferSlotRestored_loaded_iff {store : RtcStore negMax xferMax} {xfer : XferModule xferMax}
    (hi : xfer.initialized = true) (hempty : XferEmpty xfer) {i : Nat} {slot : RtcXferSlot}
    (hget : store.xfer.get? (i : Int) = some slot) :
    XferSlotRestored slot ((List.range xferMax).foldl (restoreXferSlot store) xfer) i ↔
      (slot.active ≠ 0 → (0 : UInt8) ∈ slot.processId.bytes) := by
  have hnew := @get?_restoreXfer _ _ store _ hi _ (Table.lt_of_get? hget)
  by_cases ha : slot.active = 0
  · have hstored : storedXfer store i = none := by simp only [storedXfer, hget, ha, if_true]
    rw [hstored, Option.none_or] at hnew
    have hfree := xferEmpty_free hempty (i : Int)
    rw [dspXferIsActive, ← hnew] at hfree
    rw [xferSlotRestored_free_iff hfree]
    exact ⟨fun h hne => absurd h hne, fun _ => ha⟩
  · have hstored : storedXfer store i =
        some { Model.Xfer.newEntry slot.processId.str with state := .ofUInt32 slot.state } := by
      simp only [storedXfer, hget, ha, if_false]
    rw [hstored, Option.some_or] at hnew
    have hp := copied_eq_iff (by decide : 0 < dspXferPidLen) slot.processId
    simp [XferSlotRestored, ha, dspXferIsActive, dspXferGetState, dspXferGetProcessId, hnew,
      Model.Xfer.newEntry, XferState.toUInt32_ofUInt32, hp]

theorem negRestored_iff {store : RtcStore negMax xferMax} {neg : NegModule negMax}
    (hempty : NegEmpty neg) :
    NegRestored store ((List.range negMax).foldl (restoreNegSlot store) neg) ↔
      NegLoadable store neg := by
  rw [NegLoadable, Table.forall_mem_iff]
  refine forall_congr' fun i => forall_congr' fun slot => forall_congr' fun hget => ?_
  cases hi : neg.initialized with
  | false =>
    rw [restoreNeg_uninitialized store hi, negSlotRestored_free_iff (negEmpty_free hempty i)]
    simp
  | true =>
    rw [negSlotRestored_loaded_iff hi hempty hget]
    simp

theorem xferRestored_iff {store : RtcStore negMax xferMax} {xfer : XferModule xferMax}
    (hempty : XferEmpty xfer) :
    XferRestored store ((List.range xferMax).foldl (restoreXferSlot store) xfer) ↔
      XferLoadable store xfer := by
  rw [XferLoadable, Table.forall_mem_iff]
  refine forall_congr' fun i => forall_congr' fun slot => forall_congr' fun hget => ?_
  cases hi : xfer.initialized with
  | false =>
    rw [restoreXfer_uninitialized store hi, xferSlotRestored_free_iff (xferEmpty_free hempty i)]
    simp
  | true =>
    rw [xferSlotRestored_loaded_iff hi hempty hget]
    simp

/-! ## The report -/

/-- A refused image touches nothing. -/
theorem refused {store : RtcStore negMax xferMax}
    (h : store.magic ≠ dspRtcMagic ∨ computeCrc32 store ≠ store.crc32) (neg : NegModule negMax)
    (xfer : XferModule xferMax) :
    (dspRtcStateRestore store neg xfer).1 ≠ .ok ∧
      (dspRtcStateRestore store neg xfer).2 = (neg, xfer) := by
  unfold dspRtcStateRestore
  by_cases hmagic : store.magic ≠ dspRtcMagic
  · rw [if_pos hmagic]
    exact ⟨EspErr.noConfusion, rfl⟩
  · rw [if_neg hmagic, if_pos (h.resolve_left hmagic)]
    exact ⟨EspErr.noConfusion, rfl⟩

theorem accepted {store : RtcStore negMax xferMax} (hmagic : store.magic = dspRtcMagic)
    (hcrc : computeCrc32 store = store.crc32) (neg : NegModule negMax)
    (xfer : XferModule xferMax) :
    dspRtcStateRestore store neg xfer =
      (.ok, (List.range negMax).foldl (restoreNegSlot store) neg,
        (List.range xferMax).foldl (restoreXferSlot store) xfer) := by
  rw [dspRtcStateRestore, if_neg (not_not.mpr hmagic), if_neg (not_not.mpr hcrc)]

/-- **When a restore can be believed.** Its result is right exactly for images that
are refused, or whose marked slots find their module initialized and their ids
terminated within the field. -/
theorem restore_truthful_iff (store : RtcStore negMax xferMax) (neg : NegModule negMax)
    (xfer : XferModule xferMax) (hneg : NegEmpty neg) (hxfer : XferEmpty xfer) :
    Truthful store neg xfer ↔ Restorable store neg xfer := by
  by_cases hmagic : store.magic = dspRtcMagic
  · by_cases hcrc : computeCrc32 store = store.crc32
    · have hrun := accepted hmagic hcrc neg xfer
      have hall : Restorable store neg xfer ↔
          NegLoadable store neg ∧ XferLoadable store xfer := by
        simp [Restorable, hmagic, hcrc]
      rw [hall, ← negRestored_iff hneg, ← xferRestored_iff hxfer]
      constructor
      · intro h
        have hsuccess := h.success (by rw [hrun])
        rwa [hrun] at hsuccess
      · intro h
        refine ⟨fun _ => by rwa [hrun], fun hne => absurd (by rw [hrun]) hne⟩
    · obtain ⟨hne, hsame⟩ := refused (.inr hcrc) neg xfer
      exact ⟨fun _ => .inr (.inl hcrc), fun _ => ⟨fun h => absurd h hne, fun _ => by simp [hsame]⟩⟩
  · obtain ⟨hne, hsame⟩ := refused (.inl hmagic) neg xfer
    exact ⟨fun _ => .inl hmagic, fun _ => ⟨fun h => absurd h hne, fun _ => by simp [hsame]⟩⟩

/-- What a board with one negotiation and one transfer saves before it sleeps. -/
def sleepImage : RtcStore 1 1 :=
  (dspRtcStateSave
    (Model.Neg.dspNegCreate (Model.Neg.dspNegInit (.boot 1)).2
      (some (CStr.lit "urn:c")) (some (CStr.lit "urn:p"))).2
    (Model.Xfer.dspXferCreate (Model.Xfer.dspXferInit (.boot 1)).2 (some (CStr.lit "urn:c"))).2
    (.zero 1 1)).2

theorem restore_truthful_initialized :
    Truthful sleepImage (Model.Neg.dspNegInit (.boot 1)).2 (Model.Xfer.dspXferInit (.boot 1)).2 :=
  (restore_truthful_iff sleepImage _ _ (by unfold NegEmpty; decide)
    (by unfold XferEmpty; decide)).mpr
    (.inr (.inr ⟨by unfold NegLoadable; decide, by unfold XferLoadable; decide⟩))

/-- With only the negotiations initialized the transfer is lost, and ESP_OK reported. -/
theorem half_restored :
    NegEmpty (Model.Neg.dspNegInit (.boot 1)).2 ∧ XferEmpty (.boot 1) ∧
      (dspRtcStateRestore sleepImage (Model.Neg.dspNegInit (.boot 1)).2 (.boot 1)).1 = .ok ∧
      Model.Neg.dspNegCountActive
        (dspRtcStateRestore sleepImage (Model.Neg.dspNegInit (.boot 1)).2 (.boot 1)).2.1 = 1 ∧
      Model.Xfer.dspXferCountActive
        (dspRtcStateRestore sleepImage (Model.Neg.dspNegInit (.boot 1)).2 (.boot 1)).2.2 = 0 ∧
      ¬ Truthful sleepImage (Model.Neg.dspNegInit (.boot 1)).2 (.boot 1) := by
  have hrun := @accepted _ _ sleepImage rfl rfl (Model.Neg.dspNegInit (.boot 1)).2 (.boot 1)
  refine ⟨by unfold NegEmpty; decide, by unfold XferEmpty; decide, by rw [hrun], ?_, ?_, ?_⟩
  · rw [hrun]
    decide
  · rw [hrun]
    decide
  · intro h
    have hxfer := (h.success (by rw [hrun])).2
    rw [hrun, xferRestored_iff (by unfold XferEmpty; decide)] at hxfer
    have hload : ¬ XferLoadable sleepImage (.boot 1) := by unfold XferLoadable; decide
    exact hload hxfer

end DspEmbedded.Audit.RestoreResult
