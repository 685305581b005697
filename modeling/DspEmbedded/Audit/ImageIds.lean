import DspEmbedded.Lib.CutKeys
import DspEmbedded.Audit.RestoreResult

/-!
# The ids in an image

By the index of their slot, as the getters of the two tables give them: a save
copies the ids of a table, a restore lays them over those that are there.
-/
namespace DspEmbedded.Audit.ImageIds

open Lib.CString Lib.CutKeys Lib.SlotTable Model.RtcState Audit.RestoreResult
open Model.Neg (NegModule NegEntry dspNegGetConsumerPid)
open Model.Xfer (XferModule XferEntry dspXferGetProcessId)

variable {negMax xferMax : Nat}

def imageCpid (store : RtcStore negMax xferMax) : Int → Option CStr :=
  keysOf NegEntry.cpid (storedNeg store)

def imagePid (store : RtcStore negMax xferMax) : Int → Option CStr :=
  keysOf XferEntry.pid (storedXfer store)

theorem storedNeg_active {store : RtcStore negMax xferMax} {i : Nat} {e : NegEntry}
    (h : storedNeg store i = some e) : e.active = true := by
  unfold storedNeg at h
  split at h
  · cases h
  · split_ifs at h
    obtain rfl := Option.some.inj h
    rfl

theorem storedXfer_active {store : RtcStore negMax xferMax} {i : Nat} {e : XferEntry}
    (h : storedXfer store i = some e) : e.active = true := by
  unfold storedXfer at h
  split at h
  · cases h
  · split_ifs at h
    obtain rfl := Option.some.inj h
    rfl

/-- No slot of the image lies behind its end. -/
theorem storedNeg_none {store : RtcStore negMax xferMax} {i : Nat} (h : negMax ≤ i) :
    storedNeg store i = none := by
  unfold storedNeg
  split
  · rfl
  · next hget => exact absurd (Table.lt_of_get? hget) (by omega)

theorem storedXfer_none {store : RtcStore negMax xferMax} {i : Nat} (h : xferMax ≤ i) :
    storedXfer store i = none := by
  unfold storedXfer
  split
  · rfl
  · next hget => exact absurd (Table.lt_of_get? hget) (by omega)

theorem imageCpid_zero : imageCpid (RtcStore.zero negMax xferMax) = fun _ => none := by
  apply keysOf_none
  intro i
  unfold storedNeg
  split
  · rfl
  · next slot hget =>
    obtain rfl := List.eq_of_mem_replicate (Table.mem_of_get? hget)
    rfl

theorem imagePid_zero : imagePid (RtcStore.zero negMax xferMax) = fun _ => none := by
  apply keysOf_none
  intro i
  unfold storedXfer
  split
  · rfl
  · next slot hget =>
    obtain rfl := List.eq_of_mem_replicate (Table.mem_of_get? hget)
    rfl

/-! ## Save and restore -/

/-- A save brings the ids of the table into the image. -/
theorem imageCpid_save {neg : NegModule negMax} (hc : ∀ e ∈ neg.table.slots, e.Canonical)
    (xfer : XferModule xferMax) (store : RtcStore negMax xferMax) :
    imageCpid (dspRtcStateSave neg xfer store).2 = dspNegGetConsumerPid neg := by
  rw [Model.Neg.getConsumerPid_eq]
  exact keysOf_eq_keyAt (fun i e hget => storedNeg_save hget (hc e (Table.mem_of_get? hget)))
    fun i => storedNeg_none

theorem imagePid_save {xfer : XferModule xferMax} (hc : ∀ e ∈ xfer.table.slots, e.Canonical)
    (neg : NegModule negMax) (store : RtcStore negMax xferMax) :
    imagePid (dspRtcStateSave neg xfer store).2 = dspXferGetProcessId xfer := by
  rw [Model.Xfer.getProcessId_eq]
  exact keysOf_eq_keyAt (fun i e hget => storedXfer_save hget (hc e (Table.mem_of_get? hget)))
    fun i => storedXfer_none

/-- A restore lays the ids of the image over those of the table. -/
theorem getConsumerPid_restore (store : RtcStore negMax xferMax) {neg : NegModule negMax}
    (hi : neg.initialized = true) :
    dspNegGetConsumerPid ((List.range negMax).foldl (restoreNegSlot store) neg) =
      overlay (imageCpid store) (dspNegGetConsumerPid neg) := by
  rw [restoreNeg_eq store hi le_rfl, Model.Neg.getConsumerPid_eq, Model.Neg.getConsumerPid_eq]
  exact keyAt_overlay (fun i e => storedNeg_active) fun i => storedNeg_none

theorem getProcessId_restore (store : RtcStore negMax xferMax) {xfer : XferModule xferMax}
    (hi : xfer.initialized = true) :
    dspXferGetProcessId ((List.range xferMax).foldl (restoreXferSlot store) xfer) =
      overlay (imagePid store) (dspXferGetProcessId xfer) := by
  rw [restoreXfer_eq store hi le_rfl, Model.Xfer.getProcessId_eq, Model.Xfer.getProcessId_eq]
  exact keyAt_overlay (fun i e => storedXfer_active) fun i => storedXfer_none

theorem restoreNeg_canonical (store : RtcStore negMax xferMax) {neg : NegModule negMax}
    (hc : ∀ e ∈ neg.table.slots, e.Canonical) (l : List Nat) :
    ∀ e ∈ (l.foldl (restoreNegSlot store) neg).table.slots, e.Canonical := by
  refine List.foldlRecOn (motive := fun m : NegModule negMax => ∀ e ∈ m.table.slots, e.Canonical)
    l (restoreNegSlot store) hc ?_
  intro m hm i _
  unfold restoreNegSlot
  split
  · exact hm
  · split_ifs
    · exact hm
    · exact (Model.Neg.loadSlot_canonical hm _ _ _ _).1

theorem restoreXfer_canonical (store : RtcStore negMax xferMax) {xfer : XferModule xferMax}
    (hc : ∀ e ∈ xfer.table.slots, e.Canonical) (l : List Nat) :
    ∀ e ∈ (l.foldl (restoreXferSlot store) xfer).table.slots, e.Canonical := by
  refine List.foldlRecOn
    (motive := fun m : XferModule xferMax => ∀ e ∈ m.table.slots, e.Canonical)
    l (restoreXferSlot store) hc ?_
  intro m hm i _
  unfold restoreXferSlot
  split
  · exact hm
  · split_ifs
    · exact hm
    · exact (Model.Xfer.loadSlot_canonical hm _ _ _).1

end DspEmbedded.Audit.ImageIds
