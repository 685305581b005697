import DspEmbedded.Model.Neg
import DspEmbedded.Model.Xfer

/-!
# `dsp_rtc_state.c`

The image in RTC memory with all its bytes: fixed-width slots with padding, a
magic word, and a CRC32 over the two slot arrays, little endian as on the target.
-/
namespace DspEmbedded.Model.RtcState

open Lib.CString Lib.SlotTable Model.Esp
open Model.Neg (NegModule NegState NegEntry dspNegPidLen dspNegIsActive dspNegGetState
  dspNegGetConsumerPid dspNegGetProviderPid dspNegLoadSlot dspNegInit dspNegDeinit)
open Model.Xfer (XferModule XferState XferEntry dspXferPidLen dspXferIsActive dspXferGetState
  dspXferGetProcessId dspXferLoadSlot dspXferInit dspXferDeinit)

/-! ## The image -/

/-- `dsp_rtc_neg_slot_t`. -/
structure RtcNegSlot where
  active : UInt8
  pad : CharBuf 3
  state : UInt32
  consumerPid : CharBuf dspNegPidLen
  providerPid : CharBuf dspNegPidLen
  deriving DecidableEq

/-- `dsp_rtc_xfer_slot_t`. -/
structure RtcXferSlot where
  active : UInt8
  pad : CharBuf 3
  state : UInt32
  processId : CharBuf dspXferPidLen
  deriving DecidableEq

def RtcNegSlot.zero : RtcNegSlot := ⟨0, .zero 3, 0, .zero _, .zero _⟩

def RtcXferSlot.zero : RtcXferSlot := ⟨0, .zero 3, 0, .zero _⟩

/-- `dsp_rtc_state_t`. -/
structure RtcStore (negMax xferMax : Nat) where
  magic : UInt32
  crc32 : UInt32
  neg : Table RtcNegSlot negMax
  xfer : Table RtcXferSlot xferMax

variable {negMax xferMax : Nat}

def RtcStore.zero (negMax xferMax : Nat) : RtcStore negMax xferMax :=
  ⟨0, 0, Table.fill negMax .zero, Table.fill xferMax .zero⟩

/-- `DSP_RTC_MAGIC`. -/
def dspRtcMagic : UInt32 := 0x44355035

def uint32Bytes (v : UInt32) : List UInt8 :=
  [v.toUInt8, (v >>> 8).toUInt8, (v >>> 16).toUInt8, (v >>> 24).toUInt8]

def RtcNegSlot.bytes (s : RtcNegSlot) : List UInt8 :=
  s.active :: (s.pad.bytes ++ uint32Bytes s.state ++ s.consumerPid.bytes ++ s.providerPid.bytes)

def RtcXferSlot.bytes (s : RtcXferSlot) : List UInt8 :=
  s.active :: (s.pad.bytes ++ uint32Bytes s.state ++ s.processId.bytes)

/-! ## CRC32 -/

/-- One round of the inner loop. -/
def crc32Bit (crc : UInt32) : UInt32 :=
  if crc &&& 1 ≠ 0 then (crc >>> 1) ^^^ 0xEDB88320 else crc >>> 1

def crc32Byte (crc : UInt32) (b : UInt8) : UInt32 :=
  (List.range 8).foldl (fun crc _ => crc32Bit crc) (crc ^^^ b.toUInt32)

def crc32Update (crc : UInt32) (buf : List UInt8) : UInt32 := buf.foldl crc32Byte crc

def computeCrc32 (s : RtcStore negMax xferMax) : UInt32 :=
  let crc := crc32Update 0xFFFFFFFF (s.neg.slots.flatMap RtcNegSlot.bytes)
  let crc := crc32Update crc (s.xfer.slots.flatMap RtcXferSlot.bytes)
  crc ^^^ 0xFFFFFFFF

/-! ## Save and restore -/

/-- A string copied into a cleared field of the image, if the getter has one. -/
def storePid {cap : Nat} (pid : Option CStr) : CharBuf cap :=
  match pid with
  | some pid => (strncpy (.zero cap) pid (cap - 1)).set (cap - 1) 0
  | none => .zero cap

def saveNegSlot (neg : NegModule negMax) (i : Nat) : RtcNegSlot :=
  if dspNegIsActive neg i then
    { active := 1
      pad := .zero 3
      state := (dspNegGetState neg i).toUInt32
      consumerPid := storePid (dspNegGetConsumerPid neg i)
      providerPid := storePid (dspNegGetProviderPid neg i) }
  else .zero

def saveXferSlot (xfer : XferModule xferMax) (i : Nat) : RtcXferSlot :=
  if dspXferIsActive xfer i then
    { active := 1
      pad := .zero 3
      state := (dspXferGetState xfer i).toUInt32
      processId := storePid (dspXferGetProcessId xfer i) }
  else .zero

def dspRtcStateSave (neg : NegModule negMax) (xfer : XferModule xferMax)
    (store : RtcStore negMax xferMax) : EspErr × RtcStore negMax xferMax :=
  let store := { store with
    neg := Table.ofFn negMax (saveNegSlot neg)
    xfer := Table.ofFn xferMax (saveXferSlot xfer) }
  (.ok, { store with crc32 := computeCrc32 store, magic := dspRtcMagic })

/-- One round of the first restore loop. The result of the load is ignored. -/
def restoreNegSlot (store : RtcStore negMax xferMax) (neg : NegModule negMax) (i : Nat) :
    NegModule negMax :=
  match store.neg.get? i with
  | none => neg
  | some slot =>
    if slot.active = 0 then neg
    else (dspNegLoadSlot neg i (.ofUInt32 slot.state) (some slot.consumerPid.str)
      (some slot.providerPid.str)).2

def restoreXferSlot (store : RtcStore negMax xferMax) (xfer : XferModule xferMax) (i : Nat) :
    XferModule xferMax :=
  match store.xfer.get? i with
  | none => xfer
  | some slot =>
    if slot.active = 0 then xfer
    else (dspXferLoadSlot xfer i (.ofUInt32 slot.state) (some slot.processId.str)).2

def dspRtcStateRestore (store : RtcStore negMax xferMax) (neg : NegModule negMax)
    (xfer : XferModule xferMax) : EspErr × NegModule negMax × XferModule xferMax :=
  if store.magic ≠ dspRtcMagic then (.invalidState, neg, xfer)
  else if computeCrc32 store ≠ store.crc32 then (.invalidCrc, neg, xfer)
  else
    (.ok, (List.range negMax).foldl (restoreNegSlot store) neg,
      (List.range xferMax).foldl (restoreXferSlot store) xfer)

def dspRtcStateClear (_ : RtcStore negMax xferMax) : RtcStore negMax xferMax :=
  .zero negMax xferMax

def dspRtcStateIsValid (store : RtcStore negMax xferMax) : Bool :=
  if store.magic ≠ dspRtcMagic then false else computeCrc32 store = store.crc32

/-! ## What a restore loop does to a table -/

/-- The entry that slot `j` of the image stands for. -/
def storedNeg (store : RtcStore negMax xferMax) (j : Nat) : Option NegEntry :=
  match store.neg.get? j with
  | none => none
  | some slot =>
    if slot.active = 0 then none
    else some { Neg.newEntry slot.consumerPid.str slot.providerPid.str with
      state := .ofUInt32 slot.state }

def storedXfer (store : RtcStore negMax xferMax) (j : Nat) : Option XferEntry :=
  match store.xfer.get? j with
  | none => none
  | some slot =>
    if slot.active = 0 then none
    else some { Xfer.newEntry slot.processId.str with state := .ofUInt32 slot.state }

theorem loadNeg_eq {neg : NegModule negMax} (hi : neg.initialized = true) {j : Nat}
    (hj : j < negMax) (state : NegState) (c p : CStr) :
    (dspNegLoadSlot neg j state (some c) (some p)).2 =
      { neg with table := neg.table.set j { Neg.newEntry c p with state := state } } := by
  obtain ⟨e, hget⟩ := neg.table.exists_get? hj
  simp only [dspNegLoadSlot, hget, hi, Neg.copyPid_eq]
  rfl

theorem loadXfer_eq {xfer : XferModule xferMax} (hi : xfer.initialized = true) {j : Nat}
    (hj : j < xferMax) (state : XferState) (p : CStr) :
    (dspXferLoadSlot xfer j state (some p)).2 =
      { xfer with table := xfer.table.set j { Xfer.newEntry p with state := state } } := by
  obtain ⟨e, hget⟩ := xfer.table.exists_get? hj
  simp only [dspXferLoadSlot, hget, hi, Xfer.copyPid_eq]
  rfl

/-- Slots that the image marks active overwrite, the others are left alone. -/
theorem restoreNeg_eq (store : RtcStore negMax xferMax) {neg : NegModule negMax}
    (hi : neg.initialized = true) {n : Nat} (hn : n ≤ negMax) :
    (List.range n).foldl (restoreNegSlot store) neg =
      { neg with table := (List.range n).foldl (Table.overlay (storedNeg store)) neg.table } := by
  induction n with
  | zero => rfl
  | succ n ih =>
    rw [List.range_succ, List.foldl_append, List.foldl_append, ih (by omega)]
    simp only [List.foldl_cons, List.foldl_nil, restoreNegSlot, Table.overlay, storedNeg]
    cases store.neg.get? (n : Int) with
    | none => rfl
    | some slot =>
      by_cases ha : slot.active = 0
      · simp only [ha, if_true]
      · simp only [ha, if_false]
        rw [loadNeg_eq (by exact hi) (by omega)]

theorem restoreXfer_eq (store : RtcStore negMax xferMax) {xfer : XferModule xferMax}
    (hi : xfer.initialized = true) {n : Nat} (hn : n ≤ xferMax) :
    (List.range n).foldl (restoreXferSlot store) xfer =
      { xfer with
        table := (List.range n).foldl (Table.overlay (storedXfer store)) xfer.table } := by
  induction n with
  | zero => rfl
  | succ n ih =>
    rw [List.range_succ, List.foldl_append, List.foldl_append, ih (by omega)]
    simp only [List.foldl_cons, List.foldl_nil, restoreXferSlot, Table.overlay, storedXfer]
    cases store.xfer.get? (n : Int) with
    | none => rfl
    | some slot =>
      by_cases ha : slot.active = 0
      · simp only [ha, if_true]
      · simp only [ha, if_false]
        rw [loadXfer_eq (by exact hi) (by omega)]

/-! ## Round trip of one slot -/

theorem storePid_str {cap : Nat} {s : CStr} (h : s.length < cap) :
    (storePid (some s) : CharBuf cap) = .ofStr cap s := by
  have hterm := strncpy_terminated (Nat.zero_lt_of_lt h) (.zero cap) s
  rw [CStr.take_of_length_le (Nat.le_sub_one_of_lt h)] at hterm
  exact hterm

theorem storedNeg_save {neg : NegModule negMax} {xfer : XferModule xferMax}
    {store : RtcStore negMax xferMax} {j : Nat} {e : NegEntry}
    (hget : neg.table.get? (j : Int) = some e) (hc : e.Canonical) :
    storedNeg (dspRtcStateSave neg xfer store).2 j = if e.active then some e else none := by
  have hj : j < negMax := Table.lt_of_get? hget
  have hslot : (dspRtcStateSave neg xfer store).2.neg.get? (j : Int) =
      some (saveNegSlot neg j) := by
    rw [Table.get?_ofNat]
    exact Table.getElem?_ofFn hj
  simp only [storedNeg, hslot]
  cases ha : e.active with
  | false => simp [saveNegSlot, dspNegIsActive, hget, ha, RtcNegSlot.zero]
  | true =>
    obtain ⟨c, hcl, hce⟩ := hc.consumer
    obtain ⟨p, hpl, hpe⟩ := hc.provider
    obtain ⟨state, consumerPid, providerPid, active⟩ := e
    simp only at ha hce hpe
    subst ha hce hpe
    have hsave : saveNegSlot neg j = ⟨1, .zero 3, state.toUInt32, .ofStr _ c, .ofStr _ p⟩ := by
      simp [saveNegSlot, dspNegIsActive, dspNegGetState, dspNegGetConsumerPid,
        dspNegGetProviderPid, hget, CharBuf.str_ofStr hcl, CharBuf.str_ofStr hpl,
        storePid_str hcl, storePid_str hpl]
    have hct : c.take (dspNegPidLen - 1) = c := CStr.take_of_length_le (Nat.le_sub_one_of_lt hcl)
    have hpt : p.take (dspNegPidLen - 1) = p := CStr.take_of_length_le (Nat.le_sub_one_of_lt hpl)
    simp [hsave, Neg.newEntry, CharBuf.str_ofStr hcl, CharBuf.str_ofStr hpl, hct, hpt,
      NegState.ofUInt32_toUInt32]

theorem storedXfer_save {neg : NegModule negMax} {xfer : XferModule xferMax}
    {store : RtcStore negMax xferMax} {j : Nat} {e : XferEntry}
    (hget : xfer.table.get? (j : Int) = some e) (hc : e.Canonical) :
    storedXfer (dspRtcStateSave neg xfer store).2 j = if e.active then some e else none := by
  have hj : j < xferMax := Table.lt_of_get? hget
  have hslot : (dspRtcStateSave neg xfer store).2.xfer.get? (j : Int) =
      some (saveXferSlot xfer j) := by
    rw [Table.get?_ofNat]
    exact Table.getElem?_ofFn hj
  simp only [storedXfer, hslot]
  cases ha : e.active with
  | false => simp [saveXferSlot, dspXferIsActive, hget, ha, RtcXferSlot.zero]
  | true =>
    obtain ⟨p, hpl, hpe⟩ := hc.process
    obtain ⟨state, processId, active⟩ := e
    simp only at ha hpe
    subst ha hpe
    have hsave : saveXferSlot xfer j = ⟨1, .zero 3, state.toUInt32, .ofStr _ p⟩ := by
      simp [saveXferSlot, dspXferIsActive, dspXferGetState, dspXferGetProcessId, hget,
        CharBuf.str_ofStr hpl, storePid_str hpl]
    have hpt : p.take (dspXferPidLen - 1) = p := CStr.take_of_length_le (Nat.le_sub_one_of_lt hpl)
    simp [hsave, Xfer.newEntry, CharBuf.str_ofStr hpl, hpt, XferState.ofUInt32_toUInt32]

/-! ## Round trip of the image -/

/-- The saved slots laid over a table that is empty, or that they are in already. -/
theorem overlay_saveNeg {neg : NegModule negMax} (xfer : XferModule xferMax)
    (store : RtcStore negMax xferMax) (hneg : ∀ e ∈ neg.table.slots, e.Canonical)
    {t : Table NegEntry negMax} (ht : t = Table.fill negMax .zero ∨ t = neg.table) :
    (List.range negMax).foldl
      (Table.overlay (storedNeg (dspRtcStateSave neg xfer store).2)) t = neg.table := by
  apply Table.ext_getElem?
  intro i hi
  obtain ⟨e, hget⟩ := neg.table.exists_get? hi
  have hc := hneg e (Table.mem_of_get? hget)
  rw [Table.getElem?_overlay _ _ _ hi, if_pos hi, storedNeg_save hget hc]
  rcases ht with rfl | rfl
  · rw [Table.getElem?_fill hi, ← Table.get?_ofNat, hget]
    cases ha : e.active with
    | true => rfl
    | false => simp [hc.free ha]
  · rw [← Table.get?_ofNat, hget]
    cases e.active <;> rfl

theorem overlay_saveXfer (neg : NegModule negMax) {xfer : XferModule xferMax}
    (store : RtcStore negMax xferMax) (hxfer : ∀ e ∈ xfer.table.slots, e.Canonical)
    {t : Table XferEntry xferMax} (ht : t = Table.fill xferMax .zero ∨ t = xfer.table) :
    (List.range xferMax).foldl
      (Table.overlay (storedXfer (dspRtcStateSave neg xfer store).2)) t = xfer.table := by
  apply Table.ext_getElem?
  intro i hi
  obtain ⟨e, hget⟩ := xfer.table.exists_get? hi
  have hc := hxfer e (Table.mem_of_get? hget)
  rw [Table.getElem?_overlay _ _ _ hi, if_pos hi, storedXfer_save hget hc]
  rcases ht with rfl | rfl
  · rw [Table.getElem?_fill hi, ← Table.get?_ofNat, hget]
    cases ha : e.active with
    | true => rfl
    | false => simp [hc.free ha]
  · rw [← Table.get?_ofNat, hget]
    cases e.active <;> rfl

/-- A sealed image passes its own checks, and brings the saved tables into modules that
are empty or have them already. Nothing is notified. -/
theorem restore_saved {neg neg₀ : NegModule negMax} {xfer xfer₀ : XferModule xferMax}
    (store : RtcStore negMax xferMax) (hneg : ∀ e ∈ neg.table.slots, e.Canonical)
    (hxfer : ∀ e ∈ xfer.table.slots, e.Canonical) (hn : neg₀.initialized = true)
    (hx : xfer₀.initialized = true)
    (hnt : neg₀.table = Table.fill negMax .zero ∨ neg₀.table = neg.table)
    (hxt : xfer₀.table = Table.fill xferMax .zero ∨ xfer₀.table = xfer.table) :
    dspRtcStateRestore (dspRtcStateSave neg xfer store).2 neg₀ xfer₀ =
      (.ok, { neg₀ with table := neg.table }, { xfer₀ with table := xfer.table }) := by
  have hmagic : ¬ (dspRtcStateSave neg xfer store).2.magic ≠ dspRtcMagic := not_not.mpr rfl
  have hcrc : ¬ computeCrc32 (dspRtcStateSave neg xfer store).2 ≠
      (dspRtcStateSave neg xfer store).2.crc32 := not_not.mpr rfl
  rw [dspRtcStateRestore, if_neg hmagic, if_neg hcrc, restoreNeg_eq _ hn le_rfl,
    restoreXfer_eq _ hx le_rfl, overlay_saveNeg xfer store hneg hnt,
    overlay_saveXfer neg store hxfer hxt]

/-- The same for modules that were cleared and initialized in between. -/
theorem restore_save {neg : NegModule negMax} {xfer : XferModule xferMax}
    (neg₀ : NegModule negMax) (xfer₀ : XferModule xferMax) (store : RtcStore negMax xferMax)
    (hneg : ∀ e ∈ neg.table.slots, e.Canonical) (hxfer : ∀ e ∈ xfer.table.slots, e.Canonical)
    (hn₀ : neg₀ = ⟨Table.fill negMax .zero, true⟩)
    (hx₀ : xfer₀ = { xfer with table := Table.fill xferMax .zero, initialized := true }) :
    dspRtcStateRestore (dspRtcStateSave neg xfer store).2 neg₀ xfer₀ =
      (.ok, { neg with initialized := true }, { xfer with initialized := true }) := by
  subst hn₀ hx₀
  exact restore_saved store hneg hxfer rfl rfl (.inl rfl) (.inl rfl)

end DspEmbedded.Model.RtcState
