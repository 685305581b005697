import DspEmbedded.Lib.Crc
import DspEmbedded.Model.RtcState

/-!
# Burst errors in the RTC image

`crc32_update` is a reflected CRC register of 32 bits, its polynomial 0xEDB88320
with the top bit set. A burst of flipped bits that is no longer than the register
therefore always changes the checksum, wherever it lies and however large the
image is.
-/
namespace DspEmbedded.Audit.BurstErrors

open Lib.CString Lib.Crc Model Model.Esp Model.RtcState
open Model.Neg (NegModule)
open Model.Xfer (XferModule)

variable {negMax xferMax : Nat}

/-! ## The checksum as a register -/

def crcPolynomial : BitVec 32 := 0xEDB88320#32

/-- The bits of a byte in the order in which the checksum takes them. -/
def byteBits (b : UInt8) : List Bool := (List.range 8).map b.toBitVec.getLsbD

def bits (bytes : List UInt8) : List Bool := bytes.flatMap byteBits

/-- The data section of the image: `neg[]`, then `xfer[]`. -/
def dataBytes (s : RtcStore negMax xferMax) : List UInt8 :=
  s.neg.slots.flatMap RtcNegSlot.bytes ++ s.xfer.slots.flatMap RtcXferSlot.bytes

theorem length_byteBits (b : UInt8) : (byteBits b).length = 8 := by simp [byteBits]

theorem toBitVec_crc32Bit (crc : UInt32) :
    (crc32Bit crc).toBitVec = shift crcPolynomial crc.toBitVec := by
  have hlow : crc &&& 1 ≠ 0 ↔ crc.toBitVec.getLsbD 0 = true := by
    rw [Ne, ← UInt32.toBitVec_inj, UInt32.toBitVec_and]
    show ¬ crc.toBitVec &&& 1#32 = 0#32 ↔ _
    rw [BitVec.and_one_eq_setWidth_ofBool_getLsbD]
    cases crc.toBitVec.getLsbD 0 <;> decide
  unfold crc32Bit shift
  by_cases h : crc &&& 1 ≠ 0
  · rw [if_pos h, if_pos (hlow.mp h)]
    rfl
  · rw [if_neg h, if_neg (mt hlow.mpr h)]
    rfl

theorem pack_byteBits (b : UInt8) : pack 32 (byteBits b) = b.toUInt32.toBitVec := by
  apply BitVec.eq_of_getLsbD_eq
  intro i hi
  rw [getLsbD_pack, UInt8.toBitVec_toUInt32, BitVec.getLsbD_setWidth]
  by_cases h : i < 8
  · simp [byteBits, h]
  · simp [byteBits, h, BitVec.getLsbD_of_ge b.toBitVec i (by omega)]

theorem toBitVec_crc32Byte (crc : UInt32) (b : UInt8) :
    (crc32Byte crc b).toBitVec = register crcPolynomial crc.toBitVec (byteBits b) := by
  have hlen := length_byteBits b
  rw [register_eq_shifts _ (by omega), hlen, pack_byteBits, ← UInt32.toBitVec_xor]
  exact map_rounds toBitVec_crc32Bit 8 _

/-- The update loop feeds the bits of the buffer one by one. -/
theorem toBitVec_crc32Update (crc : UInt32) (buf : List UInt8) :
    (crc32Update crc buf).toBitVec = register crcPolynomial crc.toBitVec (bits buf) :=
  map_bytes toBitVec_crc32Byte buf crc

theorem computeCrc32_eq (s : RtcStore negMax xferMax) :
    computeCrc32 s = crc32Update 0xFFFFFFFF (dataBytes s) ^^^ 0xFFFFFFFF := by
  simp only [computeCrc32, dataBytes, crc32Update, List.foldl_append]

/-- Images with the same checksum leave the same register. -/
theorem register_of_crc {s t : RtcStore negMax xferMax} (h : computeCrc32 s = computeCrc32 t) :
    register crcPolynomial (BitVec.allOnes 32) (bits (dataBytes s)) =
      register crcPolynomial (BitVec.allOnes 32) (bits (dataBytes t)) := by
  rw [computeCrc32_eq, computeCrc32_eq] at h
  have hupdate := (UInt32.xor_left_inj _).mp h
  have hreg := congrArg UInt32.toBitVec hupdate
  rwa [toBitVec_crc32Update, toBitVec_crc32Update] at hreg

/-! ## Sealed images -/

theorem sealed_crc (neg : NegModule negMax) (xfer : XferModule xferMax)
    (store : RtcStore negMax xferMax) :
    (dspRtcStateSave neg xfer store).2.crc32 =
      computeCrc32 (dspRtcStateSave neg xfer store).2 := rfl

/-- The image with flipped bits in its data section, magic and checksum as they were. -/
structure Corrupted (flips : Finset Nat) (image store : RtcStore negMax xferMax) : Prop where
  magic : store.magic = image.magic
  crc32 : store.crc32 = image.crc32
  data : bits (dataBytes store) = flip flips (bits (dataBytes image))

/-- A checksum that does not fit is refused by both readers of the image. -/
theorem refused_of_crc {store : RtcStore negMax xferMax} (hmagic : store.magic = dspRtcMagic)
    (hcrc : computeCrc32 store ≠ store.crc32) :
    dspRtcStateIsValid store = false ∧
      ∀ (neg : NegModule negMax) (xfer : XferModule xferMax),
        dspRtcStateRestore store neg xfer = (.invalidCrc, neg, xfer) := by
  constructor
  · simp [dspRtcStateIsValid, hcrc]
  · intro neg xfer
    rw [dspRtcStateRestore, if_neg (not_not.mpr hmagic), if_pos hcrc]

/-- **Bursts are detected.** Flips within 32 consecutive bits of the data section
of a sealed image make it invalid, and a restore leaves both tables alone. -/
theorem burst_detected (neg : NegModule negMax) (xfer : XferModule xferMax)
    (old store : RtcStore negMax xferMax) {flips : Finset Nat} (hne : flips.Nonempty)
    (hin : ∀ i ∈ flips, i < (bits (dataBytes (dspRtcStateSave neg xfer old).2)).length)
    {start : Nat} (hburst : ∀ i ∈ flips, start ≤ i ∧ i < start + 32)
    (hstore : Corrupted flips (dspRtcStateSave neg xfer old).2 store) :
    dspRtcStateIsValid store = false ∧
      ∀ (neg' : NegModule negMax) (xfer' : XferModule xferMax),
        dspRtcStateRestore store neg' xfer' = (.invalidCrc, neg', xfer') := by
  have hpoly : crcPolynomial.msb = true := by decide
  have hchanged := register_flip hpoly (BitVec.allOnes 32) hne hin hburst
  apply refused_of_crc (hstore.magic.trans rfl)
  intro h
  rw [hstore.crc32, sealed_crc] at h
  have hsame := register_of_crc h
  rw [hstore.data] at hsame
  exact hchanged hsame

/-- A table of one slot, with a negotiation in it. -/
def occupied : NegModule 1 :=
  (Neg.dspNegCreate (Neg.dspNegInit (.boot 1)).2 (some (CStr.lit "p")) (some (CStr.lit "q"))).2

/-- Its image. -/
def occupiedImage : RtcStore 1 0 := (dspRtcStateSave occupied (.boot 0) (.zero 1 0)).2

/-- The image with the lowest bit of its first byte and the highest of its fourth
inverted, which marks the slot free. -/
def burst : RtcStore 1 0 :=
  { occupiedImage with
    neg := .fill 1 { saveNegSlot occupied 0 with active := 0, pad := ⟨[0, 0, 128], rfl⟩ } }

theorem burst_detected_one :
    dspRtcStateIsValid burst = false ∧
      dspRtcStateRestore burst occupied (.boot 0) = (.invalidCrc, occupied, .boot 0) := by
  have hrange : ∀ i ∈ ({0, 31} : Finset Nat), i < (bits (dataBytes occupiedImage)).length := by
    decide +kernel
  have hwindow : ∀ i ∈ ({0, 31} : Finset Nat), 0 ≤ i ∧ i < 0 + 32 := by decide
  have hcorrupted : Corrupted {0, 31} occupiedImage burst := ⟨rfl, rfl, by decide +kernel⟩
  obtain ⟨hinvalid, hrestore⟩ := burst_detected occupied (.boot 0) (.zero 1 0) burst ⟨0, by simp⟩
    hrange hwindow hcorrupted
  exact ⟨hinvalid, hrestore occupied (.boot 0)⟩

end DspEmbedded.Audit.BurstErrors
