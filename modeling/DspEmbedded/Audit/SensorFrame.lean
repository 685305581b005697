import DspEmbedded.Lib.Crc
import DspEmbedded.Model.Dht20

/-!
# Burst errors in a sensor frame

`dht20_crc8` is a register of 8 bits that takes the highest bit of a byte first;
seen in a mirror it is a reflected register, its polynomial with the top bit set. A
frame ends in its own checksum, so it leaves the register at zero, and a frame with
a burst of at most 8 flipped bits in it does not.
-/
namespace DspEmbedded.Audit.SensorFrame

open Lib.CString Lib.Crc Model.Esp Model.Dht20

/-! ## The checksum as a register -/

/-- 0x31 in the mirror. -/
def crc8Polynomial : BitVec 8 := (0x31#8).reverse

/-- The bits of a byte, the most significant one first. -/
def byteBits (b : UInt8) : List Bool := (List.range 8).map b.toBitVec.getMsbD

def bits (bytes : List UInt8) : List Bool := bytes.flatMap byteBits

/-- The register that a value of `crc` stands for. -/
def mirror (crc : UInt8) : BitVec 8 := crc.toBitVec.reverse

theorem length_byteBits (b : UInt8) : (byteBits b).length = 8 := by simp [byteBits]

theorem bits_append (a b : List UInt8) : bits (a ++ b) = bits a ++ bits b := List.flatMap_append

theorem length_bits (bytes : List UInt8) : (bits bytes).length = 8 * bytes.length := by
  induction bytes with
  | nil => rfl
  | cons b bytes ih =>
    have hbits : bits (b :: bytes) = byteBits b ++ bits bytes := rfl
    rw [hbits, List.length_append, length_byteBits, ih, List.length_cons]
    omega

theorem toBitVec_crc8Bit (crc : UInt8) :
    (dht20Crc8Bit crc).toBitVec = shiftMsb 0x31#8 crc.toBitVec := by
  have hhigh : crc &&& 0x80 ≠ 0 ↔ crc.toBitVec.msb = true := by
    have hall : ∀ x : BitVec 8, x &&& 0x80#8 ≠ 0#8 ↔ x.msb = true := by decide
    rw [Ne, ← UInt8.toBitVec_inj, UInt8.toBitVec_and]
    exact hall crc.toBitVec
  unfold dht20Crc8Bit shiftMsb
  by_cases h : crc &&& 0x80 ≠ 0
  · rw [if_pos h, if_pos (hhigh.mp h)]
    rfl
  · rw [if_neg h, if_neg (mt hhigh.mpr h)]
    rfl

theorem mirror_bit (crc : UInt8) :
    mirror (dht20Crc8Bit crc) = shift crc8Polynomial (mirror crc) := by
  rw [mirror, toBitVec_crc8Bit, reverse_shiftMsb]
  rfl

theorem pack_byteBits (b : UInt8) : pack 8 (byteBits b) = mirror b := by
  apply BitVec.eq_of_getLsbD_eq
  intro i hi
  rw [getLsbD_pack, mirror, BitVec.getLsbD_reverse]
  simp [byteBits, hi]

theorem mirror_byte (crc b : UInt8) :
    mirror (dht20Crc8Byte crc b) = register crc8Polynomial (mirror crc) (byteBits b) := by
  have hlen := length_byteBits b
  have hxor : mirror (crc ^^^ b) = mirror crc ^^^ mirror b := by
    rw [mirror, UInt8.toBitVec_xor, reverse_xor]
    rfl
  rw [register_eq_shifts _ (by omega), hlen, pack_byteBits, ← hxor]
  exact map_rounds mirror_bit 8 _

/-- The loop feeds the bits of the data one by one. -/
theorem mirror_crc8 {data : List UInt8} {len : UInt8} (hlen : data.length = len.toNat) :
    mirror (dht20Crc8 data len) = register crc8Polynomial (mirror 0xFF) (bits data) := by
  rw [dht20Crc8, ← hlen, List.take_length]
  exact map_bytes mirror_byte data 0xFF

/-! ## Data followed by its checksum -/

theorem mirror_injective : Function.Injective mirror := by
  intro a b h
  have hrev : a.toBitVec.reverse.reverse = b.toBitVec.reverse.reverse :=
    congrArg BitVec.reverse h
  rw [BitVec.reverse_reverse_eq, BitVec.reverse_reverse_eq] at hrev
  exact UInt8.toBitVec_inj.mp hrev

/-- A last byte is the checksum exactly where the register is left at zero. -/
theorem crc8_eq_iff {data : List UInt8} {len : UInt8} (hlen : data.length = len.toNat)
    (c : UInt8) :
    dht20Crc8 data len = c ↔
      register crc8Polynomial (mirror 0xFF) (bits (data ++ [c])) = 0#8 := by
  have hpoly : crc8Polynomial.msb = true := by decide
  have hone : bits [c] = byteBits c := List.flatMap_singleton _ _
  rw [bits_append, register_append, ← mirror_crc8 hlen, hone,
    register_eq_zero_iff hpoly _ (by rw [length_byteBits]), pack_byteBits, mirror_injective.eq_iff]
  exact eq_comm

/-- The bytes with the bits at some positions inverted. -/
def Flipped (flips : Finset Nat) (bytes bytes' : List UInt8) : Prop :=
  bits bytes' = flip flips (bits bytes)

/-- A non-empty error pattern of `n` bits, confined to 8 consecutive ones. -/
structure Burst (flips : Finset Nat) (n : Nat) : Prop where
  nonempty : flips.Nonempty
  inside : ∀ i ∈ flips, i < n
  confined : ∃ start, ∀ i ∈ flips, start ≤ i ∧ i < start + 8

theorem Flipped.length_eq {flips : Finset Nat} {bytes bytes' : List UInt8}
    (h : Flipped flips bytes bytes') : bytes'.length = bytes.length := by
  have hlen := congrArg List.length h
  rw [length_bits, length_flip, length_bits] at hlen
  omega

/-- After a burst the last byte is not the checksum of the others. -/
theorem crc8_burst {len : UInt8} {flips : Finset Nat} {data data' : List UInt8} {c' : UInt8}
    (hlen : data.length = len.toNat)
    (hburst : Burst flips (bits (data ++ [dht20Crc8 data len])).length)
    (hflip : Flipped flips (data ++ [dht20Crc8 data len]) (data' ++ [c'])) :
    dht20Crc8 data' len ≠ c' := by
  have hpoly : crc8Polynomial.msb = true := by decide
  obtain ⟨start, hconfined⟩ := hburst.confined
  have hlen' : data'.length = len.toNat := by
    have heq := hflip.length_eq
    simp only [List.length_append, List.length_singleton] at heq
    omega
  intro hc
  have hzero := (crc8_eq_iff hlen' c').mp hc
  have hzero' := (crc8_eq_iff hlen _).mp rfl
  rw [hflip] at hzero
  exact register_flip hpoly (mirror 0xFF) hburst.nonempty hburst.inside hconfined
    (hzero.trans hzero'.symm)

/-! ## Frames -/

/-- A frame is six bytes of data and the last one. -/
theorem frame_eq (frame : CharBuf 7) :
    frame.bytes = frame.bytes.take 6 ++ [frameByte frame 6] := by
  have hlen : 6 < frame.bytes.length := by rw [frame.length_eq]; decide
  have hlast : frame.bytes.drop 6 = [frameByte frame 6] := by
    rw [List.drop_eq_getElem_cons hlen, List.drop_eq_nil_of_le (by rw [frame.length_eq]),
      frameByte, List.getD_eq_getElem?_getD, List.getElem?_eq_getElem hlen, Option.getD_some]
  rw [← hlast, List.take_append_drop]

theorem length_frame (frame : CharBuf 7) :
    (frame.bytes.take 6).length = (6 : UInt8).toNat := by
  rw [List.length_take, frame.length_eq]
  rfl

theorem crc8_frame (frame : CharBuf 7) :
    dht20Crc8 frame.bytes 6 = dht20Crc8 (frame.bytes.take 6) 6 := by
  have hsix : (6 : UInt8).toNat = 6 := rfl
  rw [dht20Crc8, dht20Crc8, hsix, List.take_take, Nat.min_self]

theorem frame_burst {flips : Finset Nat} {frame frame' : CharBuf 7}
    (hcrc : frameByte frame 6 = dht20Crc8 frame.bytes 6) (hburst : Burst flips 56)
    (hflip : Flipped flips frame.bytes frame'.bytes) :
    dht20Crc8 frame'.bytes 6 ≠ frameByte frame' 6 := by
  have hsplit : frame.bytes = frame.bytes.take 6 ++ [dht20Crc8 (frame.bytes.take 6) 6] := by
    rw [← crc8_frame, ← hcrc]
    exact frame_eq frame
  have hlen : (bits frame.bytes).length = 56 := by rw [length_bits, frame.length_eq]
  rw [← hlen, hsplit] at hburst
  rw [hsplit, frame_eq frame'] at hflip
  rw [crc8_frame]
  exact crc8_burst (length_frame frame) hburst hflip

/-- **Burst errors are refused.** Data of any length that the loop can count, followed by
its checksum, no longer passes the check after a burst, and a read that receives a frame
so damaged reports a checksum error and leaves the reading of the caller alone. -/
theorem bursts_refused :
    (∀ (len : UInt8) (flips : Finset Nat) (data data' : List UInt8) (c' : UInt8),
      data.length = len.toNat →
      Burst flips (bits (data ++ [dht20Crc8 data len])).length →
      Flipped flips (data ++ [dht20Crc8 data len]) (data' ++ [c']) →
        dht20Crc8 data' len ≠ c') ∧
    ∀ (flips : Finset Nat) (frame frame' : CharBuf 7) (bus : Dht20Bus) (out : Dht20Reading),
      frameByte frame 6 = dht20Crc8 frame.bytes 6 → Burst flips 56 →
      Flipped flips frame.bytes frame'.bytes → Received bus frame' →
        dspDht20Read true bus (some out) = (.invalidCrc, some out) := by
  refine ⟨fun len flips data data' c' => crc8_burst, ?_⟩
  intro flips frame frame' bus out hcrc hburst hflip hreceived
  rw [read_received hreceived, if_pos (frame_burst hcrc hburst hflip)]

/-- A frame of zeros under its checksum. -/
def zeroFrame : CharBuf 7 := ⟨[0, 0, 0, 0, 0, 0, dht20Crc8 [0, 0, 0, 0, 0, 0] 6], rfl⟩

/-- The same with the last bit of the data and the last but one of the checksum inverted. -/
def damagedFrame : CharBuf 7 :=
  ⟨[0, 0, 0, 0, 0, 1, dht20Crc8 [0, 0, 0, 0, 0, 0] 6 ^^^ 2], rfl⟩

theorem bursts_refused_damaged (out : Dht20Reading) :
    dspDht20Read true ⟨.ok, fun _ => (.ok, 0x18), .ok, damagedFrame⟩ (some out) =
      (.invalidCrc, some out) := by
  have hburst : Burst {47, 54} 56 := ⟨⟨47, by decide⟩, by decide, 47, by decide⟩
  have hready : pollBusy (fun _ => (.ok, 0x18)) 0 dht20MeasWaitMs = .ok := by
    rw [pollBusy]
    decide
  exact bursts_refused.2 {47, 54} zeroFrame damagedFrame _ out (by decide +kernel)
    hburst (by unfold Flipped; decide +kernel) ⟨rfl, hready, rfl⟩

end DspEmbedded.Audit.SensorFrame
