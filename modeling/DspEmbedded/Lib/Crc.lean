import Mathlib.Data.List.Basic
import Mathlib.Data.Finset.Basic

/-!
# Reflected CRC registers

A register of `w` bits that takes a message bit by bit, as the bitwise reflected
CRC loops do. When the top coefficient of the polynomial is set, a shift loses
nothing. The first `w` bits of a message are then the same as a change of the
register that they start from, so two messages that differ within `w`
consecutive bits leave different registers.
-/
namespace DspEmbedded.Lib.Crc

variable {w : Nat} {poly : BitVec w}

/-- The bit that falls out at the low end feeds the polynomial back. -/
def shift (poly crc : BitVec w) : BitVec w :=
  if crc.getLsbD 0 then (crc >>> 1) ^^^ poly else crc >>> 1

def shifts (poly : BitVec w) : Nat → BitVec w → BitVec w
  | 0, crc => crc
  | n + 1, crc => shifts poly n (shift poly crc)

/-- A message bit at the low end of the register. -/
def low (w : Nat) (bit : Bool) : BitVec w := (BitVec.ofBool bit).setWidth w

def feed (poly crc : BitVec w) (bit : Bool) : BitVec w := shift poly (crc ^^^ low w bit)

/-- The register after a message. -/
def register (poly crc : BitVec w) (message : List Bool) : BitVec w :=
  message.foldl (feed poly) crc

/-- The first `w` bits of a message as one word, the first bit lowest. -/
def pack (w : Nat) (message : List Bool) : BitVec w := (BitVec.ofBoolListLE message).setWidth w

@[simp] theorem register_nil (crc : BitVec w) : register poly crc [] = crc := rfl

@[simp] theorem register_cons (crc : BitVec w) (b : Bool) (l : List Bool) :
    register poly crc (b :: l) = register poly (feed poly crc b) l := rfl

theorem register_append (crc : BitVec w) (l l' : List Bool) :
    register poly crc (l ++ l') = register poly (register poly crc l) l' :=
  List.foldl_append

theorem getLsbD_low (bit : Bool) (i : Nat) :
    (low w bit).getLsbD i = (decide (i < w) && (decide (i = 0) && bit)) := by
  rw [low, BitVec.getLsbD_setWidth, BitVec.getLsbD_ofBool]

theorem getLsbD_pack (l : List Bool) (i : Nat) :
    (pack w l).getLsbD i = (decide (i < w) && l.getD i false) := by
  rw [pack, BitVec.getLsbD_setWidth, BitVec.getLsbD_ofBoolListLE]

theorem pack_cons (b : Bool) (l : List Bool) :
    pack w (b :: l) = low w b ^^^ (pack w l <<< 1) := by
  apply BitVec.eq_of_getLsbD_eq
  intro i hi
  rw [BitVec.getLsbD_xor, getLsbD_pack, getLsbD_low, BitVec.getLsbD_shiftLeft, getLsbD_pack]
  cases i with
  | zero => simp [hi]
  | succ i =>
    have hi' : i < w := by omega
    simp [hi, hi']

/-- A message of at most `w` bits can be read off its word. -/
theorem pack_injective {l l' : List Bool} (hlen : l.length = l'.length) (hw : l.length ≤ w)
    (h : pack w l = pack w l') : l = l' := by
  apply List.ext_getElem hlen
  intro i hi hi'
  have hbit : (pack w l).getLsbD i = (pack w l').getLsbD i := by rw [h]
  have hlt : i < w := by omega
  rw [getLsbD_pack, getLsbD_pack] at hbit
  simpa [hlt, hi, hi'] using hbit

/-! ## One shift -/

/-- Shifting is linear over exclusive or. -/
theorem shift_xor (a b : BitVec w) :
    shift poly (a ^^^ b) = shift poly a ^^^ shift poly b := by
  have hself : poly ^^^ poly = 0#w := BitVec.xor_self
  simp only [shift, BitVec.getLsbD_xor, BitVec.ushiftRight_xor_distrib]
  cases a.getLsbD 0 <;> cases b.getLsbD 0
  · simp
  · simp [BitVec.xor_assoc]
  · show (a >>> 1 ^^^ b >>> 1) ^^^ poly = (a >>> 1 ^^^ poly) ^^^ b >>> 1
    ac_rfl
  · show a >>> 1 ^^^ b >>> 1 = (a >>> 1 ^^^ poly) ^^^ (b >>> 1 ^^^ poly)
    calc a >>> 1 ^^^ b >>> 1 = (a >>> 1 ^^^ b >>> 1) ^^^ (poly ^^^ poly) := by
          rw [hself, BitVec.xor_zero]
      _ = (a >>> 1 ^^^ poly) ^^^ (b >>> 1 ^^^ poly) := by ac_rfl

/-- The polynomial's top bit tells afterwards which bit fell out. -/
theorem msb_shift (hpoly : poly.msb = true) (crc : BitVec w) :
    (shift poly crc).msb = crc.getLsbD 0 := by
  have hzero : (crc >>> 1).msb = false := by
    rw [BitVec.msb_eq_getLsbD_last, BitVec.getLsbD_ushiftRight]
    exact BitVec.getLsbD_of_ge _ _ (by omega)
  unfold shift
  split_ifs with h
  · rw [BitVec.msb_xor, hzero, hpoly, h]
    rfl
  · rw [hzero, Bool.eq_false_of_not_eq_true h]

theorem shift_injective (hpoly : poly.msb = true) : Function.Injective (shift poly) := by
  intro a b h
  have hlow : a.getLsbD 0 = b.getLsbD 0 := by
    rw [← msb_shift hpoly a, ← msb_shift hpoly b, h]
  have hhigh : a >>> 1 = b >>> 1 := by
    unfold shift at h
    rw [hlow] at h
    split_ifs at h with hb
    · exact (BitVec.xor_left_inj poly).mp h
    · exact h
  apply BitVec.eq_of_getLsbD_eq
  intro i _
  cases i with
  | zero => exact hlow
  | succ i =>
    have hbit := congrArg (fun x : BitVec w => x.getLsbD i) hhigh
    simpa [Nat.add_comm] using hbit

theorem shifts_injective (hpoly : poly.msb = true) (n : Nat) :
    Function.Injective (shifts poly n) := by
  induction n with
  | zero => exact Function.injective_id
  | succ n ih => exact ih.comp (shift_injective hpoly)

/-- Nothing is fed back while the low bit is clear. -/
theorem shift_shiftLeft {x : BitVec w} (h : x.msb = false) : shift poly (x <<< 1) = x := by
  have hlow : (x <<< 1).getLsbD 0 = false := by simp
  rw [shift, hlow, if_neg Bool.false_ne_true]
  apply BitVec.eq_of_getLsbD_eq
  intro i hi
  rw [BitVec.getLsbD_ushiftRight, BitVec.getLsbD_shiftLeft]
  by_cases hlast : i + 1 < w
  · simp [Nat.add_comm 1 i, hlast]
  · have hmsb : x.getLsbD i = false := by
      rw [BitVec.msb_eq_getLsbD_last] at h
      obtain rfl : i = w - 1 := by omega
      exact h
    simp [Nat.add_comm 1 i, hlast, hmsb]

/-! ## Messages -/

/-- Up to `w` bits fed one at a time are a change of the register, shifted through. -/
theorem register_eq_shifts (crc : BitVec w) {l : List Bool} (hw : l.length ≤ w) :
    register poly crc l = shifts poly l.length (crc ^^^ pack w l) := by
  induction l generalizing crc with
  | nil =>
    have hpack : pack w [] = 0#w := by
      apply BitVec.eq_of_getLsbD_eq
      intro i _
      simp [getLsbD_pack]
    rw [hpack, BitVec.xor_zero]
    rfl
  | cons b l ih =>
    rw [List.length_cons] at hw
    have hmsb : (pack w l).msb = false := by
      have hnone : l[w - 1]? = none := List.getElem?_eq_none (by omega)
      rw [BitVec.msb_eq_getLsbD_last, getLsbD_pack, List.getD_eq_getElem?_getD, hnone]
      exact Bool.and_false _
    calc register poly crc (b :: l)
        = shifts poly l.length (shift poly (crc ^^^ low w b) ^^^ pack w l) := ih _ (by omega)
      _ = shifts poly l.length
            (shift poly (crc ^^^ low w b) ^^^ shift poly (pack w l <<< 1)) := by
          rw [shift_shiftLeft hmsb]
      _ = shifts poly (l.length + 1) (crc ^^^ pack w (b :: l)) := by
          rw [← shift_xor, BitVec.xor_assoc, ← pack_cons]
          rfl

/-- A difference between two registers stays, whatever both are fed. -/
theorem register_injective (hpoly : poly.msb = true) (l : List Bool) :
    Function.Injective fun crc => register poly crc l := by
  induction l with
  | nil => exact Function.injective_id
  | cons b l ih =>
    intro a c h
    have hfeed : feed poly a b = feed poly c b := ih h
    exact (BitVec.xor_left_inj _).mp (shift_injective hpoly hfeed)

/-- **Burst errors.** Messages that differ within `w` consecutive bits only leave
different registers. -/
theorem register_burst (hpoly : poly.msb = true) (crc : BitVec w) (pre post : List Bool)
    {mid mid' : List Bool} (hlen : mid.length = mid'.length) (hw : mid.length ≤ w)
    (hne : mid ≠ mid') :
    register poly crc (pre ++ mid ++ post) ≠ register poly crc (pre ++ mid' ++ post) := by
  intro h
  simp only [register_append] at h
  have hmid := register_injective hpoly post h
  rw [register_eq_shifts _ hw, register_eq_shifts (l := mid') _ (by omega), hlen] at hmid
  have hword := (BitVec.xor_right_inj _).mp (shifts_injective hpoly _ hmid)
  exact hne (pack_injective hlen hw hword)

/-- A register that was fed its own value is left at zero, and no other value does that. -/
theorem register_eq_zero_iff (hpoly : poly.msb = true) (crc : BitVec w) {l : List Bool}
    (hw : l.length ≤ w) : register poly crc l = 0#w ↔ pack w l = crc := by
  have hzero : ∀ n, shifts poly n 0#w = 0#w := by
    intro n
    induction n with
    | zero => rfl
    | succ n ih =>
      have hstep : shift poly 0#w = 0#w := by simp [shift]
      rw [shifts, hstep, ih]
  rw [register_eq_shifts crc hw]
  constructor
  · intro h
    have hxor := shifts_injective hpoly _ (h.trans (hzero l.length).symm)
    exact (BitVec.xor_eq_zero_iff.mp hxor).symm
  · intro h
    rw [h, BitVec.xor_self, hzero]

/-! ## Loops over words and bytes

A loop of the source works on a type of its own and, for a checksum that takes the
highest bit first, in the other direction. `φ` is the register that a value stands for. -/

section Loops

variable {α β : Type*} {φ : α → BitVec w}

theorem map_rounds {round : α → α} (h : ∀ a, φ (round a) = shift poly (φ a)) (n : Nat) (a : α) :
    φ ((List.range n).foldl (fun a _ => round a) a) = shifts poly n (φ a) := by
  induction n generalizing a with
  | zero => rfl
  | succ n ih =>
    rw [List.range_succ_eq_map, List.foldl_cons, List.foldl_map, shifts, ← h]
    exact ih (round a)

theorem map_bytes {byte : α → β → α} {bits : β → List Bool}
    (h : ∀ a b, φ (byte a b) = register poly (φ a) (bits b)) (l : List β) (a : α) :
    φ (l.foldl byte a) = register poly (φ a) (l.flatMap bits) := by
  induction l generalizing a with
  | nil => rfl
  | cons b l ih => rw [List.foldl_cons, List.flatMap_cons, register_append, ← h, ih]

end Loops

/-- A shift towards the high end, where the falling bit feeds the polynomial back. -/
def shiftMsb (poly crc : BitVec w) : BitVec w :=
  if crc.msb then (crc <<< 1) ^^^ poly else crc <<< 1

theorem reverse_xor (a b : BitVec w) : (a ^^^ b).reverse = a.reverse ^^^ b.reverse := by
  apply BitVec.eq_of_getLsbD_eq
  intro i _
  simp only [BitVec.getLsbD_reverse, BitVec.getLsbD_xor, BitVec.getMsbD_xor]

/-- Seen in a mirror it is a shift of the reflected kind. -/
theorem reverse_shiftMsb (poly crc : BitVec w) :
    (shiftMsb poly crc).reverse = shift poly.reverse crc.reverse := by
  have hshift : (crc <<< 1).reverse = crc.reverse >>> 1 := by
    apply BitVec.eq_of_getLsbD_eq
    intro i hi
    rw [BitVec.getLsbD_reverse, BitVec.getMsbD_shiftLeft, BitVec.getLsbD_ushiftRight,
      BitVec.getLsbD_reverse, Nat.add_comm]
  have hbit : crc.reverse.getLsbD 0 = crc.msb := by
    rw [BitVec.getLsbD_reverse, BitVec.msb_eq_getMsbD_zero]
  unfold shiftMsb shift
  rw [hbit]
  split_ifs
  · rw [reverse_xor, hshift]
  · exact hshift

/-! ## Flipped bits -/

/-- The message with the bits at some positions inverted. -/
def flip (flips : Finset Nat) (message : List Bool) : List Bool :=
  message.zipIdx.map fun (b, i) => if i ∈ flips then !b else b

@[simp] theorem length_flip (flips : Finset Nat) (l : List Bool) :
    (flip flips l).length = l.length := by
  simp [flip]

theorem getElem?_flip (flips : Finset Nat) (l : List Bool) (i : Nat) :
    (flip flips l)[i]? = l[i]?.map fun b => if i ∈ flips then !b else b := by
  rw [flip, List.getElem?_map, List.getElem?_zipIdx, Option.map_map, Nat.zero_add]
  rfl

theorem getElem?_flip_of_notMem {flips : Finset Nat} (l : List Bool) {i : Nat} (h : i ∉ flips) :
    (flip flips l)[i]? = l[i]? := by
  simp [getElem?_flip, h]

theorem flip_ne {flips : Finset Nat} {l : List Bool} {i : Nat} (hi : i ∈ flips)
    (hlt : i < l.length) : flip flips l ≠ l := by
  intro h
  have hbit := getElem?_flip flips l i
  rw [h, List.getElem?_eq_getElem hlt] at hbit
  simp [hi] at hbit

/-- Any set of flips within `w` consecutive bits changes the register. -/
theorem register_flip (hpoly : poly.msb = true) (crc : BitVec w) {l : List Bool}
    {flips : Finset Nat} (hne : flips.Nonempty) (hin : ∀ i ∈ flips, i < l.length) {start : Nat}
    (hburst : ∀ i ∈ flips, start ≤ i ∧ i < start + w) :
    register poly crc (flip flips l) ≠ register poly crc l := by
  obtain ⟨i, hi⟩ := hne
  have hpre : (flip flips l).take start = l.take start := by
    apply List.ext_getElem?
    intro j
    rw [List.getElem?_take, List.getElem?_take]
    split_ifs with hj
    · exact getElem?_flip_of_notMem l fun hmem => by have := hburst j hmem; omega
    · rfl
  have hpost : (flip flips l).drop (start + w) = l.drop (start + w) := by
    apply List.ext_getElem?
    intro j
    rw [List.getElem?_drop, List.getElem?_drop]
    exact getElem?_flip_of_notMem l fun hmem => by have := hburst _ hmem; omega
  have hsplit : ∀ m : List Bool,
      m = m.take start ++ (m.drop start).take w ++ m.drop (start + w) := by
    intro m
    rw [List.append_assoc, ← List.drop_drop, List.take_append_drop, List.take_append_drop]
  have hmid : ((flip flips l).drop start).take w ≠ (l.drop start).take w := by
    intro h
    apply flip_ne hi (hin i hi)
    rw [hsplit (flip flips l), hpre, h, hpost, ← hsplit l]
  have hlen : ((l.drop start).take w).length ≤ w := List.length_take_le _ _
  have hdiff := register_burst hpoly crc (l.take start) (l.drop (start + w)) (by simp) hlen
    (Ne.symm hmid)
  rw [← hsplit l] at hdiff
  rw [hsplit (flip flips l), hpre, hpost]
  exact hdiff.symm

end DspEmbedded.Lib.Crc
