import Mathlib.Data.Nat.Digits.Lemmas

/-!
# Distinguished encoding of integers

An element is a tag, the number of its content bytes and these bytes. Of the many
encodings that a lenient reader accepts, the distinguished one has the shortest
length field and, for an INTEGER, the shortest contents in two's complement.
-/
namespace DspEmbedded.Lib.Der

/-! ## Unsigned numbers -/

/-- The number that bytes stand for, the most significant first. -/
def ofBytes (bs : List UInt8) : Nat := Nat.ofDigits 256 (bs.reverse.map UInt8.toNat)

/-- The shortest bytes of a number, none for 0. -/
def toBytes (n : Nat) : List UInt8 := ((Nat.digits 256 n).map UInt8.ofNat).reverse

theorem ofBytes_cons (b : UInt8) (bs : List UInt8) :
    ofBytes (b :: bs) = b.toNat * 256 ^ bs.length + ofBytes bs := by
  rw [ofBytes, List.reverse_cons, List.map_append, Nat.ofDigits_append, List.length_map,
    List.length_reverse, List.map_singleton, Nat.ofDigits_singleton, ofBytes]
  ring

theorem ofBytes_lt (bs : List UInt8) : ofBytes bs < 256 ^ bs.length := by
  have hdigits : ∀ d ∈ bs.reverse.map UInt8.toNat, d < 256 := by
    intro d hd
    obtain ⟨b, -, rfl⟩ := List.mem_map.mp hd
    exact b.toNat_lt
  have hlt := Nat.ofDigits_lt_base_pow_length (by decide) hdigits
  rwa [List.length_map, List.length_reverse] at hlt

theorem ofBytes_toBytes (n : Nat) : ofBytes (toBytes n) = n := by
  have hdigits : ((Nat.digits 256 n).map UInt8.ofNat).map UInt8.toNat = Nat.digits 256 n := by
    rw [List.map_map]
    refine (List.map_congr_left fun d hd => ?_).trans (List.map_id _)
    show (UInt8.ofNat d).toNat = d
    rw [UInt8.toNat_ofNat']
    exact Nat.mod_eq_of_lt (Nat.digits_lt_base (by decide) hd)
  rw [ofBytes, toBytes, List.reverse_reverse, hdigits, Nat.ofDigits_digits]

/-- Bytes without a leading zero are the shortest of their number. -/
theorem toBytes_ofBytes {bs : List UInt8} (h : bs.head? ≠ some 0) : toBytes (ofBytes bs) = bs := by
  have hdigits : Nat.digits 256 (ofBytes bs) = bs.reverse.map UInt8.toNat := by
    apply Nat.digits_ofDigits 256 (by decide)
    · intro d hd
      obtain ⟨b, -, rfl⟩ := List.mem_map.mp hd
      exact b.toNat_lt
    · intro hne hzero
      cases bs with
      | nil => exact hne rfl
      | cons b bs =>
        apply h
        have hb : b.toNat = 0 := by simpa using hzero
        rw [List.head?_cons, UInt8.toNat_inj.mp (hb.trans UInt8.toNat_zero.symm)]
  rw [toBytes, hdigits, List.map_map, ← List.map_reverse, List.reverse_reverse]
  refine (List.map_congr_left fun b _ => ?_).trans (List.map_id _)
  exact UInt8.ofNat_toNat

theorem head?_toBytes (n : Nat) : (toBytes n).head? ≠ some 0 := by
  intro hzero
  rw [toBytes, List.head?_reverse, List.getLast?_map, Option.map_eq_some_iff] at hzero
  obtain ⟨d, hlast, hd⟩ := hzero
  have hn : n ≠ 0 := by
    rintro rfl
    simp at hlast
  have hne : Nat.digits 256 n ≠ [] := Nat.digits_ne_nil_iff_ne_zero.mpr hn
  rw [List.getLast?_eq_some_getLast hne, Option.some.injEq] at hlast
  have hlt : d < 256 := hlast ▸ Nat.digits_lt_base (by decide) (List.getLast_mem hne)
  have hd0 : d = 0 := by
    have hmod := congrArg UInt8.toNat hd
    rw [UInt8.toNat_ofNat', Nat.mod_eq_of_lt hlt] at hmod
    exact hmod
  exact Nat.getLast_digit_ne_zero 256 hn (hlast.trans hd0)

/-! ## Contents of an INTEGER -/

/-- Two's complement. -/
def value (c : List UInt8) : Int :=
  if c.headD 0 < 128 then ofBytes c else ofBytes c - 256 ^ c.length

/-- There is a byte, and the first nine bits are neither all zero nor all one. -/
def Minimal : List UInt8 → Prop
  | [] => False
  | [_] => True
  | a :: b :: _ => ¬(a = 0 ∧ b < 128) ∧ ¬(a = 255 ∧ 128 ≤ b)

instance : DecidablePred Minimal := fun c =>
  match c with
  | [] => inferInstanceAs (Decidable False)
  | [_] => inferInstanceAs (Decidable True)
  | a :: b :: _ => inferInstanceAs (Decidable (¬(a = 0 ∧ b < 128) ∧ ¬(a = 255 ∧ 128 ≤ b)))

/-- The contents for a number that is not negative: its bytes, behind a zero byte
where they would be empty or read as a negative number. -/
def contents (n : Nat) : List UInt8 :=
  if (toBytes n).head?.any (· < 128) then toBytes n else 0 :: toBytes n

theorem ofBytes_zero_cons (bs : List UInt8) : ofBytes (0 :: bs) = ofBytes bs := by
  rw [ofBytes_cons, UInt8.toNat_zero, Nat.zero_mul, Nat.zero_add]

theorem minimal_contents (n : Nat) : Minimal (contents n) := by
  have hhead := head?_toBytes n
  rw [contents]
  split
  next hlow =>
    rcases htoBytes : toBytes n with - | ⟨a, - | ⟨b, t⟩⟩ <;> simp [htoBytes] at hlow hhead
    · trivial
    · refine ⟨fun h => hhead h.1, fun h => ?_⟩
      rw [h.1] at hlow
      exact absurd hlow (by decide)
  next hhigh =>
    rcases htoBytes : toBytes n with - | ⟨a, t⟩ <;> simp [htoBytes] at hhigh
    · trivial
    · exact ⟨fun h => absurd h.2 (UInt8.not_lt.mpr hhigh), fun h => absurd h.1 (by decide)⟩

theorem value_contents (n : Nat) : value (contents n) = n := by
  rw [contents]
  split
  next hlow =>
    have hhead : (toBytes n).headD 0 < 128 := by
      cases htoBytes : toBytes n <;> simp_all
    rw [value, if_pos hhead, ofBytes_toBytes]
  next =>
    have hhead : (0 :: toBytes n).headD 0 < 128 := show (0 : UInt8) < 128 by decide
    rw [value, if_pos hhead, ofBytes_zero_cons, ofBytes_toBytes]

/-- The contents of a number are the only minimal ones. -/
theorem eq_contents_iff {c : List UInt8} {n : Nat} :
    c = contents n ↔ Minimal c ∧ value c = n := by
  constructor
  · rintro rfl
    exact ⟨minimal_contents n, value_contents n⟩
  rintro ⟨hmin, hvalue⟩
  have hlow : c.headD 0 < 128 := by
    by_contra hhigh
    have hlt := ofBytes_lt c
    rw [value, if_neg hhigh] at hvalue
    have hlt' : (ofBytes c : Int) < 256 ^ c.length := by exact_mod_cast hlt
    omega
  rw [value, if_pos hlow] at hvalue
  obtain rfl : ofBytes c = n := by exact_mod_cast hvalue
  rcases c with - | ⟨a, t⟩
  · exact hmin.elim
  by_cases ha : a = 0
  · subst ha
    rw [ofBytes_zero_cons]
    rcases t with - | ⟨b, u⟩
    · simp [contents, toBytes, ofBytes]
    · have hb : ¬b < 128 := fun hb => hmin.1 ⟨rfl, hb⟩
      have hne : (b :: u).head? ≠ some 0 := by
        rw [List.head?_cons, ne_eq, Option.some.injEq]
        rintro rfl
        exact hb (by decide)
      rw [contents, toBytes_ofBytes hne, if_neg (by simpa using hb)]
  · have hne : (a :: t).head? ≠ some 0 := by simpa using ha
    rw [contents, toBytes_ofBytes hne, if_pos (by simpa using hlow)]

/-! ## Elements -/

/-- The length field: one byte below 128, otherwise the number of its bytes and these. -/
def lengthField (n : Nat) : List UInt8 :=
  if n < 128 then [UInt8.ofNat n] else UInt8.ofNat (128 + (toBytes n).length) :: toBytes n

def element (tag : UInt8) (c : List UInt8) : List UInt8 := tag :: lengthField c.length ++ c

def integer (n : Nat) : List UInt8 := element 0x02 (contents n)

def sequence (c : List UInt8) : List UInt8 := element 0x30 c

/-! ## A strict reader -/

/-- The number in a length field of shortest form, and what follows it. -/
def readLength : List UInt8 → Option (Nat × List UInt8)
  | [] => none
  | b :: rest =>
    if b < 128 then some (b.toNat, rest)
    else
      let count := b.toNat - 128
      let field := rest.take count
      if field.length = count ∧ field.head? ≠ some 0 ∧ 128 ≤ ofBytes field then
        some (ofBytes field, rest.drop count)
      else none

/-- The contents of an element with this tag, and what follows it. -/
def readElement (tag : UInt8) : List UInt8 → Option (List UInt8 × List UInt8)
  | [] => none
  | t :: rest =>
    if t ≠ tag then none
    else (readLength rest).bind fun r =>
      if r.1 ≤ r.2.length then some (r.2.take r.1, r.2.drop r.1) else none

def readInteger (bs : List UInt8) : Option (Int × List UInt8) :=
  (readElement 0x02 bs).bind fun r => if Minimal r.1 then some (value r.1, r.2) else none

/-- A sequence of two INTEGERs, with nothing behind either of them. -/
def readIntegerPair (bs : List UInt8) : Option (Int × Int) :=
  match readElement 0x30 bs with
  | some (c, []) =>
    match readInteger c with
    | some (x, c) =>
      match readInteger c with
      | some (y, []) => some (x, y)
      | _ => none
    | none => none
  | _ => none

theorem readLength_lengthField {n : Nat} (h : n < 256 ^ 126) (rest : List UInt8) :
    readLength (lengthField n ++ rest) = some (n, rest) := by
  rw [lengthField]
  split
  next hshort =>
    have hbyte : (UInt8.ofNat n).toNat = n := by
      rw [UInt8.toNat_ofNat']
      omega
    have hlt : UInt8.ofNat n < 128 := by
      rw [UInt8.lt_iff_toNat_lt, hbyte]
      exact hshort
    rw [List.singleton_append, readLength, if_pos hlt, hbyte]
  next hlong =>
    have hcount : (toBytes n).length ≤ 126 := by
      rw [toBytes, List.length_reverse, List.length_map]
      exact (Nat.digits_length_le_iff (by decide) n).mpr h
    have hbyte : (UInt8.ofNat (128 + (toBytes n).length)).toNat = 128 + (toBytes n).length := by
      rw [UInt8.toNat_ofNat']
      omega
    have hlt : ¬UInt8.ofNat (128 + (toBytes n).length) < 128 := by
      rw [UInt8.lt_iff_toNat_lt, hbyte]
      show ¬128 + _ < 128
      omega
    rw [List.cons_append, readLength, if_neg hlt, hbyte, Nat.add_sub_cancel_left]
    simp only [List.take_left, List.drop_left, ofBytes_toBytes]
    rw [if_pos ⟨trivial, head?_toBytes n, by omega⟩]

theorem readElement_element {tag : UInt8} {c : List UInt8} (h : c.length < 256 ^ 126)
    (rest : List UInt8) : readElement tag (element tag c ++ rest) = some (c, rest) := by
  rw [element, List.cons_append, List.cons_append, List.append_assoc, readElement,
    if_neg (by simp), readLength_lengthField h, Option.bind_some]
  simp

theorem readInteger_element {c : List UInt8} (h : c.length < 256 ^ 126) (rest : List UInt8) :
    readInteger (element 0x02 c ++ rest) = if Minimal c then some (value c, rest) else none := by
  rw [readInteger, readElement_element h, Option.bind_some]

/-- Two elements in a sequence are read if and only if both have minimal contents. -/
theorem readIntegerPair_sequence {c c' : List UInt8} (h : c.length < 256 ^ 126)
    (h' : c'.length < 256 ^ 126)
    (hbody : (element 0x02 c ++ element 0x02 c').length < 256 ^ 126) :
    readIntegerPair (sequence (element 0x02 c ++ element 0x02 c')) =
      if Minimal c ∧ Minimal c' then some (value c, value c') else none := by
  have hlast := readInteger_element h' []
  rw [List.append_nil] at hlast
  have houter := @readElement_element 0x30 _ hbody []
  rw [List.append_nil] at houter
  rw [readIntegerPair, sequence, houter]
  show (match readInteger (element 0x02 c ++ element 0x02 c') with
    | some (x, c) => _
    | none => none) = _
  rw [readInteger_element h]
  by_cases hmin : Minimal c
  · rw [if_pos hmin]
    show (match readInteger (element 0x02 c') with
      | some (y, []) => some (value c, y)
      | _ => none) = _
    rw [hlast]
    by_cases hmin' : Minimal c' <;> simp [hmin, hmin']
  · simp [hmin]

end DspEmbedded.Lib.Der
