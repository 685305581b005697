import Mathlib.Data.List.Basic
import Mathlib.Data.List.TakeWhile
import Mathlib.Data.List.TakeDrop

/-!
# C strings and fixed character arrays

A `CStr` is what a non-NULL `const char *` denotes: the bytes before the first
NUL. A `CharBuf cap` is a `char[cap]` object, all of whose bytes count. The
string functions read and write the arrays byte by byte, as the C library does;
the lemmas relate them to equality of `CStr` values.
-/
namespace DspEmbedded.Lib.CString

/-- The bytes of a NUL-terminated string, without the terminator. -/
structure CStr where
  bytes : List UInt8
  noNul : (0 : UInt8) ∉ bytes
  deriving DecidableEq

namespace CStr

theorem ext_bytes {a b : CStr} (h : a.bytes = b.bytes) : a = b := by
  cases a
  cases b
  simpa using h

/-- The string found at the start of a byte sequence. -/
def ofBytes (bs : List UInt8) : CStr where
  bytes := bs.takeWhile (· != 0)
  noNul := by
    intro h
    simpa using List.mem_takeWhile_imp h

/-- A string literal, in the UTF-8 of the source file. -/
def lit (s : String) : CStr := ofBytes s.toByteArray.data.toList

def empty : CStr := ⟨[], by simp⟩

def length (s : CStr) : Nat := s.bytes.length

/-- At most the first `n` bytes. -/
def take (n : Nat) (s : CStr) : CStr :=
  ⟨s.bytes.take n, fun h => s.noNul (List.mem_of_mem_take h)⟩

/-- The string `n` bytes further on, for `n` up to the length. -/
def drop (n : Nat) (s : CStr) : CStr :=
  ⟨s.bytes.drop n, fun h => s.noNul (List.mem_of_mem_drop h)⟩

def append (a b : CStr) : CStr where
  bytes := a.bytes ++ b.bytes
  noNul := by
    simp only [List.mem_append, not_or]
    exact ⟨a.noNul, b.noNul⟩

instance : Append CStr := ⟨append⟩

@[simp] theorem bytes_take (n : Nat) (s : CStr) : (s.take n).bytes = s.bytes.take n := rfl

@[simp] theorem length_append (a b : CStr) : (a ++ b).length = a.length + b.length :=
  List.length_append

theorem takeWhile_bytes (s : CStr) : s.bytes.takeWhile (· != 0) = s.bytes := by
  rw [List.takeWhile_eq_self_iff]
  intro b hb
  have hne : b ≠ 0 := fun h => s.noNul (h ▸ hb)
  simpa using hne

/-- Reading a string that is followed by a NUL stops exactly at its end. -/
theorem ofBytes_nul (s : CStr) (rest : List UInt8) : ofBytes (s.bytes ++ 0 :: rest) = s := by
  apply ext_bytes
  simp only [ofBytes]
  rw [List.takeWhile_append_of_pos]
  · simp
  · intro b hb
    have hne : b ≠ 0 := fun h => s.noNul (h ▸ hb)
    simpa using hne

@[simp] theorem ofBytes_bytes (s : CStr) : ofBytes s.bytes = s :=
  ext_bytes s.takeWhile_bytes

theorem take_of_length_le {n : Nat} {s : CStr} (h : s.length ≤ n) : s.take n = s :=
  ext_bytes (List.take_of_length_le h)

theorem take_eq_self_iff {n : Nat} {s : CStr} : s.take n = s ↔ s.length ≤ n := by
  constructor
  · intro h
    rw [← h]
    exact List.length_take_le n s.bytes
  · exact take_of_length_le

theorem length_take_le (n : Nat) (s : CStr) : (s.take n).length ≤ n :=
  List.length_take_le n s.bytes

end CStr

/-- A `char[cap]` object. -/
structure CharBuf (cap : Nat) where
  bytes : List UInt8
  length_eq : bytes.length = cap
  deriving DecidableEq

namespace CharBuf

variable {cap : Nat}

theorem ext_bytes {a b : CharBuf cap} (h : a.bytes = b.bytes) : a = b := by
  cases a
  cases b
  simpa using h

/-- The result of `memset(buf, 0, cap)`. -/
def zero (cap : Nat) : CharBuf cap := ⟨List.replicate cap 0, List.length_replicate⟩

/-- The C string that starts at the array. -/
def str (b : CharBuf cap) : CStr := CStr.ofBytes b.bytes

/-- `buf[i] = v`, for an index inside the array. -/
def set (b : CharBuf cap) (i : Nat) (v : UInt8) : CharBuf cap :=
  ⟨b.bytes.set i v, by rw [List.length_set, b.length_eq]⟩

end CharBuf

/-- The string at the start of an array ends inside it where the array holds a NUL. -/
theorem CharBuf.length_str_lt_iff {cap : Nat} (b : CharBuf cap) :
    b.str.length < cap ↔ (0 : UInt8) ∈ b.bytes := by
  have hle := (List.takeWhile_sublist (p := (· != (0 : UInt8))) (l := b.bytes)).length_le
  constructor
  · intro hlt
    by_contra hmem
    have hall : b.bytes.takeWhile (· != 0) = b.bytes := CStr.takeWhile_bytes ⟨b.bytes, hmem⟩
    have hlen : b.str.length = cap := (congrArg List.length hall).trans b.length_eq
    omega
  · intro hmem
    by_contra hlt
    have hlen : (b.bytes.takeWhile (· != 0)).length = b.bytes.length := by
      have hge : cap ≤ (b.bytes.takeWhile (· != 0)).length := Nat.le_of_not_lt hlt
      rw [b.length_eq] at hle ⊢
      omega
    have hall := (List.takeWhile_sublist (p := (· != (0 : UInt8))) (l := b.bytes)).eq_of_length hlen
    rw [List.takeWhile_eq_self_iff] at hall
    simpa using hall 0 hmem

/-- The bytes of `src` up to its NUL, cut or zero-filled to exactly `n`. -/
def padTo (n : Nat) (src : List UInt8) : List UInt8 :=
  src.take n ++ List.replicate (n - src.length) 0

@[simp] theorem length_padTo (n : Nat) (src : List UInt8) : (padTo n src).length = n := by
  simp only [padTo, List.length_append, List.length_take, List.length_replicate]
  omega

/-- `strncpy(dst, src, n)`: exactly `n` bytes of `dst` are written, the unused
ones with zeros, and nothing after them is touched. -/
def strncpy {cap : Nat} (dst : CharBuf cap) (src : CStr) (n : Nat) : CharBuf cap where
  bytes := (padTo n src.bytes ++ dst.bytes.drop n).take cap
  length_eq := by
    have h := dst.length_eq
    simp only [List.length_take, List.length_append, length_padTo, List.length_drop]
    omega

/-- A character array holding `s` followed by zeros only. -/
def CharBuf.ofStr (cap : Nat) (s : CStr) : CharBuf cap := ⟨padTo cap s.bytes, length_padTo _ _⟩

theorem CharBuf.str_ofStr {cap : Nat} {s : CStr} (h : s.length < cap) :
    (CharBuf.ofStr cap s).str = s := by
  have hz : List.replicate (cap - s.bytes.length) (0 : UInt8) =
      0 :: List.replicate (cap - s.bytes.length - 1) 0 := by
    obtain ⟨k, hk⟩ : ∃ k, cap - s.bytes.length = k + 1 :=
      ⟨cap - s.bytes.length - 1, by have h' : s.bytes.length < cap := h; omega⟩
    rw [hk]
    rfl
  have htake : s.bytes.take cap = s.bytes := List.take_of_length_le (Nat.le_of_lt h)
  simp only [CharBuf.str, CharBuf.ofStr, padTo, htake, hz]
  exact s.ofBytes_nul _

/-- The idiom `strncpy(dst, src, cap-1); dst[cap-1] = '\0'` stores the first
`cap-1` bytes and clears the rest of the array, whatever it held. -/
theorem strncpy_terminated {cap : Nat} (hcap : 0 < cap) (dst : CharBuf cap) (src : CStr) :
    (strncpy dst src (cap - 1)).set (cap - 1) 0 = CharBuf.ofStr cap (src.take (cap - 1)) := by
  apply CharBuf.ext_bytes
  obtain ⟨n, rfl⟩ : ∃ n, cap = n + 1 := ⟨cap - 1, by omega⟩
  simp only [CharBuf.set, strncpy, CharBuf.ofStr, CStr.bytes_take, Nat.add_sub_cancel]
  have hd : ∃ x, dst.bytes.drop n = [x] := by
    rw [← List.length_eq_one_iff, List.length_drop, dst.length_eq]
    omega
  obtain ⟨x, hx⟩ := hd
  have hl : (padTo n src.bytes ++ [x]).length = n + 1 := by simp
  rw [hx, List.take_of_length_le (by rw [hl]), List.set_append_right _ _ (by simp)]
  simp only [length_padTo, Nat.sub_self, List.set_cons_zero]
  simp only [padTo, List.take_take, List.append_assoc, List.length_take]
  rw [Nat.min_eq_right (by omega : n ≤ n + 1), ← List.replicate_succ']
  congr 2
  omega

/-- Into an array of zeros `strncpy` leaves a string with zeros behind it. -/
theorem strncpy_zero {cap n : Nat} (hn : n ≤ cap) (src : CStr) :
    strncpy (.zero cap) src n = CharBuf.ofStr cap (src.take n) := by
  apply CharBuf.ext_bytes
  simp only [strncpy, CharBuf.zero, CharBuf.ofStr, CStr.bytes_take, List.drop_replicate]
  rw [List.take_of_length_le (by simp; omega)]
  simp only [padTo, List.take_take, List.append_assoc, List.length_take,
    List.replicate_append_replicate]
  rw [Nat.min_eq_right hn]
  congr 2
  omega

/-- `strncmp(a, b, n)`: the difference of the first bytes that differ, looking
at no more than `n` bytes and at none after a common NUL. -/
def strncmp : List UInt8 → List UInt8 → Nat → Int
  | _, _, 0 => 0
  | a, b, n + 1 =>
    let x := a.headD 0
    let y := b.headD 0
    if x ≠ y then (x.toNat : Int) - y.toNat
    else if x = 0 then 0
    else strncmp a.tail b.tail n

/-- Only the string at the start of an array is compared, not what follows it. -/
theorem strncmp_takeWhile (n : Nat) (a b : List UInt8) :
    strncmp (a.takeWhile (· != 0)) b n = strncmp a b n := by
  induction n generalizing a b with
  | zero => simp [strncmp]
  | succ n ih =>
    cases a with
    | nil => rfl
    | cons x a =>
      by_cases hx : x = 0
      · subst hx
        simp [strncmp]
      · simp [strncmp, hx, ih]

theorem toNat_sub_eq_zero {x y : UInt8} (h : (x.toNat : Int) - y.toNat = 0) : x = y := by
  apply UInt8.toNat_inj.mp
  omega

private theorem strncmp_eq_zero_iff_bytes (n : Nat) :
    ∀ a b : List UInt8, 0 ∉ a → 0 ∉ b →
      (strncmp a b n = 0 ↔ a.take n = b.take n) := by
  induction n with
  | zero => intro a b _ _; simp [strncmp]
  | succ n ih =>
    intro a b ha hb
    rcases a with _ | ⟨x, a⟩ <;> rcases b with _ | ⟨y, b⟩
    · simp [strncmp]
    · have hy : y ≠ 0 := fun h => hb (by simp [h])
      simp only [strncmp, List.headD_nil, List.headD_cons, Ne, hy.symm, not_false_iff, if_true]
      simp only [List.take_nil, List.take_succ_cons, reduceCtorEq, iff_false]
      exact fun h => hy (toNat_sub_eq_zero h).symm
    · have hx : x ≠ 0 := fun h => ha (by simp [h])
      simp only [strncmp, List.headD_nil, List.headD_cons, Ne, hx, not_false_iff, if_true]
      simp only [List.take_nil, List.take_succ_cons, reduceCtorEq, iff_false]
      exact fun h => hx (toNat_sub_eq_zero h)
    · have hx : x ≠ 0 := fun h => ha (by simp [h])
      have iht := ih a b (fun h => ha (List.mem_cons_of_mem _ h))
        (fun h => hb (List.mem_cons_of_mem _ h))
      by_cases hxy : x = y
      · subst hxy
        simp [strncmp, hx, iht]
      · simp only [strncmp, List.headD_cons, Ne, hxy, not_false_iff, if_true,
          List.take_succ_cons, List.cons.injEq, false_and, iff_false]
        exact fun h => hxy (toNat_sub_eq_zero h)

theorem strncmp_eq_zero_iff (a b : CStr) (n : Nat) :
    strncmp a.bytes b.bytes n = 0 ↔ a.take n = b.take n := by
  rw [strncmp_eq_zero_iff_bytes n a.bytes b.bytes a.noNul b.noNul]
  exact ⟨fun h => CStr.ext_bytes h, congrArg CStr.bytes⟩

/-- A stored string shorter than the limit is only equal to itself, even when it
is compared with longer strings. -/
theorem strncmp_eq_zero_iff_of_lt {a b : CStr} {n : Nat} (ha : a.length < n) :
    strncmp a.bytes b.bytes n = 0 ↔ a = b := by
  rw [strncmp_eq_zero_iff, CStr.take_of_length_le (Nat.le_of_lt ha)]
  constructor
  · intro h
    have hl : (b.take n).length = a.length := congrArg CStr.length h.symm
    have hb : b.length ≤ n := by
      have hmin : min n b.length = a.length := by
        rw [← hl]
        exact List.length_take.symm
      omega
    rwa [CStr.take_of_length_le hb] at h
  · intro he
    subst he
    exact (CStr.take_of_length_le (Nat.le_of_lt ha)).symm

/-- The comparison of a search key with a `char` array, as a slot search makes it. -/
theorem strncmp_charBuf {cap : Nat} {buf : CharBuf cap} {s : CStr} {n : Nat}
    (h : buf.str.length < n) : strncmp buf.bytes s.bytes n = 0 ↔ buf.str = s := by
  rw [← strncmp_takeWhile]
  exact strncmp_eq_zero_iff_of_lt (a := buf.str) h

/-- `strncmp(s, prefix, strlen(prefix)) == 0` tests for a prefix. -/
theorem strncmp_prefix_iff (s p : CStr) :
    strncmp s.bytes p.bytes p.length = 0 ↔ p.bytes <+: s.bytes := by
  rw [strncmp_eq_zero_iff, CStr.take_of_length_le (s := p) le_rfl]
  constructor
  · intro h
    rw [← h]
    exact List.take_prefix _ _
  · intro h
    exact CStr.ext_bytes (List.prefix_iff_eq_take.mp h).symm

end DspEmbedded.Lib.CString
