import Mathlib.Data.List.Infix

/-!
# The first place of a pattern

A search from the front, by positions and as a recursion on the text. The
recursion gives what stands behind the place, which is all that a reader needs
who goes on from there.
-/
namespace DspEmbedded.Lib.Search

variable {α : Type*}

/-- The pattern stands at `p`, and nowhere before. -/
structure FirstAt (pat l : List α) (p : Nat) : Prop where
  here : pat <+: l.drop p
  first : ∀ j < p, ¬ pat <+: l.drop j

theorem infix_iff_drop {pat l : List α} : pat <:+: l ↔ ∃ p, pat <+: l.drop p := by
  constructor
  · rintro ⟨pre, post, rfl⟩
    refine ⟨pre.length, ?_⟩
    rw [List.append_assoc, List.drop_left]
    exact List.prefix_append _ _
  · rintro ⟨p, h⟩
    exact h.isInfix.trans (List.drop_suffix p l).isInfix

variable [DecidableEq α]

/-- What follows the first place of the pattern. -/
def behind (pat : List α) : List α → Option (List α)
  | [] => if pat = [] then some [] else none
  | a :: l => if pat <+: a :: l then some ((a :: l).drop pat.length) else behind pat l

theorem behind_here {pat l : List α} (h : pat <+: l) :
    behind pat l = some (l.drop pat.length) := by
  cases l with
  | nil => simp [behind, List.prefix_nil.mp h]
  | cons a l => rw [behind, if_pos h]

theorem behind_cons {pat l : List α} {a : α} (h : ¬ pat <+: a :: l) :
    behind pat (a :: l) = behind pat l := by rw [behind, if_neg h]

theorem behind_of_firstAt {pat l : List α} {p : Nat} (h : FirstAt pat l p) :
    behind pat l = some (l.drop (p + pat.length)) := by
  induction p generalizing l with
  | zero => rw [behind_here (by simpa using h.here), Nat.zero_add]
  | succ p ih =>
    cases l with
    | nil =>
      have hat0 : pat <+: ([] : List α).drop 0 := by simpa using h.here
      exact absurd hat0 (h.first 0 (by omega))
    | cons a l =>
      rw [behind_cons (h.first 0 (by omega))]
      have hnext : FirstAt pat l p := ⟨h.here, fun j hj => h.first (j + 1) (by omega)⟩
      rw [ih hnext, Nat.succ_add, List.drop_succ_cons]

theorem behind_isSome_iff {pat l : List α} : (behind pat l).isSome ↔ pat <:+: l := by
  induction l with
  | nil =>
    rw [behind, List.infix_nil]
    split_ifs with h
    · simp [h]
    · simp [h]
  | cons a l ih =>
    rw [List.infix_cons_iff]
    by_cases h : pat <+: a :: l
    · simp [behind_here h, h]
    · simp [behind_cons h, h, ih]

theorem behind_eq_none_iff {pat l : List α} : behind pat l = none ↔ ¬ pat <:+: l := by
  rw [← behind_isSome_iff, Option.not_isSome_iff_eq_none]

/-- A stretch without the first element of the pattern is passed over. -/
theorem behind_append_of_notMem {a : α} {l : List α} (h : a ∉ l) (pat rest : List α) :
    behind (a :: pat) (l ++ rest) = behind (a :: pat) rest := by
  induction l with
  | nil => rfl
  | cons b l ih =>
    have hb : ¬ a :: pat <+: b :: (l ++ rest) := by
      intro hp
      obtain rfl := (List.cons_prefix_cons.mp hp).1
      exact h List.mem_cons_self
    rw [List.cons_append, behind_cons hb, ih fun hmem => h (List.mem_cons_of_mem _ hmem)]

end DspEmbedded.Lib.Search
