import Mathlib.Data.List.Basic
import Mathlib.Data.Nat.ModEq

/-!
# Bounded queues, and rings that represent them

A queue holds at most `cap` items, oldest first. A ring keeps the items in `cap`
cells, from the one at `tail` on, and writes the next one at `head`. `Ring` relates
the two; the lemmas say what writing at `head` and reading at `tail` do to the
queue that a ring represents.
-/
namespace DspEmbedded.Lib.Fifo

variable {α : Type*} {cap : Nat}

/-! ## Queues -/

structure Queue (α : Type*) (cap : Nat) where
  items : List α
  bound : items.length ≤ cap

theorem Queue.ext_items {q r : Queue α cap} (h : q.items = r.items) : q = r := by
  cases q
  cases r
  simpa using h

namespace Queue

def empty : Queue α cap := ⟨[], Nat.zero_le cap⟩

/-- Nothing where the queue is full: the newest item is dropped. -/
def enqueue (q : Queue α cap) (x : α) : Option (Queue α cap) :=
  if h : q.items.length < cap then
    some ⟨q.items ++ [x], by rw [List.length_append]; exact h⟩
  else none

def dequeue (q : Queue α cap) : Option (α × Queue α cap) :=
  match q with
  | ⟨[], _⟩ => none
  | ⟨x :: items, h⟩ => some (x, ⟨items, (Nat.le_succ _).trans h⟩)

/-- The `n` oldest items, or all where there are fewer. -/
def drain (q : Queue α cap) (n : Nat) : List α × Queue α cap :=
  (q.items.take n, ⟨q.items.drop n, by rw [List.length_drop]; exact (Nat.sub_le _ _).trans q.bound⟩)

theorem enqueue_cases (q : Queue α cap) (x : α) :
    (q.items.length = cap ∧ q.enqueue x = none) ∨
    ∃ r, q.items.length < cap ∧ q.enqueue x = some r ∧ r.items = q.items ++ [x] := by
  by_cases h : q.items.length < cap
  · right
    refine ⟨⟨q.items ++ [x], by rw [List.length_append]; exact h⟩, h, ?_, rfl⟩
    rw [enqueue, dif_pos h]
  · left
    refine ⟨?_, dif_neg h⟩
    have hbound := q.bound
    omega

theorem dequeue_cases (q : Queue α cap) :
    (q.items = [] ∧ q.dequeue = none) ∨
    ∃ x r, q.items = x :: r.items ∧ q.dequeue = some (x, r) := by
  rcases q with ⟨items, h⟩
  cases items with
  | nil => exact .inl ⟨rfl, rfl⟩
  | cons x items => exact .inr ⟨x, _, rfl, rfl⟩

end Queue

/-! ## Rings -/

/-- Steps of less than one round lead to different cells. -/
theorem ring_index_inj {a i j : Nat} (hi : i < cap) (hj : j < cap)
    (h : (a + i) % cap = (a + j) % cap) : i = j := by
  have hmod := Nat.ModEq.add_left_cancel' a h
  rwa [Nat.ModEq, Nat.mod_eq_of_lt hi, Nat.mod_eq_of_lt hj] at hmod

/-- The cells read by `read` hold the `items` from `tail` on. -/
structure Ring (cap : Nat) (read : Nat → α) (head tail : Nat) (items : List α) : Prop where
  tail_lt : tail < cap
  head_eq : head = (tail + items.length) % cap
  bound : items.length ≤ cap
  contents : ∀ i x, items[i]? = some x → read ((tail + i) % cap) = x

section Ring

variable {read read' : Nat → α} {head tail : Nat} {items : List α} {x : α}

theorem ring_empty (hcap : 0 < cap) (read : Nat → α) : Ring cap read 0 0 [] where
  tail_lt := hcap
  head_eq := (Nat.zero_mod cap).symm
  bound := Nat.zero_le cap
  contents := by
    intro i x h
    cases h

theorem Ring.head_lt (h : Ring cap read head tail items) : head < cap := by
  have hcap : 0 < cap := (Nat.zero_le tail).trans_lt h.tail_lt
  rw [h.head_eq]
  exact Nat.mod_lt _ hcap

/-- One cell further, in a ring. -/
theorem ring_next (a b cap : Nat) : (a % cap + b) % cap = (a + b) % cap := by
  rw [Nat.add_mod, Nat.mod_mod, ← Nat.add_mod]

/-- A write at `head` with room left appends, whatever else was in the cell. -/
theorem Ring.write (h : Ring cap read head tail items) (hroom : items.length < cap)
    (hhead : read' head = x) (hother : ∀ j ≠ head, read' j = read j) :
    Ring cap read' ((head + 1) % cap) tail (items ++ [x]) where
  tail_lt := h.tail_lt
  head_eq := by
    rw [h.head_eq, ring_next, List.length_append, List.length_singleton, Nat.add_assoc]
  bound := by
    rw [List.length_append]
    exact hroom
  contents := by
    intro i y hi
    by_cases hlt : i < items.length
    · rw [List.getElem?_append_left hlt] at hi
      rw [← h.contents i y hi]
      apply hother
      intro hsame
      rw [h.head_eq] at hsame
      have heq := ring_index_inj (hlt.trans hroom) hroom hsame
      omega
    · rw [List.getElem?_append_right (Nat.le_of_not_lt hlt)] at hi
      have hbound := (List.getElem?_eq_some_iff.mp hi).1
      rw [List.length_singleton] at hbound
      obtain rfl : i = items.length := by omega
      rw [Nat.sub_self, List.getElem?_cons_zero] at hi
      rw [← h.head_eq, hhead]
      exact Option.some.inj hi

/-- A read at `tail` gives the oldest item and drops it. -/
theorem Ring.read_tail (h : Ring cap read head tail (x :: items)) :
    read tail = x ∧ Ring cap read head ((tail + 1) % cap) items := by
  constructor
  · have hfirst := h.contents 0 x rfl
    rwa [Nat.add_zero, Nat.mod_eq_of_lt h.tail_lt] at hfirst
  · constructor
    · exact Nat.mod_lt _ ((Nat.zero_le tail).trans_lt h.tail_lt)
    · rw [h.head_eq, ring_next, List.length_cons, Nat.add_assoc, Nat.add_comm 1]
    · exact (Nat.le_succ _).trans h.bound
    · intro i y hi
      have hnext := h.contents (i + 1) y hi
      rwa [ring_next, Nat.add_assoc, Nat.add_comm 1]

end Ring

end DspEmbedded.Lib.Fifo
