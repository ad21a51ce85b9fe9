import Mathlib.Data.List.DropRight

/-!
# Bounded deques

`collections.deque(maxlen=n)`: an append to a full deque drops its first item.
-/

structure Deque (α : Type) (maxlen : ℕ) where
  items : List α
  bounded : items.length ≤ maxlen

theorem List.length_rtake (xs : List α) : (xs.rtake n).length = min n xs.length := by
  simp only [List.rtake, List.length_drop]
  omega

/-- What is dropped from the end of one list before is not taken later. -/
theorem List.rtake_append_singleton_rtake (xs : List α) (x : α) :
    (xs.rtake n ++ [x]).rtake n = (xs ++ [x]).rtake n := by
  cases n with
  | zero => rw [List.rtake_zero, List.rtake_zero]
  | succ n =>
    rw [List.rtake_concat_succ, List.rtake_concat_succ]
    congr 1
    simp only [List.rtake, List.drop_drop, List.length_drop]
    congr 1
    omega

theorem List.rtake_append_of_length (xs : List α) {ys : List α} (h : ys.length = n) :
    (xs ++ ys).rtake n = ys := by
  rw [List.rtake, List.length_append, h, Nat.add_sub_cancel, List.drop_left]

theorem List.rtake_append_of_le (xs : List α) {ys : List α} (h : n ≤ ys.length) :
    (xs ++ ys).rtake n = ys.rtake n := by
  rw [List.rtake, List.rtake, List.length_append, Nat.add_sub_assoc h, List.drop_length_add_append]

theorem List.rtake_rtake_of_le (xs : List α) (h : n ≤ m) : (xs.rtake m).rtake n = xs.rtake n := by
  rw [List.rtake, List.rtake, List.rtake, List.drop_drop, List.length_drop]
  congr 1
  omega

/-- What is taken from the end and kept by a filter is taken after filtering. -/
theorem List.rtake_filter {p : α → Bool} {xs : List α} (hn : n ≤ xs.length)
    (h : ∀ x ∈ xs.rtake n, p x) : (xs.filter p).rtake n = xs.rtake n := by
  have hsplit : xs = xs.rdrop n ++ xs.rtake n := (List.take_append_drop _ xs).symm
  have hlength : (xs.rtake n).length = n := by
    rw [List.length_rtake]
    exact Nat.min_eq_left hn
  calc (xs.filter p).rtake n
      = ((xs.rdrop n).filter p ++ (xs.rtake n).filter p).rtake n := by
        rw [← List.filter_append, ← hsplit]
    _ = ((xs.rdrop n).filter p ++ xs.rtake n).rtake n := by rw [List.filter_eq_self.mpr h]
    _ = xs.rtake n := List.rtake_append_of_length _ hlength

namespace Deque

variable {maxlen : ℕ}

def empty : Deque α maxlen := ⟨[], Nat.zero_le _⟩

def append (d : Deque α maxlen) (x : α) : Deque α maxlen :=
  ⟨(d.items ++ [x]).rtake maxlen, by
    rw [List.length_rtake]
    exact Nat.min_le_left _ _⟩

theorem append_items {d : Deque α maxlen} (h : d.items = xs.rtake maxlen) (x : α) :
    (d.append x).items = (xs ++ [x]).rtake maxlen := by
  change (d.items ++ [x]).rtake maxlen = _
  rw [h, List.rtake_append_singleton_rtake]

end Deque
