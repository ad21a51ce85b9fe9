import Mathlib.Data.List.Induction
import Mathlib.Algebra.Order.Ring.Int

/-!
# Redis lists

`LPUSH`, `LTRIM` and `LRANGE`; a negative index counts from the end. A list
that is only pushed to, trimmed to no less than some length, and removed at
times shows its newest entries, up to that length, as they were pushed.
-/

namespace RedisList

/-- The entries from one index to another, both included. -/
def range (l : List α) (start stop : ℤ) : List α :=
  let first := if start < 0 then start + l.length else start
  let last := if stop < 0 then stop + l.length else stop
  (l.take (last + 1).toNat).drop first.toNat

theorem range_zero (l : List α) (h : 0 ≤ stop) : range l 0 stop = l.take (stop + 1).toNat := by
  simp [range, not_lt.mpr h]

inductive Change (α : Type) where
  | lpush (x : α)
  | ltrim (start stop : ℤ)
  | removed

def Change.apply (l : List α) : Change α → List α
  | .lpush x => x :: l
  | .ltrim start stop => range l start stop
  | .removed => []

def after (cs : List (Change α)) : List α := cs.foldl Change.apply []

/-- What was pushed since the list was last removed, newest first. -/
def pushed (cs : List (Change α)) : List α :=
  cs.foldl (fun l c => match c with | .lpush x => x :: l | .ltrim .. => l | .removed => []) []

/-- No change trims the list to less than its first `cap` entries. -/
def Leaves (cap : ℕ) (cs : List (Change α)) : Prop :=
  ∀ start stop, Change.ltrim start stop ∈ cs → start = 0 ∧ (cap : ℤ) ≤ stop + 1

@[simp] theorem after_concat (cs : List (Change α)) (c : Change α) :
    after (cs ++ [c]) = c.apply (after cs) := by
  simp [after]

@[simp] theorem pushed_lpush (cs : List (Change α)) (x : α) :
    pushed (cs ++ [.lpush x]) = x :: pushed cs := by
  simp [pushed]

@[simp] theorem pushed_ltrim (cs : List (Change α)) (start stop : ℤ) :
    pushed (cs ++ [.ltrim start stop]) = pushed cs := by
  simp [pushed]

@[simp] theorem pushed_removed (cs : List (Change α)) : pushed (cs ++ [.removed]) = [] := by
  simp [pushed]

theorem Leaves.init {cs : List (Change α)} (h : Leaves cap (cs ++ [c])) : Leaves cap cs :=
  fun start stop hmem => h start stop (List.mem_append_left _ hmem)

/-- Up to `cap` entries, the list is what was pushed. -/
theorem take_after {cs : List (Change α)} (h : Leaves cap cs) (hn : n ≤ cap) :
    (after cs).take n = (pushed cs).take n := by
  induction cs using List.reverseRecOn generalizing n with
  | nil => rfl
  | append_singleton cs c ih =>
    cases c with
    | lpush x =>
      cases n with
      | zero => rfl
      | succ n =>
        have hrest := ih h.init (Nat.le_of_succ_le hn)
        simp [Change.apply, hrest]
    | ltrim start stop =>
      obtain ⟨rfl, hstop⟩ := h start stop (List.mem_append_right _ List.mem_cons_self)
      have hrest := ih h.init hn
      rw [after_concat, Change.apply, pushed_ltrim]
      rcases lt_or_ge stop 0 with hneg | hpos
      · obtain rfl : n = 0 := by omega
        rfl
      · rw [range_zero _ hpos, List.take_take, ← hrest]
        congr 1
        omega
    | removed => simp [Change.apply]

theorem range_after {cs : List (Change α)} {n : ℤ} (h : Leaves cap cs) (hpos : 1 ≤ n) (hn : n ≤ cap) :
    range (after cs) 0 (n - 1) = (pushed cs).take n.toNat := by
  rw [range_zero _ (by omega), Int.sub_add_cancel, take_after h (by omega)]

end RedisList
