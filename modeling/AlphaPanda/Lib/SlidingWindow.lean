import Mathlib.Algebra.Order.Group.Defs
import Mathlib.Data.Finset.Card

/-!
# Sliding windows

Logs of times, the latest first, and how many of them lie in a window of some
length: the half-open `(t - p, t]`.
-/

namespace SlidingWindow

variable {T : Type} [AddCommGroup T] [LinearOrder T]

def recent (p t : T) (log : List T) : List T := log.filter (t - p < ·)

def within (p u : T) (log : List T) : List T := log.filter fun t => u < t ∧ t ≤ u + p

/-- Each time found room: fewer than `c` before it in its window. -/
def Limited (c : ℕ) (p : T) : List T → Prop
  | [] => True
  | t :: past => (recent p t past).length < c ∧ Limited c p past

theorem Limited.capped [IsOrderedAddMonoid T] {c : ℕ} {p : T} {log : List T}
    (h : Limited c p log) (u : T) : (within p u log).length ≤ c := by
  induction log with
  | nil => exact Nat.zero_le c
  | cons t past ih =>
    rw [within, List.filter_cons]
    split
    · rename_i ht
      obtain ⟨-, ht⟩ : u < t ∧ t ≤ u + p := by simpa using ht
      -- What lies in this window was still there when `t` came.
      have hsub : (within p u past).length ≤ (recent p t past).length := by
        refine (List.monotone_filter_right past fun s hs => ?_).length_le
        obtain ⟨hs, -⟩ : u < s ∧ s ≤ u + p := by simpa using hs
        exact decide_eq_true ((sub_le_iff_le_add.mpr ht).trans_lt hs)
      rw [List.length_cons]
      exact Nat.succ_le_of_lt (hsub.trans_lt h.1)
    · exact ih h.2

theorem recent_recent [IsOrderedAddMonoid T] {t t' : T} (p : T) (h : t ≤ t') (log : List T) :
    recent p t' (recent p t log) = recent p t' log := by
  rw [recent, recent, recent, List.filter_filter]
  refine List.filter_congr fun s _ => ?_
  have hle : t - p ≤ t' - p := sub_le_sub_right h p
  grind

theorem recent_congr [IsOrderedAddMonoid T] {p t t' : T} {log log' : List T} (h : t ≤ t')
    (heq : recent p t log = recent p t log') : recent p t' log = recent p t' log' := by
  rw [← recent_recent p h log, ← recent_recent p h log', heq]

end SlidingWindow
