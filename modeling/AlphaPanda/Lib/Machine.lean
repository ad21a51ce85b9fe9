import Mathlib.Data.Option.Basic

/-!
# Machines

The runs of a partial step function, and what they keep.
-/

namespace AlphaPanda.Machine

def run (step : σ → α → Option σ) (s : σ) : List α → Option σ
  | [] => some s
  | a :: as => (step s a).bind fun s' => run step s' as

def Runs (step : σ → α → Option σ) (P : σ → α → Prop) (s : σ) : List α → Prop
  | [] => True
  | a :: as => P s a ∧ ∀ s', step s a = some s' → Runs step P s' as

instance decidableRuns (step : σ → α → Option σ) (P : σ → α → Prop) [∀ s a, Decidable (P s a)]
    (s : σ) : (as : List α) → Decidable (Runs step P s as)
  | [] => isTrue trivial
  | a :: as =>
    match h : step s a with
    | none => decidable_of_iff (P s a) (by simp [Runs, h])
    | some t =>
      have := decidableRuns step P t as
      decidable_of_iff (P s a ∧ Runs step P t as) (by simp [Runs, h])

section
variable {step : σ → α → Option σ} {P : σ → α → Prop} {I : σ → Prop}

theorem run_cons : run step s (a :: as) = some s' ↔
    ∃ t, step s a = some t ∧ run step t as = some s' := by
  rw [run, Option.bind_eq_some_iff]

/-- What each step keeps that meets the condition, a run keeps whose steps all do. -/
theorem run_invariant (hstep : ∀ s a s', I s → P s a → step s a = some s' → I s') (h : I s)
    (hruns : Runs step P s as) (hrun : run step s as = some s') : I s' := by
  induction as generalizing s with
  | nil => cases hrun; exact h
  | cons a as ih =>
    obtain ⟨t, ht, hrun⟩ := run_cons.mp hrun
    exact ih (hstep s a t h hruns.1 ht) (hruns.2 t ht) hrun

end

end AlphaPanda.Machine
