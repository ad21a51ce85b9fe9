import AlphaPanda.Exceptions
import AlphaPanda.Lib.Dict

/-!
# Operations by key

Operations on a table that each read and write the value of one key. A run of
them is, for each key, the run of the key's own operations.
-/

namespace AlphaPanda.Keyed

variable {κ ν ω ε : Type} [DecidableEq κ] (key : ω → κ) (step : Option ν → ω → Except ε ν)

def apply (t : Dict κ ν) (o : ω) : Except ε (Dict κ ν) := do
  let v ← step (t.get? (key o)) o
  pure (t.set (key o) v)

def run (t : Dict κ ν) (ops : List ω) : Except ε (Dict κ ν) := ops.foldlM (apply key step) t

/-- The operations of one key, from its value if it has one. -/
def runKey (s : Option ν) : List ω → Except ε (Option ν)
  | [] => .ok s
  | o :: ops => do
    let v ← step s o
    runKey (some v) ops

variable {key step}

theorem apply_ok_iff {t t' : Dict κ ν} : apply key step t o = .ok t' ↔
    ∃ v, step (t.get? (key o)) o = .ok v ∧ t.set (key o) v = t' := by
  simp only [apply, bind_ok, pure_ok]

theorem run_cons {t t' : Dict κ ν} : run key step t (o :: ops) = .ok t' ↔
    ∃ v, step (t.get? (key o)) o = .ok v ∧ run key step (t.set (key o) v) ops = .ok t' := by
  rw [run, List.foldlM_cons, bind_ok]
  constructor
  · rintro ⟨t₁, happly, hrun⟩
    obtain ⟨v, hv, rfl⟩ := apply_ok_iff.mp happly
    exact ⟨v, hv, hrun⟩
  · rintro ⟨v, hv, hrun⟩
    exact ⟨_, apply_ok_iff.mpr ⟨v, hv, rfl⟩, hrun⟩

theorem runKey_cons {s s' : Option ν} : runKey step s (o :: ops) = .ok s' ↔
    ∃ v, step s o = .ok v ∧ runKey step (some v) ops = .ok s' := by
  rw [runKey, bind_ok]

theorem runKey_of_run {t t' : Dict κ ν} (h : run key step t ops = .ok t') (k : κ) :
    runKey step (t.get? k) (ops.filter (key · = k)) = .ok (t'.get? k) := by
  induction ops generalizing t with
  | nil =>
    cases h
    rfl
  | cons o ops ih =>
    obtain ⟨v, hv, hrun⟩ := run_cons.mp h
    have hrest := ih hrun
    by_cases hk : key o = k
    · subst hk
      rw [List.filter_cons_of_pos (by simp), runKey_cons]
      rw [Dict.get?_set_self] at hrest
      exact ⟨v, hv, hrest⟩
    · rw [List.filter_cons_of_neg (by simp [hk])]
      rwa [Dict.get?_set_of_ne _ (Ne.symm hk)] at hrest

theorem run_of_runKey {t : Dict κ ν} {f : κ → Option ν}
    (h : ∀ k, runKey step (t.get? k) (ops.filter (key · = k)) = .ok (f k)) :
    ∃ t', run key step t ops = .ok t' ∧ ∀ k, t'.get? k = f k := by
  induction ops generalizing t with
  | nil => exact ⟨t, rfl, fun k => Except.ok.inj (h k)⟩
  | cons o ops ih =>
    have hkey := h (key o)
    rw [List.filter_cons_of_pos (by simp), runKey_cons] at hkey
    obtain ⟨v, hv, hrest⟩ := hkey
    obtain ⟨t', hrun, ht'⟩ := ih (t := t.set (key o) v) fun k => by
      by_cases hk : key o = k
      · subst hk
        rw [Dict.get?_set_self]
        exact hrest
      · have hother := h k
        rw [List.filter_cons_of_neg (by simp [hk])] at hother
        rwa [Dict.get?_set_of_ne _ (Ne.symm hk)]
    exact ⟨t', run_cons.mpr ⟨v, hv, hrun⟩, ht'⟩

/-- Two runs over the same table both end, with the same values, exactly if they
do for each key. -/
theorem run_agree_iff {step' : Option ν → ω → Except ε ν} (t : Dict κ ν) (ops : List ω) :
    (∃ t₁ t₂, run key step t ops = .ok t₁ ∧ run key step' t ops = .ok t₂ ∧
        ∀ k, t₁.get? k = t₂.get? k) ↔
      ∀ k, ∃ s, runKey step (t.get? k) (ops.filter (key · = k)) = .ok s ∧
        runKey step' (t.get? k) (ops.filter (key · = k)) = .ok s := by
  constructor
  · rintro ⟨t₁, t₂, h₁, h₂, hsame⟩ k
    refine ⟨_, runKey_of_run h₁ k, ?_⟩
    rw [hsame k]
    exact runKey_of_run h₂ k
  · intro h
    choose f hf using h
    obtain ⟨t₁, h₁, hf₁⟩ := run_of_runKey fun k => (hf k).1
    obtain ⟨t₂, h₂, hf₂⟩ := run_of_runKey fun k => (hf k).2
    exact ⟨t₁, t₂, h₁, h₂, fun k => (hf₁ k).trans (hf₂ k).symm⟩

theorem runKey_const {g : ω → Except ε ν} {s s' : Option ν} :
    runKey (fun _ => g) s ops = .ok s' ↔ (∀ o ∈ ops, ∃ v, g o = .ok v) ∧
      (ops = [] → s' = s) ∧ ∀ o, ops.getLast? = some o → ∃ v, g o = .ok v ∧ s' = some v := by
  induction ops generalizing s with
  | nil => simp [runKey, eq_comm]
  | cons o ops ih =>
    rw [runKey_cons]
    simp only [ih, List.mem_cons, forall_eq_or_imp, reduceCtorEq, false_imp_iff, true_and]
    cases ops with
    | nil =>
      simp only [List.not_mem_nil, false_imp_iff, implies_true, true_imp_iff, List.getLast?_nil,
        reduceCtorEq, and_true, true_and, List.getLast?_singleton, Option.some.injEq, forall_eq']
      exact ⟨fun ⟨v, hv, hs⟩ => ⟨⟨v, hv⟩, v, hv, hs⟩, fun ⟨_, h⟩ => h⟩
    | cons o' ops =>
      simp only [reduceCtorEq, false_imp_iff, true_and, List.getLast?_cons_cons]
      tauto

end AlphaPanda.Keyed
