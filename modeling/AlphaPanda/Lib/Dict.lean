import Mathlib.Algebra.BigOperators.Group.List.Basic
import Mathlib.Data.List.Induction
import Mathlib.Data.List.Nodup
import Mathlib.Tactic.Abel

/-!
# Insertion-ordered dictionaries

Entries in the order their keys were first set; setting a present key keeps
its place. The keys are distinct by construction, so a sum over the entries
changes only by what `set` changes at one key.
-/

structure Dict (κ ν : Type) where
  entries : List (κ × ν)
  nodup : (entries.map Prod.fst).Nodup
  deriving DecidableEq

namespace Dict

variable [DecidableEq κ]

-- ---------------------------------------------------------------------------
-- On the entries
-- ---------------------------------------------------------------------------

def lookup (k : κ) : List (κ × ν) → Option ν
  | [] => none
  | (k', v) :: rest => if k' = k then some v else lookup k rest

def put (k : κ) (v : ν) : List (κ × ν) → List (κ × ν)
  | [] => [(k, v)]
  | (k', v') :: rest => if k' = k then (k, v) :: rest else (k', v') :: put k v rest

theorem lookup_eq_none {l : List (κ × ν)} : lookup k l = none ↔ k ∉ l.map Prod.fst := by
  induction l with
  | nil => simp [lookup]
  | cons e rest ih =>
    obtain ⟨k', v'⟩ := e
    by_cases h : k' = k
    · simp [lookup, h]
    · simp [lookup, h, ih, Ne.symm h]

theorem lookup_put {l : List (κ × ν)} :
    lookup k' (put k v l) = if k' = k then some v else lookup k' l := by
  induction l with
  | nil => simp [put, lookup, eq_comm]
  | cons e rest ih =>
    obtain ⟨a, b⟩ := e
    simp only [put]
    split
    · rename_i h; subst h
      simp only [lookup]; grind
    · simp only [lookup, ih]; grind

theorem mem_keys_put {l : List (κ × ν)} :
    k' ∈ (put k v l).map Prod.fst ↔ k' = k ∨ k' ∈ l.map Prod.fst := by
  rw [← not_iff_not, not_or, ← lookup_eq_none, ← lookup_eq_none, lookup_put]
  split <;> simp_all

theorem nodup_put {l : List (κ × ν)} (h : (l.map Prod.fst).Nodup) :
    ((put k v l).map Prod.fst).Nodup := by
  induction l with
  | nil => simp [put]
  | cons e rest ih =>
    obtain ⟨a, b⟩ := e
    simp only [List.map_cons, List.nodup_cons] at h
    simp only [put]
    split
    · rename_i heq; subst heq
      simpa using h
    · rename_i hne
      simp only [List.map_cons, List.nodup_cons, mem_keys_put]
      exact ⟨by grind, ih h.2⟩

theorem lookup_of_mem {l : List (κ × ν)} (hl : (l.map Prod.fst).Nodup) (h : (k, v) ∈ l) :
    lookup k l = some v := by
  induction l with
  | nil => cases h
  | cons e rest ih =>
    obtain ⟨a, b⟩ := e
    simp only [List.map_cons, List.nodup_cons] at hl
    rcases List.mem_cons.mp h with heq | h
    · cases heq; simp [lookup]
    · have hne : a ≠ k := by
        rintro rfl; exact hl.1 (List.mem_map_of_mem (f := Prod.fst) h)
      simp [lookup, hne, ih hl.2 h]

theorem mem_of_lookup {l : List (κ × ν)} (h : lookup k l = some v) : (k, v) ∈ l := by
  induction l with
  | nil => cases h
  | cons e rest ih =>
    obtain ⟨a, b⟩ := e
    simp only [lookup] at h
    split at h
    · rename_i heq; cases h; subst heq; exact List.mem_cons_self
    · exact List.mem_cons_of_mem _ (ih h)

-- ---------------------------------------------------------------------------
-- The operations
-- ---------------------------------------------------------------------------

def empty : Dict κ ν := ⟨[], by simp⟩

def get? (d : Dict κ ν) (k : κ) : Option ν := lookup k d.entries

def set (d : Dict κ ν) (k : κ) (v : ν) : Dict κ ν := ⟨put k v d.entries, nodup_put d.nodup⟩

/-- `dict(l)`: a later entry of a key replaces an earlier one. -/
def ofList (l : List (κ × ν)) : Dict κ ν := l.foldl (fun d e => d.set e.1 e.2) empty

def pop (d : Dict κ ν) (k : κ) : Dict κ ν :=
  ⟨d.entries.filter (·.1 ≠ k), d.nodup.sublist (List.filter_sublist.map _)⟩

@[simp] theorem get?_empty : (empty : Dict κ ν).get? k = none := rfl

theorem get?_set (d : Dict κ ν) :
    (d.set k v).get? k' = if k' = k then some v else d.get? k' := lookup_put

@[simp] theorem get?_set_self (d : Dict κ ν) : (d.set k v).get? k = some v := by
  simp [get?_set]

theorem get?_set_of_ne (d : Dict κ ν) (h : k' ≠ k) : (d.set k v).get? k' = d.get? k' := by
  simp [get?_set, h]

theorem mem_entries {d : Dict κ ν} : (k, v) ∈ d.entries ↔ d.get? k = some v :=
  ⟨lookup_of_mem d.nodup, mem_of_lookup⟩

theorem get?_pop (d : Dict κ ν) :
    (d.pop k).get? k' = if k' = k then none else d.get? k' := by
  by_cases h : k' = k
  · subst h
    simp [get?, pop, lookup_eq_none]
  · rw [if_neg h]
    refine Option.ext fun v => ?_
    rw [← mem_entries, ← mem_entries]
    simp [pop, h]

theorem get?_foldl_pop {keys : List κ} (d : Dict κ ν) (h : k ∉ keys) :
    (keys.foldl pop d).get? k = d.get? k := by
  induction keys generalizing d with
  | nil => rfl
  | cons key keys ih =>
    obtain ⟨hne, hkeys⟩ := not_or.mp (mt List.mem_cons.mpr h)
    rw [List.foldl_cons, ih _ hkeys, get?_pop, if_neg hne]

theorem get?_of_foldl_pop {keys : List κ} {d : Dict κ ν}
    (h : (keys.foldl pop d).get? k = some v) : d.get? k = some v := by
  induction keys generalizing d with
  | nil => exact h
  | cons key keys ih =>
    have hpop := ih h
    rw [get?_pop] at hpop
    exact (Option.ite_none_left_eq_some.mp hpop).2

theorem filter_put {p : κ → Bool} (h : p k = false) (l : List (κ × ν)) :
    (put k v l).filter (fun e => p e.1) = l.filter fun e => p e.1 := by
  induction l with
  | nil => simp [put, h]
  | cons e l ih =>
    obtain ⟨k', v'⟩ := e
    rw [put]
    split
    · rename_i heq
      subst heq
      simp [h]
    · simp [List.filter_cons, ih]

theorem filter_foldl_pop {p : κ → Bool} {keys : List κ} (h : ∀ k ∈ keys, p k = false)
    (d : Dict κ ν) :
    (keys.foldl pop d).entries.filter (fun e => p e.1) = d.entries.filter fun e => p e.1 := by
  induction keys generalizing d with
  | nil => rfl
  | cons key keys ih =>
    rw [List.foldl_cons, ih fun k hk => h k (List.mem_cons_of_mem _ hk), pop, List.filter_filter]
    refine List.filter_congr fun e _ => ?_
    by_cases hk : e.1 = key
    · simp [hk, h key List.mem_cons_self]
    · simp [hk]

theorem get?_ofList_concat (l : List (κ × ν)) (e : κ × ν) :
    (ofList (l ++ [e])).get? k = if k = e.1 then some e.2 else (ofList l).get? k := by
  rw [ofList, List.foldl_append]
  exact get?_set _

theorem put_of_not_mem {l : List (κ × ν)} (h : k ∉ l.map Prod.fst) : put k v l = l ++ [(k, v)] := by
  induction l with
  | nil => rfl
  | cons e l ih =>
    obtain ⟨k', v'⟩ := e
    obtain ⟨hne, hl⟩ := not_or.mp (mt List.mem_cons.mpr h)
    rw [put, if_neg (Ne.symm hne), ih hl, List.cons_append]

theorem entries_ofList {l : List (κ × ν)} (h : (l.map Prod.fst).Nodup) : (ofList l).entries = l := by
  induction l using List.reverseRecOn with
  | nil => rfl
  | append_singleton l e ih =>
    rw [List.map_append, List.nodup_append] at h
    have hnew : e.1 ∉ l.map Prod.fst := fun hmem => h.2.2 e.1 hmem e.1 List.mem_cons_self rfl
    rw [ofList, List.foldl_append]
    change put e.1 e.2 (ofList l).entries = l ++ [e]
    rw [ih h.1, put_of_not_mem hnew]

theorem mem_of_get?_ofList {l : List (κ × ν)} (h : (ofList l).get? k = some v) : (k, v) ∈ l := by
  induction l using List.reverseRecOn with
  | nil => cases h
  | append_singleton l e ih =>
    rw [get?_ofList_concat] at h
    split at h
    · rename_i heq
      refine List.mem_append_right _ (List.mem_singleton.mpr ?_)
      rw [heq, ← Option.some.inj h]
    · exact List.mem_append_left _ (ih h)

theorem get?_ofList_eq (l : List (κ × ν)) (k : κ) :
    (ofList l).get? k = ((l.filter (·.1 = k)).getLast?).map Prod.snd := by
  induction l using List.reverseRecOn with
  | nil => rfl
  | append_singleton l e ih =>
    rw [get?_ofList_concat, List.filter_append]
    by_cases h : k = e.1
    · simp [h]
    · simp [h, Ne.symm h, ih]

theorem get?_ofList {l : List (κ × ν)} (h : (k, v) ∈ l) (honce : ∀ v', (k, v') ∈ l → v' = v) :
    (ofList l).get? k = some v := by
  induction l using List.reverseRecOn with
  | nil => cases h
  | append_singleton l e ih =>
    rw [get?_ofList_concat]
    split
    · rename_i heq
      exact congrArg some (honce e.2 (List.mem_append_right _ (List.mem_singleton.mpr (heq ▸ rfl))))
    · rename_i hne
      refine ih ?_ fun v' hv' => honce v' (List.mem_append_left _ hv')
      refine (List.mem_append.mp h).resolve_right fun hlast => hne ?_
      exact congrArg Prod.fst (List.mem_singleton.mp hlast)

omit [DecidableEq κ] in
theorem keys_map (f : ν → μ) (l : List (κ × ν)) :
    (l.map fun e => (e.1, f e.2)).map Prod.fst = l.map Prod.fst := by
  rw [List.map_map]
  rfl

def map (f : ν → μ) (d : Dict κ ν) : Dict κ μ :=
  ⟨d.entries.map fun e => (e.1, f e.2), (keys_map f d.entries).symm ▸ d.nodup⟩

theorem put_map (f : ν → μ) (k : κ) (v : ν) (l : List (κ × ν)) :
    put k (f v) (l.map fun e => (e.1, f e.2)) = (put k v l).map fun e => (e.1, f e.2) := by
  induction l with
  | nil => rfl
  | cons e l ih =>
    rw [List.map_cons, put, put]
    split
    · rfl
    · rw [ih, List.map_cons]

theorem map_set (f : ν → μ) (d : Dict κ ν) (k : κ) (v : ν) :
    (d.set k v).map f = (d.map f).set k (f v) := by
  simp only [map, set, put_map]

def total [AddCommGroup M] (d : Dict κ ν) (f : κ → ν → M) : M :=
  (d.entries.map fun e => f e.1 e.2).sum

omit [DecidableEq κ] in
@[simp] theorem total_empty [AddCommGroup M] (f : κ → ν → M) :
    (empty : Dict κ ν).total f = 0 := by simp [total, empty]

theorem total_set [AddCommGroup M] (d : Dict κ ν) (f : κ → ν → M) :
    (d.set k v).total f = d.total f - (d.get? k).elim 0 (f k) + f k v := by
  suffices h : ∀ l : List (κ × ν), ((put k v l).map fun e => f e.1 e.2).sum =
      (l.map fun e => f e.1 e.2).sum - (lookup k l).elim 0 (f k) + f k v from h d.entries
  intro l
  induction l with
  | nil => simp [put, lookup]
  | cons e rest ih =>
    obtain ⟨a, b⟩ := e
    simp only [put, lookup]
    split
    · rename_i heq; subst heq
      simp only [List.map_cons, List.sum_cons, Option.elim_some]
      abel
    · simp only [List.map_cons, List.sum_cons, ih]
      abel

/-- Where an absent key counts as `v₀`, which `f` takes to zero. -/
theorem total_set_getD [AddCommGroup M] (d : Dict κ ν) (v₀ : ν) {f : κ → ν → M} (h : f k v₀ = 0) :
    (d.set k v).total f = d.total f - f k ((d.get? k).getD v₀) + f k v := by
  rw [total_set]
  cases d.get? k <;> simp [h]

end Dict
