import AlphaPanda.Lib.Dict
import Mathlib.Algebra.Field.Rat
import Mathlib.Algebra.Order.Ring.NNRat

/-!
# Keys that expire

A store that keeps each key until a time. Setting a key again renews its time;
what is set under other keys does not matter to it.
-/

structure Expiry (κ : Type) where
  deadlines : Dict κ ℚ≥0

namespace Expiry

variable [DecidableEq κ]

def empty : Expiry κ := ⟨.empty⟩

def live (s : Expiry κ) (now : ℚ≥0) : List κ :=
  (s.deadlines.entries.filter fun e => now < e.2).map Prod.fst

def setex (s : Expiry κ) (key : κ) (now ttl : ℚ≥0) : Expiry κ := ⟨s.deadlines.set key (now + ttl)⟩

def dead (s : Expiry κ) (now : ℚ≥0) : List κ :=
  (s.deadlines.entries.filter fun e => e.2 ≤ now).map Prod.fst

def sweep (s : Expiry κ) (now : ℚ≥0) : Expiry κ := ⟨(s.dead now).foldl Dict.pop s.deadlines⟩

def persist (s : Expiry κ) (key : κ) : Expiry κ := ⟨s.deadlines.pop key⟩

/-- A key that was set and is not held any more may still have a time. -/
def Knows (s : Expiry κ) (key : κ) : Prop := s.deadlines.get? key ≠ none

theorem mem_live {s : Expiry κ} : key ∈ s.live now ↔ ∃ t, s.deadlines.get? key = some t ∧ now < t := by
  constructor
  · intro h
    obtain ⟨⟨k, t⟩, hmem, rfl⟩ := List.mem_map.mp h
    obtain ⟨hentry, hlt⟩ := List.mem_filter.mp hmem
    exact ⟨t, Dict.mem_entries.mp hentry, of_decide_eq_true hlt⟩
  · rintro ⟨t, hget, hlt⟩
    have hmem : (key, t) ∈ s.deadlines.entries.filter fun e => now < e.2 :=
      List.mem_filter.mpr ⟨Dict.mem_entries.mpr hget, decide_eq_true hlt⟩
    exact List.mem_map_of_mem (f := Prod.fst) hmem

theorem not_knows_empty : ¬(empty : Expiry κ).Knows key := fun h => h rfl

theorem knows_of_live {s : Expiry κ} (h : key ∈ s.live now) : s.Knows key := by
  obtain ⟨t, hget, -⟩ := mem_live.mp h
  rw [Knows, hget]
  exact Option.some_ne_none t

theorem knows_setex {s : Expiry κ} : (s.setex key' now ttl).Knows key ↔ key = key' ∨ s.Knows key := by
  rw [Knows, setex, Dict.get?_set]
  split
  · rename_i h
    exact iff_of_true (Option.some_ne_none _) (.inl h)
  · rename_i h
    exact ⟨.inr, fun hor => hor.resolve_left h⟩

def Until (s : Expiry κ) (key : κ) (t : ℚ≥0) : Prop := ∃ t', s.deadlines.get? key = some t' ∧ t ≤ t'

theorem until_setex_self (s : Expiry κ) (key : κ) (now ttl : ℚ≥0) :
    (s.setex key now ttl).Until key (now + ttl) :=
  ⟨_, Dict.get?_set_self _, le_rfl⟩

theorem Until.live {s : Expiry κ} (h : s.Until key t) (hnow : now < t) : key ∈ s.live now := by
  obtain ⟨t', hget, hle⟩ := h
  exact mem_live.mpr ⟨t', hget, hnow.trans_le hle⟩

theorem Until.setex_of_ne {s : Expiry κ} (h : s.Until key t) (hne : key ≠ key') :
    (s.setex key' now ttl).Until key t := by
  obtain ⟨t', hget, hle⟩ := h
  exact ⟨t', (Dict.get?_set_of_ne _ hne).trans hget, hle⟩

theorem Until.setex {s : Expiry κ} (h : s.Until key t) (key' : κ) (hnow : t ≤ now + ttl) :
    (s.setex key' now ttl).Until key t := by
  by_cases heq : key = key'
  · subst heq
    exact ⟨_, Dict.get?_set_self _, hnow⟩
  · exact h.setex_of_ne heq

theorem Until.not_dead {s : Expiry κ} (h : s.Until key t) (hnow : now < t) : key ∉ s.dead now := by
  obtain ⟨t', hget, hle⟩ := h
  intro hdead
  obtain ⟨⟨k, u⟩, hmem, rfl⟩ := List.mem_map.mp hdead
  obtain ⟨hentry, hover⟩ := List.mem_filter.mp hmem
  obtain rfl : u = t' := Option.some.inj ((Dict.mem_entries.mp hentry).symm.trans hget)
  exact (hnow.trans_le (hle.trans (of_decide_eq_true hover))).false

theorem Until.sweep {s : Expiry κ} (h : s.Until key t) (hnow : now < t) :
    (s.sweep now).Until key t := by
  have hdead := h.not_dead hnow
  obtain ⟨t', hget, hle⟩ := h
  exact ⟨t', (Dict.get?_foldl_pop _ hdead).trans hget, hle⟩

theorem Until.persist {s : Expiry κ} (h : s.Until key t) (hne : key ≠ key') :
    (s.persist key').Until key t := by
  obtain ⟨t', hget, hle⟩ := h
  refine ⟨t', ?_, hle⟩
  rw [Expiry.persist, Dict.get?_pop, if_neg hne, hget]

end Expiry
