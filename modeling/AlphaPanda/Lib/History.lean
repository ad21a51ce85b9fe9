import Mathlib.Data.List.Infix

/-!
# Histories

What a fold over a history adds up. `Since P Q` is the past operator of temporal
logic: something satisfied `P`, and all that came after it `Q`.
-/

namespace List

/-- Where each item decides on its own what a fold adds up, some item does. -/
theorem foldl_iff {P : β → Prop} {Q : α → Prop} {f : β → α → β} (h : ∀ b a, P (f b a) ↔ P b ∨ Q a)
    (l : List α) (b : β) : P (l.foldl f b) ↔ P b ∨ ∃ a ∈ l, Q a := by
  induction l generalizing b with
  | nil => simp
  | cons a l ih => simp only [foldl_cons, ih, h, or_assoc, mem_cons, exists_eq_or_imp]

def Since (P Q : α → Prop) (l : List α) : Prop :=
  ∃ pre a post, l = pre ++ a :: post ∧ P a ∧ ∀ b ∈ post, Q b

theorem since_nil {P Q : α → Prop} : ¬Since P Q ([] : List α) := by
  rintro ⟨pre, a, post, h, _⟩
  simp at h

theorem since_concat {P Q : α → Prop} (l : List α) (a : α) :
    Since P Q (l ++ [a]) ↔ P a ∨ (Q a ∧ Since P Q l) := by
  constructor
  · rintro ⟨pre, b, post, h, hb, hpost⟩
    induction post using List.reverseRecOn with
    | nil =>
      have hlast := (List.append_inj_right' h rfl)
      cases hlast
      exact .inl hb
    | append_singleton post c _ =>
      rw [← List.cons_append, ← List.append_assoc] at h
      have hlast := List.append_inj_right' h rfl
      cases hlast
      refine .inr ⟨hpost a (by simp), pre, b, post, List.append_inj_left' h rfl, hb, ?_⟩
      intro d hd
      exact hpost d (List.mem_append_left _ hd)
  · rintro (ha | ⟨ha, pre, b, post, rfl, hb, hpost⟩)
    · exact ⟨l, a, [], rfl, ha, fun _ hb => absurd hb List.not_mem_nil⟩
    · refine ⟨pre, b, post ++ [a], by simp, hb, ?_⟩
      intro d hd
      rcases List.mem_append.mp hd with hd | hd
      · exact hpost d hd
      · exact List.mem_singleton.mp hd ▸ ha

end List
