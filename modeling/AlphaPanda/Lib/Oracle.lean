import AlphaPanda.Lib.Session
import Mathlib.Data.List.Induction

/-!
# Given outcomes

A coroutine run where the outcome of each operation is given: `out op` is what
`op` raises, if it raises. Every such run is one where the environment answers
from some list.
-/

namespace Coroutine

/-- How a run ends: its result and the state it leaves. -/
abbrev Ended (σ ε α : Type) := Except ε α × σ

def Prog.under (out : ω → Option ε) : Prog σ ω ε α → σ → Ended σ ε α
  | .ret a, s => (.ok a, s)
  | .raise e, s => (.error e, s)
  | .get k, s => (k s).under out s
  | .set s' k, _ => k.under out s'
  | .await op k, s => (k (out op)).under out s

section
variable {out : ω → Option ε} {s s' : σ}

theorem under_exec (out : ω → Option ε) (p : Prog σ ω ε α) (s : σ) :
    ∃ as, ∀ l, (p.exec as ⟨s, l⟩).result = (p.under out s).1 ∧
      (p.exec as ⟨s, l⟩).world.st = (p.under out s).2 := by
  induction p generalizing s with
  | ret | raise => exact ⟨[], fun _ => ⟨rfl, rfl⟩⟩
  | get k ih => exact ih s s
  | set s' k ih => exact ih s'
  | await op k ih =>
    obtain ⟨as, has⟩ := ih (out op) s
    exact ⟨out op :: as, fun l => has (l ++ [(op, out op)])⟩

/-- Where nothing raised, the answers make no difference. -/
theorem exec_quiet (p : Prog σ ω ε α) (as : List (Option ε)) (w : World σ ω ε)
    (h : ∀ c ∈ (p.exec as w).world.log, c.2 = none) : (p.exec [] w).world = (p.exec as w).world := by
  induction p generalizing as w with
  | ret | raise => rfl
  | get k ih => exact ih _ as w h
  | set s k ih => exact ih as _ h
  | await op k ih =>
    simp only [Prog.exec] at h ⊢
    have hmem : (op, as.headD none) ∈
        ((k (as.headD none)).exec as.tail (w.record op (as.headD none))).world.log := by
      rw [Prog.exec_log_eq]
      exact List.mem_append_left _ (List.mem_append_right _ (List.mem_singleton.mpr rfl))
    have hnone : as.headD none = none := h _ hmem
    rw [hnone] at h ⊢
    exact ih none as.tail _ h

@[simp] theorem under_pure : (pure a : Prog σ ω ε α).under out s = (.ok a, s) := rfl

@[simp] theorem under_throw : (throw e : Prog σ ω ε α).under out s = (.error e, s) := rfl

@[simp] theorem under_modify : (modify f : Prog σ ω ε PUnit).under out s = (.ok ⟨⟩, f s) := rfl

theorem under_bind (p : Prog σ ω ε α) (f : α → Prog σ ω ε β) :
    (p >>= f).under out s = match p.under out s with
      | (.ok a, s') => (f a).under out s'
      | (.error e, s') => (.error e, s') := by
  change (p.bind f).under out s = _
  induction p generalizing s with
  | ret | raise => rfl
  | get k ih => exact ih s
  | set s' k ih => exact ih
  | await op k ih => exact ih (out op)

theorem under_bind_ok {p : Prog σ ω ε α} (f : α → Prog σ ω ε β) (h : p.under out s = (.ok a, s')) :
    (p >>= f).under out s = (f a).under out s' := by
  rw [under_bind, h]

theorem under_bind_error {p : Prog σ ω ε α} (f : α → Prog σ ω ε β)
    (h : p.under out s = (.error e, s')) : (p >>= f).under out s = (.error e, s') := by
  rw [under_bind, h]

@[simp] theorem under_get_bind (f : σ → Prog σ ω ε β) :
    ((get : Prog σ ω ε σ) >>= f).under out s = (f s).under out s := rfl

theorem under_tryCatch (p : Prog σ ω ε α) (h : ε → Prog σ ω ε α) :
    (tryCatch p h).under out s = match p.under out s with
      | (.ok a, s') => (.ok a, s')
      | (.error e, s') => (h e).under out s' := by
  change (p.tryCatch h).under out s = _
  induction p generalizing s with
  | ret | raise => rfl
  | get k ih => exact ih s
  | set s' k ih => exact ih
  | await op k ih => exact ih (out op)

theorem under_perform (op : ω) :
    (Prog.perform op : Prog σ ω ε Unit).under out s =
      (match out op with | none => .ok () | some e => .error e, s) := by
  simp only [Prog.perform, Prog.under]
  cases out op <;> rfl

theorem under_rescued_ok {p : Prog σ ω ε α} (h : Prog σ ω ε Unit) (hp : p.under out s = (.ok a, s')) :
    (rescued p h).under out s = (.ok a, s') := by
  rw [rescued, under_tryCatch, hp]

theorem under_rescued_error {p : Prog σ ω ε α} {h : Prog σ ω ε Unit}
    (hp : p.under out s = (.error e, s')) (hh : h.under out s' = (.ok (), s'')) :
    (rescued p h).under out s = (.error e, s'') := by
  rw [rescued, under_tryCatch, hp]
  exact under_bind_ok _ hh

end

def Prog.each (f : α → Prog σ ω ε Unit) : List α → Prog σ ω ε Unit
  | [] => pure ()
  | x :: xs => do
    f x
    Prog.each f xs

section
variable {out : ω → Option ε} {f : α → Prog σ ω ε Unit}

theorem under_each_append (xs ys : List α) (s : σ) :
    (Prog.each f (xs ++ ys)).under out s =
      (Prog.each f xs >>= fun _ => Prog.each f ys).under out s := by
  induction xs generalizing s with
  | nil => rfl
  | cons x xs ih =>
    rw [List.cons_append, Prog.each, Prog.each, bind_assoc, under_bind, under_bind]
    rcases (f x).under out s with ⟨_ | a, s'⟩
    · rfl
    · exact ih s'

theorem under_each_ok (reached : List α → σ) (xs : List α)
    (h : ∀ pre x post, xs = pre ++ x :: post →
      (f x).under out (reached pre) = (.ok (), reached (pre ++ [x]))) :
    (Prog.each f xs).under out (reached []) = (.ok (), reached xs) := by
  induction xs using List.reverseRecOn with
  | nil => rfl
  | append_singleton xs x ih =>
    have hxs := ih fun pre y post hy => h pre y (post ++ [x]) (by simp [hy])
    have hx := h xs x [] rfl
    rw [under_each_append, under_bind_ok _ hxs, Prog.each, under_bind_ok _ hx]
    rfl

end

end Coroutine
