import AlphaPanda.Lib.Oracle

/-!
# Preconditions

`p.Wp allows Q` is the weakest precondition of a coroutine that runs alone: from
a state in it, `p` ends in `Q`, as long as each operation answers as `allows`
lets it. The rules go through the coroutine from its end; `Prog.Wp.exec` is
what they say about a run.
-/

namespace Coroutine

/-- From here `p` ends in `Q`, whatever the operations answer of what they may. -/
def Prog.Wp (allows : ω → Option ε → Prop) (Q : Except ε α → σ → Prop) : Prog σ ω ε α → σ → Prop
  | .ret a, s => Q (.ok a) s
  | .raise e, s => Q (.error e) s
  | .get k, s => (k s).Wp allows Q s
  | .set s' k, _ => k.Wp allows Q s'
  | .await op k, s => ∀ r, allows op r → (k r).Wp allows Q s

def Returning (allows : ω → Option ε → Prop) (f : α → Prog σ ω ε β) (Q : Except ε β → σ → Prop) :
    Except ε α → σ → Prop
  | .ok a, s => (f a).Wp allows Q s
  | .error e, s => Q (.error e) s

def Raising (allows : ω → Option ε → Prop) (h : ε → Prog σ ω ε α) (Q : Except ε α → σ → Prop) :
    Except ε α → σ → Prop
  | .ok a, s => Q (.ok a) s
  | .error e, s => (h e).Wp allows Q s

def Onward (P : σ → Prop) (Q : Except ε α → σ → Prop) : Except ε α → σ → Prop
  | .ok _, s => P s
  | .error e, s => Q (.error e) s

section
variable {allows : ω → Option ε → Prop} {Q Q' : Except ε α → σ → Prop} {s : σ}

@[simp] theorem wp_pure : (pure a : Prog σ ω ε α).Wp allows Q s ↔ Q (.ok a) s := Iff.rfl

@[simp] theorem wp_throw : (throw e : Prog σ ω ε α).Wp allows Q s ↔ Q (.error e) s := Iff.rfl

@[simp] theorem wp_get_bind {f : σ → Prog σ ω ε α} :
    ((get : Prog σ ω ε σ) >>= f).Wp allows Q s ↔ (f s).Wp allows Q s := Iff.rfl

@[simp] theorem wp_modify {g : σ → σ} {Q : Except ε PUnit → σ → Prop} :
    (modify g : Prog σ ω ε PUnit).Wp allows Q s ↔ Q (.ok ⟨⟩) (g s) := Iff.rfl

theorem wp_perform {op : ω} {Q : Except ε Unit → σ → Prop} (hok : allows op none → Q (.ok ()) s)
    (herror : ∀ e, allows op (some e) → Q (.error e) s) :
    (Prog.perform op : Prog σ ω ε Unit).Wp allows Q s := by
  rintro (_ | e) h
  · exact hok h
  · exact herror e h

theorem Prog.Wp.mono {p : Prog σ ω ε α} (h : p.Wp allows Q s) (hQ : ∀ r s, Q r s → Q' r s) :
    p.Wp allows Q' s := by
  induction p generalizing s with
  | ret | raise => exact hQ _ _ h
  | get k ih => exact ih s h
  | set s' k ih => exact ih h
  | await op k ih => exact fun r hr => ih r (h r hr)

theorem wp_bind {p : Prog σ ω ε α} {f : α → Prog σ ω ε β} {Q : Except ε β → σ → Prop}
    (h : p.Wp allows (Returning allows f Q) s) : (p >>= f).Wp allows Q s := by
  change (p.bind f).Wp allows Q s
  induction p generalizing s with
  | ret | raise => exact h
  | get k ih => exact ih s h
  | set s' k ih => exact ih h
  | await op k ih => exact fun r hr => ih r (h r hr)

theorem wp_tryCatch {p : Prog σ ω ε α} {h : ε → Prog σ ω ε α}
    (hp : p.Wp allows (Raising allows h Q) s) : (tryCatch p h : Prog σ ω ε α).Wp allows Q s := by
  change (p.tryCatch h).Wp allows Q s
  induction p generalizing s with
  | ret | raise => exact hp
  | get k ih => exact ih s hp
  | set s' k ih => exact ih hp
  | await op k ih => exact fun r hr => ih r (hp r hr)

theorem Prog.Wp.bind {p : Prog σ ω ε α} {f : α → Prog σ ω ε β} {P : Except ε α → σ → Prop}
    {Q : Except ε β → σ → Prop} (hp : p.Wp allows P s)
    (hf : ∀ a s, P (.ok a) s → (f a).Wp allows Q s) (herror : ∀ e s, P (.error e) s → Q (.error e) s) :
    (p >>= f).Wp allows Q s := by
  refine wp_bind (hp.mono ?_)
  rintro (e | a) s hend
  · exact herror e s hend
  · exact hf a s hend

theorem Prog.Wp.suppress {p : Prog σ ω ε Unit} {P Q : Except ε Unit → σ → Prop} (hp : p.Wp allows P s)
    (hQ : ∀ r s, P r s → Q (.ok ()) s) : (suppress p).Wp allows Q s := by
  refine wp_tryCatch (hp.mono ?_)
  rintro (e | _) s hend
  · exact hQ _ s hend
  · exact hQ _ s hend

theorem Prog.Wp.rescued {p : Prog σ ω ε α} {h : Prog σ ω ε Unit} {P : Except ε α → σ → Prop}
    (hp : p.Wp allows P s) (hok : ∀ a s, P (.ok a) s → Q (.ok a) s)
    (hh : ∀ e s, P (.error e) s → h.Wp allows (fun r s => r = .ok () ∧ Q (.error e) s) s) :
    (rescued p h).Wp allows Q s := by
  refine wp_tryCatch (hp.mono ?_)
  rintro (e | a) s hend
  · refine (hh e s hend).bind (fun _ _ hQ => hQ.2) ?_
    rintro _ _ ⟨hraised, -⟩
    cases hraised
  · exact hok a s hend

/-- A loop whose turns each keep what `I` says of those done. -/
theorem wp_each {f : β → Prog σ ω ε Unit} {xs : List β} {Q : Except ε Unit → σ → Prop}
    (I : List β → σ → Prop) (hstart : I [] s)
    (hturn : ∀ pre x post s, xs = pre ++ x :: post → I pre s →
      (f x).Wp allows (Onward (I (pre ++ [x])) Q) s)
    (hend : ∀ s, I xs s → Q (.ok ()) s) : (Prog.each f xs).Wp allows Q s := by
  have hrest : ∀ post pre s, xs = pre ++ post → I pre s → (Prog.each f post).Wp allows Q s := by
    intro post
    induction post with
    | nil =>
      intro pre s hxs hpre
      rw [List.append_nil] at hxs
      exact hend s (hxs ▸ hpre)
    | cons x post ih =>
      intro pre s hxs hpre
      refine (hturn pre x post s hxs hpre).bind (fun _ s hI => ?_) fun _ _ hQ => hQ
      exact ih (pre ++ [x]) s (by simp [hxs]) hI
  exact hrest xs [] s rfl hstart

theorem Prog.Wp.exec {p : Prog σ ω ε α} (h : p.Wp allows Q s) (as : List (Option ε))
    (l : List (ω × Option ε)) :
    ∃ new, (p.exec as ⟨s, l⟩).world.log = l ++ new ∧ ((∀ c ∈ new, allows c.1 c.2) →
      Q (p.exec as ⟨s, l⟩).result (p.exec as ⟨s, l⟩).world.st) := by
  induction p generalizing as l s with
  | ret | raise => exact ⟨[], (List.append_nil l).symm, fun _ => h⟩
  | get k ih => exact ih s h as l
  | set s' k ih => exact ih h as l
  | await op k ih =>
    by_cases hr : allows op (as.headD none)
    · obtain ⟨new, hnew, hQ⟩ := ih _ (h _ hr) as.tail (l ++ [(op, as.headD none)])
      refine ⟨(op, as.headD none) :: new, hnew.trans (List.append_assoc ..), fun hallowed => hQ ?_⟩
      exact (List.forall_mem_cons.mp hallowed).2
    · have hlog := (k (as.headD none)).exec_log_eq as.tail ⟨s, l ++ [(op, as.headD none)]⟩
      refine ⟨_ :: _, hlog.trans (List.append_assoc ..), fun hallowed => ?_⟩
      exact absurd (List.forall_mem_cons.mp hallowed).1 hr

end

end Coroutine
