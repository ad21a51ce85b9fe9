import AlphaPanda.Lib.Interleave

/-!
# What a coroutine may do

`Prog.Confined P`: every operation that the coroutine may come to await is in
`P`, whatever the others do to the state meanwhile and however the operations
are answered. What it adds to the log of a world is then in `P`, under every
rely (`Prog.Confined.meets`), and that can be put beside what else the
coroutine guarantees (`Prog.Meets.and`). `Prog.Follows` says in addition in
which order.
-/

namespace Coroutine

/-- Every operation that `p` may come to await is in `P`. -/
def Prog.Confined (P : ω → Prop) : Prog σ ω ε α → Prop
  | .ret _ | .raise _ => True
  | .get k => ∀ s, (k s).Confined P
  | .set _ k => k.Confined P
  | .await op k => P op ∧ ∀ r, (k r).Confined P

section
variable {P : ω → Prop}

theorem confined_pure : (pure a : Prog σ ω ε α).Confined P := trivial

theorem confined_throw : (throw e : Prog σ ω ε α).Confined P := trivial

theorem confined_get : (get : Prog σ ω ε σ).Confined P := fun _ => trivial

theorem confined_set {s : σ} : (set s : Prog σ ω ε PUnit).Confined P := trivial

theorem confined_modify {f : σ → σ} : (modify f : Prog σ ω ε PUnit).Confined P := fun _ => trivial

theorem confined_perform (h : P op) : (Prog.perform op : Prog σ ω ε Unit).Confined P := by
  refine ⟨h, fun r => ?_⟩
  cases r <;> trivial

theorem confined_bind {p : Prog σ ω ε α} {f : α → Prog σ ω ε β} (hp : p.Confined P)
    (hf : ∀ a, (f a).Confined P) : (p >>= f).Confined P := by
  change (p.bind f).Confined P
  induction p with
  | ret a => exact hf a
  | raise e => trivial
  | get k ih => exact fun s => ih s (hp s)
  | set s k ih => exact ih hp
  | await op k ih => exact ⟨hp.1, fun r => ih r (hp.2 r)⟩

theorem confined_tryCatch {p : Prog σ ω ε α} {h : ε → Prog σ ω ε α} (hp : p.Confined P)
    (hh : ∀ e, (h e).Confined P) : (tryCatch p h : Prog σ ω ε α).Confined P := by
  change (p.tryCatch h).Confined P
  induction p with
  | ret a => trivial
  | raise e => exact hh e
  | get k ih => exact fun s => ih s (hp s)
  | set s k ih => exact ih hp
  | await op k ih => exact ⟨hp.1, fun r => ih r (hp.2 r)⟩

theorem confined_suppress {p : Prog σ ω ε Unit} (h : p.Confined P) : (suppress p).Confined P :=
  confined_tryCatch h fun _ => confined_pure

end

-- ---------------------------------------------------------------------------
-- The log
-- ---------------------------------------------------------------------------

def Grows (P : ω → Prop) (w w' : World σ ω ε) : Prop :=
  ∃ l, w'.log = w.log ++ l ∧ ∀ x ∈ l, P x.1

section
variable {P : ω → Prop} {w w' w₀ : World σ ω ε}

theorem Grows.rfl : Grows P w w := ⟨[], (List.append_nil _).symm, List.forall_mem_nil _⟩

theorem Grows.record (h : P op) (w : World σ ω ε) (r : Option ε) : Grows P w (w.record op r) := by
  refine ⟨[(op, r)], Eq.refl _, fun x hx => ?_⟩
  cases List.mem_singleton.mp hx
  exact h

theorem Grows.trans {w₁ w₂ w₃ : World σ ω ε} (h : Grows P w₁ w₂) (h' : Grows P w₂ w₃) :
    Grows P w₁ w₃ := by
  obtain ⟨l, hl, hP⟩ := h
  obtain ⟨l', hl', hP'⟩ := h'
  refine ⟨l ++ l', by rw [hl', hl, List.append_assoc], ?_⟩
  exact List.forall_mem_append.mpr ⟨hP, hP'⟩

theorem Prog.Confined.meets {p : Prog σ ω ε α} (hp : p.Confined P) (h : Grows P w₀ w)
    {R : World σ ω ε → World σ ω ε → Prop} :
    p.Meets R (Grows P) (fun _ => Grows P) w₀ w := by
  induction p generalizing w₀ w with
  | ret | raise => exact h
  | get k ih => exact ih _ (hp _) h
  | set s k ih => exact ih hp h
  | await op k ih => exact ⟨h, fun w' _ r => ih r (hp.2 r) (Grows.record hp.1 w' r)⟩

theorem Prog.Confined.exec {p : Prog σ ω ε α} (hp : p.Confined P) (as : List (Option ε))
    (w : World σ ω ε) : Grows P w (p.exec as w).world := by
  induction p generalizing as w with
  | ret | raise => exact Grows.rfl
  | get k ih => exact ih _ (hp _) as w
  | set s k ih => exact ih hp as { w with st := s }
  | await op k ih => exact (Grows.record hp.1 w _).trans (ih _ (hp.2 _) as.tail _)

end

-- ---------------------------------------------------------------------------
-- In turn
-- ---------------------------------------------------------------------------

/-- What `f` finds in the operations that `p` awaits is some of `l`, in turn. -/
def Prog.Follows (f : ω → Option β) : Prog σ ω ε α → List β → Prop
  | .ret _, _ | .raise _, _ => True
  | .get k, l => ∀ s, (k s).Follows f l
  | .set _ k, l => k.Follows f l
  | .await op k, l => ∃ rest, List.Sublist ((f op).toList ++ rest) l ∧ ∀ r, (k r).Follows f rest

section
variable {f : ω → Option β} {l m : List β}

theorem follows_pure : (pure a : Prog σ ω ε α).Follows f l := trivial

theorem follows_throw : (throw e : Prog σ ω ε α).Follows f l := trivial

theorem follows_get : (get : Prog σ ω ε σ).Follows f l := fun _ => trivial

theorem follows_set {s : σ} : (set s : Prog σ ω ε PUnit).Follows f l := trivial

theorem follows_modify {g : σ → σ} : (modify g : Prog σ ω ε PUnit).Follows f l := fun _ => trivial

theorem follows_perform : (Prog.perform op : Prog σ ω ε Unit).Follows f (f op).toList := by
  refine ⟨[], (List.append_nil _).symm ▸ List.Sublist.refl _, fun r => ?_⟩
  cases r <;> trivial

theorem Prog.Follows.mono {p : Prog σ ω ε α} (h : p.Follows f l) (hl : l.Sublist m) :
    p.Follows f m := by
  induction p generalizing l m with
  | ret | raise => trivial
  | get k ih => exact fun s => ih s (h s) hl
  | set s k ih => exact ih h hl
  | await op k ih =>
    obtain ⟨rest, hrest, hk⟩ := h
    exact ⟨rest, hrest.trans hl, hk⟩

theorem follows_await {k : Option ε → Prog σ ω ε α} {k' : Option ε → Prog σ ω ε γ}
    (hp : (Prog.await op k).Follows f l)
    (hk : ∀ r rest, (k r).Follows f rest → (k' r).Follows f (rest ++ m)) :
    (Prog.await op k').Follows f (l ++ m) := by
  obtain ⟨rest, hrest, hafter⟩ := hp
  refine ⟨rest ++ m, ?_, fun r => hk r rest (hafter r)⟩
  rw [← List.append_assoc]
  exact hrest.append (List.Sublist.refl m)

theorem follows_bind {p : Prog σ ω ε α} {k : α → Prog σ ω ε γ} (hp : p.Follows f l)
    (hk : ∀ a, (k a).Follows f m) : (p >>= k).Follows f (l ++ m) := by
  change (p.bind k).Follows f (l ++ m)
  induction p generalizing l with
  | ret a => exact (hk a).mono (List.sublist_append_right l m)
  | raise e => trivial
  | get k ih => exact fun s => ih s (hp s)
  | set s k ih => exact ih hp
  | await op k ih => exact follows_await hp fun r _ hr => ih r hr

theorem follows_tryCatch {p : Prog σ ω ε α} {h : ε → Prog σ ω ε α} (hp : p.Follows f l)
    (hh : ∀ e, (h e).Follows f m) : (tryCatch p h : Prog σ ω ε α).Follows f (l ++ m) := by
  change (p.tryCatch h).Follows f (l ++ m)
  induction p generalizing l with
  | ret a => trivial
  | raise e => exact (hh e).mono (List.sublist_append_right l m)
  | get k ih => exact fun s => ih s (hp s)
  | set s k ih => exact ih hp
  | await op k ih => exact follows_await hp fun r _ hr => ih r hr

theorem Prog.Follows.exec {p : Prog σ ω ε α} (hp : p.Follows f l) (as : List (Option ε))
    (w : World σ ω ε) : ∃ new, (p.exec as w).world.log = w.log ++ new ∧
      (new.filterMap fun x => f x.1).Sublist l := by
  induction p generalizing as w l with
  | ret | raise => exact ⟨[], (List.append_nil _).symm, List.nil_sublist l⟩
  | get k ih => exact ih _ (hp _) as w
  | set s k ih => exact ih hp as { w with st := s }
  | await op k ih =>
    obtain ⟨rest, hrest, hafter⟩ := hp
    obtain ⟨new, hnew, hsublist⟩ := ih _ (hafter _) as.tail (w.record op (as.headD none))
    refine ⟨(op, as.headD none) :: new, hnew.trans (List.append_assoc ..), ?_⟩
    have hfirst : ([(op, as.headD none)].filterMap fun x => f x.1) = (f op).toList := by
      cases hf : f op <;> simp [hf]
    rw [← List.singleton_append, List.filterMap_append, hfirst]
    exact (hsublist.append_left _).trans hrest

end

-- ---------------------------------------------------------------------------
-- How it ends
-- ---------------------------------------------------------------------------

/-- The calls of a run: they are in `P` and the result is in `R`, or the last
one raised the exception of the run and is in `Q`, and the others are in `P`. -/
inductive Ending (P Q : ω × Option ε → Prop) (R : α → Prop) :
    List (ω × Option ε) → Except ε α → Prop where
  | returned (hcalls : ∀ c ∈ calls, P c) (hresult : R a) : Ending P Q R calls (.ok a)
  | raised (hcalls : ∀ c ∈ calls, P c) (hlast : Q (op, some e)) :
      Ending P Q R (calls ++ [(op, some e)]) (.error e)

def Prog.Ends (P Q : ω × Option ε → Prop) (R : α → Prop) (p : Prog σ ω ε α) : Prop :=
  ∀ (as : List (Option ε)) (w : World σ ω ε), ∃ calls,
    (p.exec as w).world = { w with log := w.log ++ calls } ∧ Ending P Q R calls (p.exec as w).result

section
variable {P Q Q' : ω × Option ε → Prop} {R : α → Prop} {R' : β → Prop}

theorem Ending.all (h : Ending P P R calls result) : ∀ c ∈ calls, P c := by
  cases h with
  | returned hcalls hresult => exact hcalls
  | raised hcalls hlast =>
    intro c hc
    rcases List.mem_append.mp hc with hc | hc
    · exact hcalls c hc
    · exact List.mem_singleton.mp hc ▸ hlast

theorem ends_pure (h : R a) : (pure a : Prog σ ω ε α).Ends P Q R := by
  intro as w
  exact ⟨[], by simp, .returned (by simp) h⟩

theorem ends_perform {op : ω} {R : Unit → Prop} (h : P (op, none)) (hraised : ∀ e, Q (op, some e))
    (hresult : R ()) : (Prog.perform op : Prog σ ω ε Unit).Ends P Q R := by
  intro as w
  rw [exec_perform]
  refine ⟨[(op, as.headD none)], rfl, ?_⟩
  cases as.headD none with
  | none => exact .returned (by simpa using h) hresult
  | some e =>
    have hnone : ∀ c ∈ ([] : List (ω × Option ε)), P c := by simp
    exact .raised hnone (hraised e)

theorem Ending.append (hbefore : ∀ c ∈ before, P c) (h : Ending P Q R calls result) :
    Ending P Q R (before ++ calls) result := by
  cases h with
  | returned hcalls hresult =>
    exact .returned (fun c hc => (List.mem_append.mp hc).elim (hbefore c) (hcalls c)) hresult
  | raised hcalls hlast =>
    rw [← List.append_assoc]
    exact .raised (fun c hc => (List.mem_append.mp hc).elim (hbefore c) (hcalls c)) hlast

theorem ends_bind {p : Prog σ ω ε α} {k : α → Prog σ ω ε β} (hp : p.Ends P Q R)
    (hk : ∀ a, R a → (k a).Ends P Q R') : (p >>= k).Ends P Q R' := by
  intro as w
  obtain ⟨calls, hworld, hending⟩ := hp as w
  rw [exec_bind]
  generalize p.exec as w = o at hworld hending ⊢
  obtain ⟨result, world, rest⟩ := o
  obtain rfl : world = _ := hworld
  cases hending with
  | returned hcalls hresult =>
    obtain ⟨calls', hworld', hending'⟩ := hk _ hresult rest { w with log := w.log ++ calls }
    exact ⟨calls ++ calls', hworld'.trans (by rw [List.append_assoc]), hending'.append hcalls⟩
  | raised hcalls hlast => exact ⟨_, rfl, .raised hcalls hlast⟩

theorem ends_tryCatch {p : Prog σ ω ε α} {h : ε → Prog σ ω ε α} (hp : p.Ends P Q R)
    (hh : ∀ op e, Q (op, some e) →
      P (op, some e) ∧ (h e).Ends P Q' R ∨ Q' (op, some e) ∧ h e = throw e) :
    (tryCatch p h : Prog σ ω ε α).Ends P Q' R := by
  intro as w
  obtain ⟨calls, hworld, hending⟩ := hp as w
  rw [exec_tryCatch]
  generalize p.exec as w = o at hworld hending ⊢
  obtain ⟨result, world, rest⟩ := o
  obtain rfl : world = _ := hworld
  cases hending with
  | returned hcalls hresult => exact ⟨calls, rfl, .returned hcalls hresult⟩
  | @raised calls op e hcalls hlast =>
    rcases hh op e hlast with ⟨hop, hends⟩ | ⟨hop, hthrow⟩
    · obtain ⟨calls', hworld', hending'⟩ :=
        hends rest { w with log := w.log ++ (calls ++ [(op, some e)]) }
      have hbefore : ∀ c ∈ calls ++ [(op, some e)], P c := by
        intro c hc
        rcases List.mem_append.mp hc with hc | hc
        · exact hcalls c hc
        · exact List.mem_singleton.mp hc ▸ hop
      exact ⟨calls ++ [(op, some e)] ++ calls', hworld'.trans (by rw [List.append_assoc]),
        hending'.append hbefore⟩
    · rw [Outcome.orElse_error, hthrow]
      exact ⟨_, rfl, .raised hcalls hop⟩

end

section
variable {R R' G G' : World σ ω ε → World σ ω ε → Prop} {w₀ w : World σ ω ε}
  {Q Q' : Except ε α → World σ ω ε → World σ ω ε → Prop} {p : Prog σ ω ε α}

/-- A coroutine that relies on less meets its guarantee where more is assured. -/
theorem Prog.Meets.rely (h : p.Meets R G Q w₀ w) (hR : ∀ w w', R' w w' → R w w') :
    p.Meets R' G Q w₀ w := by
  induction p generalizing w₀ w with
  | ret | raise => exact h
  | get k ih => exact ih _ h
  | set s k ih => exact ih h
  | await op k ih => exact ⟨h.1, fun w' hw r => ih r (h.2 w' (hR _ _ hw) r)⟩

end

end Coroutine
