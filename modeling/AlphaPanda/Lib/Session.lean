import AlphaPanda.Lib.Coroutine
import Mathlib.Order.Basic

/-!
# Database sessions

A session with a database whose tables are a `τ`. Its statements change what
the session sees; a commit makes that last, and a rollback returns to what was
committed.

`Prog.Completes` and `Prog.Breaks` say when a coroutine returns, without its
log: it takes so many operations and returns if they all succeed, or it raises
whatever is answered.
-/

namespace Coroutine

-- ---------------------------------------------------------------------------
-- Cleaning up
-- ---------------------------------------------------------------------------

/-- `try: p except: h; raise` -/
def rescued (p : Prog σ ω ε α) (h : Prog σ ω ε Unit) : Prog σ ω ε α :=
  tryCatch p fun e => do
    h
    throw e

/-- `try: p finally: c` -/
def finallyDo (p : Prog σ ω ε α) (c : Prog σ ω ε Unit) : Prog σ ω ε α := do
  let r ← tryCatch (Except.ok <$> p) fun e => pure (.error e)
  c
  match r with
  | .ok a => pure a
  | .error e => throw e

theorem exec_finallyDo (p : Prog σ ω ε α) (c : Prog σ ω ε Unit) (as : List (Option ε))
    (w : World σ ω ε) : (finallyDo p c).exec as w =
      (c.exec (p.exec as w).rest (p.exec as w).world).andThen
        fun _ as' w' => ⟨(p.exec as w).result, w', as'⟩ := by
  simp only [finallyDo, exec_bind, exec_tryCatch, exec_map, exec_pure]
  rcases p.exec as w with ⟨_ | a, w', as'⟩ <;> rfl

theorem finallyDo_world (p : Prog σ ω ε α) (c : Prog σ ω ε Unit) (as : List (Option ε))
    (w : World σ ω ε) : ((finallyDo p c).exec as w).world =
      (c.exec (p.exec as w).rest (p.exec as w).world).world := by
  rw [exec_finallyDo]
  rcases c.exec (p.exec as w).rest (p.exec as w).world with ⟨_ | _, w', as'⟩ <;> rfl

theorem leaves_rescued {f : World σ ω ε → φ} {p : Prog σ ω ε α} {h : Prog σ ω ε Unit}
    (hh : h.Leaves f) (as : List (Option ε)) (w : World σ ω ε) :
    f ((rescued p h).exec as w).world = f (p.exec as w).world := by
  simp only [rescued, exec_tryCatch]
  rcases p.exec as w with ⟨e | a, w', as'⟩
  · exact leaves_bind hh (fun _ => leaves_throw) as' w'
  · rfl

theorem leaves_finallyDo {f : World σ ω ε → φ} {p : Prog σ ω ε α} {c : Prog σ ω ε Unit}
    (hc : c.Leaves f) (as : List (Option ε)) (w : World σ ω ε) :
    f ((finallyDo p c).exec as w).world = f (p.exec as w).world := by
  have hclose := hc (p.exec as w).rest (p.exec as w).world
  rw [exec_finallyDo, ← hclose]
  rcases c.exec (p.exec as w).rest (p.exec as w).world with ⟨_ | _, w', as'⟩ <;> rfl

-- ---------------------------------------------------------------------------
-- Whether it returns
-- ---------------------------------------------------------------------------

/-- From `s`, `p` takes `n` operations. If they all succeed it returns `a` and
leaves `s'`; otherwise it raises. -/
structure Prog.Completes (p : Prog σ ω ε α) (s : σ) (n : ℕ) (a : α) (s' : σ) : Prop where
  returns : ∀ as l, succeeds n as → ∃ l', p.exec as ⟨s, l⟩ = ⟨.ok a, ⟨s', l'⟩, as.drop n⟩
  raises : ∀ as l, succeeds n as = false → ∃ e, (p.exec as ⟨s, l⟩).result = .error e

/-- From `s`, `p` raises whatever is answered. -/
def Prog.Breaks (p : Prog σ ω ε α) (s : σ) : Prop :=
  ∀ as l, ∃ e, (p.exec as ⟨s, l⟩).result = .error e

section
variable {s s' s'' : σ} {p : Prog σ ω ε α} {f : α → Prog σ ω ε β}

theorem Prog.Awaits.completes (h : p.Awaits s ops a s') : p.Completes s ops.length a s' :=
  ⟨fun as l hs => ⟨_, h.returns as l hs⟩, h.raises⟩

theorem completes_pure (a : α) (s : σ) : (pure a : Prog σ ω ε α).Completes s 0 a s :=
  (awaits_pure a s).completes

theorem completes_of_exec (h : ∀ as l, p.exec as ⟨s, l⟩ = ⟨.ok a, ⟨s', l⟩, as⟩) :
    p.Completes s 0 a s' := by
  refine ⟨fun as l _ => ⟨l, h as l⟩, fun as l hfails => ?_⟩
  cases hfails

theorem completes_perform (op : ω) (s : σ) :
    (Prog.perform op : Prog σ ω ε Unit).Completes s 1 () s := (awaits_perform op s).completes

theorem Prog.Completes.bind (hp : p.Completes s m a s') (hf : (f a).Completes s' n b s'') :
    (p >>= f).Completes s (m + n) b s'' := by
  refine ⟨fun as l h => ?_, fun as l h => ?_⟩
  · rw [succeeds_add, Bool.and_eq_true] at h
    obtain ⟨l', hfirst⟩ := hp.returns as l h.1
    obtain ⟨l'', hrest⟩ := hf.returns (as.drop m) l' h.2
    refine ⟨l'', ?_⟩
    rw [exec_bind, hfirst, Outcome.andThen_ok, hrest, List.drop_drop]
  · rw [succeeds_add, Bool.and_eq_false_iff] at h
    by_cases hfirst : succeeds m as
    · obtain ⟨l', hp⟩ := hp.returns as l hfirst
      obtain ⟨e, he⟩ := hf.raises (as.drop m) l' (h.resolve_left (by simp [hfirst]))
      refine ⟨e, ?_⟩
      rw [exec_bind, hp, Outcome.andThen_ok]
      exact he
    · obtain ⟨e, he⟩ := hp.raises as l (Bool.not_eq_true _ ▸ hfirst)
      refine ⟨e, ?_⟩
      rw [exec_bind, Outcome.andThen, he]

theorem breaks_throw (e : ε) (s : σ) : (throw e : Prog σ ω ε α).Breaks s := fun _ _ => ⟨e, rfl⟩

theorem Prog.Breaks.bind (hp : p.Breaks s) : (p >>= f).Breaks s := by
  intro as l
  obtain ⟨e, he⟩ := hp as l
  refine ⟨e, ?_⟩
  rw [exec_bind, Outcome.andThen, he]

theorem Prog.Completes.breaks (hp : p.Completes s n a s') (hf : (f a).Breaks s') :
    (p >>= f).Breaks s := by
  intro as l
  by_cases h : succeeds n as
  · obtain ⟨l', hp⟩ := hp.returns as l h
    rw [exec_bind, hp, Outcome.andThen_ok]
    exact hf _ l'
  · obtain ⟨e, he⟩ := hp.raises as l (Bool.not_eq_true _ ▸ h)
    refine ⟨e, ?_⟩
    rw [exec_bind, Outcome.andThen, he]

theorem rescued_error (h : Prog σ ω ε Unit) (he : (p.exec as w).result = .error e) :
    ∃ e', ((rescued p h).exec as w).result = .error e' := by
  simp only [rescued, exec_tryCatch, Outcome.orElse, he, exec_bind]
  rcases h.exec (p.exec as w).rest (p.exec as w).world with ⟨e' | _, w', as'⟩
  · exact ⟨e', rfl⟩
  · exact ⟨e, rfl⟩

theorem Prog.Completes.rescued (hp : p.Completes s n a s') (h : Prog σ ω ε Unit) :
    (rescued p h).Completes s n a s' := by
  refine ⟨fun as l hs => ?_, fun as l hs => ?_⟩
  · obtain ⟨l', hp⟩ := hp.returns as l hs
    refine ⟨l', ?_⟩
    rw [Coroutine.rescued, exec_tryCatch, hp]
    rfl
  · obtain ⟨e, he⟩ := hp.raises as l hs
    exact rescued_error h he

theorem Prog.Breaks.rescued (hp : p.Breaks s) (h : Prog σ ω ε Unit) : (rescued p h).Breaks s := by
  intro as l
  obtain ⟨e, he⟩ := hp as l
  exact rescued_error h he

theorem finallyDo_error (c : Prog σ ω ε Unit) (he : (p.exec as w).result = .error e) :
    ∃ e', ((finallyDo p c).exec as w).result = .error e' := by
  rw [exec_finallyDo, he]
  rcases c.exec (p.exec as w).rest (p.exec as w).world with ⟨e' | _, w', as'⟩
  · exact ⟨e', rfl⟩
  · exact ⟨e, rfl⟩

theorem Prog.Completes.finallyDo {c : Prog σ ω ε Unit} (hp : p.Completes s m a s')
    (hc : c.Completes s' n () s'') : (finallyDo p c).Completes s (m + n) a s'' := by
  refine ⟨fun as l h => ?_, fun as l h => ?_⟩
  · rw [succeeds_add, Bool.and_eq_true] at h
    obtain ⟨l', hfirst⟩ := hp.returns as l h.1
    obtain ⟨l'', hclose⟩ := hc.returns (as.drop m) l' h.2
    refine ⟨l'', ?_⟩
    rw [exec_finallyDo, hfirst, hclose, Outcome.andThen_ok, List.drop_drop]
  · rw [succeeds_add, Bool.and_eq_false_iff] at h
    by_cases hfirst : succeeds m as
    · obtain ⟨l', hp⟩ := hp.returns as l hfirst
      obtain ⟨e, he⟩ := hc.raises (as.drop m) l' (h.resolve_left (by simp [hfirst]))
      refine ⟨e, ?_⟩
      rw [exec_finallyDo, hp, Outcome.andThen, he]
    · obtain ⟨e, he⟩ := hp.raises as l (Bool.not_eq_true _ ▸ hfirst)
      exact finallyDo_error c he

theorem Prog.Breaks.finallyDo (hp : p.Breaks s) (c : Prog σ ω ε Unit) :
    (finallyDo p c).Breaks s := by
  intro as l
  obtain ⟨e, he⟩ := hp as l
  exact finallyDo_error c he

end

-- ---------------------------------------------------------------------------
-- The session
-- ---------------------------------------------------------------------------

structure Session (τ : Type) where
  committed : τ
  pending : τ

def Session.fresh (t : τ) : Session τ := ⟨t, t⟩

def statement (op : ω) (f : τ → Except ε τ) : Prog (Session τ) ω ε Unit := do
  Prog.perform op
  let s ← get
  match f s.pending with
  | .error e => throw e
  | .ok t => set { s with pending := t }

def query (op : ω) (f : τ → α) : Prog (Session τ) ω ε α := do
  Prog.perform op
  let s ← get
  pure (f s.pending)

def commit (op : ω) : Prog (Session τ) ω ε Unit := do
  Prog.perform op
  modify fun s => .fresh s.pending

def rollback (op : ω) : Prog (Session τ) ω ε Unit := do
  Prog.perform op
  modify fun s => .fresh s.committed

section
variable {s : Session τ} {op : ω}

theorem statement_completes {f : τ → Except ε τ} (h : f s.pending = .ok t) :
    (statement op f).Completes s 1 () { s with pending := t } := by
  refine (completes_perform op s).bind (completes_of_exec fun as l => ?_)
  rw [exec_bind, exec_get, Outcome.andThen_ok, h]
  rfl

theorem statement_breaks {f : τ → Except ε τ} (h : f s.pending = .error e) :
    (statement op f).Breaks s := by
  refine (completes_perform op s).breaks fun as l => ⟨e, ?_⟩
  rw [exec_bind, exec_get, Outcome.andThen_ok, h]
  rfl

theorem query_completes (f : τ → α) :
    (query op f : Prog (Session τ) ω ε α).Completes s 1 (f s.pending) s :=
  (completes_perform op s).bind (completes_of_exec fun _ _ => rfl)

theorem rollback_completes :
    (rollback op : Prog (Session τ) ω ε Unit).Completes s 1 () (.fresh s.committed) :=
  (completes_perform op s).bind (completes_of_exec fun _ _ => rfl)

theorem commit_completes :
    (commit op : Prog (Session τ) ω ε Unit).Completes s 1 () (.fresh s.pending) :=
  (completes_perform op s).bind (completes_of_exec fun _ _ => rfl)

end

theorem statement_keeps (op : ω) (f : τ → Except ε τ) :
    (statement op f).Keeps Session.committed := by
  refine leaves_bind keeps_perform fun _ => ?_
  intro as w
  rw [exec_bind, exec_get, Outcome.andThen_ok]
  cases f w.st.pending <;> rfl

theorem query_keeps (op : ω) (f : τ → α) :
    (query op f : Prog (Session τ) ω ε α).Keeps Session.committed :=
  leaves_bind keeps_perform fun _ => leaves_bind leaves_get fun _ => leaves_pure

theorem rollback_keeps (op : ω) :
    (rollback op : Prog (Session τ) ω ε Unit).Keeps Session.committed :=
  leaves_bind keeps_perform fun _ => keeps_modify fun _ => rfl

-- ---------------------------------------------------------------------------
-- What only grows
-- ---------------------------------------------------------------------------

def Prog.Ascends [Preorder β] (f : τ → β) (p : Prog (Session τ) ω ε α) : Prop :=
  ∀ as w, f w.st.committed ≤ f w.st.pending →
    f w.st.committed ≤ f (p.exec as w).world.st.committed ∧
      f (p.exec as w).world.st.committed ≤ f (p.exec as w).world.st.pending

section
variable [Preorder β] {f : τ → β}

theorem ascends_pure (a : α) : (pure a : Prog (Session τ) ω ε α).Ascends f :=
  fun _ _ h => ⟨le_rfl, h⟩

theorem ascends_throw (e : ε) : (throw e : Prog (Session τ) ω ε α).Ascends f :=
  fun _ _ h => ⟨le_rfl, h⟩

theorem ascends_perform (op : ω) : (Prog.perform op : Prog (Session τ) ω ε Unit).Ascends f := by
  intro as w h
  rw [exec_perform]
  exact ⟨le_rfl, h⟩

theorem ascends_bind {p : Prog (Session τ) ω ε α} {k : α → Prog (Session τ) ω ε γ}
    (hp : p.Ascends f) (hk : ∀ a, (k a).Ascends f) : (p >>= k).Ascends f := by
  intro as w h
  have hfirst := hp as w h
  rw [exec_bind]
  generalize p.exec as w = o at hfirst ⊢
  rcases o with ⟨_ | a, w', as'⟩
  · exact hfirst
  · obtain ⟨hle, hpending⟩ := hk a as' w' hfirst.2
    exact ⟨hfirst.1.trans hle, hpending⟩

theorem ascends_map (g : α → γ) {p : Prog (Session τ) ω ε α} (hp : p.Ascends f) :
    (g <$> p).Ascends f := by
  rw [map_eq_pure_bind]
  exact ascends_bind hp fun _ => ascends_pure _

theorem ascends_tryCatch {p : Prog (Session τ) ω ε α} {h : ε → Prog (Session τ) ω ε α}
    (hp : p.Ascends f) (hh : ∀ e, (h e).Ascends f) : (tryCatch p h).Ascends f := by
  intro as w hw
  have hfirst := hp as w hw
  rw [exec_tryCatch]
  generalize p.exec as w = o at hfirst ⊢
  rcases o with ⟨e | a, w', as'⟩
  · obtain ⟨hle, hpending⟩ := hh e as' w' hfirst.2
    exact ⟨hfirst.1.trans hle, hpending⟩
  · exact hfirst

theorem ascends_rescued {p : Prog (Session τ) ω ε α} {h : Prog (Session τ) ω ε Unit}
    (hp : p.Ascends f) (hh : h.Ascends f) : (rescued p h).Ascends f :=
  ascends_tryCatch hp fun e => ascends_bind hh fun _ => ascends_throw e

theorem ascends_finallyDo {p : Prog (Session τ) ω ε α} {c : Prog (Session τ) ω ε Unit}
    (hp : p.Ascends f) (hc : c.Ascends f) : (finallyDo p c).Ascends f := by
  refine ascends_bind (ascends_tryCatch (ascends_map _ hp) fun _ => ascends_pure _) fun r =>
    ascends_bind hc fun _ => ?_
  cases r with
  | ok a => exact ascends_pure a
  | error e => exact ascends_throw e

theorem statement_ascends {op : ω} {g : τ → Except ε τ} (hg : ∀ t t', g t = .ok t' → f t ≤ f t') :
    (statement op g).Ascends f := by
  refine ascends_bind (ascends_perform op) fun _ as w h => ?_
  rw [exec_bind, exec_get, Outcome.andThen_ok]
  cases hstatement : g w.st.pending with
  | error e => exact ⟨le_rfl, h⟩
  | ok t => exact ⟨le_rfl, h.trans (hg _ _ hstatement)⟩

theorem query_ascends (op : ω) (g : τ → α) :
    (query op g : Prog (Session τ) ω ε α).Ascends f :=
  ascends_bind (ascends_perform op) fun _ _ _ h => ⟨le_rfl, h⟩

theorem commit_ascends (op : ω) : (commit op : Prog (Session τ) ω ε Unit).Ascends f :=
  ascends_bind (ascends_perform op) fun _ _ _ h => ⟨h, le_rfl⟩

theorem rollback_ascends (op : ω) : (rollback op : Prog (Session τ) ω ε Unit).Ascends f :=
  ascends_bind (ascends_perform op) fun _ _ _ _ => ⟨le_rfl, le_rfl⟩

end

-- ---------------------------------------------------------------------------
-- The first commit
-- ---------------------------------------------------------------------------

def Prog.CommitsNever (p : Prog (Session τ) ω ε α) (s : Session τ) : Prop :=
  ∀ as l, (p.exec as ⟨s, l⟩).world.st.committed = s.committed

/-- From `s`, `p` commits with its `n`th operation, if all up to it succeed, and
then ends with tables that meet `P`; otherwise it raises and commits nothing. -/
structure Prog.CommitsAfter (p : Prog (Session τ) ω ε α) (s : Session τ) (n : ℕ) (P : τ → Prop) :
    Prop where
  commits : ∀ as l, succeeds n as → P (p.exec as ⟨s, l⟩).world.st.committed
  aborts : ∀ as l, succeeds n as = false → (∃ e, (p.exec as ⟨s, l⟩).result = .error e) ∧
    (p.exec as ⟨s, l⟩).world.st.committed = s.committed

section
variable {s s' : Session τ} {p : Prog (Session τ) ω ε α} {f : α → Prog (Session τ) ω ε β}
  {P : τ → Prop}

theorem never_of_keeps (h : p.Keeps Session.committed) : p.CommitsNever s := fun as l => h as ⟨s, l⟩

theorem Prog.Completes.committed (hp : p.Completes s n a s') (h : p.CommitsNever s) :
    s'.committed = s.committed := by
  obtain ⟨l', hreturns⟩ := hp.returns [] [] (by simp [succeeds])
  have hkept := h [] []
  rw [hreturns] at hkept
  exact hkept

theorem Prog.CommitsNever.bind (hp : p.CommitsNever s) (hf : ∀ a, (f a).Keeps Session.committed) :
    (p >>= f).CommitsNever s := by
  intro as l
  have hfirst := hp as l
  rw [exec_bind]
  generalize p.exec as ⟨s, l⟩ = o at hfirst ⊢
  rcases o with ⟨_ | a, w', as'⟩
  · exact hfirst
  · exact (hf a as' w').trans hfirst

theorem Prog.Breaks.never (hp : p.Breaks s) (h : p.CommitsNever s) :
    (p >>= f).CommitsNever s := by
  intro as l
  obtain ⟨e, he⟩ := hp as l
  rw [exec_bind, Outcome.andThen, he]
  exact h as l

theorem Prog.Completes.never (hp : p.Completes s n a s') (h : p.CommitsNever s)
    (hf : (f a).CommitsNever s') : (p >>= f).CommitsNever s := by
  intro as l
  by_cases hs : succeeds n as
  · obtain ⟨l', hreturns⟩ := hp.returns as l hs
    rw [exec_bind, hreturns, Outcome.andThen_ok, hf, hp.committed h]
  · obtain ⟨e, he⟩ := hp.raises as l (Bool.not_eq_true _ ▸ hs)
    rw [exec_bind, Outcome.andThen, he]
    exact h as l

theorem never_rescued {h : Prog (Session τ) ω ε Unit} (hp : p.CommitsNever s)
    (hh : h.Keeps Session.committed) : (rescued p h).CommitsNever s :=
  fun as l => (leaves_rescued hh as _).trans (hp as l)

theorem never_finallyDo {c : Prog (Session τ) ω ε Unit} (hp : p.CommitsNever s)
    (hc : c.Keeps Session.committed) : (finallyDo p c).CommitsNever s :=
  fun as l => (leaves_finallyDo hc as _).trans (hp as l)

theorem commit_commitsAfter {op : ω} {f : Unit → Prog (Session τ) ω ε β}
    (h : ∀ as l, P ((f ()).exec as ⟨.fresh s.pending, l⟩).world.st.committed) :
    (commit op >>= f).CommitsAfter s 1 P := by
  have hop : (Prog.perform op : Prog (Session τ) ω ε Unit).Completes s 1 () s :=
    completes_perform op s
  rw [commit, bind_assoc]
  refine ⟨fun as l hs => ?_, fun as l hs => ?_⟩
  · obtain ⟨l', hreturns⟩ := hop.returns as l hs
    rw [exec_bind, hreturns, Outcome.andThen_ok]
    exact h _ l'
  · obtain ⟨e, he⟩ := hop.raises as l hs
    rw [exec_bind, Outcome.andThen, he]
    exact ⟨⟨e, rfl⟩, keeps_perform as ⟨s, l⟩⟩

theorem Prog.Completes.commitsAfter (hp : p.Completes s m a s') (h : p.CommitsNever s)
    (hf : (f a).CommitsAfter s' n P) : (p >>= f).CommitsAfter s (m + n) P := by
  refine ⟨fun as l hs => ?_, fun as l hs => ?_⟩
  · rw [succeeds_add, Bool.and_eq_true] at hs
    obtain ⟨l', hreturns⟩ := hp.returns as l hs.1
    rw [exec_bind, hreturns, Outcome.andThen_ok]
    exact hf.commits _ l' hs.2
  · rw [succeeds_add, Bool.and_eq_false_iff] at hs
    by_cases hfirst : succeeds m as
    · obtain ⟨l', hreturns⟩ := hp.returns as l hfirst
      rw [exec_bind, hreturns, Outcome.andThen_ok, ← hp.committed h]
      exact hf.aborts _ l' (hs.resolve_left (by simp [hfirst]))
    · obtain ⟨e, he⟩ := hp.raises as l (Bool.not_eq_true _ ▸ hfirst)
      rw [exec_bind, Outcome.andThen, he]
      exact ⟨⟨e, rfl⟩, h as l⟩

theorem Prog.CommitsAfter.bind (hp : p.CommitsAfter s n P) (hs : P s.committed → P s.pending)
    (hascends : p.Ascends P) (hf : ∀ a, (f a).Ascends P) : (p >>= f).CommitsAfter s n P := by
  refine ⟨fun as l hn => ?_, fun as l hn => ?_⟩
  · have hcommits := hp.commits as l hn
    have hpending := (hascends as ⟨s, l⟩ hs).2
    rw [exec_bind]
    generalize p.exec as ⟨s, l⟩ = o at hcommits hpending ⊢
    rcases o with ⟨_ | a, w', as'⟩
    · exact hcommits
    · exact (hf a as' w' hpending).1 hcommits
  · obtain ⟨⟨e, he⟩, hkept⟩ := hp.aborts as l hn
    rw [exec_bind, Outcome.andThen, he]
    exact ⟨⟨e, rfl⟩, hkept⟩

theorem Prog.CommitsAfter.rescued {h : Prog (Session τ) ω ε Unit} (hp : p.CommitsAfter s n P)
    (hh : h.Keeps Session.committed) : (rescued p h).CommitsAfter s n P := by
  refine ⟨fun as l hn => ?_, fun as l hn => ?_⟩
  · rw [leaves_rescued hh]
    exact hp.commits as l hn
  · obtain ⟨⟨e, he⟩, hkept⟩ := hp.aborts as l hn
    exact ⟨rescued_error h he, (leaves_rescued hh as _).trans hkept⟩

theorem Prog.CommitsAfter.finallyDo {c : Prog (Session τ) ω ε Unit} (hp : p.CommitsAfter s n P)
    (hc : c.Keeps Session.committed) : (finallyDo p c).CommitsAfter s n P := by
  refine ⟨fun as l hn => ?_, fun as l hn => ?_⟩
  · rw [leaves_finallyDo hc]
    exact hp.commits as l hn
  · obtain ⟨⟨e, he⟩, hkept⟩ := hp.aborts as l hn
    exact ⟨finallyDo_error c he, (leaves_finallyDo hc as _).trans hkept⟩

end

end Coroutine
