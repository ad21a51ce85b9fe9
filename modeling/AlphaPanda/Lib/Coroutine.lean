/-!
# Coroutines

A handler of an event loop. Between two awaits it reads and writes the state
`σ` without interruption; at an await it hands an operation `ω` to its
environment and resumes with `none` when the operation is done, or with the
exception `ε` it raised.

`Prog.exec` runs one coroutine alone, its environment answering from a list.
`Prog.advance` runs it up to its next await; the scheduler of
`Lib.Interleave` is built on it.
-/

namespace Coroutine

inductive Prog (σ ω ε : Type) (α : Type) where
  | ret (a : α)
  | raise (e : ε)
  | get (k : σ → Prog σ ω ε α)
  | set (s : σ) (k : Prog σ ω ε α)
  | await (op : ω) (k : Option ε → Prog σ ω ε α)

namespace Prog

def bind : Prog σ ω ε α → (α → Prog σ ω ε β) → Prog σ ω ε β
  | .ret a, f => f a
  | .raise e, _ => .raise e
  | .get k, f => .get fun s => (k s).bind f
  | .set s k, f => .set s (k.bind f)
  | .await op k, f => .await op fun r => (k r).bind f

/-- `try p except e: h e`. What `h` raises is not caught. -/
def tryCatch : Prog σ ω ε α → (ε → Prog σ ω ε α) → Prog σ ω ε α
  | .ret a, _ => .ret a
  | .raise e, h => h e
  | .get k, h => .get fun s => (k s).tryCatch h
  | .set s k, h => .set s (k.tryCatch h)
  | .await op k, h => .await op fun r => (k r).tryCatch h

instance : Monad (Prog σ ω ε) where
  pure := .ret
  bind := bind

instance : MonadExceptOf ε (Prog σ ω ε) where
  throw := .raise
  tryCatch := tryCatch

instance : MonadStateOf σ (Prog σ ω ε) where
  get := .get .ret
  set s := .set s (.ret ())
  modifyGet f := .get fun s => .set (f s).2 (.ret (f s).1)

def perform (op : ω) : Prog σ ω ε Unit :=
  .await op fun
    | none => .ret ()
    | some e => .raise e

theorem bind_ret (p : Prog σ ω ε α) : p.bind .ret = p := by
  induction p with
  | ret | raise => rfl
  | get k ih => simp only [bind]; exact congrArg _ (funext ih)
  | set s k ih => simp only [bind, ih]
  | await op k ih => simp only [bind]; exact congrArg _ (funext ih)

theorem bind_assoc (p : Prog σ ω ε α) (f : α → Prog σ ω ε β) (g : β → Prog σ ω ε γ) :
    (p.bind f).bind g = p.bind fun a => (f a).bind g := by
  induction p with
  | ret | raise => rfl
  | get k ih => simp only [bind]; exact congrArg _ (funext ih)
  | set s k ih => simp only [bind, ih]
  | await op k ih => simp only [bind]; exact congrArg _ (funext ih)

instance : LawfulMonad (Prog σ ω ε) :=
  LawfulMonad.mk' _ bind_ret (fun _ _ => rfl) bind_assoc

end Prog

/-- `try: p except Exception: pass` -/
def suppress (p : Prog σ ω ε Unit) : Prog σ ω ε Unit := tryCatch p fun _ => pure ()

-- ---------------------------------------------------------------------------
-- Running alone
-- ---------------------------------------------------------------------------

/-- The state and the operations answered so far, oldest first, with what
each one raised. -/
structure World (σ ω ε : Type) where
  st : σ
  log : List (ω × Option ε)

def World.start (s : σ) : World σ ω ε := ⟨s, []⟩

def World.record (w : World σ ω ε) (op : ω) (r : Option ε) : World σ ω ε :=
  { w with log := w.log ++ [(op, r)] }

/-- How a run ends: its result, the world it leaves, the answers not used. -/
structure Outcome (σ ω ε α : Type) where
  result : Except ε α
  world : World σ ω ε
  rest : List (Option ε)

/-- Run `p` alone. The environment answers from the list, and lets every
operation past its end succeed. -/
def Prog.exec : Prog σ ω ε α → List (Option ε) → World σ ω ε → Outcome σ ω ε α
  | .ret a, as, w => ⟨.ok a, w, as⟩
  | .raise e, as, w => ⟨.error e, w, as⟩
  | .get k, as, w => (k w.st).exec as w
  | .set s k, as, w => k.exec as { w with st := s }
  | .await op k, as, w => (k (as.headD none)).exec as.tail (w.record op (as.headD none))

def Outcome.andThen (o : Outcome σ ω ε α)
    (f : α → List (Option ε) → World σ ω ε → Outcome σ ω ε β) : Outcome σ ω ε β :=
  match o.result with
  | .ok a => f a o.rest o.world
  | .error e => ⟨.error e, o.world, o.rest⟩

def Outcome.orElse (o : Outcome σ ω ε α)
    (h : ε → List (Option ε) → World σ ω ε → Outcome σ ω ε α) : Outcome σ ω ε α :=
  match o.result with
  | .ok a => ⟨.ok a, o.world, o.rest⟩
  | .error e => h e o.rest o.world

@[simp] theorem Outcome.andThen_ok (f : α → List (Option ε) → World σ ω ε → Outcome σ ω ε β) :
    (Outcome.mk (.ok a) w as).andThen f = f a as w := rfl

@[simp] theorem Outcome.andThen_error
    (f : α → List (Option ε) → World σ ω ε → Outcome σ ω ε β) :
    (Outcome.mk (.error e) w as).andThen f = ⟨.error e, w, as⟩ := rfl

@[simp] theorem Outcome.orElse_ok (h : ε → List (Option ε) → World σ ω ε → Outcome σ ω ε α) :
    (Outcome.mk (.ok a) w as).orElse h = ⟨.ok a, w, as⟩ := rfl

@[simp] theorem Outcome.orElse_error
    (h : ε → List (Option ε) → World σ ω ε → Outcome σ ω ε α) :
    (Outcome.mk (.error e) w as).orElse h = h e as w := rfl

section
variable {w : World σ ω ε} {as : List (Option ε)}

@[simp] theorem exec_pure : (pure a : Prog σ ω ε α).exec as w = ⟨.ok a, w, as⟩ := rfl

@[simp] theorem exec_throw : (throw e : Prog σ ω ε α).exec as w = ⟨.error e, w, as⟩ := rfl

@[simp] theorem exec_get : (get : Prog σ ω ε σ).exec as w = ⟨.ok w.st, w, as⟩ := rfl

@[simp] theorem exec_set :
    (set s : Prog σ ω ε PUnit).exec as w = ⟨.ok ⟨⟩, { w with st := s }, as⟩ := rfl

@[simp] theorem exec_modify :
    (modify f : Prog σ ω ε PUnit).exec as w = ⟨.ok ⟨⟩, { w with st := f w.st }, as⟩ := rfl

@[simp] theorem exec_bind (p : Prog σ ω ε α) (f : α → Prog σ ω ε β) :
    (p >>= f).exec as w = (p.exec as w).andThen fun a as w => (f a).exec as w := by
  change (p.bind f).exec as w = _
  induction p generalizing as w with
  | ret | raise => rfl
  | get k ih => exact ih _
  | set s k ih => exact ih
  | await op k ih => exact ih _

@[simp] theorem exec_map (f : α → β) (p : Prog σ ω ε α) :
    (f <$> p).exec as w = (p.exec as w).andThen fun a as w => ⟨.ok (f a), w, as⟩ := by
  rw [map_eq_pure_bind, exec_bind]
  rfl

@[simp] theorem exec_tryCatch (p : Prog σ ω ε α) (h : ε → Prog σ ω ε α) :
    (tryCatch p h).exec as w = (p.exec as w).orElse fun e as w => (h e).exec as w := by
  change (p.tryCatch h).exec as w = _
  induction p generalizing as w with
  | ret | raise => rfl
  | get k ih => exact ih _
  | set s k ih => exact ih
  | await op k ih => exact ih _

@[simp] theorem exec_suppress (p : Prog σ ω ε Unit) :
    (suppress p).exec as w = ⟨.ok (), (p.exec as w).world, (p.exec as w).rest⟩ := by
  simp only [suppress, exec_tryCatch]
  rcases p.exec as w with ⟨_ | _, w', as'⟩ <;> rfl

theorem exec_perform (op : ω) :
    (Prog.perform op : Prog σ ω ε Unit).exec as w =
      ⟨match as.headD none with | none => .ok () | some e => .error e,
        w.record op (as.headD none), as.tail⟩ := by
  simp only [Prog.perform, Prog.exec]
  cases as.headD none <;> rfl

@[simp] theorem exec_perform_nil (op : ω) :
    (Prog.perform op : Prog σ ω ε Unit).exec [] w = ⟨.ok (), w.record op none, []⟩ := rfl

@[simp] theorem exec_perform_none (op : ω) :
    (Prog.perform op : Prog σ ω ε Unit).exec (none :: as) w =
      ⟨.ok (), w.record op none, as⟩ := rfl

@[simp] theorem exec_perform_some (op : ω) :
    (Prog.perform op : Prog σ ω ε Unit).exec (some e :: as) w =
      ⟨.error e, w.record op (some e), as⟩ := rfl

end

theorem Prog.exec_log (p : Prog σ ω ε α) (as : List (Option ε)) (w : World σ ω ε)
    (l : List (ω × Option ε)) :
    p.exec as ⟨w.st, l ++ w.log⟩ =
      { p.exec as w with world := ⟨(p.exec as w).world.st, l ++ (p.exec as w).world.log⟩ } := by
  induction p generalizing as w with
  | ret | raise => rfl
  | get k ih => exact ih _ as w
  | set s k ih => exact ih as { w with st := s }
  | await op k ih =>
    have h := ih (as.headD none) as.tail (w.record op (as.headD none))
    simpa only [Prog.exec, World.record, List.append_assoc] using h

theorem Prog.exec_log_eq (p : Prog σ ω ε α) (as : List (Option ε)) (w : World σ ω ε) :
    (p.exec as w).world.log = w.log ++ (p.exec as (World.start w.st)).world.log := by
  have h := p.exec_log as (World.start w.st) w.log
  simp only [World.start, List.append_nil] at h
  rw [show w = ⟨w.st, w.log⟩ from rfl, h]
  rfl

theorem Outcome.andThen_result {o : Outcome σ ω ε α}
    {f : α → List (Option ε) → World σ ω ε → Outcome σ ω ε β} :
    (o.andThen f).result = .ok b ↔ ∃ a, o.result = .ok a ∧ (f a o.rest o.world).result = .ok b := by
  rcases o with ⟨_ | a, w, as⟩ <;> simp [Outcome.andThen]

theorem Outcome.andThen_world (o : Outcome σ ω ε α) (b : β) :
    (o.andThen fun _ as w => ⟨.ok b, w, as⟩).world = o.world := by
  rcases o with ⟨_ | a, w, as⟩ <;> rfl

-- ---------------------------------------------------------------------------
-- What a coroutine leaves alone
-- ---------------------------------------------------------------------------

/-- `p` never changes `f` of the world. -/
def Prog.Leaves (f : World σ ω ε → φ) (p : Prog σ ω ε α) : Prop :=
  ∀ as w, f (p.exec as w).world = f w

section
variable {f : World σ ω ε → φ}

theorem leaves_pure : (pure a : Prog σ ω ε α).Leaves f := fun _ _ => rfl

theorem leaves_throw : (throw e : Prog σ ω ε α).Leaves f := fun _ _ => rfl

theorem leaves_get : (get : Prog σ ω ε σ).Leaves f := fun _ _ => rfl

theorem leaves_modify (h : ∀ w : World σ ω ε, f { w with st := g w.st } = f w) :
    (modify g : Prog σ ω ε PUnit).Leaves f := fun _ w => h w

theorem leaves_set (h : ∀ w : World σ ω ε, f { w with st := s } = f w) :
    (set s : Prog σ ω ε PUnit).Leaves f := fun _ w => h w

theorem leaves_perform (h : ∀ (w : World σ ω ε) r, f (w.record op r) = f w) :
    (Prog.perform op : Prog σ ω ε Unit).Leaves f := fun as w => by
  rw [exec_perform]
  exact h w _

theorem leaves_bind {p : Prog σ ω ε α} {k : α → Prog σ ω ε β} (hp : p.Leaves f)
    (hk : ∀ a, (k a).Leaves f) : (p >>= k).Leaves f := by
  intro as w
  rw [exec_bind, ← hp as w]
  rcases p.exec as w with ⟨_ | a, w', as'⟩
  · rfl
  · exact hk a as' w'

theorem leaves_tryCatch {p : Prog σ ω ε α} {h : ε → Prog σ ω ε α} (hp : p.Leaves f)
    (hh : ∀ e, (h e).Leaves f) : (tryCatch p h).Leaves f := by
  intro as w
  rw [exec_tryCatch, ← hp as w]
  rcases p.exec as w with ⟨e | _, w', as'⟩
  · exact hh e as' w'
  · rfl

theorem leaves_suppress {p : Prog σ ω ε Unit} (h : p.Leaves f) : (suppress p).Leaves f :=
  leaves_tryCatch h fun _ => leaves_pure

end

abbrev Prog.Keeps (f : σ → φ) (p : Prog σ ω ε α) : Prop := p.Leaves fun w => f w.st

theorem Prog.Keeps.eq {f : σ → φ} {p : Prog σ ω ε α} (h : p.Keeps f) (as : List (Option ε))
    (w : World σ ω ε) : f (p.exec as w).world.st = f w.st := h as w

theorem keeps_modify {f : σ → φ} (h : ∀ s, f (g s) = f s) :
    (modify g : Prog σ ω ε PUnit).Keeps f := leaves_modify fun w => h w.st

theorem keeps_perform {f : σ → φ} : (Prog.perform op : Prog σ ω ε Unit).Keeps f :=
  leaves_perform fun _ _ => rfl

abbrev Prog.Only (P : ω → Prop) (p : Prog σ ω ε α) : Prop := p.Leaves fun w => ∀ x ∈ w.log, P x.1

theorem only_perform {P : ω → Prop} (h : P op) : (Prog.perform op : Prog σ ω ε Unit).Only P := by
  refine leaves_perform fun w r => propext ⟨fun hall x hx => hall x (List.mem_append_left _ hx), ?_⟩
  intro hall x hx
  obtain hx | hx := List.mem_append.mp hx
  · exact hall x hx
  · cases List.mem_singleton.mp hx
    exact h

theorem Prog.Only.mem {P : ω → Prop} {p : Prog σ ω ε α} (h : p.Only P)
    (hx : x ∈ (p.exec as (World.start s)).world.log) : P x.1 :=
  (h as (World.start s)).mpr (fun _ hx => by cases hx) x hx

-- ---------------------------------------------------------------------------
-- Running straight through
-- ---------------------------------------------------------------------------

/-- What is logged of awaiting `ops` in turn, until one of them raises. -/
def answered : List ω → List (Option ε) → List (ω × Option ε)
  | [], _ => []
  | op :: ops, as =>
    match as.headD none with
    | none => (op, none) :: answered ops as.tail
    | some e => [(op, some e)]

def succeeds (n : Nat) (as : List (Option ε)) : Bool := (as.take n).all Option.isNone

/-- From `s`, `p` awaits `ops` in turn, and raises if one of them does.
Otherwise it returns `a` and leaves `s'`. -/
structure Prog.Awaits (p : Prog σ ω ε α) (s : σ) (ops : List ω) (a : α) (s' : σ) : Prop where
  log : ∀ as l, (p.exec as ⟨s, l⟩).world.log = l ++ answered ops as
  returns : ∀ as l, succeeds ops.length as →
    p.exec as ⟨s, l⟩ = ⟨.ok a, ⟨s', l ++ answered ops as⟩, as.drop ops.length⟩
  raises : ∀ as l, succeeds ops.length as = false → ∃ e, (p.exec as ⟨s, l⟩).result = .error e

theorem succeeds_add (m n : Nat) (as : List (Option ε)) :
    succeeds (m + n) as = (succeeds m as && succeeds n (as.drop m)) := by
  rw [succeeds, List.take_add, List.all_append]
  rfl

theorem succeeds_one (as : List (Option ε)) : succeeds 1 as = (as.headD none).isNone := by
  cases as <;> simp [succeeds]

theorem succeeds_succ (n : Nat) (as : List (Option ε)) :
    succeeds (n + 1) as = ((as.headD none).isNone && succeeds n as.tail) := by
  rw [Nat.add_comm, succeeds_add, succeeds_one, List.drop_one]

theorem answered_append (ops ops' : List ω) (as : List (Option ε)) :
    answered (ops ++ ops') as =
      if succeeds ops.length as then answered ops as ++ answered ops' (as.drop ops.length)
      else answered ops as := by
  induction ops generalizing as with
  | nil => rfl
  | cons op ops ih =>
    simp only [List.cons_append, answered, List.length_cons, succeeds_succ]
    have hdrop : as.drop (ops.length + 1) = as.tail.drop ops.length := by
      rw [Nat.add_comm, ← List.drop_drop, List.drop_one]
    rw [hdrop]
    cases as.headD none with
    | none =>
      simp only [ih, Option.isNone_none, Bool.true_and]
      split <;> rfl
    | some e => rfl

theorem awaits_pure (a : α) (s : σ) : (pure a : Prog σ ω ε α).Awaits s [] a s := by
  refine ⟨fun as l => (List.append_nil l).symm, fun as l _ => ?_, fun as l h => ?_⟩
  · rw [exec_pure, answered, List.append_nil]
    rfl
  · cases h

theorem awaits_get (s : σ) : (get : Prog σ ω ε σ).Awaits s [] s s := by
  have h : (pure s : Prog σ ω ε σ).Awaits s [] s s := awaits_pure s s
  exact ⟨h.log, h.returns, h.raises⟩

theorem awaits_perform (op : ω) (s : σ) : (Prog.perform op : Prog σ ω ε Unit).Awaits s [op] () s := by
  refine ⟨fun as l => ?_, fun as l h => ?_, fun as l h => ?_⟩
  · rw [exec_perform, answered]
    cases as.headD none <;> rfl
  · rw [List.length_singleton, succeeds_one, Option.isNone_iff_eq_none] at h
    rw [exec_perform, answered, h, List.length_singleton, List.drop_one]
    rfl
  · rw [List.length_singleton, succeeds_one] at h
    rw [exec_perform]
    cases hanswer : as.headD none with
    | none => rw [hanswer] at h; cases h
    | some e => exact ⟨e, rfl⟩

theorem Prog.Awaits.bind {p : Prog σ ω ε α} {f : α → Prog σ ω ε β} (hp : p.Awaits s ops a s₁)
    (hf : (f a).Awaits s₁ ops' b s₂) : (p >>= f).Awaits s (ops ++ ops') b s₂ := by
  have hfails : ∀ as l, succeeds ops.length as = false →
      ∃ e, (p >>= f).exec as ⟨s, l⟩ = ⟨.error e, (p.exec as ⟨s, l⟩).world, (p.exec as ⟨s, l⟩).rest⟩ := by
    intro as l h
    obtain ⟨e, he⟩ := hp.raises as l h
    refine ⟨e, ?_⟩
    rw [exec_bind, Outcome.andThen, he]
  refine ⟨fun as l => ?_, fun as l h => ?_, fun as l h => ?_⟩
  · rw [answered_append]
    split
    · rename_i h
      rw [exec_bind, hp.returns as l h, Outcome.andThen_ok, hf.log, List.append_assoc]
    · rename_i h
      obtain ⟨e, he⟩ := hfails as l (Bool.not_eq_true _ ▸ h)
      rw [he, hp.log]
  · rw [List.length_append, succeeds_add, Bool.and_eq_true] at h
    rw [exec_bind, hp.returns as l h.1, Outcome.andThen_ok, hf.returns _ _ h.2, answered_append,
      if_pos h.1, List.append_assoc, List.drop_drop, List.length_append]
  · rw [List.length_append, succeeds_add, Bool.and_eq_false_iff] at h
    by_cases hfirst : succeeds ops.length as
    · obtain ⟨e, he⟩ := hf.raises (as.drop ops.length) (l ++ answered ops as)
        (h.resolve_left (by simp [hfirst]))
      refine ⟨e, ?_⟩
      rw [exec_bind, hp.returns as l hfirst, Outcome.andThen_ok]
      exact he
    · obtain ⟨e, he⟩ := hfails as l (Bool.not_eq_true _ ▸ hfirst)
      exact ⟨e, by rw [he]⟩

theorem Prog.Awaits.bind_nil {p : Prog σ ω ε α} {f : α → Prog σ ω ε β} (hp : p.Awaits s ops a s₁)
    (hf : (f a).Awaits s₁ [] b s₂) : (p >>= f).Awaits s ops b s₂ := by
  have h := hp.bind hf
  rwa [List.append_nil] at h

theorem awaits_get_bind {f : σ → Prog σ ω ε β} (hf : (f s).Awaits s ops b s₂) :
    (get >>= f).Awaits s ops b s₂ := (awaits_get s).bind hf

theorem awaits_mapError {p : Prog σ ω ε α} (hp : p.Awaits s ops a s') (f : ε → ε) :
    (tryCatch p fun e => throw (f e)).Awaits s ops a s' := by
  refine ⟨fun as l => ?_, fun as l h => ?_, fun as l h => ?_⟩
  · rw [← hp.log as l, exec_tryCatch]
    rcases p.exec as ⟨s, l⟩ with ⟨_ | _, w, as'⟩ <;> rfl
  · rw [exec_tryCatch, hp.returns as l h]
    rfl
  · obtain ⟨e, he⟩ := hp.raises as l h
    refine ⟨f e, ?_⟩
    rw [exec_tryCatch, Outcome.orElse, he]
    rfl

-- ---------------------------------------------------------------------------
-- What a coroutine awaits
-- ---------------------------------------------------------------------------

def Prog.Performs (Q : ω → Prop) (p : Prog σ ω ε α) : Prop :=
  ∀ as w, ∀ x ∈ (p.exec as w).world.log, x ∈ w.log ∨ Q x.1

section
variable {Q : ω → Prop}

theorem performs_pure : (pure a : Prog σ ω ε α).Performs Q := fun _ _ _ => .inl

theorem performs_throw : (throw e : Prog σ ω ε α).Performs Q := fun _ _ _ => .inl

theorem performs_get : (get : Prog σ ω ε σ).Performs Q := fun _ _ _ => .inl

theorem performs_set {s : σ} : (set s : Prog σ ω ε PUnit).Performs Q := fun _ _ _ => .inl

theorem performs_modify {f : σ → σ} : (modify f : Prog σ ω ε PUnit).Performs Q := fun _ _ _ => .inl

theorem performs_perform (h : Q op) : (Prog.perform op : Prog σ ω ε Unit).Performs Q := by
  intro as w x hx
  rw [exec_perform] at hx
  rcases List.mem_append.mp hx with hx | hx
  · exact .inl hx
  · cases List.mem_singleton.mp hx
    exact .inr h

theorem performs_bind {p : Prog σ ω ε α} {k : α → Prog σ ω ε β} (hp : p.Performs Q)
    (hk : ∀ a, (k a).Performs Q) : (p >>= k).Performs Q := by
  intro as w x hx
  have hfirst := hp as w
  rw [exec_bind] at hx
  generalize p.exec as w = o at hx hfirst
  rcases o with ⟨_ | a, w', as'⟩
  · exact hfirst x hx
  · rcases hk a as' w' x hx with hx | hx
    · exact hfirst x hx
    · exact .inr hx

theorem performs_tryCatch {p : Prog σ ω ε α} {h : ε → Prog σ ω ε α} (hp : p.Performs Q)
    (hh : ∀ e, (h e).Performs Q) : (tryCatch p h).Performs Q := by
  intro as w x hx
  have hfirst := hp as w
  rw [exec_tryCatch] at hx
  generalize p.exec as w = o at hx hfirst
  rcases o with ⟨e | _, w', as'⟩
  · rcases hh e as' w' x hx with hx | hx
    · exact hfirst x hx
    · exact .inr hx
  · exact hfirst x hx

theorem performs_suppress {p : Prog σ ω ε Unit} (h : p.Performs Q) : (suppress p).Performs Q :=
  performs_tryCatch h fun _ => performs_pure

theorem Prog.Performs.filterMap {p : Prog σ ω ε α} (hp : p.Performs Q)
    {f : ω × Option ε → Option β} (hf : ∀ x, Q x.1 → f x = none) (as : List (Option ε))
    (w : World σ ω ε) : (p.exec as w).world.log.filterMap f = w.log.filterMap f := by
  rw [p.exec_log_eq as w, List.filterMap_append]
  have hnone : (p.exec as (World.start w.st)).world.log.filterMap f = [] := by
    refine List.filterMap_eq_nil_iff.mpr fun x hx => hf x ?_
    exact (hp as (World.start w.st) x hx).resolve_left List.not_mem_nil
  rw [hnone, List.append_nil]

theorem filterMap_bind_of_performs (p : Prog σ ω ε α) {k : α → Prog σ ω ε β}
    (hk : ∀ a, (k a).Performs Q) {f : ω × Option ε → Option γ} (hf : ∀ x, Q x.1 → f x = none)
    (as : List (Option ε)) (w : World σ ω ε) :
    ((p >>= k).exec as w).world.log.filterMap f = (p.exec as w).world.log.filterMap f := by
  rw [exec_bind]
  rcases p.exec as w with ⟨_ | a, w', as'⟩
  · rfl
  · exact (hk a).filterMap hf as' w'

end

/-- Run `p`, and again while it raises: once for each list of answers. -/
def Prog.retried (p : Prog σ ω ε Unit) : List (Option ε) → List (List (Option ε)) → World σ ω ε →
    Outcome σ ω ε Unit
  | as, [], w => p.exec as w
  | as, as' :: rest, w => (p.exec as w).orElse fun _ _ w => p.retried as' rest w

section
variable {p : Prog σ ω ε Unit} {served : List (ω × Option ε) → Prop}

end

structure Task (σ ω ε α : Type) where
  op : ω
  resume : Option ε → Prog σ ω ε α

def Prog.advance : Prog σ ω ε α → σ → σ × (Except ε α ⊕ Task σ ω ε α)
  | .ret a, s => (s, .inl (.ok a))
  | .raise e, s => (s, .inl (.error e))
  | .get k, s => (k s).advance s
  | .set s k, _ => k.advance s
  | .await op k, s => (s, .inr ⟨op, k⟩)

-- ---------------------------------------------------------------------------
-- Running beside
-- ---------------------------------------------------------------------------

/-- `p` where the state has another part, which it does not see. -/
def Prog.beside : Prog σ ω ε α → Prog (σ × μ) ω ε α
  | .ret a => .ret a
  | .raise e => .raise e
  | .get k => .get fun s => (k s.1).beside
  | .set s k => .get fun s' => .set (s, s'.2) k.beside
  | .await op k => .await op fun r => (k r).beside

def Outcome.beside (o : Outcome σ ω ε α) (m : μ) : Outcome (σ × μ) ω ε α :=
  ⟨o.result, ⟨(o.world.st, m), o.world.log⟩, o.rest⟩

theorem exec_beside (p : Prog σ ω ε α) (as : List (Option ε)) (s : σ) (m : μ)
    (l : List (ω × Option ε)) : p.beside.exec as ⟨(s, m), l⟩ = (p.exec as ⟨s, l⟩).beside m := by
  induction p generalizing as s l with
  | ret | raise => rfl
  | get k ih => exact ih s as s l
  | set s' k ih => exact ih as s' l
  | await op k ih => exact ih (as.headD none) as.tail s (l ++ [(op, as.headD none)])

/-- `p` does what `q` does, whatever becomes of the part that `q` does not see. -/
def Prog.Shadows (p : Prog (σ × μ) ω ε α) (q : Prog σ ω ε α) : Prop :=
  ∀ as s m l, ∃ m', p.exec as ⟨(s, m), l⟩ = (q.exec as ⟨s, l⟩).beside m'

section
variable {p : Prog (σ × μ) ω ε α} {q : Prog σ ω ε α}

theorem shadows_beside (q : Prog σ ω ε α) : (q.beside : Prog (σ × μ) ω ε α).Shadows q :=
  fun as s m l => ⟨m, exec_beside q as s m l⟩

theorem shadows_pure (a : α) : (pure a : Prog (σ × μ) ω ε α).Shadows (pure a) :=
  fun _ _ m _ => ⟨m, rfl⟩

theorem shadows_throw (e : ε) : (throw e : Prog (σ × μ) ω ε α).Shadows (throw e) :=
  fun _ _ m _ => ⟨m, rfl⟩

theorem shadows_perform (op : ω) :
    (Prog.perform op : Prog (σ × μ) ω ε Unit).Shadows (Prog.perform op) := by
  intro as s m l
  refine ⟨m, ?_⟩
  rw [exec_perform, exec_perform]
  rfl

theorem shadows_modify (f : σ → σ) :
    (modify fun s => (f s.1, s.2) : Prog (σ × μ) ω ε PUnit).Shadows (modify f) :=
  fun _ _ m _ => ⟨m, rfl⟩

theorem shadows_get {k : σ × μ → Prog (σ × μ) ω ε β} {k' : σ → Prog σ ω ε β}
    (h : ∀ s m, (k (s, m)).Shadows (k' s)) : (get >>= k).Shadows (get >>= k') :=
  fun as s m l => h s m as s m l

theorem shadows_bind {k : α → Prog (σ × μ) ω ε β} {k' : α → Prog σ ω ε β} (h : p.Shadows q)
    (hk : ∀ a, (k a).Shadows (k' a)) : (p >>= k).Shadows (q >>= k') := by
  intro as s m l
  obtain ⟨m', hm⟩ := h as s m l
  rw [exec_bind, exec_bind, hm]
  rcases q.exec as ⟨s, l⟩ with ⟨_ | a, w, as'⟩
  · exact ⟨m', rfl⟩
  · exact hk a as' w.st m' w.log

theorem shadows_tryCatch {h : ε → Prog (σ × μ) ω ε α} {h' : ε → Prog σ ω ε α} (hp : p.Shadows q)
    (hh : ∀ e, (h e).Shadows (h' e)) : (tryCatch p h).Shadows (tryCatch q h') := by
  intro as s m l
  obtain ⟨m', hm⟩ := hp as s m l
  rw [exec_tryCatch, exec_tryCatch, hm]
  rcases q.exec as ⟨s, l⟩ with ⟨e | _, w, as'⟩
  · exact hh e as' w.st m' w.log
  · exact ⟨m', rfl⟩

theorem shadows_aside {f : σ × μ → μ} {k : PUnit → Prog (σ × μ) ω ε α}
    (h : (k ⟨⟩).Shadows q) : ((modify fun s => (s.1, f s)) >>= k).Shadows q :=
  fun as s m l => h as s (f (s, m)) l

theorem shadows_then {p : Prog (σ × μ) ω ε Unit} {q : Prog σ ω ε Unit} (h : p.Shadows q)
    (f : σ × μ → μ) : (p >>= fun _ => modify fun s => (s.1, f s)).Shadows q := by
  intro as s m l
  obtain ⟨m', hm⟩ := h as s m l
  rw [exec_bind, hm]
  rcases q.exec as ⟨s, l⟩ with ⟨_ | a, w, as'⟩
  · exact ⟨m', rfl⟩
  · exact ⟨f (w.st, m'), rfl⟩

end

end Coroutine
