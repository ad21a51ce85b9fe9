import AlphaPanda.Lib.Coroutine

/-!
# Operations implemented by coroutines

A coroutine whose operations are themselves carried out by coroutines, over
other operations and with a state of their own beside its state. Each run of
the implementation is a run of the abstract coroutine in which every operation
ends as the coroutine that carries it out does (`implement_exec`).
-/

namespace Coroutine

namespace Prog

def onSnd : Prog τ ω ε α → Prog (σ × τ) ω ε α
  | .ret a => .ret a
  | .raise e => .raise e
  | .get k => .get fun s => (k s.2).onSnd
  | .set t k => .get fun s => .set (s.1, t) k.onSnd
  | .await op k => .await op fun r => (k r).onSnd

def mapOp (f : ω → ω') : Prog τ ω ε α → Prog τ ω' ε α
  | .ret a => .ret a
  | .raise e => .raise e
  | .get k => .get fun t => (k t).mapOp f
  | .set t k => .set t (k.mapOp f)
  | .await op k => .await (f op) fun r => (k r).mapOp f

end Prog

def ending (p : Prog σ ω ε Unit) : Prog σ ω ε (Option ε) :=
  tryCatch (p >>= fun _ => pure none) fun e => pure (some e)

/-- `p` with each operation carried out by `impl`. -/
def Prog.implement (impl : ω → Prog τ ω' ε Unit) : Prog σ ω ε α → Prog (σ × τ) ω' ε α
  | .ret a => .ret a
  | .raise e => .raise e
  | .get k => .get fun s => (k s.1).implement impl
  | .set s k => .get fun s' => .set (s, s'.2) (k.implement impl)
  | .await op k => (ending (impl op).onSnd).bind fun r => (k r).implement impl

def Outcome.raised (o : Outcome σ ω ε α) : Option ε :=
  match o.result with
  | .ok _ => none
  | .error e => some e

theorem onSnd_exec (p : Prog τ ω ε α) (as : List (Option ε)) (s : σ) (w : World τ ω ε) :
    p.onSnd.exec as ⟨(s, w.st), w.log⟩ =
      ⟨(p.exec as w).result, ⟨(s, (p.exec as w).world.st), (p.exec as w).world.log⟩,
        (p.exec as w).rest⟩ := by
  induction p generalizing as w with
  | ret | raise => rfl
  | get k ih => exact ih _ as w
  | set t k ih => exact ih as { w with st := t }
  | await op k ih => exact ih (as.headD none) as.tail (w.record op (as.headD none))

theorem mapOp_exec (f : ω → ω') (p : Prog τ ω ε α) (as : List (Option ε)) (w : World τ ω ε) :
    (p.mapOp f).exec as ⟨w.st, w.log.map (Prod.map f id)⟩ =
      ⟨(p.exec as w).result,
        ⟨(p.exec as w).world.st, (p.exec as w).world.log.map (Prod.map f id)⟩,
        (p.exec as w).rest⟩ := by
  induction p generalizing as w with
  | ret | raise => rfl
  | get k ih => exact ih _ as w
  | set t k ih => exact ih as { w with st := t }
  | await op k ih =>
    have h := ih (as.headD none) as.tail (w.record op (as.headD none))
    simp only [World.record, List.map_append] at h
    exact h

theorem ending_exec (p : Prog σ ω ε Unit) (as : List (Option ε)) (w : World σ ω ε) :
    (ending p).exec as w = ⟨.ok (p.exec as w).raised, (p.exec as w).world, (p.exec as w).rest⟩ := by
  simp only [ending, exec_tryCatch, exec_bind, exec_pure]
  rcases p.exec as w with ⟨_ | _, w', as'⟩ <;> rfl

/-- `l` are operations, and `l'` what `impl` did to carry them out one after
the other; it took the state from `t` to `t'`. -/
inductive Implements (impl : ω → Prog τ ω' ε Unit) :
    List (ω × Option ε) → τ → List (ω' × Option ε) → τ → Prop where
  | nil : Implements impl [] t [] t
  | cons (op : ω) (as : List (Option ε))
    (h : Implements impl l ((impl op).exec as (World.start t)).world.st l' t') :
    Implements impl ((op, ((impl op).exec as (World.start t)).raised) :: l) t
      (((impl op).exec as (World.start t)).world.log ++ l') t'

/-- A run of the implementation is one of the abstract coroutine, under the
answers that the implementations of its operations give. -/
theorem implement_exec (impl : ω → Prog τ ω' ε Unit) (p : Prog σ ω ε α) (as : List (Option ε))
    (s : σ) (t : τ) :
    ∃ as', ((p.implement impl).exec as (World.start (s, t))).result =
        (p.exec as' (World.start s)).result ∧
      ((p.implement impl).exec as (World.start (s, t))).world.st.1 =
        (p.exec as' (World.start s)).world.st ∧
      Implements impl (p.exec as' (World.start s)).world.log t
        ((p.implement impl).exec as (World.start (s, t))).world.log
        ((p.implement impl).exec as (World.start (s, t))).world.st.2 := by
  induction p generalizing as s t with
  | ret | raise => exact ⟨[], rfl, rfl, .nil⟩
  | get k ih => exact ih s as s t
  | set s' k ih => exact ih as s' t
  | await op k ih =>
    -- The operation, and what follows it.
    have hop := onSnd_exec (impl op) as s (World.start t)
    generalize ho : (impl op).exec as (World.start t) = o at hop
    have hexec : ((Prog.await op k).implement impl).exec as (World.start (s, t)) =
        ((k o.raised).implement impl).exec o.rest ⟨(s, o.world.st), o.world.log⟩ := by
      change ((ending (impl op).onSnd >>= fun r => (k r).implement impl) :
        Prog (σ × τ) ω' ε α).exec as (World.start (s, t)) = _
      rw [exec_bind, ending_exec, show (World.start (s, t) : World (σ × τ) ω' ε) =
        ⟨(s, (World.start t : World τ ω' ε).st), (World.start t : World τ ω' ε).log⟩ from rfl, hop]
      rfl
    obtain ⟨as', hresult, hst, himpl⟩ := ih o.raised o.rest s o.world.st
    refine ⟨o.raised :: as', ?_⟩
    have hconcrete := ((k o.raised).implement impl).exec_log o.rest
      (World.start (s, o.world.st)) o.world.log
    have habstract := (k o.raised).exec_log as' (World.start s) [(op, o.raised)]
    simp only [World.start, List.append_nil] at hconcrete habstract hresult hst himpl
    have hlog : (Prog.await op k).exec (o.raised :: as') (World.start s) =
        (k o.raised).exec as' ⟨s, [(op, o.raised)]⟩ := rfl
    rw [hlog, hexec, hconcrete, habstract]
    refine ⟨hresult, hst, ?_⟩
    rw [← ho] at himpl ⊢
    exact Implements.cons op as himpl

theorem Implements.of_mem {impl : ω → Prog τ ω' ε Unit} (h : Implements impl l t l' t')
    (hmem : (op, r) ∈ l) : ∃ t₀ as, r = ((impl op).exec as (World.start t₀)).raised ∧
      ((impl op).exec as (World.start t₀)).world.log <:+: l' := by
  induction h with
  | nil => cases hmem
  | @cons l t l' t' op' as h ih =>
    rcases List.mem_cons.mp hmem with heq | hmem
    · cases heq
      exact ⟨t, as, rfl, (List.prefix_append _ _).isInfix⟩
    · obtain ⟨t₀, as₀, hr, hinfix⟩ := ih hmem
      exact ⟨t₀, as₀, hr, hinfix.trans (List.suffix_append _ _).isInfix⟩

theorem Implements.mem {impl : ω → Prog τ ω' ε Unit} (h : Implements impl l t l' t')
    (hmem : x ∈ l') : ∃ op r t₀ as, (op, r) ∈ l ∧
      r = ((impl op).exec as (World.start t₀)).raised ∧
      x ∈ ((impl op).exec as (World.start t₀)).world.log ∧
      ((impl op).exec as (World.start t₀)).world.log <:+: l' := by
  induction h with
  | nil => cases hmem
  | @cons l t l' t' op as h ih =>
    rcases List.mem_append.mp hmem with hmem | hmem
    · exact ⟨op, _, t, as, List.mem_cons_self, rfl, hmem, (List.prefix_append _ _).isInfix⟩
    · obtain ⟨op', r, t₀, as₀, hin, hr, hx, hinfix⟩ := ih hmem
      exact ⟨op', r, t₀, as₀, List.mem_cons_of_mem _ hin, hr, hx,
        hinfix.trans (List.suffix_append _ _).isInfix⟩

/-- What the implementation of every operation keeps is kept, and holds where
each operation that was done starts. -/
theorem Implements.keeps {impl : ω → Prog τ ω' ε Unit} {I : τ → Prop}
    (hI : ∀ op as t, I t → I ((impl op).exec as (World.start t)).world.st)
    (h : Implements impl l t l' t') (ht : I t) :
    I t' ∧ ∀ x ∈ l', ∃ op as t₀, I t₀ ∧ x ∈ ((impl op).exec as (World.start t₀)).world.log := by
  induction h with
  | nil => exact ⟨ht, fun x hx => by cases hx⟩
  | @cons l t l' t' op as h ih =>
    obtain ⟨hend, hall⟩ := ih (hI op as t ht)
    refine ⟨hend, fun x hx => ?_⟩
    obtain hx | hx := List.mem_append.mp hx
    · exact ⟨op, as, t, ht, hx⟩
    · exact hall x hx

theorem Implements.maintains {impl : ω → Prog τ ω' ε Unit} {I : τ → Prop}
    (h : Implements impl l t l' t')
    (hI : ∀ x ∈ l, ∀ as t, I t → I ((impl x.1).exec as (World.start t)).world.st) (ht : I t) :
    I t' ∧ ∀ x ∈ l', ∃ y ∈ l, ∃ as t₀, I t₀ ∧
      x ∈ ((impl y.1).exec as (World.start t₀)).world.log := by
  induction h with
  | nil => exact ⟨ht, List.forall_mem_nil _⟩
  | cons op as h ih =>
    obtain ⟨hend, hall⟩ := ih (fun x hx => hI x (List.mem_cons_of_mem _ hx))
      (hI _ List.mem_cons_self as _ ht)
    refine ⟨hend, fun x hx => ?_⟩
    rcases List.mem_append.mp hx with hx | hx
    · exact ⟨_, List.mem_cons_self, as, _, ht, hx⟩
    · obtain ⟨y, hy, hrest⟩ := hall x hx
      exact ⟨y, List.mem_cons_of_mem _ hy, hrest⟩

theorem Implements.append_iff {impl : ω → Prog τ ω' ε Unit} {l₁ l₂ : List (ω × Option ε)} :
    Implements impl (l₁ ++ l₂) t l' t' ↔ ∃ t₀ l₁' l₂', Implements impl l₁ t l₁' t₀ ∧
      Implements impl l₂ t₀ l₂' t' ∧ l' = l₁' ++ l₂' := by
  constructor
  · intro h
    induction l₁ generalizing t l' with
    | nil => exact ⟨t, [], l', .nil, h, rfl⟩
    | cons x l₁ ih =>
      cases h with
      | cons op as h =>
        obtain ⟨t₀, l₁', l₂', h₁, h₂, rfl⟩ := ih h
        exact ⟨t₀, _, l₂', .cons op as h₁, h₂, (List.append_assoc _ _ _).symm⟩
  · rintro ⟨t₀, l₁', l₂', h₁, h₂, rfl⟩
    induction h₁ with
    | nil => exact h₂
    | cons op as h ih =>
      rw [List.append_assoc]
      exact .cons op as (ih h₂)

end Coroutine
