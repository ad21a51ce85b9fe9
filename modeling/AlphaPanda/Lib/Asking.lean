/-!
# Asking the environment

A computation that may raise, with a state, which asks its environment
questions: a clock, a database, a service. An environment answers the `n`-th
question of a run by a function of `n`, so that a run is determined and every
run is one for some environment.

`Triple p s Q E` is its Hoare logic: run from `s`, `p` returns as `Q` says or
raises as `E` says.
-/

namespace Asking

/-- A state, and how many questions have been asked. -/
structure Asked (σ : Type) where
  state : σ
  asked : Nat

abbrev Asks (σ ε α : Type) := EStateM ε (Asked σ) α

def Asked.next (s : Asked σ) : Asked σ := ⟨s.state, s.asked + 1⟩

@[simp] theorem Asked.next_state (s : Asked σ) : s.next.state = s.state := rfl

@[simp] theorem Asked.next_asked (s : Asked σ) : s.next.asked = s.asked + 1 := rfl

def ask (answers : Nat → β) : Asks σ ε β := fun s => .ok (answers s.asked) s.next

def attempt (raises : Nat → Option ε) : Asks σ ε Unit := do
  match ← ask raises with
  | none => pure ()
  | some e => throw e

def read : Asks σ ε σ := fun s => .ok s.state s

def change (f : σ → σ) : Asks σ ε Unit := fun s => .ok () ⟨f s.state, s.asked⟩

def within (view : τ → σ) (put : τ → σ → τ) (p : Asks σ ε α) : Asks τ ε α := fun s =>
  match p ⟨view s.state, s.asked⟩ with
  | .ok a s' => .ok a ⟨put s.state s'.state, s'.asked⟩
  | .error e s' => .error e ⟨put s.state s'.state, s'.asked⟩

-- ---------------------------------------------------------------------------
-- Triples
-- ---------------------------------------------------------------------------

def Triple (p : Asks σ ε α) (s : Asked σ) (Q : α → Asked σ → Prop) (E : ε → Asked σ → Prop) : Prop :=
  match p s with
  | .ok a s' => Q a s'
  | .error e s' => E e s'

section
variable {s : Asked σ} {Q : α → Asked σ → Prop} {E : ε → Asked σ → Prop}

@[simp] theorem triple_pure : Triple (pure a) s Q E ↔ Q a s := Iff.rfl

@[simp] theorem triple_throw : Triple (throw e) s Q E ↔ E e s := Iff.rfl

@[simp] theorem triple_ask {Q : β → Asked σ → Prop} (answers : Nat → β) :
    Triple (ask answers) s Q E ↔ Q (answers s.asked) s.next := Iff.rfl

@[simp] theorem triple_read {Q : σ → Asked σ → Prop} : Triple read s Q E ↔ Q s.state s := Iff.rfl

@[simp] theorem triple_change {Q : Unit → Asked σ → Prop} (f : σ → σ) :
    Triple (change f) s Q E ↔ Q () ⟨f s.state, s.asked⟩ := Iff.rfl

@[simp] theorem triple_bind (p : Asks σ ε β) (f : β → Asks σ ε α) :
    Triple (p >>= f) s Q E ↔ Triple p s (fun b s' => Triple (f b) s' Q E) E := by
  have hrun : (p >>= f : Asks σ ε α) s = match p s with
      | .ok b s' => f b s'
      | .error e s' => .error e s' := by
    change EStateM.bind p f s = _
    delta EStateM.bind
    cases p s <;> rfl
  unfold Triple
  rw [hrun]
  cases p s <;> exact Iff.rfl

@[simp] theorem triple_tryCatch (p : Asks σ ε α) (h : ε → Asks σ ε α) :
    Triple (tryCatch p h) s Q E ↔ Triple p s Q fun e s' => Triple (h e) s' Q E := by
  have hrun : (tryCatch p h : Asks σ ε α) s = match p s with
      | .ok a s' => .ok a s'
      | .error e s' => h e s' := by
    change EStateM.tryCatch p h s = _
    delta EStateM.tryCatch
    cases p s <;> rfl
  unfold Triple
  rw [hrun]
  cases p s <;> exact Iff.rfl

@[simp] theorem triple_attempt {Q : Unit → Asked σ → Prop} (raises : Nat → Option ε) :
    Triple (attempt raises) s Q E ↔
      (raises s.asked = none → Q () s.next) ∧ ∀ e, raises s.asked = some e → E e s.next := by
  unfold attempt
  rw [triple_bind, triple_ask]
  cases raises s.asked with
  | none => simp
  | some e => simp

@[simp] theorem triple_within (view : τ → σ) (put : τ → σ → τ) (p : Asks σ ε α) (s : Asked τ)
    {Q : α → Asked τ → Prop} {E : ε → Asked τ → Prop} : Triple (within view put p) s Q E ↔
      Triple p ⟨view s.state, s.asked⟩ (fun a s' => Q a ⟨put s.state s'.state, s'.asked⟩)
        fun e s' => E e ⟨put s.state s'.state, s'.asked⟩ := by
  unfold Triple within
  cases p ⟨view s.state, s.asked⟩ <;> exact Iff.rfl

theorem Triple.mono {Q' : α → Asked σ → Prop} {E' : ε → Asked σ → Prop} (h : Triple p s Q E)
    (hQ : ∀ a s', Q a s' → Q' a s') (hE : ∀ e s', E e s' → E' e s') : Triple p s Q' E' := by
  unfold Triple at *
  cases hp : p s with
  | ok a s' =>
    rw [hp] at h
    exact hQ a s' h
  | error e s' =>
    rw [hp] at h
    exact hE e s' h

theorem Triple.bind {p : Asks σ ε β} {f : β → Asks σ ε α} {R : β → Asked σ → Prop}
    (hp : Triple p s R E) (hf : ∀ b s', R b s' → Triple (f b) s' Q E) : Triple (p >>= f) s Q E :=
  (triple_bind p f).mpr (hp.mono hf fun _ _ h => h)

theorem Triple.of_ok (h : Triple p s Q E) (hp : p s = .ok a s') : Q a s' := by
  unfold Triple at h
  rwa [hp] at h

theorem Triple.returns (h : Triple p s Q fun _ _ => False) : ∃ a s', p s = .ok a s' ∧ Q a s' := by
  unfold Triple at h
  cases hp : p s with
  | ok a s' =>
    rw [hp] at h
    exact ⟨a, s', rfl, h⟩
  | error e s' =>
    rw [hp] at h
    exact h.elim

end

/-- A call that was made: the state it met, what it answered or raised, and the
state it left. -/
structure Event (κ σ ε α : Type) where
  call : κ
  before : Asked σ
  answer : Except ε α
  after : Asked σ

section
variable (perform : κ → Asks σ ε α)

def event (s : Asked σ) (c : κ) : Event κ σ ε α :=
  match perform c s with
  | .ok a s' => ⟨c, s, .ok a, s'⟩
  | .error e s' => ⟨c, s, .error e, s'⟩

def history (s : Asked σ) : List κ → List (Event κ σ ε α)
  | [] => []
  | c :: rest => event perform s c :: history (event perform s c).after rest

end

section
variable {perform : κ → Asks σ ε α} {I : List (Event κ σ ε α) → Asked σ → Prop}
  {V : List (Event κ σ ε α) → Event κ σ ε α → Prop}

/-- Every call keeps the invariant of the past, and is a valid one after it. -/
def Keeps (perform : κ → Asks σ ε α) (I : List (Event κ σ ε α) → Asked σ → Prop)
    (V : List (Event κ σ ε α) → Event κ σ ε α → Prop) : Prop :=
  ∀ past s c, I past s → Triple (perform c) s
    (fun a s' => I (past ++ [⟨c, s, .ok a, s'⟩]) s' ∧ V past ⟨c, s, .ok a, s'⟩)
    fun e s' => I (past ++ [⟨c, s, .error e, s'⟩]) s' ∧ V past ⟨c, s, .error e, s'⟩

theorem Keeps.event (h : Keeps perform I V) (hI : I past s) (c : κ) :
    I (past ++ [event perform s c]) (event perform s c).after ∧ V past (event perform s c) := by
  have hcall := h past s c hI
  unfold Triple at hcall
  unfold Asking.event
  cases hrun : perform c s <;> rw [hrun] at hcall <;> exact hcall

/-- From a state in which the invariant holds, every call of a history is valid. -/
theorem Keeps.history (h : Keeps perform I V) (hI : I past s) (calls : List κ)
    (hsplit : history perform s calls = pre ++ e :: post) : V (past ++ pre) e := by
  induction calls generalizing past pre s with
  | nil => simp [Asking.history] at hsplit
  | cons c rest ih =>
    obtain ⟨hnext, hvalid⟩ := h.event hI c
    rw [Asking.history] at hsplit
    cases pre with
    | nil =>
      rw [List.nil_append, List.cons.injEq] at hsplit
      rwa [List.append_nil, ← hsplit.1]
    | cons e' pre =>
      rw [List.cons_append, List.cons.injEq] at hsplit
      have hrest := ih hnext hsplit.2
      rwa [hsplit.1, List.append_assoc] at hrest

end

end Asking
