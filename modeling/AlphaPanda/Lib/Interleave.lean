import AlphaPanda.Lib.Coroutine
import Mathlib.Data.List.Induction
import Mathlib.Logic.Function.Basic
import Mathlib.Logic.Relation

/-!
# Interleaved coroutines

One event loop serving several consumers `ι`. Each consumer handles one
message at a time; while its handler is suspended at an await the others run.

`Prog.Meets` is a rely-guarantee judgement: between two awaits the coroutine
changes the world only as its guarantee says, and at an await it relies on
the other consumers having changed the world only as its rely says.
`System.Guarantees` puts the judgements of all handlers together: every step of
a run keeps the guarantee of the message it serves, and an invariant that the
guarantees keep holds in every reachable configuration.
-/

namespace Coroutine

-- ---------------------------------------------------------------------------
-- The judgement
-- ---------------------------------------------------------------------------

/-- `p` run from `w`, its uninterrupted stretch begun at `w₀`: at each await
the stretch is within `G`; whatever `R` allows happens while it waits; at the
end `Q` holds of the last stretch. -/
def Prog.Meets (R G : World σ ω ε → World σ ω ε → Prop) :
    Prog σ ω ε α → (Except ε α → World σ ω ε → World σ ω ε → Prop) →
      World σ ω ε → World σ ω ε → Prop
  | .ret a, Q, w₀, w => Q (.ok a) w₀ w
  | .raise e, Q, w₀, w => Q (.error e) w₀ w
  | .get k, Q, w₀, w => (k w.st).Meets R G Q w₀ w
  | .set s k, Q, w₀, w => k.Meets R G Q w₀ { w with st := s }
  | .await op k, Q, w₀, w =>
    G w₀ w ∧ ∀ w', R w w' → ∀ r, (k r).Meets R G Q w' (w'.record op r)

section
variable {R G : World σ ω ε → World σ ω ε → Prop} {w₀ w : World σ ω ε}

@[simp] theorem meets_pure {Q : Except ε α → World σ ω ε → World σ ω ε → Prop} :
    (pure a : Prog σ ω ε α).Meets R G Q w₀ w ↔ Q (.ok a) w₀ w := Iff.rfl

@[simp] theorem meets_throw {Q : Except ε α → World σ ω ε → World σ ω ε → Prop} :
    (throw e : Prog σ ω ε α).Meets R G Q w₀ w ↔ Q (.error e) w₀ w := Iff.rfl

@[simp] theorem meets_get {Q : Except ε σ → World σ ω ε → World σ ω ε → Prop} :
    (get : Prog σ ω ε σ).Meets R G Q w₀ w ↔ Q (.ok w.st) w₀ w := Iff.rfl

@[simp] theorem meets_set {Q : Except ε PUnit → World σ ω ε → World σ ω ε → Prop} :
    (set s : Prog σ ω ε PUnit).Meets R G Q w₀ w ↔ Q (.ok ⟨⟩) w₀ { w with st := s } := Iff.rfl

@[simp] theorem meets_modify {Q : Except ε PUnit → World σ ω ε → World σ ω ε → Prop} :
    (modify f : Prog σ ω ε PUnit).Meets R G Q w₀ w ↔
      Q (.ok ⟨⟩) w₀ { w with st := f w.st } := Iff.rfl

@[simp] theorem meets_bind {Q : Except ε β → World σ ω ε → World σ ω ε → Prop}
    (p : Prog σ ω ε α) (f : α → Prog σ ω ε β) :
    (p >>= f).Meets R G Q w₀ w ↔ p.Meets R G
      (fun r w₀ w => match r with
        | .ok a => (f a).Meets R G Q w₀ w
        | .error e => Q (.error e) w₀ w) w₀ w := by
  change (p.bind f).Meets R G Q w₀ w ↔ _
  induction p generalizing w₀ w with
  | ret | raise => rfl
  | get k ih => exact ih _
  | set s k ih => exact ih
  | await op k ih =>
    simp only [Prog.bind, Prog.Meets]
    exact and_congr_right fun _ => forall_congr' fun _ => forall_congr' fun _ =>
      forall_congr' fun r => ih r

@[simp] theorem meets_tryCatch {Q : Except ε α → World σ ω ε → World σ ω ε → Prop}
    (p : Prog σ ω ε α) (h : ε → Prog σ ω ε α) :
    (tryCatch p h).Meets R G Q w₀ w ↔ p.Meets R G
      (fun r w₀ w => match r with
        | .ok a => Q (.ok a) w₀ w
        | .error e => (h e).Meets R G Q w₀ w) w₀ w := by
  change (p.tryCatch h).Meets R G Q w₀ w ↔ _
  induction p generalizing w₀ w with
  | ret | raise => rfl
  | get k ih => exact ih _
  | set s k ih => exact ih
  | await op k ih =>
    simp only [Prog.tryCatch, Prog.Meets]
    exact and_congr_right fun _ => forall_congr' fun _ => forall_congr' fun _ =>
      forall_congr' fun r => ih r

@[simp] theorem meets_perform {Q : Except ε Unit → World σ ω ε → World σ ω ε → Prop}
    (op : ω) : (Prog.perform op : Prog σ ω ε Unit).Meets R G Q w₀ w ↔
      G w₀ w ∧ ∀ w', R w w' → Q (.ok ()) w' (w'.record op none) ∧
        ∀ e, Q (.error e) w' (w'.record op (some e)) := by
  simp only [Prog.perform, Prog.Meets]
  refine and_congr_right fun _ => forall_congr' fun w' => forall_congr' fun _ => ⟨?_, ?_⟩
  · exact fun h => ⟨h none, fun e => h (some e)⟩
  · rintro ⟨hok, herr⟩ (_ | e)
    · exact hok
    · exact herr e

theorem Prog.Meets.weaken {G' : World σ ω ε → World σ ω ε → Prop}
    {Q Q' : Except ε α → World σ ω ε → World σ ω ε → Prop} {p : Prog σ ω ε α}
    (h : p.Meets R G Q w₀ w) (hG : ∀ w₀ w, G w₀ w → G' w₀ w)
    (hQ : ∀ r w₀ w, Q r w₀ w → Q' r w₀ w) : p.Meets R G' Q' w₀ w := by
  induction p generalizing w₀ w with
  | ret | raise => exact hQ _ _ _ h
  | get k ih => exact ih _ h
  | set s k ih => exact ih h
  | await op k ih => exact ⟨hG _ _ h.1, fun w' hw r => ih r (h.2 w' hw r)⟩

theorem Prog.Meets.mono {Q Q' : Except ε α → World σ ω ε → World σ ω ε → Prop}
    {p : Prog σ ω ε α} (h : p.Meets R G Q w₀ w)
    (hQ : ∀ r w₀ w, Q r w₀ w → Q' r w₀ w) : p.Meets R G Q' w₀ w :=
  h.weaken (fun _ _ => id) hQ

/-- What both the coroutine and the others keep holds wherever a stretch
begins. -/
theorem Prog.Meets.stable {Q : Except ε α → World σ ω ε → World σ ω ε → Prop}
    {P : World σ ω ε → Prop} {p : Prog σ ω ε α} (h : p.Meets R G Q w₀ w)
    (hR : ∀ w w', P w → R w w' → P w') (hG : ∀ w w', P w → G w w' → P w') (h0 : P w₀) :
    p.Meets R G (fun r w₀ w => Q r w₀ w ∧ P w₀) w₀ w := by
  induction p generalizing w₀ w with
  | ret | raise => exact ⟨h, h0⟩
  | get k ih => exact ih _ h h0
  | set s k ih => exact ih h h0
  | await op k ih =>
    exact ⟨h.1, fun w' hw r => ih r (h.2 w' hw r) (hR w w' (hG w₀ w h0 h.1) hw)⟩

end

theorem Prog.Meets.exec {G : World σ ω ε → World σ ω ε → Prop}
    {Q : Except ε α → World σ ω ε → Prop} {p : Prog σ ω ε α} {w₀ w : World σ ω ε}
    (h : p.Meets (fun w w' => w' = w) G (fun r _ w => Q r w) w₀ w)
    (as : List (Option ε)) : Q (p.exec as w).result (p.exec as w).world := by
  induction p generalizing w₀ w as with
  | ret | raise => exact h
  | get k ih => exact ih _ h as
  | set s k ih => exact ih h as
  | await op k ih => exact ih _ (h.2 w rfl _) as.tail

/-- Run alone, each log on the way to the end is that of a world in which `P`
holds, if `P` holds at every await and at the end. -/
theorem Prog.Meets.always {P : World σ ω ε → Prop} {p : Prog σ ω ε α} {w₀ w : World σ ω ε}
    (h : p.Meets (fun w w' => w' = w) (fun _ => P) (fun _ _ => P) w₀ w) (as : List (Option ε))
    (hl : w.log <+: l) (hl' : l <+: (p.exec as w).world.log) : ∃ s, P ⟨s, l⟩ := by
  induction p generalizing w₀ w as with
  | ret | raise =>
    obtain rfl := hl.eq_of_length_le hl'.length_le
    exact ⟨w.st, h⟩
  | get k ih => exact ih _ h as hl hl'
  | set s k ih => exact ih h as hl hl'
  | await op k ih =>
    rcases Nat.eq_or_lt_of_le hl.length_le with hlen | hlen
    · obtain rfl := hl.eq_of_length hlen
      exact ⟨w.st, h.1⟩
    · have hnext : (w.record op (as.headD none)).log <+: ((Prog.await op k).exec as w).world.log :=
        ⟨_, (Prog.exec_log_eq (k (as.headD none)) as.tail (w.record op (as.headD none))).symm⟩
      refine ih _ (h.2 w rfl _) as.tail (List.prefix_of_prefix_length_le hnext hl' ?_) hl'
      rw [World.record, List.length_append]
      exact hlen

def Task.Meets (R G : World σ ω ε → World σ ω ε → Prop) (t : Task σ ω ε α)
    (Q : Except ε α → World σ ω ε → World σ ω ε → Prop) (w : World σ ω ε) : Prop :=
  ∀ w', R w w' → ∀ r, (t.resume r).Meets R G Q w' (w'.record t.op r)

theorem Prog.Meets.advance {R G : World σ ω ε → World σ ω ε → Prop}
    {Q : Except ε α → World σ ω ε → World σ ω ε → Prop} {p : Prog σ ω ε α}
    {w₀ w : World σ ω ε} (h : p.Meets R G Q w₀ w) :
    match p.advance w.st with
    | (s, .inl r) => Q r w₀ { w with st := s }
    | (s, .inr t) => G w₀ { w with st := s } ∧ t.Meets R G Q { w with st := s } := by
  induction p generalizing w with
  | ret | raise => exact h
  | get k ih => exact ih _ h
  | set s k ih => exact ih (w := { w with st := s }) h
  | await op k => exact h

-- ---------------------------------------------------------------------------
-- The event loop
-- ---------------------------------------------------------------------------

/-- The handlers of an event loop: which consumer takes a message, and the
coroutine that handles it. -/
structure System (ι μ σ ω ε : Type) where
  consumer : μ → ι
  handler : μ → Prog σ ω ε Unit

/-- A configuration: the world, and for each consumer the handler it is in
the middle of, if any. -/
structure Config (ι σ ω ε : Type) where
  world : World σ ω ε
  task : ι → Option (Task σ ω ε Unit)

def Config.start (s : σ) : Config ι σ ω ε := ⟨.start s, fun _ => none⟩

def Config.Quiescent (c : Config ι σ ω ε) : Prop := ∀ i, c.task i = none

inductive Act (ι μ ε : Type) where
  /-- A consumer that is idle begins to handle a message. -/
  | deliver (m : μ)
  /-- The operation a consumer waits for is answered. -/
  | resume (i : ι) (r : Option ε)

section
variable [DecidableEq ι]

def Config.continue (w : World σ ω ε) (task : ι → Option (Task σ ω ε Unit)) (i : ι)
    (p : Prog σ ω ε Unit) : Config ι σ ω ε :=
  match p.advance w.st with
  | (s, .inl _) => ⟨{ w with st := s }, Function.update task i none⟩
  | (s, .inr t) => ⟨{ w with st := s }, Function.update task i (some t)⟩

theorem Config.continue_task_of_ne {w : World σ ω ε} {task : ι → Option (Task σ ω ε Unit)}
    {p : Prog σ ω ε Unit} (h : j ≠ i) : (Config.continue w task i p).task j = task j := by
  unfold Config.continue
  split <;> simp [Function.update_of_ne h]

theorem Prog.Meets.continue {R G : World σ ω ε → World σ ω ε → Prop}
    {p : Prog σ ω ε Unit} {w₀ w : World σ ω ε} (h : p.Meets R G (fun _ => G) w₀ w)
    (task : ι → Option (Task σ ω ε Unit)) :
    G w₀ (Config.continue w task i p).world ∧
      ∀ t, (Config.continue w task i p).task i = some t →
        t.Meets R G (fun _ => G) (Config.continue w task i p).world := by
  have hadv := h.advance
  unfold Config.continue
  rcases hres : p.advance w.st with ⟨s, r | t⟩
  · rw [hres] at hadv
    exact ⟨hadv, by simp⟩
  · rw [hres] at hadv
    refine ⟨hadv.1, fun t' ht' => ?_⟩
    simp only [Function.update_self, Option.some.injEq] at ht'
    exact ht' ▸ hadv.2

def System.step (S : System ι μ σ ω ε) (c : Config ι σ ω ε) :
    Act ι μ ε → Option (Config ι σ ω ε)
  | .deliver m =>
    match c.task (S.consumer m) with
    | none => some (.continue c.world c.task (S.consumer m) (S.handler m))
    | some _ => none
  | .resume i r =>
    match c.task i with
    | none => none
    | some t => some (.continue (c.world.record t.op r) c.task i (t.resume r))

def System.run (S : System ι μ σ ω ε) (c : Config ι σ ω ε) :
    List (Act ι μ ε) → Option (Config ι σ ω ε)
  | [] => some c
  | a :: as => (S.step c a).bind fun c' => S.run c' as

/-- The configurations reached by steps that all satisfy `P`. -/
def System.Reaches (S : System ι μ σ ω ε) (P : Config ι σ ω ε → Act ι μ ε → Prop) :
    Config ι σ ω ε → Config ι σ ω ε → Prop :=
  Relation.ReflTransGen fun c c' => ∃ a, P c a ∧ S.step c a = some c'

def System.Runs (S : System ι μ σ ω ε) (P : Config ι σ ω ε → Act ι μ ε → Prop)
    (c : Config ι σ ω ε) : List (Act ι μ ε) → Prop
  | [] => True
  | a :: as => P c a ∧ ∀ c', S.step c a = some c' → S.Runs P c' as

theorem System.runs_of_forall {S : System ι μ σ ω ε} {P : Config ι σ ω ε → Act ι μ ε → Prop}
    {c : Config ι σ ω ε} {as : List (Act ι μ ε)} (h : ∀ a ∈ as, ∀ c, P c a) : S.Runs P c as := by
  induction as generalizing c with
  | nil => trivial
  | cons a as ih => exact ⟨h a (by simp) c, fun c' _ => ih fun b hb => h b (by simp [hb])⟩

theorem System.reaches_of_run {S : System ι μ σ ω ε} {P : Config ι σ ω ε → Act ι μ ε → Prop}
    {c c' : Config ι σ ω ε} {as : List (Act ι μ ε)} (h : S.run c as = some c')
    (hP : S.Runs P c as) : S.Reaches P c c' := by
  induction as generalizing c with
  | nil => cases h; exact .refl
  | cons a as ih =>
    obtain ⟨c₁, hstep, hrun⟩ := Option.bind_eq_some_iff.mp h
    exact .head ⟨a, hP.1, hstep⟩ (ih hrun (hP.2 c₁ hstep))

theorem System.run_concat {S : System ι μ σ ω ε} (c : Config ι σ ω ε) (as : List (Act ι μ ε))
    (a : Act ι μ ε) : S.run c (as ++ [a]) = (S.run c as).bind (S.step · a) := by
  induction as generalizing c with
  | nil => simp [System.run]
  | cons b as ih => simp [System.run, ih, Option.bind_assoc]

theorem System.runs_concat {S : System ι μ σ ω ε} {P : Config ι σ ω ε → Act ι μ ε → Prop}
    {c : Config ι σ ω ε} {as : List (Act ι μ ε)} :
    S.Runs P c (as ++ [a]) ↔ S.Runs P c as ∧ ∀ c', S.run c as = some c' → P c' a := by
  induction as generalizing c with
  | nil => simp [System.Runs, System.run]
  | cons b as ih =>
    simp only [List.cons_append, System.Runs, System.run, ih, Option.bind_eq_some_iff]
    constructor
    · rintro ⟨hb, hrest⟩
      refine ⟨⟨hb, fun c₁ hc₁ => (hrest c₁ hc₁).1⟩, ?_⟩
      rintro c' ⟨c₁, hc₁, hrun⟩
      exact (hrest c₁ hc₁).2 c' hrun
    · rintro ⟨⟨hb, hrest⟩, hlast⟩
      exact ⟨hb, fun c₁ hc₁ => ⟨hrest c₁ hc₁, fun c' hrun => hlast c' ⟨c₁, hc₁, hrun⟩⟩⟩

theorem System.run_of_reaches {S : System ι μ σ ω ε} {P : Config ι σ ω ε → Act ι μ ε → Prop}
    {c c' : Config ι σ ω ε} (h : S.Reaches P c c') :
    ∃ as, S.run c as = some c' ∧ S.Runs P c as := by
  induction h with
  | refl => exact ⟨[], rfl, trivial⟩
  | @tail c₁ c₂ _ hstep ih =>
    obtain ⟨a, hP, hstep⟩ := hstep
    obtain ⟨as, hrun, hruns⟩ := ih
    refine ⟨as ++ [a], ?_, ?_⟩
    · rw [System.run_concat, hrun]
      exact hstep
    · rw [System.runs_concat]
      refine ⟨hruns, fun c' hc' => ?_⟩
      obtain rfl : c₁ = c' := Option.some.inj (hrun.symm.trans hc')
      exact hP

-- ---------------------------------------------------------------------------
-- The message a step serves
-- ---------------------------------------------------------------------------

def System.current (S : System ι μ σ ω ε) (as : List (Act ι μ ε)) (i : ι) : Option μ :=
  (as.filterMap fun
    | .deliver m => if S.consumer m = i then some m else none
    | .resume .. => none).getLast?

def System.serving (S : System ι μ σ ω ε) (as : List (Act ι μ ε)) : Act ι μ ε → Option μ
  | .deliver m => some m
  | .resume i _ => S.current as i

theorem System.current_deliver (S : System ι μ σ ω ε) (as : List (Act ι μ ε)) (m : μ) :
    S.current (as ++ [.deliver m]) (S.consumer m) = some m := by
  simp [System.current, List.filterMap_append]

theorem System.current_deliver_of_ne {S : System ι μ σ ω ε} (h : S.consumer m ≠ i)
    (as : List (Act ι μ ε)) : S.current (as ++ [.deliver m]) i = S.current as i := by
  simp [System.current, List.filterMap_append, h]

theorem System.current_resume (S : System ι μ σ ω ε) (as : List (Act ι μ ε)) (j : ι)
    (r : Option ε) (i : ι) : S.current (as ++ [.resume j r]) i = S.current as i := by
  simp [System.current, List.filterMap_append]

/-- The premises of the rules below, of the relies `R` and guarantees `G` of
the messages and an invariant `I`: what one consumer guarantees, the others
may rely on; a rely is transitive; each handler, begun in a step that
satisfies `P` and in a world that satisfies `I`, meets its guarantee. -/
structure System.Guarantees (S : System ι μ σ ω ε) (P : Config ι σ ω ε → Act ι μ ε → Prop)
    (R G : μ → World σ ω ε → World σ ω ε → Prop) (I : World σ ω ε → Prop) : Prop where
  rely : ∀ m m', S.consumer m ≠ S.consumer m' → ∀ w w', I w → G m w w' → R m' w w'
  trans : ∀ m w w' w'', R m w w' → R m w' w'' → R m w w''
  keep : ∀ m w w', I w → G m w w' → I w'
  refl : ∀ m w, R m w w
  meets : ∀ c m, I c.world → c.task (S.consumer m) = none → P c (.deliver m) →
    (S.handler m).Meets (R m) (G m) (fun _ => G m) c.world c.world

/-- Each suspended handler is that of the message its consumer took last, and
still meets its guarantee. -/
def System.Serves (S : System ι μ σ ω ε) (R G : μ → World σ ω ε → World σ ω ε → Prop)
    (as : List (Act ι μ ε)) (c : Config ι σ ω ε) : Prop :=
  ∀ i t, c.task i = some t → ∃ m, S.current as i = some m ∧ S.consumer m = i ∧
    t.Meets (R m) (G m) (fun _ => G m) c.world

section
variable {S : System ι μ σ ω ε} {P : Config ι σ ω ε → Act ι μ ε → Prop}
  {R G : μ → World σ ω ε → World σ ω ε → Prop} {I : World σ ω ε → Prop}
  {c c' : Config ι σ ω ε} {as : List (Act ι μ ε)}

theorem System.Guarantees.continue (h : S.Guarantees P R G I) (hI : I c.world)
    (hserves : S.Serves R G as c) {as' : List (Act ι μ ε)} {p : Prog σ ω ε Unit} {w : World σ ω ε}
    (hp : p.Meets (R m) (G m) (fun _ => G m) c.world w)
    (hself : S.current as' (S.consumer m) = some m)
    (hothers : ∀ j, j ≠ S.consumer m → S.current as' j = S.current as j) :
    G m c.world (Config.continue w c.task (S.consumer m) p).world ∧
      S.Serves R G as' (Config.continue w c.task (S.consumer m) p) := by
  obtain ⟨hG, hnext⟩ := hp.continue c.task
  refine ⟨hG, fun j t ht => ?_⟩
  by_cases hj : j = S.consumer m
  · subst hj
    exact ⟨m, hself, rfl, hnext t ht⟩
  · rw [Config.continue_task_of_ne hj] at ht
    obtain ⟨m', hm', rfl, hmeets⟩ := hserves j t ht
    refine ⟨m', (hothers _ hj).trans hm', rfl, fun w' hw' => ?_⟩
    exact hmeets w' (h.trans m' _ _ _ (h.rely m m' (Ne.symm hj) _ _ hI hG) hw')

theorem System.Guarantees.step (h : S.Guarantees P R G I) (hI : I c.world)
    (hserves : S.Serves R G as c) (hP : P c a) (hstep : S.step c a = some c') :
    (∃ m, S.serving as a = some m ∧ G m c.world c'.world) ∧ S.Serves R G (as ++ [a]) c' := by
  cases a with
  | deliver m =>
    simp only [System.step] at hstep
    split at hstep
    · rename_i hidle
      cases hstep
      obtain ⟨hG, hnext⟩ := h.continue hI hserves (h.meets c m hI hidle hP)
        (S.current_deliver as m) fun j hj => System.current_deliver_of_ne (Ne.symm hj) as
      exact ⟨⟨m, rfl, hG⟩, hnext⟩
    · cases hstep
  | resume i r =>
    simp only [System.step] at hstep
    split at hstep
    · cases hstep
    · rename_i t ht
      cases hstep
      obtain ⟨m, hm, rfl, hmeets⟩ := hserves i t ht
      obtain ⟨hG, hnext⟩ := h.continue hI hserves (hmeets c.world (h.refl m _) r)
        ((S.current_resume as _ r _).trans hm) fun j _ => S.current_resume as _ r j
      exact ⟨⟨m, hm, hG⟩, hnext⟩

theorem System.Guarantees.run (h : S.Guarantees P R G I) (h0 : I c.world) (hq : c.Quiescent)
    (hrun : S.run c as = some c') (hP : S.Runs P c as) : I c'.world ∧ S.Serves R G as c' := by
  induction as using List.reverseRecOn generalizing c' with
  | nil =>
    cases hrun
    exact ⟨h0, fun i t ht => by simp [hq i] at ht⟩
  | append_singleton as a ih =>
    rw [System.run_concat] at hrun
    obtain ⟨c₁, hrun, hstep⟩ := Option.bind_eq_some_iff.mp hrun
    obtain ⟨hP, hPa⟩ := System.runs_concat.mp hP
    obtain ⟨hI, hserves⟩ := ih hrun hP
    obtain ⟨⟨m, -, hG⟩, hnext⟩ := h.step hI hserves (hPa c₁ hrun) hstep
    exact ⟨h.keep m _ _ hI hG, hnext⟩

/-- An invariant that the guarantees keep holds throughout. -/
theorem System.invariant (h : S.Guarantees P R G I) (h0 : I c.world) (hq : c.Quiescent)
    (hreach : S.Reaches P c c') : I c'.world := by
  obtain ⟨as, hrun, hP⟩ := System.run_of_reaches hreach
  exact (h.run h0 hq hrun hP).1

theorem Prog.Meets.implies {p : Prog σ ω ε α} {w₀ w : World σ ω ε}
    (h : p.Meets (fun _ => I) (fun _ => I) (fun _ _ => I) w₀ w) :
    p.Meets (fun w w' => I w → I w') (fun w w' => I w → I w') (fun _ w w' => I w → I w') w₀ w := by
  induction p generalizing w₀ w with
  | ret | raise => exact fun _ => h
  | get k ih => exact ih _ h
  | set s k ih => exact ih h
  | await op k ih => exact ⟨fun _ => h.1, fun w' hw r => ih r (h.2 w' (hw h.1) r)⟩

theorem System.maintains
    (h : ∀ m w, I w → (S.handler m).Meets (fun _ => I) (fun _ => I) (fun _ _ => I) w w)
    (h0 : I c.world) (hq : c.Quiescent) (hreach : S.Reaches P c c') : I c'.world := by
  have hguarantees : S.Guarantees P (fun _ w w' => I w → I w') (fun _ w w' => I w → I w') I :=
    { rely := fun _ _ _ _ _ _ hG => hG
      trans := fun _ _ _ _ h₁ h₂ hI => h₂ (h₁ hI)
      keep := fun _ _ _ hI hG => hG hI
      refl := fun _ _ hI => hI
      meets := fun _ m hI _ _ => (h m _ hI).implies }
  exact System.invariant hguarantees h0 hq hreach

theorem System.Guarantees.step_within (h : S.Guarantees P R G I) (h0 : I c.world)
    (hq : c.Quiescent) (hP : S.Runs P c (as ++ [a])) (hrun : S.run c as = some c')
    (hstep : S.step c' a = some c'') :
    ∃ m, S.serving as a = some m ∧ G m c'.world c''.world := by
  obtain ⟨hP, hPa⟩ := System.runs_concat.mp hP
  obtain ⟨hI, hserves⟩ := h.run h0 hq hrun hP
  exact (h.step hI hserves (hPa c' hrun) hstep).1

end

end

end Coroutine
