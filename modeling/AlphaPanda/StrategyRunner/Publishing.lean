import AlphaPanda.StrategyRunner.Service

/-!
# What a market tick requires

The events a tick requires, one for each broker of each strategy that
signalled, and the pattern of failures under which the handler publishes them
all. Whatever fails, it goes on with the next strategy.
-/

namespace AlphaPanda.StrategyRunner

open Coroutine Strategies

def published (log : List (Op × Option Exc)) : List Record :=
  log.filterMap fun
    | (.send r, none) => some r
    | _ => none

/-- The events of one strategy, each with why it cannot be built, if it
cannot. -/
def requiredFor (svc : Service) (tick : MarketTick) (strategyId : String) (config : StrategyConfig) :
    Except Exc (Option SignalResult) → List (Except Exc Record)
  | .ok (some r) =>
    match signalTypeOf r.signalType with
    | none => []
    | some side => (targets svc config).map fun broker =>
      (tradingSignal strategyId tick side r).map (signalRecord · broker strategyId)
  | _ => []

def afterMetrics (as : List (Option Exc)) : List (Option Exc) :=
  if as.headD none = none then as.drop 2 else as.drop 1

def afterEvents : ℕ → List (Option Exc) → List (Option Exc)
  | 0, as => as
  | n + 1, as => afterEvents n (afterMetrics as.tail.tail)

/-- For each of `n` events there is a producer, and it takes the event. -/
def Delivers : ℕ → List (Option Exc) → Prop
  | 0, _ => True
  | n + 1, as =>
    as.headD none = none ∧ as.tail.headD none = none ∧ Delivers n (afterMetrics as.tail.tail)

/-- All the events can be built and are delivered. -/
def Meets (events : List (Except Exc Record)) (as : List (Option Exc)) : Prop :=
  (∀ r ∈ events, ∃ x, r = .ok x) ∧ Delivers events.length as

theorem afterEvents_add (n m : ℕ) (as : List (Option Exc)) :
    afterEvents (n + m) as = afterEvents m (afterEvents n as) := by
  induction n generalizing as with
  | zero => rw [Nat.zero_add, afterEvents]
  | succ n ih =>
    rw [Nat.succ_add, afterEvents, ih]
    rfl

theorem delivers_add (n m : ℕ) (as : List (Option Exc)) :
    Delivers (n + m) as ↔ Delivers n as ∧ Delivers m (afterEvents n as) := by
  induction n generalizing as with
  | zero => rw [Nat.zero_add, Delivers, true_and, afterEvents]
  | succ n ih =>
    rw [Nat.succ_add, Delivers, Delivers, ih, and_assoc, and_assoc]
    rfl

theorem meets_append {first second : List (Except Exc Record)} :
    Meets (first ++ second) as ↔ Meets first as ∧ Meets second (afterEvents first.length as) := by
  simp only [Meets, List.forall_mem_append, List.length_append, delivers_add]
  exact and_and_and_comm

-- ---------------------------------------------------------------------------
-- What is published
-- ---------------------------------------------------------------------------

/-- A part of a run publishes the events, or fewer. -/
structure Publishes (events : List (Except Exc Record)) (as : List (Option Exc))
    (log log' : List (Op × Option Exc)) (rest : List (Option Exc)) : Prop where
  all : Meets events as → (published log').map Except.ok = (published log).map Except.ok ++ events ∧
    rest = afterEvents events.length as
  fewer : ¬Meets events as → (published log').length < (published log).length + events.length

theorem Publishes.length_le (h : Publishes events as log log' rest) :
    (published log').length ≤ (published log).length + events.length := by
  by_cases hmeets : Meets events as
  · have hall := congrArg List.length (h.all hmeets).1
    simp only [List.length_map, List.length_append] at hall
    exact hall.le
  · exact (h.fewer hmeets).le

theorem Publishes.append (h : Publishes first as log log' rest)
    (h' : Publishes second rest log' log'' rest') :
    Publishes (first ++ second) as log log'' rest' := by
  constructor
  · intro hmeets
    obtain ⟨hfirst, hsecond⟩ := meets_append.mp hmeets
    obtain ⟨hlog, hrest⟩ := h.all hfirst
    obtain ⟨hlog', hrest'⟩ := h'.all (hrest ▸ hsecond)
    refine ⟨by rw [hlog', hlog, List.append_assoc], ?_⟩
    rw [hrest', hrest, List.length_append, afterEvents_add]
  · intro hmeets
    have hle := h.length_le
    have hle' := h'.length_le
    rw [List.length_append]
    by_cases hfirst : Meets first as
    · have hsecond : ¬Meets second rest := by
        rw [(h.all hfirst).2]
        exact fun hsecond => hmeets (meets_append.mpr ⟨hfirst, hsecond⟩)
      have hlt := h'.fewer hsecond
      omega
    · have hlt := h.fewer hfirst
      omega

theorem publishes_invalid (hevents : ∀ r ∈ events, ∃ e, r = .error e) :
    Publishes events as log log as := by
  constructor
  · intro hmeets
    cases events with
    | nil => exact ⟨(List.append_nil _).symm, rfl⟩
    | cons r rest =>
      obtain ⟨e, he⟩ := hevents r List.mem_cons_self
      obtain ⟨x, hx⟩ := hmeets.1 r List.mem_cons_self
      cases he.symm.trans hx
  · intro hmeets
    cases events with
    | nil => exact absurd ⟨List.forall_mem_nil _, trivial⟩ hmeets
    | cons r rest =>
      rw [List.length_cons]
      omega

theorem publishes_nothing : Publishes [] as log log as := publishes_invalid (List.forall_mem_nil _)

section
variable {svc : Service} {as : List (Option Exc)}

theorem validateBrokerTopicPair_signalsRaw (broker : String) :
    validateBrokerTopicPair (TopicMap.mk broker).signalsRaw broker := by
  have hprefix : (broker ++ ".").toList <+: (broker ++ ".signals.raw").toList := by
    simp only [String.toList_append]
    exact (List.prefix_append_right_inj _).mpr ⟨"signals.raw".toList, rfl⟩
  rw [validateBrokerTopicPair, TopicMap.signalsRaw, List.isPrefixOf_iff_prefix.mpr hprefix,
    Bool.true_or]

theorem recordMetrics_exec (signal : TradingSignal) (broker strategyId : String)
    (as : List (Option Exc)) (w : World (State ρ) Op Exc) :
    published ((recordMetrics signal broker strategyId).exec as w).world.log = published w.log ∧
      ((recordMetrics signal broker strategyId).exec as w).rest = afterMetrics as := by
  rcases as with _ | ⟨_ | e, _ | ⟨_ | e', as⟩⟩ <;>
    simp [recordMetrics, World.record, published, afterMetrics]

theorem emitSignal_publishes (hbroker : broker ∈ svc.activeBrokers) (signal : TradingSignal)
    (strategyId : String) (as : List (Option Exc)) (w : World (State ρ) Op Exc) :
    Publishes [.ok (signalRecord signal broker strategyId)] as w.log
      ((emitSignal svc signal broker strategyId).exec as w).world.log
      ((emitSignal svc signal broker strategyId).exec as w).rest := by
  have hmeets : Meets [.ok (signalRecord signal broker strategyId)] as ↔
      as.headD none = none ∧ as.tail.headD none = none := by
    simp [Meets, Delivers]
  rw [emitSignal, if_neg (not_not.mpr hbroker)]
  simp only [validateBrokerTopicPair_signalsRaw, Bool.not_true, Bool.false_eq_true, if_false]
  rw [exec_bind, exec_perform]
  rcases hproducer : as.headD none with _ | e
  · simp only [Outcome.andThen_ok]
    rw [exec_bind, exec_perform]
    rcases hsend : as.tail.headD none with _ | e
    · simp only [Outcome.andThen_ok]
      obtain ⟨hlog, hrest⟩ := recordMetrics_exec signal broker strategyId as.tail.tail
        ((w.record .getProducer none).record (.send (signalRecord signal broker strategyId)) none)
      constructor
      · intro _
        rw [hlog, hrest]
        simp [World.record, published, afterEvents]
      · intro h
        exact absurd (hmeets.mpr ⟨hproducer, hsend⟩) h
    · constructor
      · intro h
        cases hsend.symm.trans (hmeets.mp h).2
      · intro _
        simp [World.record, published]
  · constructor
    · intro h
      cases hproducer.symm.trans (hmeets.mp h).1
    · intro _
      simp [World.record, published]

theorem gather_cons_exec (p : Prog σ ω ε Unit) (ps : List (Prog σ ω ε Unit)) (as : List (Option ε))
    (w : World σ ω ε) :
    ((gather (p :: ps)).exec as w).world =
        ((gather ps).exec (p.exec as w).rest (p.exec as w).world).world ∧
      ((gather (p :: ps)).exec as w).rest =
        ((gather ps).exec (p.exec as w).rest (p.exec as w).world).rest := by
  simp only [gather, exec_bind, exec_tryCatch]
  rcases p.exec as w with ⟨e | a, w', as'⟩
  · simp
  · simp

theorem gather_publishes {brokers : List String} (hbrokers : ∀ b ∈ brokers, b ∈ svc.activeBrokers)
    (signal : TradingSignal) (strategyId : String) (as : List (Option Exc))
    (w : World (State ρ) Op Exc) :
    Publishes (brokers.map fun b => .ok (signalRecord signal b strategyId)) as w.log
      ((gather (brokers.map fun b => emitSignal svc signal b strategyId)).exec as w).world.log
      ((gather (brokers.map fun b => emitSignal svc signal b strategyId)).exec as w).rest := by
  induction brokers generalizing as w with
  | nil => exact publishes_nothing
  | cons b brokers ih =>
    have hb := emitSignal_publishes (hbrokers b List.mem_cons_self) signal strategyId as w
    have hrest := ih (fun b hb => hbrokers b (List.mem_cons_of_mem _ hb))
      ((emitSignal svc signal b strategyId).exec as w).rest
      ((emitSignal svc signal b strategyId).exec as w).world
    obtain ⟨hworld, hanswers⟩ := gather_cons_exec (emitSignal svc signal b strategyId)
      (brokers.map fun b => emitSignal svc signal b strategyId) as w
    rw [List.map_cons, List.map_cons, hworld, hanswers]
    exact hb.append hrest

theorem emitResult_publishes (tick : MarketTick) (strategyId : String) (config : StrategyConfig)
    (r : SignalResult) (as : List (Option Exc)) (w : World (State ρ) Op Exc) :
    Publishes (requiredFor svc tick strategyId config (.ok (some r))) as w.log
      ((emitResult svc tick strategyId config r).exec as w).world.log
      ((emitResult svc tick strategyId config r).exec as w).rest := by
  simp only [requiredFor, emitResult]
  rcases signalTypeOf r.signalType with _ | side
  · exact publishes_nothing
  · dsimp only
    rcases tradingSignal strategyId tick side r with e | signal
    · refine publishes_invalid fun x hx => ?_
      obtain ⟨b, -, rfl⟩ := List.mem_map.mp hx
      exact ⟨e, rfl⟩
    · exact gather_publishes (fun b hb => of_decide_eq_true (List.mem_filter.mp hb).2) signal
        strategyId as w

-- ---------------------------------------------------------------------------
-- The loop over the strategies
-- ---------------------------------------------------------------------------

theorem gather_keeps {ps : List (Prog σ ω ε Unit)} (h : ∀ p ∈ ps, p.Keeps id) :
    (gather ps).Keeps id := by
  induction ps with
  | nil => exact leaves_pure
  | cons p ps ih =>
    have hps := ih fun p hp => h p (List.mem_cons_of_mem _ hp)
    refine leaves_bind (leaves_tryCatch (h p List.mem_cons_self) fun e => ?_) fun _ => hps
    exact leaves_bind (leaves_suppress hps) fun _ => leaves_throw

theorem emitSignal_keeps (signal : TradingSignal) (broker strategyId : String) :
    (emitSignal svc signal broker strategyId : Handler ρ Unit).Keeps id := by
  unfold emitSignal
  split
  · exact leaves_throw
  · dsimp only
    split
    · exact leaves_throw
    · refine leaves_bind keeps_perform fun _ => leaves_bind keeps_perform fun _ => ?_
      exact leaves_suppress (leaves_bind keeps_perform fun _ => keeps_perform)

theorem emitResult_keeps (tick : MarketTick) (strategyId : String) (config : StrategyConfig)
    (r : SignalResult) : (emitResult svc tick strategyId config r : Handler ρ Unit).Keeps id := by
  unfold emitResult
  split
  · exact leaves_pure
  · split
    · exact leaves_throw
    · refine gather_keeps fun p hp => ?_
      obtain ⟨b, -, rfl⟩ := List.mem_map.mp hp
      exact emitSignal_keeps _ b strategyId

/-- A strategy that is processed moves on, whatever is emitted for it. -/
theorem processStrategy_publishes (tick : MarketTick) (strategyId : String) (as : List (Option Exc))
    (w : World (State ρ) Op Exc) (hsome : w.st.get? strategyId = some executor) :
    Publishes (requiredFor svc tick strategyId executor.config (executor.processTick tick).1) as w.log
        ((processStrategy svc tick strategyId).exec as w).world.log
        ((processStrategy svc tick strategyId).exec as w).rest ∧
      ((processStrategy svc tick strategyId).exec as w).world.st =
        w.st.set strategyId (executor.processTick tick).2 := by
  simp only [processStrategy, exec_bind, exec_get, Outcome.andThen_ok, hsome, exec_set]
  rcases (executor.processTick tick).1 with e | _ | r
  · exact ⟨publishes_nothing, rfl⟩
  · exact ⟨publishes_nothing, rfl⟩
  · constructor
    · exact emitResult_publishes tick strategyId executor.config r as
        ⟨w.st.set strategyId (executor.processTick tick).2, w.log⟩
    · exact (emitResult_keeps tick strategyId executor.config r).eq as
        ⟨w.st.set strategyId (executor.processTick tick).2, w.log⟩

end

end AlphaPanda.StrategyRunner
