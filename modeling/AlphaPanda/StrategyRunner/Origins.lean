import AlphaPanda.Lib.Confined
import AlphaPanda.StrategyRunner.Publishing
import AlphaPanda.Strategies.Isolation

/-!
# Where raw signals come from

Each raw signal is what a strategy, as it was loaded and fed with ticks that
the runner was given, returned for a tick of the signal's instrument. It is
published for brokers of the strategy's own list.
-/

namespace AlphaPanda.StrategyRunner

open Coroutine Strategies

/-- The records that are published for what a loaded strategy returned for a
tick, after some of the ticks before it. -/
inductive Asked (svc : Service) (loaded : State ρ) (ticks : List MarketTick) : Record → Prop
  | signal {result : SignalResult} (hloaded : loaded.get? strategyId = some executor)
    (hgiven : ∀ t ∈ tick :: earlier, t ∈ ticks)
    (hreturned : ((executor.feed earlier).processTick tick).1 = .ok (some result))
    (hside : signalTypeOf result.signalType = some side)
    (hsignal : tradingSignal strategyId tick side result = .ok signal)
    (hbroker : broker ∈ targets svc executor.config) :
    Asked svc loaded ticks (signalRecord signal broker strategyId)

/-- Each executor is the loaded one, fed with some of the ticks. -/
def Fed (loaded : State ρ) (ticks : List MarketTick) (s : State ρ) : Prop :=
  ∀ strategyId executor, s.get? strategyId = some executor → ∃ first earlier,
    loaded.get? strategyId = some first ∧ (∀ t ∈ earlier, t ∈ ticks) ∧ executor = first.feed earlier

def ticksIn (message : Streaming.Envelope Data) : List MarketTick :=
  match message.data with
  | .object _ (.ok tick) => [tick]
  | _ => []

section
variable {svc : Service} {loaded s : State ρ} {ticks ticks' : List MarketTick}

theorem Asked.mono (h : Asked svc loaded ticks r) (hsub : ∀ t ∈ ticks, t ∈ ticks') :
    Asked svc loaded ticks' r := by
  cases h with
  | signal hloaded hgiven hreturned hside hsignal hbroker =>
    exact .signal hloaded (fun t ht => hsub t (hgiven t ht)) hreturned hside hsignal hbroker

theorem Fed.mono (h : Fed loaded ticks s) (hsub : ∀ t ∈ ticks, t ∈ ticks') : Fed loaded ticks' s := by
  intro strategyId executor hget
  obtain ⟨first, earlier, hfirst, hearlier, rfl⟩ := h strategyId executor hget
  exact ⟨first, earlier, hfirst, fun t ht => hsub t (hearlier t ht), rfl⟩

theorem fed_loaded (loaded : State ρ) : Fed loaded ticks loaded :=
  fun _ executor hget => ⟨executor, [], hget, List.forall_mem_nil _, rfl⟩

theorem feed_config (e : StrategyExecutor ρ) (ticks : List MarketTick) :
    (e.feed ticks).config = e.config := by
  induction ticks using List.reverseRecOn with
  | nil => rfl
  | append_singleton ticks tick ih =>
    rw [StrategyExecutor.feed_concat, ← ih, StrategyExecutor.processTick]
    split <;> rfl

theorem Fed.processTick (h : Fed loaded ticks s) (htick : tick ∈ ticks)
    (hget : s.get? strategyId = some executor) :
    Fed loaded ticks (s.set strategyId (executor.processTick tick).2) := by
  obtain ⟨first, earlier, hfirst, hearlier, rfl⟩ := h strategyId executor hget
  intro other executor' hget'
  by_cases hid : other = strategyId
  · subst hid
    rw [Dict.get?_set_self] at hget'
    cases hget'
    refine ⟨first, earlier ++ [tick], hfirst, ?_, (StrategyExecutor.feed_concat ..).symm⟩
    exact List.forall_mem_append.mpr ⟨hearlier, List.forall_mem_singleton.mpr htick⟩
  · rw [Dict.get?_set_of_ne _ hid] at hget'
    exact h other executor' hget'

-- ---------------------------------------------------------------------------
-- Publishing
-- ---------------------------------------------------------------------------

def SendsOf (events : List (Except Exc Record)) (op : Op) : Prop := ∀ r, op = .send r → .ok r ∈ events

theorem gather_confined {P : ω → Prop} {ps : List (Prog σ ω ε Unit)} (h : ∀ p ∈ ps, p.Confined P) :
    (gather ps).Confined P := by
  induction ps with
  | nil => exact confined_pure
  | cons p ps ih =>
    have hps := ih fun p hp => h p (List.mem_cons_of_mem _ hp)
    refine confined_bind (confined_tryCatch (h p List.mem_cons_self) fun e => ?_) fun _ => hps
    exact confined_bind (confined_suppress hps) fun _ => confined_throw

theorem emitSignal_confined (h : .ok (signalRecord signal broker strategyId) ∈ events) :
    (emitSignal svc signal broker strategyId : Handler ρ Unit).Confined (SendsOf events) := by
  unfold emitSignal
  split
  · exact confined_throw
  dsimp only
  split
  · exact confined_throw
  refine confined_bind (confined_perform ?_) fun _ => confined_bind (confined_perform ?_) fun _ =>
    confined_suppress (confined_bind (confined_perform ?_) fun _ => confined_perform ?_)
  all_goals
    rintro r ⟨rfl⟩
  exact h

theorem emitResult_confined (tick : MarketTick) (strategyId : String) (config : StrategyConfig)
    (r : SignalResult) : (emitResult svc tick strategyId config r : Handler ρ Unit).Confined
      (SendsOf (requiredFor svc tick strategyId config (.ok (some r)))) := by
  simp only [requiredFor, emitResult]
  rcases signalTypeOf r.signalType with _ | side
  · exact confined_pure
  dsimp only
  rcases tradingSignal strategyId tick side r with e | signal
  · exact confined_throw
  refine gather_confined fun p hp => ?_
  obtain ⟨broker, hbroker, rfl⟩ := List.mem_map.mp hp
  exact emitSignal_confined (List.mem_map.mpr ⟨broker, hbroker, rfl⟩)

/-- What is required for a fed strategy was asked for by it. -/
theorem asked_of_required (h : Fed loaded ticks s) (htick : tick ∈ ticks)
    (hget : s.get? strategyId = some executor)
    (hr : .ok r ∈ requiredFor svc tick strategyId executor.config (executor.processTick tick).1) :
    Asked svc loaded ticks r := by
  obtain ⟨first, earlier, hfirst, hearlier, rfl⟩ := h strategyId executor hget
  rw [feed_config] at hr
  unfold requiredFor at hr
  split at hr
  · rename_i result hresult
    split at hr
    · cases hr
    · rename_i side hside
      obtain ⟨broker, hbroker, hrecord⟩ := List.mem_map.mp hr
      obtain ⟨signal, hsignal, rfl⟩ := map_ok.mp hrecord
      exact .signal hfirst (List.forall_mem_cons.mpr ⟨htick, hearlier⟩) hresult hside hsignal hbroker
  · cases hr

-- ---------------------------------------------------------------------------
-- The handler
-- ---------------------------------------------------------------------------

/-- The executors are fed with the ticks, and what is published they asked for. -/
structure Accounted (svc : Service) (loaded : State ρ) (ticks : List MarketTick)
    (w : World (State ρ) Op Exc) : Prop where
  fed : Fed loaded ticks w.st
  asked : ∀ r ∈ published w.log, Asked svc loaded ticks r

theorem published_grows {w w' : World (State ρ) Op Exc} (h : Grows (SendsOf events) w w')
    (hr : r ∈ published w'.log) : r ∈ published w.log ∨ .ok r ∈ events := by
  obtain ⟨l, hlog, hl⟩ := h
  rw [hlog, published, List.filterMap_append] at hr
  rcases List.mem_append.mp hr with hr | hr
  · exact .inl hr
  · obtain ⟨⟨op, answer⟩, hmem, hop⟩ := List.mem_filterMap.mp hr
    split at hop
    · rename_i heq
      cases heq
      cases hop
      exact .inr (hl _ hmem r rfl)
    · cases hop

theorem processStrategy_accounted (htick : tick ∈ ticks) (strategyId : String) (as : List (Option Exc))
    {w : World (State ρ) Op Exc} (h : Accounted svc loaded ticks w) :
    Accounted svc loaded ticks ((processStrategy svc tick strategyId).exec as w).world := by
  simp only [processStrategy, exec_bind, exec_get, Outcome.andThen_ok]
  rcases hget : w.st.get? strategyId with _ | executor
  · exact h
  have hfed := h.fed.processTick htick hget
  have hasked : ∀ r : Record, .ok r ∈ requiredFor svc tick strategyId executor.config
      (executor.processTick tick).1 → Asked svc loaded ticks r :=
    fun r hr => asked_of_required h.fed htick hget hr
  simp only [exec_bind, exec_set, Outcome.andThen_ok]
  generalize w.st.set strategyId (executor.processTick tick).2 = s' at hfed
  rcases hresult : (executor.processTick tick).1 with e | _ | result
  · exact ⟨hfed, h.asked⟩
  · exact ⟨hfed, h.asked⟩
  rw [hresult] at hasked
  have hkeeps :
      ((emitResult svc tick strategyId executor.config result).exec as ⟨s', w.log⟩).world.st = s' :=
    (emitResult_keeps tick strategyId executor.config result).eq as ⟨s', w.log⟩
  have hgrows : Grows (SendsOf (requiredFor svc tick strategyId executor.config (.ok (some result))))
      ⟨s', w.log⟩ ((emitResult svc tick strategyId executor.config result).exec as ⟨s', w.log⟩).world :=
    (emitResult_confined tick strategyId executor.config result).exec as ⟨s', w.log⟩
  constructor
  · dsimp only
    rw [hkeeps]
    exact hfed
  · intro r hr
    rcases published_grows hgrows hr with hr | hr
    · exact h.asked r hr
    · exact hasked r hr

theorem processStrategies_accounted (htick : tick ∈ ticks) (strategyIds : List String)
    (as : List (Option Exc)) {w : World (State ρ) Op Exc} (h : Accounted svc loaded ticks w) :
    Accounted svc loaded ticks ((processStrategies svc tick strategyIds).exec as w).world := by
  induction strategyIds generalizing as w with
  | nil => exact h
  | cons strategyId rest ih =>
    simp only [processStrategies, exec_bind, exec_suppress, Outcome.andThen_ok]
    exact ih _ (processStrategy_accounted htick strategyId as h)

theorem handleMarketTick_accounted {marketOpen : Bool} {message : Streaming.Envelope Data}
    (hticks : ∀ t ∈ ticksIn message, t ∈ ticks) (as : List (Option Exc))
    {w : World (State ρ) Op Exc} (h : Accounted svc loaded ticks w) :
    Accounted svc loaded ticks ((handleMarketTick svc marketOpen message).exec as w).world := by
  unfold handleMarketTick
  split
  · exact h
  split
  · exact h
  rename_i fields tick hdata
  dsimp only
  split
  · exact h
  split
  · exact h
  · exact h
  split
  · exact h
  · rename_i tick
    refine processStrategies_accounted (hticks tick ?_) _ as h
    simp [ticksIn, hdata]

end

end AlphaPanda.StrategyRunner
