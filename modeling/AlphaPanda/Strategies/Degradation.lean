import AlphaPanda.Strategies.Hybrid

/-!
# Graceful degradation

A hybrid without a model signals what its rules signal alone. Its executor
keeps a longer history, of which the rules read only the end.
-/

namespace AlphaPanda.Strategies

-- ---------------------------------------------------------------------------
-- What the rules read of a history
-- ---------------------------------------------------------------------------

theorem lastItems_rtake (xs : List α) (hn : 1 ≤ n) (h : n ≤ m) : lastItems n (xs.rtake m) = xs.rtake n := by
  rw [lastItems, if_neg (Nat.one_le_iff_ne_zero.mp hn), List.rtake_rtake_of_le xs h]

theorem itemFromEnd_eq (xs : List α) (hn : 1 ≤ n) (h : n ≤ xs.length) :
    itemFromEnd n xs = (xs.rtake n).head? := by
  rw [itemFromEnd, if_neg (Nat.one_le_iff_ne_zero.mp hn), if_pos h, List.rtake, List.head?_drop]

def RulesProcessor.Windowed : RulesProcessor → Prop
  | .momentum p => 1 ≤ p.lookback
  | .rsi p => 1 ≤ p.rsiPeriod
  | .meanReversion p => 1 ≤ p.lookback ∧ 1 ≤ p.rsiPeriod

theorem RulesProcessor.period_le {r : RulesProcessor} (h : r.Windowed) (hperiod : r.rsiPeriod? = some n) :
    n + 1 ≤ r.requiredHistoryLength := by
  cases r with
  | momentum p => cases hperiod
  | rsi p =>
    obtain rfl : p.rsiPeriod = n := Option.some.inj hperiod
    have hpos : 1 ≤ p.rsiPeriod := h
    change p.rsiPeriod + 1 ≤ p.rsiPeriod * 2
    omega
  | meanReversion p =>
    obtain rfl : p.rsiPeriod = n := Option.some.inj hperiod
    have hpos : 1 ≤ p.rsiPeriod := h.2
    change p.rsiPeriod + 1 ≤ max p.lookback (p.rsiPeriod * 2)
    omega

section
variable {r : RulesProcessor} {tick : MarketTick} {xs : List MarketTick}

theorem length_rtake_lt (h : n ≤ m) (xs : List α) : (xs.rtake m).length < n ↔ xs.length < n := by
  rw [List.length_rtake]
  omega

theorem rsiAt_rtake (hr : r.Windowed) (h : r.requiredHistoryLength ≤ m) :
    r.rsiAt tick (xs.rtake m) = r.rsiAt tick (xs.rtake r.requiredHistoryLength) := by
  cases hperiod : r.rsiPeriod? with
  | none => simp only [RulesProcessor.rsiAt, hperiod]
  | some n =>
    have hn := r.period_le hr hperiod
    simp only [RulesProcessor.rsiAt, hperiod, length_rtake_lt h, length_rtake_lt le_rfl,
      lastItems_rtake xs (Nat.succ_pos n) (hn.trans h), lastItems_rtake xs (Nat.succ_pos n) hn]

/-- The rules read no further back than the history that they require. -/
theorem processTick_rtake (hr : r.Windowed) (h : r.requiredHistoryLength ≤ m) :
    r.processTick tick (xs.rtake m) = r.processTick tick (xs.rtake r.requiredHistoryLength) := by
  cases r with
  | momentum p =>
    have hlookback : p.lookback ≤ m := h
    change p.processTick tick (xs.rtake m) = p.processTick tick (xs.rtake p.lookback)
    unfold RulesMomentumProcessor.processTick
    rw [List.length_rtake, List.length_rtake]
    by_cases hshort : xs.length < p.lookback
    · rw [if_pos (by omega), if_pos (by omega)]
    · rw [if_neg (by omega), if_neg (by omega),
        itemFromEnd_eq _ hr (by rw [List.length_rtake]; omega), List.rtake_rtake_of_le xs hlookback,
        itemFromEnd_eq _ hr (by rw [List.length_rtake]; omega), List.rtake_rtake_of_le xs le_rfl]
  | rsi p =>
    change p.processTick tick (xs.rtake m) = p.processTick tick (xs.rtake p.minHistory)
    rw [p.processTick_eq, p.processTick_eq, rsiAt_rtake hr h]
    rfl
  | meanReversion p =>
    change p.processTick tick (xs.rtake m) = p.processTick tick (xs.rtake p.minHistory)
    have hprices : p.prices (xs.rtake m) = p.prices (xs.rtake p.minHistory) := by
      have hlookback : p.lookback ≤ p.minHistory := le_max_left _ _
      rw [RulesMeanReversionProcessor.prices, RulesMeanReversionProcessor.prices,
        lastItems_rtake xs hr.1 (hlookback.trans h), lastItems_rtake xs hr.1 hlookback]
    rw [p.processTick_eq, p.processTick_eq, rsiAt_rtake hr h, hprices]
    rfl

def Plain (tick : MarketTick) (x : Except Exc (Option SignalResult)) : Prop :=
  ∀ s, x = .ok (some s) → ∃ signalType confidence quantity, s = signalAt tick signalType confidence quantity

theorem plain_none : Plain tick (.ok none) := fun _ h => nomatch h

theorem plain_some : Plain tick (.ok (some (signalAt tick signalType confidence quantity))) := by
  intro s h
  cases h
  exact ⟨_, _, _, rfl⟩

theorem plain_map (x : Except Exc ℚ) (f : ℚ → ℚ) :
    Plain tick (x.map fun q => some (signalAt tick signalType (f q) quantity)) := by
  cases x with
  | error e => exact fun _ h => nomatch h
  | ok q => exact plain_some

theorem plain_bind {x : Except Exc (Option β)} {f : β → Except Exc (Option SignalResult)}
    (h : ∀ b, Plain tick (f b)) : Plain tick (x >>= fun o => o.elim (.ok none) f) := by
  rcases x with e | _ | b
  · exact fun _ h => nomatch h
  · exact plain_none
  · exact h b

theorem RulesProcessor.plain (r : RulesProcessor) (tick : MarketTick) (history : List MarketTick) :
    Plain tick (r.processTick tick history) := by
  cases r with
  | momentum p =>
    change Plain tick (p.processTick tick history)
    unfold RulesMomentumProcessor.processTick
    split
    · exact plain_none
    split
    · exact plain_none
    split
    · exact plain_none
    dsimp only
    split
    · exact plain_some
    split
    · exact plain_some
    · exact plain_none
  | rsi p =>
    change Plain tick (p.processTick tick history)
    rw [p.processTick_eq]
    refine plain_bind fun rsi => ?_
    unfold RulesRSIProcessor.signalFor
    split
    · exact plain_map _ _
    split
    · exact plain_map _ _
    · exact plain_none
  | meanReversion p =>
    change Plain tick (p.processTick tick history)
    rw [p.processTick_eq]
    refine plain_bind fun rsi => ?_
    cases mean (p.prices history) with
    | none => exact plain_none
    | some sma =>
      change Plain tick (p.signalFor tick (p.prices history) rsi sma)
      unfold RulesMeanReversionProcessor.signalFor
      generalize (if 1 < (p.prices history).length then p.stdev (p.prices history) else 0) = stdDev
      dsimp only
      split
      · exact plain_map _ fun below => (p.rsiOversold - rsi) / 20 + below
      split
      · exact plain_map _ fun above => (rsi - p.rsiOverbought) / 20 + above
      · exact plain_none

end

-- ---------------------------------------------------------------------------
-- Without a model
-- ---------------------------------------------------------------------------

def signalOf : Except Exc (Option (SignalResult K)) → Option (SignalResult K)
  | .ok signal => signal
  | .error _ => none

section
variable {h : HybridProcessor F} {validator : StandardStrategyValidator} {config : StrategyConfig}

/-- Without a model the hybrid returns the signal of its rules. -/
theorem HybridProcessor.processTick_rules (hpolicy : h.policy = .majorityVote m)
    (hmodel : h.mlProcessor.model = none) (tick : MarketTick) (history : List MarketTick) :
    h.processTick tick history = .ok (signalOf (h.rulesProcessor.processTick tick history)) := by
  have hml : ∀ features, h.mlProcessor.predictSignal features = none := by
    intro features
    rw [MLProcessor.predictSignal, hmodel]
  have hdecide : ∀ signal, h.combine tick history (.ok signal) = h.policy.decide signal none := by
    intro signal
    simp only [combine, MLProcessor.processTick]
    cases h.mlProcessor.extractFeatures tick history with
    | error e => rfl
    | ok features => simp only [Except.map, hml]
  have hplain := h.rulesProcessor.plain tick history
  unfold processTick
  cases hrules : h.rulesProcessor.processTick tick history with
  | error e => rfl
  | ok signal =>
    rw [hdecide, hpolicy]
    cases signal with
    | none => rfl
    | some s =>
      obtain ⟨signalType, confidence, quantity, rfl⟩ := hplain s hrules
      rfl

theorem signalOf_validated (e e' : StrategyExecutor Unit) (hvalidator : e.validator = e'.validator)
    (tick : MarketTick) (x : Except Exc (Option SignalResult)) :
    signalOf ((.ok (signalOf x) : Except Exc _) >>= e.validated tick) = signalOf (x >>= e'.validated tick) := by
  rcases x with err | _ | s
  · rfl
  · rfl
  · change signalOf ((e.validator.validateSignal s tick).map _) =
      signalOf ((e'.validator.validateSignal s tick).map _)
    rw [hvalidator]

theorem processTick_degrades (hr : h.rulesProcessor.Windowed) (hpolicy : h.policy = .majorityVote m)
    (hmodel : h.mlProcessor.model = none) (before : List MarketTick) (tick : MarketTick) :
    signalOf (((h.executor validator config).feed before).processTick tick).1 =
      signalOf (((h.rulesProcessor.executor validator config).feed before).processTick tick).1 := by
  rw [HybridProcessor.executor, RulesProcessor.executor, StrategyExecutor.processTick_accepted,
    StrategyExecutor.processTick_accepted]
  have haccepted : StrategyExecutor.accepted h.toProcessor validator config () (before ++ [tick]) =
      StrategyExecutor.accepted h.rulesProcessor.toProcessor validator config () (before ++ [tick]) := rfl
  have hcan : (StrategyExecutor.init h.toProcessor validator config ()).canProcessTick tick =
      (StrategyExecutor.init h.rulesProcessor.toProcessor validator config ()).canProcessTick tick := rfl
  rw [haccepted, hcan]
  generalize StrategyExecutor.accepted h.rulesProcessor.toProcessor validator config ()
    (before ++ [tick]) = accepted
  split
  · have hlonger : h.rulesProcessor.requiredHistoryLength ≤ h.requiredHistoryLength := le_max_left _ _
    change signalOf (h.processTick tick (accepted.rtake h.requiredHistoryLength) >>= _) =
      signalOf (h.rulesProcessor.processTick tick
        (accepted.rtake h.rulesProcessor.requiredHistoryLength) >>= _)
    rw [HybridProcessor.processTick_rules hpolicy hmodel, processTick_rtake hr hlonger]
    exact signalOf_validated _ _ rfl tick _
  · rfl

/-- Without a model, a hybrid that votes by majority signals at the same ticks
as its rules alone, and the same. -/
theorem signals_degrade (hr : h.rulesProcessor.Windowed) (hpolicy : h.policy = .majorityVote m)
    (hmodel : h.mlProcessor.model = none) (ticks : List MarketTick) :
    ((h.executor validator config).results ticks).map (fun x => (x.1, signalOf x.2)) =
      ((h.rulesProcessor.executor validator config).results ticks).map fun x => (x.1, signalOf x.2) := by
  induction ticks using List.reverseRecOn with
  | nil => rfl
  | append_singleton before tick ih =>
    rw [StrategyExecutor.results_concat, StrategyExecutor.results_concat, List.map_append,
      List.map_append, ih, List.map_singleton, List.map_singleton,
      processTick_degrades hr hpolicy hmodel]

end

def untrained : MLProcessor (List ℚ) where
  lookbackPeriods := 50
  model := none
  extractFeatures _ history := .ok (history.map (·.lastPrice))
  price features := .ok (.ofRat features.sum)
  metadata _ _ _ := .empty

theorem untrained_degrades :
    ((((HybridMomentumProcessor { lookback := 2 } untrained (.majorityVote (6 / 10))).executor {}
      oneConfig).results [tickAt 1 10, tickAt 1 11, tickAt 1 9]).map fun x => (x.1, signalOf x.2)) =
      (((RulesProcessor.momentum { lookback := 2 }).executor {} oneConfig).results
        [tickAt 1 10, tickAt 1 11, tickAt 1 9]).map fun x => (x.1, signalOf x.2) := by
  have hwindowed : (RulesProcessor.momentum { lookback := 2 }).Windowed := by
    change 1 ≤ 2
    decide
  exact signals_degrade (h := HybridMomentumProcessor { lookback := 2 } untrained _) hwindowed rfl rfl _

end AlphaPanda.Strategies
