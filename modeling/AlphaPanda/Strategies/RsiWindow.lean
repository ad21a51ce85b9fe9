import AlphaPanda.Strategies.Isolation
import AlphaPanda.Strategies.Rsi

/-!
# The window of the RSI

The history that a processor is given ends with the tick itself, and the
processor appends the tick once more before it takes the last changes. The
oldest change of the window gives way to one that is always zero.
-/

namespace AlphaPanda.Strategies

-- ---------------------------------------------------------------------------
-- Changes at the end of a stream
-- ---------------------------------------------------------------------------

theorem changes_rtake (n : ℕ) (prices : List ℚ) :
    changes (prices.rtake (n + 1)) = (changes prices).rtake n := by
  have hlength := changes_length prices
  unfold changes at hlength ⊢
  rw [List.rtake, List.rtake, hlength, List.tail_drop, List.drop_zipWith]
  rcases prices with _ | ⟨p, prices⟩
  · simp
  · have hdrop : (p :: prices).length - (n + 1) = (p :: prices).length - 1 - n := by
      simp only [List.length_cons]
      omega
    rw [hdrop, List.drop_succ_cons, List.tail_cons]

theorem changes_append (prices : List ℚ) (p q : ℚ) :
    changes (prices ++ [p, q]) = changes (prices ++ [p]) ++ [q - p] := by
  induction prices with
  | nil => rfl
  | cons a prices ih =>
    unfold changes at ih ⊢
    cases prices with
    | nil => rfl
    | cons b prices =>
      simp only [List.cons_append, List.tail_cons, List.zipWith_cons_cons] at ih ⊢
      rw [ih]

/-- The last prices and the last one again: the oldest of the changes gives
way to zero. -/
theorem changes_repeat (n : ℕ) (prices : List ℚ) (p : ℚ) (hlength : n + 1 ≤ prices.length) :
    (changes ((prices ++ [p]).rtake (n + 2) ++ [p])).rtake (n + 1) =
      ((changes (prices ++ [p])).rtake (n + 1)).tail ++ [0] := by
  have hchanges := changes_length (prices ++ [p])
  rw [List.length_append, List.length_singleton] at hchanges
  have hlast : changes ((prices ++ [p]).rtake (n + 2) ++ [p]) =
      changes ((prices ++ [p]).rtake (n + 2)) ++ [0] := by
    rw [List.rtake_concat_succ, List.append_assoc, List.cons_append, List.nil_append,
      changes_append, sub_self]
  rw [hlast, changes_rtake, List.rtake_concat_succ]
  congr 1
  rw [List.rtake, List.rtake, List.tail_drop, List.drop_drop, List.length_drop]
  congr 1
  omega

-- ---------------------------------------------------------------------------
-- Dropping the oldest change
-- ---------------------------------------------------------------------------

/-- Nothing is lost with the oldest change: it is zero, or all changes are
gains, or all are losses and it is not the only one. -/
def Redundant (cs : List ℚ) : Prop :=
  cs.head? = some 0 ∨ (∀ c ∈ cs, 0 ≤ c) ∨ (∀ c ∈ cs, c ≤ 0) ∧ ∃ c ∈ cs.tail, c < 0

theorem rsiOf_ne (hloss : lossSum cs ≠ 0)
    (hshare : gainSum cs * lossSum cs' ≠ gainSum cs' * lossSum cs) : rsiOf cs ≠ rsiOf cs' := by
  have hpos : 0 < gainSum cs + lossSum cs :=
    add_pos_of_nonneg_of_pos (gainSum_nonneg cs) (lt_of_le_of_ne (lossSum_nonneg cs) hloss.symm)
  by_cases hzero : lossSum cs' = 0
  · rw [rsiOf_eq hloss, rsiOf, if_pos hzero, Ne, div_eq_iff hpos.ne']
    intro heq
    exact hloss (by linarith)
  · have hpos' : 0 < gainSum cs' + lossSum cs' :=
      add_pos_of_nonneg_of_pos (gainSum_nonneg cs') (lt_of_le_of_ne (lossSum_nonneg cs') (Ne.symm hzero))
    rw [rsiOf_eq hloss, rsiOf_eq hzero, Ne, div_eq_div_iff hpos.ne' hpos'.ne']
    intro heq
    exact hshare (by linarith)

theorem gainSum_cons (c : ℚ) (cs : List ℚ) : gainSum (c :: cs) = gain c + gainSum cs := rfl

theorem lossSum_cons (c : ℚ) (cs : List ℚ) : lossSum (c :: cs) = loss c + lossSum cs := rfl

theorem rsiOf_congr (hgain : gainSum cs = gainSum cs') (hloss : lossSum cs = lossSum cs') :
    rsiOf cs = rsiOf cs' := by
  rw [rsiOf, rsiOf, hgain, hloss]

theorem rsiOf_append_zero (cs : List ℚ) : rsiOf (cs ++ [0]) = rsiOf cs := by
  refine rsiOf_congr ?_ ?_
  · simp [gainSum, gain]
  · simp [lossSum, loss]

theorem rsiOf_tail_iff (c : ℚ) (cs : List ℚ) : rsiOf cs = rsiOf (c :: cs) ↔ Redundant (c :: cs) := by
  have hgains := gainSum_nonneg cs
  have hlosses := lossSum_nonneg cs
  unfold Redundant
  simp only [List.head?_cons, Option.some.injEq, List.forall_mem_cons, List.tail_cons]
  rcases lt_trichotomy c 0 with hneg | rfl | hpos
  · have hgain : gain c = 0 := gain_eq_zero.mpr hneg.le
    have hloss : 0 < loss c := lt_of_le_of_ne (loss_nonneg c) fun h => hneg.not_ge (loss_eq_zero.mp h.symm)
    have hne : lossSum (c :: cs) ≠ 0 := by
      rw [lossSum_cons]
      linarith
    simp only [hneg.ne, hneg.not_ge, hneg.le, false_and, false_or, true_and]
    constructor
    · intro heq
      have hshare : gainSum (c :: cs) * lossSum cs = gainSum cs * lossSum (c :: cs) := by
        by_contra hshare
        exact rsiOf_ne hne hshare heq.symm
      rw [gainSum_cons, lossSum_cons, hgain, zero_add] at hshare
      have hzero : gainSum cs = 0 := by
        have : gainSum cs * loss c = 0 := by linarith
        exact (mul_eq_zero.mp this).resolve_right hloss.ne'
      refine ⟨gainSum_eq_zero.mp hzero, ?_⟩
      by_contra hnone
      push Not at hnone
      have hall : lossSum cs = 0 := lossSum_eq_zero.mpr hnone
      rw [rsiOf, if_pos hall, rsiOf_eq hne, gainSum_cons, hgain, hzero] at heq
      norm_num at heq
    · rintro ⟨hnone, d, hd, hlt⟩
      have hzero := gainSum_eq_zero.mpr hnone
      have hcs : lossSum cs ≠ 0 := fun h => hlt.not_ge (lossSum_eq_zero.mp h d hd)
      rw [rsiOf_eq hcs, rsiOf_eq hne, gainSum_cons, hgain, hzero]
      simp
  · refine iff_of_true (rsiOf_congr ?_ ?_) (.inl rfl)
    · simp [gainSum_cons, gain]
    · simp [lossSum_cons, loss]
  · have hgain : 0 < gain c := lt_of_le_of_ne (gain_nonneg c) fun h => hpos.not_ge (gain_eq_zero.mp h.symm)
    have hloss : loss c = 0 := loss_eq_zero.mpr hpos.le
    simp only [hpos.ne', hpos.le, hpos.not_ge, false_and, false_or, or_false, true_and]
    constructor
    · intro heq
      by_contra hsome
      have hcs : lossSum cs ≠ 0 := mt lossSum_eq_zero.mp hsome
      refine rsiOf_ne hcs ?_ heq
      rw [gainSum_cons, lossSum_cons, hloss, zero_add, Ne, mul_right_cancel_iff_of_pos]
      · linarith
      · exact lt_of_le_of_ne hlosses (Ne.symm hcs)
    · intro hnone
      have hcs := lossSum_eq_zero.mpr hnone
      rw [rsiOf, if_pos hcs, rsiOf, lossSum_cons, hloss, hcs, if_pos (add_zero 0)]

-- ---------------------------------------------------------------------------
-- What a processor computes
-- ---------------------------------------------------------------------------

namespace RulesProcessor

def rsiPeriod? : RulesProcessor → Option ℕ
  | .momentum _ => none
  | .rsi p => some p.rsiPeriod
  | .meanReversion p => some p.rsiPeriod

def rsiAt (r : RulesProcessor) (tick : MarketTick) (history : List MarketTick) : Except Exc (Option ℚ) :=
  match r.rsiPeriod? with
  | none => .ok none
  | some period =>
    if history.length < r.requiredHistoryLength then .ok none
    else calculateRsi period (lastItems (period + 1) history ++ [tick])

theorem rsiAt_short (r : RulesProcessor) (tick : MarketTick)
    (h : history.length < r.requiredHistoryLength) : r.rsiAt tick history = .ok none := by
  unfold rsiAt
  split
  · rfl
  · exact if_pos h

theorem rsiAt_full {r : RulesProcessor} (tick : MarketTick) (hperiod : r.rsiPeriod? = some n)
    (h : ¬history.length < r.requiredHistoryLength) :
    r.rsiAt tick history = calculateRsi n (lastItems (n + 1) history ++ [tick]) := by
  rw [rsiAt, hperiod]
  exact if_neg h

end RulesProcessor

/-- What an RSI, compared with the thresholds, makes of a tick. -/
def RulesRSIProcessor.signalFor (p : RulesRSIProcessor) (tick : MarketTick) (rsi : ℚ) :
    Except Exc (Option SignalResult) :=
  if rsi < p.rsiOversold then
    (divide (p.rsiOversold - rsi) p.rsiOversold).map fun confidence =>
      some (signalAt tick "BUY" confidence p.qty)
  else if p.rsiOverbought < rsi then
    (divide (rsi - p.rsiOverbought) (100 - p.rsiOverbought)).map fun confidence =>
      some (signalAt tick "SELL" confidence p.qty)
  else .ok none

theorem RulesRSIProcessor.processTick_eq (p : RulesRSIProcessor) (tick : MarketTick)
    (history : List MarketTick) : p.processTick tick history =
      (RulesProcessor.rsi p).rsiAt tick history >>= fun rsi => rsi.elim (.ok none) (p.signalFor tick) := by
  by_cases hshort : history.length < p.minHistory
  · rw [RulesProcessor.rsiAt_short _ tick hshort, processTick, if_pos hshort]
    rfl
  · rw [RulesProcessor.rsiAt_full tick rfl hshort, processTick, if_neg hshort]
    refine bind_congr fun rsi => ?_
    cases rsi with
    | none => rfl
    | some rsi =>
      simp only [Option.elim_some, signalFor]
      split
      · cases divide (p.rsiOversold - rsi) p.rsiOversold <;> rfl
      split
      · cases divide (rsi - p.rsiOverbought) (100 - p.rsiOverbought) <;> rfl
      · rfl

def RulesMeanReversionProcessor.prices (p : RulesMeanReversionProcessor) (history : List MarketTick) :
    List ℚ :=
  (lastItems p.lookback history).map (·.lastPrice)

def RulesMeanReversionProcessor.signalFor (p : RulesMeanReversionProcessor) (tick : MarketTick)
    (prices : List ℚ) (rsi sma : ℚ) : Except Exc (Option SignalResult) :=
  let stdDev := if 1 < prices.length then p.stdev prices else 0
  let upperBand := sma + p.bbStd * stdDev
  let lowerBand := sma - p.bbStd * stdDev
  if rsi < p.rsiOversold ∧ tick.lastPrice < lowerBand then
    (divide (lowerBand - tick.lastPrice) lowerBand).map fun below =>
      some (signalAt tick "BUY" ((p.rsiOversold - rsi) / 20 + below) p.qty)
  else if p.rsiOverbought < rsi ∧ upperBand < tick.lastPrice then
    (divide (tick.lastPrice - upperBand) upperBand).map fun above =>
      some (signalAt tick "SELL" ((rsi - p.rsiOverbought) / 20 + above) p.qty)
  else .ok none

theorem RulesMeanReversionProcessor.processTick_eq (p : RulesMeanReversionProcessor)
    (tick : MarketTick) (history : List MarketTick) : p.processTick tick history =
      (RulesProcessor.meanReversion p).rsiAt tick history >>= fun rsi =>
        rsi.elim (.ok none) fun rsi =>
          (mean (p.prices history)).elim (.ok none) (p.signalFor tick (p.prices history) rsi) := by
  by_cases hshort : history.length < p.minHistory
  · rw [RulesProcessor.rsiAt_short _ tick hshort, processTick, if_pos hshort]
    rfl
  · rw [RulesProcessor.rsiAt_full tick rfl hshort, processTick, if_neg hshort]
    refine bind_congr fun rsi => ?_
    cases rsi with
    | none => rfl
    | some rsi =>
      simp only [Option.elim_some, prices]
      generalize (lastItems p.lookback history).map (·.lastPrice) = prices
      cases mean prices with
      | none => rfl
      | some sma =>
        simp only [Option.elim_some, signalFor]
        generalize (if 1 < prices.length then p.stdev prices else 0) = stdDev
        split
        · exact (map_eq_pure_bind _ _).symm
        split
        · exact (map_eq_pure_bind _ _).symm
        · rfl

-- ---------------------------------------------------------------------------
-- The window
-- ---------------------------------------------------------------------------

def lastChanges (n : ℕ) (ticks : List MarketTick) : List ℚ :=
  (changes (ticks.map (·.lastPrice))).rtake n

section
variable {r : RulesProcessor} {validator : StandardStrategyValidator} {config : StrategyConfig}

def Computes (r : RulesProcessor) (validator : StandardStrategyValidator) (config : StrategyConfig)
    (before : List MarketTick) (tick : MarketTick) (rsi : ℚ) : Prop :=
  ((r.executor validator config).feed before).canProcessTick tick ∧
    r.rsiAt tick (((r.executor validator config).feed before).processTick tick).2.history.items =
      .ok (some rsi)

theorem two_periods_le (hperiod : r.rsiPeriod? = some n) : 2 * n ≤ r.requiredHistoryLength := by
  cases r with
  | momentum p => cases hperiod
  | rsi p =>
    have hp : p.rsiPeriod = n := Option.some.inj hperiod
    rw [← hp, Nat.mul_comm]
    exact le_rfl
  | meanReversion p =>
    have hp : p.rsiPeriod = n := Option.some.inj hperiod
    rw [← hp, Nat.mul_comm]
    exact le_max_right _ _

/-- The RSI is that of the last changes but the oldest. -/
theorem computes_eq (hperiod : r.rsiPeriod? = some (n + 1))
    (hown : ∀ t ∈ before, t.instrumentToken = tick.instrumentToken)
    (h : Computes r validator config before tick rsi) :
    rsi = rsiOf (lastChanges (n + 1) (before ++ [tick])).tail ∧
      n + 1 ≤ (changes ((before ++ [tick]).map (·.lastPrice))).length := by
  obtain ⟨hcan, hrsi⟩ := h
  rw [RulesProcessor.executor] at hcan hrsi
  have hitems := StrategyExecutor.history_own r.toProcessor validator config () hown hcan
  change _ = (before ++ [tick]).rtake r.requiredHistoryLength at hitems
  rw [hitems] at hrsi
  have hlong := two_periods_le hperiod
  have hfull : ¬((before ++ [tick]).rtake r.requiredHistoryLength).length < r.requiredHistoryLength := by
    intro hshort
    rw [r.rsiAt_short tick hshort] at hrsi
    cases hrsi
  rw [RulesProcessor.rsiAt_full tick hperiod hfull] at hrsi
  rw [List.length_rtake] at hfull
  have henough : r.requiredHistoryLength ≤ (before ++ [tick]).length := by omega
  rw [List.length_append, List.length_singleton] at henough
  have hwindow : lastItems (n + 1 + 1) ((before ++ [tick]).rtake r.requiredHistoryLength) =
      (before ++ [tick]).rtake (n + 2) := by
    rw [lastItems, if_neg (by omega)]
    exact List.rtake_rtake_of_le _ (by omega)
  have hlength : (((before ++ [tick]).rtake (n + 2)) ++ [tick]).length = n + 3 := by
    rw [List.length_append, List.length_rtake, List.length_append, List.length_singleton]
    omega
  rw [hwindow, calculateRsi_eq _ _ (by omega), if_neg (by omega)] at hrsi
  cases hrsi
  refine ⟨?_, ?_⟩
  · have hrepeat := changes_repeat n (before.map (·.lastPrice)) tick.lastPrice (by
      rw [List.length_map]
      omega)
    have hprices : ((before ++ [tick]).rtake (n + 2) ++ [tick]).map (·.lastPrice) =
        (before.map (·.lastPrice) ++ [tick.lastPrice]).rtake (n + 2) ++ [tick.lastPrice] := by
      simp [List.rtake]
    rw [lastItems, if_neg (by omega), hprices, hrepeat, rsiOf_append_zero, lastChanges,
      List.map_append]
    rfl
  · rw [changes_length, List.length_map, List.length_append, List.length_singleton]
    omega

/-- The RSI that is computed on a tick is that of the last changes of the
stream exactly if the oldest of them is redundant. -/
theorem rsi_window_iff (hperiod : r.rsiPeriod? = some n) (hn : 1 ≤ n)
    (hown : ∀ t ∈ before, t.instrumentToken = tick.instrumentToken)
    (h : Computes r validator config before tick rsi) :
    rsi = rsiOf (lastChanges n (before ++ [tick])) ↔ Redundant (lastChanges n (before ++ [tick])) := by
  obtain ⟨n, rfl⟩ := Nat.exists_eq_add_of_le' hn
  obtain ⟨rfl, hlength⟩ := computes_eq hperiod hown h
  have hwindow : (lastChanges (n + 1) (before ++ [tick])).length = n + 1 := by
    rw [lastChanges, List.length_rtake, Nat.min_eq_left hlength]
  obtain ⟨c, cs, hcs⟩ := List.exists_cons_of_length_eq_add_one hwindow
  rw [hcs]
  exact rsiOf_tail_iff c cs

end

def oneConfig : StrategyConfig where
  strategyId := "s1"
  activeBrokers := ["paper"]
  instrumentTokens := [1]

theorem rise_computes : Computes (.rsi { rsiPeriod := 1 }) {} oneConfig [tickAt 1 10] (tickAt 1 11) 100 := by
  refine ⟨by decide +kernel, ?_⟩
  decide +kernel

theorem rise_window : (100 : ℚ) = rsiOf (lastChanges 1 [tickAt 1 10, tickAt 1 11]) ↔
    Redundant (lastChanges 1 [tickAt 1 10, tickAt 1 11]) :=
  rsi_window_iff rfl le_rfl (by decide) rise_computes

/-- After a fall, the index over one change is that of no loss at all. -/
theorem fall_window : Computes (.rsi { rsiPeriod := 1 }) {} oneConfig [tickAt 1 10] (tickAt 1 9) 100 ∧
    (100 : ℚ) ≠ rsiOf (lastChanges 1 [tickAt 1 10, tickAt 1 9]) := by
  refine ⟨⟨by decide +kernel, ?_⟩, ?_⟩
  · decide +kernel
  · decide +kernel

end AlphaPanda.Strategies
