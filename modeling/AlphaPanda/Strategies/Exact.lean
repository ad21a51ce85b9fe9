import AlphaPanda.Strategies.RsiWindow
import Mathlib.Analysis.Real.Sqrt

/-!
# Exact real arithmetic

A standard deviation is in general no rational number. The exact counterpart
of a rule-based processor gives signals whose confidence is a real number. It
agrees with the processor wherever the deviation that the processor computes
is the exact one.
-/

namespace AlphaPanda.Strategies

noncomputable def exactStdev (xs : List ℚ) : ℝ :=
  √(((xs.map fun x => (x - xs.sum / xs.length) ^ 2).sum / (xs.length - 1) : ℚ) : ℝ)

theorem exactStdev_nonneg (xs : List ℚ) : 0 ≤ exactStdev xs := Real.sqrt_nonneg _

noncomputable def exactDivide (a b : ℝ) : Except Exc ℝ :=
  if b = 0 then .error ⟨"ZeroDivisionError", "float division by zero", .builtin⟩ else .ok (a / b)

noncomputable def exactSignalAt (tick : MarketTick) (signalType : String) (confidence : ℝ)
    (quantity : ℚ) : SignalResult ℝ where
  signalType := signalType
  confidence := min 1 confidence
  quantity := quantity
  price := .ofRat tick.lastPrice

noncomputable def SignalResult.exact (s : SignalResult) : SignalResult ℝ :=
  { s with confidence := s.confidence }

noncomputable def exactResult (r : Except Exc (Option SignalResult)) :
    Except Exc (Option (SignalResult ℝ)) :=
  r.map (Option.map SignalResult.exact)

theorem exact_signalAt (tick : MarketTick) (signalType : String) (confidence quantity : ℚ) :
    (signalAt tick signalType confidence quantity).exact =
      exactSignalAt tick signalType confidence quantity := by
  simp [signalAt, exactSignalAt, SignalResult.exact]

-- ---------------------------------------------------------------------------
-- Mean reversion
-- ---------------------------------------------------------------------------

namespace RulesMeanReversionProcessor

noncomputable def exactSignalFor (p : RulesMeanReversionProcessor) (tick : MarketTick)
    (prices : List ℚ) (rsi sma : ℚ) : Except Exc (Option (SignalResult ℝ)) :=
  let currentPrice : ℝ := tick.lastPrice
  let stdDev := if 1 < prices.length then exactStdev prices else 0
  let upperBand := sma + p.bbStd * stdDev
  let lowerBand := sma - p.bbStd * stdDev
  if rsi < p.rsiOversold ∧ currentPrice < lowerBand then
    (exactDivide (lowerBand - currentPrice) lowerBand).map fun below =>
      some (exactSignalAt tick "BUY" (((p.rsiOversold - rsi) / 20 : ℚ) + below) p.qty)
  else if p.rsiOverbought < rsi ∧ upperBand < currentPrice then
    (exactDivide (currentPrice - upperBand) upperBand).map fun above =>
      some (exactSignalAt tick "SELL" (((rsi - p.rsiOverbought) / 20 : ℚ) + above) p.qty)
  else .ok none

noncomputable def exactTick (p : RulesMeanReversionProcessor) (tick : MarketTick)
    (history : List MarketTick) : Except Exc (Option (SignalResult ℝ)) := do
  match ← (RulesProcessor.meanReversion p).rsiAt tick history with
  | none => pure none
  | some rsi =>
    match mean (p.prices history) with
    | none => pure none
    | some sma => p.exactSignalFor tick (p.prices history) rsi sma

end RulesMeanReversionProcessor

theorem exactDivide_map (a b : ℚ) (f : ℚ → SignalResult) (g : ℝ → SignalResult ℝ)
    (h : ∀ q : ℚ, (f q).exact = g q) :
    exactResult ((divide a b).map fun q => some (f q)) = (exactDivide a b).map fun q => some (g q) := by
  unfold exactResult divide exactDivide
  by_cases hb : b = 0
  · rw [if_pos hb, if_pos (by exact_mod_cast hb)]
    rfl
  · rw [if_neg hb, if_neg (by exact_mod_cast hb)]
    have hquotient : ((a / b : ℚ) : ℝ) = (a : ℝ) / b := Rat.cast_div a b
    rw [← hquotient]
    exact congrArg (fun s => Except.ok (some s)) (h (a / b))

/-- Where the deviation is rational, the processor computes exactly. -/
theorem exactSignalFor_eq (p : RulesMeanReversionProcessor) (tick : MarketTick) (prices : List ℚ)
    (rsi sma : ℚ) (hstdev : (p.stdev prices : ℝ) = exactStdev prices) :
    p.exactSignalFor tick prices rsi sma = exactResult (p.signalFor tick prices rsi sma) := by
  unfold RulesMeanReversionProcessor.exactSignalFor RulesMeanReversionProcessor.signalFor
  have hdev : (if 1 < prices.length then exactStdev prices else 0) =
      ((if 1 < prices.length then p.stdev prices else 0 : ℚ) : ℝ) := by
    split
    · exact hstdev.symm
    · exact Rat.cast_zero.symm
  rw [hdev]
  generalize (if 1 < prices.length then p.stdev prices else 0) = dev
  have hlower : (sma : ℝ) - p.bbStd * dev = ((sma - p.bbStd * dev : ℚ) : ℝ) := by push_cast; rfl
  have hupper : (sma : ℝ) + p.bbStd * dev = ((sma + p.bbStd * dev : ℚ) : ℝ) := by push_cast; rfl
  dsimp only
  rw [hlower, hupper]
  simp only [Rat.cast_lt]
  split
  · rw [exactDivide_map _ _ _ (fun below => exactSignalAt tick "BUY"
      (((p.rsiOversold - rsi) / 20 : ℚ) + below) p.qty)]
    · push_cast
      rfl
    · intro q
      rw [exact_signalAt, Rat.cast_add]
  split
  · rw [exactDivide_map _ _ _ (fun above => exactSignalAt tick "SELL"
      (((rsi - p.rsiOverbought) / 20 : ℚ) + above) p.qty)]
    · push_cast
      rfl
    · intro q
      rw [exact_signalAt, Rat.cast_add]
  · rfl

namespace RulesProcessor

noncomputable def exactTick : RulesProcessor → MarketTick → List MarketTick →
    Except Exc (Option (SignalResult ℝ))
  | .momentum p => fun tick history => exactResult (p.processTick tick history)
  | .rsi p => fun tick history => exactResult (p.processTick tick history)
  | .meanReversion p => p.exactTick

noncomputable def toExact (r : RulesProcessor) : StrategyProcessor Unit ℝ where
  processTick tick history _ := (r.exactTick tick history, ())
  requiredHistoryLength := r.requiredHistoryLength
  supportsInstrument _ := true

noncomputable def exactExecutor (r : RulesProcessor) (validator : StandardStrategyValidator)
    (config : StrategyConfig) : StrategyExecutor Unit ℝ :=
  .init r.toExact validator config ()

theorem exactTick_eq (r : RulesProcessor) (tick : MarketTick) (history : List MarketTick)
    (hstdev : ∀ p, r = .meanReversion p → (p.stdev (p.prices history) : ℝ) = exactStdev (p.prices history)) :
    r.exactTick tick history = exactResult (r.processTick tick history) := by
  cases r with
  | momentum p => rfl
  | rsi p => rfl
  | meanReversion p =>
    change p.exactTick tick history = exactResult (p.processTick tick history)
    rw [p.processTick_eq, RulesMeanReversionProcessor.exactTick]
    cases (RulesProcessor.meanReversion p).rsiAt tick history with
    | error e => rfl
    | ok rsi =>
      cases rsi with
      | none => rfl
      | some rsi =>
        change (match mean (p.prices history) with
          | none => _
          | some sma => _) = exactResult ((mean (p.prices history)).elim _ _)
        cases mean (p.prices history) with
        | none => rfl
        | some sma => exact exactSignalFor_eq p tick _ rsi sma (hstdev p rfl)

end RulesProcessor

end AlphaPanda.Strategies
