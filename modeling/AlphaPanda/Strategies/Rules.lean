import AlphaPanda.Strategies.Executor

/-!
# Rule-based processors

`RulesMomentumProcessor`, `RulesRSIProcessor` and `RulesMeanReversionProcessor`
of `strategies/implementations/`. They refuse a history that is too short, and
keep nothing between ticks.
-/

namespace AlphaPanda.Strategies

def lastItems (n : ℕ) (xs : List α) : List α := if n = 0 then xs else xs.rtake n

def itemFromEnd (n : ℕ) (xs : List α) : Option α :=
  if n = 0 then xs.head? else if n ≤ xs.length then xs[xs.length - n]? else none

def divide (a b : ℚ) : Except Exc ℚ :=
  if b = 0 then .error ⟨"ZeroDivisionError", "float division by zero", .builtin⟩ else .ok (a / b)

def mean (xs : List ℚ) : Option ℚ := if xs = [] then none else some (xs.sum / xs.length)

def signalAt (tick : MarketTick) (signalType : String) (confidence quantity : ℚ) : SignalResult where
  signalType := signalType
  confidence := min 1 confidence
  quantity := quantity
  price := .ofRat tick.lastPrice

structure RulesMomentumProcessor where
  lookback : ℕ := 20
  threshold : ℚ := 1 / 100
  qty : ℚ := 100

def RulesMomentumProcessor.processTick (p : RulesMomentumProcessor) (tick : MarketTick)
    (history : List MarketTick) : Except Exc (Option SignalResult) :=
  if history.length < p.lookback then .ok none
  else match itemFromEnd p.lookback history with
    | none => .ok none
    | some start =>
      if start.lastPrice = 0 then .ok none
      else
        let momentum := (tick.lastPrice - start.lastPrice) / start.lastPrice
        if p.threshold < momentum then .ok (some (signalAt tick "BUY" (|momentum| * 5) p.qty))
        else if momentum < -p.threshold then
          .ok (some (signalAt tick "SELL" (|momentum| * 5) p.qty))
        else .ok none

def changes (prices : List ℚ) : List ℚ := List.zipWith (fun before now => now - before) prices prices.tail

/-- `_calculate_rsi`; `none` also where an exception is caught. -/
def calculateRsi (period : ℕ) (priceData : List MarketTick) : Except Exc (Option ℚ) :=
  if priceData.length < 2 then .ok none
  else
    let change := changes (priceData.map (·.lastPrice))
    let gains := change.map fun c => if 0 < c then c else 0
    let losses := change.map fun c => if 0 < c then 0 else |c|
    if gains.length < period then .ok none
    else match mean (lastItems period gains), mean (lastItems period losses) with
      | some avgGain, some avgLoss =>
        if avgLoss = 0 then .ok (some 100)
        else (divide 100 (1 + avgGain / avgLoss)).map fun q => some (100 - q)
      | _, _ => .ok none

structure RulesRSIProcessor where
  rsiPeriod : ℕ := 14
  rsiOversold : ℚ := 30
  rsiOverbought : ℚ := 70
  qty : ℚ := 100

def RulesRSIProcessor.minHistory (p : RulesRSIProcessor) : ℕ := p.rsiPeriod * 2

def RulesRSIProcessor.processTick (p : RulesRSIProcessor) (tick : MarketTick)
    (history : List MarketTick) : Except Exc (Option SignalResult) :=
  if history.length < p.minHistory then .ok none
  else do
    match ← calculateRsi p.rsiPeriod (lastItems (p.rsiPeriod + 1) history ++ [tick]) with
    | none => pure none
    | some rsi =>
      if rsi < p.rsiOversold then
        pure (some (signalAt tick "BUY" (← divide (p.rsiOversold - rsi) p.rsiOversold) p.qty))
      else if p.rsiOverbought < rsi then
        let confidence ← divide (rsi - p.rsiOverbought) (100 - p.rsiOverbought)
        pure (some (signalAt tick "SELL" confidence p.qty))
      else pure none

/-- `stdev` is `statistics.stdev`. -/
structure RulesMeanReversionProcessor where
  lookback : ℕ := 20
  rsiPeriod : ℕ := 14
  rsiOversold : ℚ := 30
  rsiOverbought : ℚ := 70
  bbStd : ℚ := 2
  qty : ℚ := 100
  stdev : List ℚ → ℚ

def RulesMeanReversionProcessor.minHistory (p : RulesMeanReversionProcessor) : ℕ :=
  max p.lookback (p.rsiPeriod * 2)

def RulesMeanReversionProcessor.processTick (p : RulesMeanReversionProcessor) (tick : MarketTick)
    (history : List MarketTick) : Except Exc (Option SignalResult) :=
  if history.length < p.minHistory then .ok none
  else do
    let currentPrice := tick.lastPrice
    let prices := (lastItems p.lookback history).map (·.lastPrice)
    match ← calculateRsi p.rsiPeriod (lastItems (p.rsiPeriod + 1) history ++ [tick]), mean prices with
    | some rsi, some sma =>
      let stdDev := if 1 < prices.length then p.stdev prices else 0
      let upperBand := sma + p.bbStd * stdDev
      let lowerBand := sma - p.bbStd * stdDev
      if rsi < p.rsiOversold ∧ currentPrice < lowerBand then
        let below ← divide (lowerBand - currentPrice) lowerBand
        pure (some (signalAt tick "BUY" ((p.rsiOversold - rsi) / 20 + below) p.qty))
      else if p.rsiOverbought < rsi ∧ upperBand < currentPrice then
        let above ← divide (currentPrice - upperBand) upperBand
        pure (some (signalAt tick "SELL" ((rsi - p.rsiOverbought) / 20 + above) p.qty))
      else pure none
    | _, _ => pure none

inductive RulesProcessor where
  | momentum (p : RulesMomentumProcessor)
  | rsi (p : RulesRSIProcessor)
  | meanReversion (p : RulesMeanReversionProcessor)

namespace RulesProcessor

def processTick : RulesProcessor → MarketTick → List MarketTick → Except Exc (Option SignalResult)
  | .momentum p => p.processTick
  | .rsi p => p.processTick
  | .meanReversion p => p.processTick

def requiredHistoryLength : RulesProcessor → ℕ
  | .momentum p => p.lookback
  | .rsi p => p.minHistory
  | .meanReversion p => p.minHistory

/-- The processors support all instruments. -/
def toProcessor (r : RulesProcessor) : StrategyProcessor Unit where
  processTick tick history _ := (r.processTick tick history, ())
  requiredHistoryLength := r.requiredHistoryLength
  supportsInstrument _ := true

theorem processTick_short (r : RulesProcessor) (tick : MarketTick)
    (h : history.length < r.requiredHistoryLength) : r.processTick tick history = .ok none := by
  cases r with
  | momentum p => exact if_pos h
  | rsi p => exact if_pos h
  | meanReversion p => exact if_pos h

end RulesProcessor

end AlphaPanda.Strategies
