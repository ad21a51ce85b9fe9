import AlphaPanda.Strategies.Hybrid

/-!
# Features

The features that `MLMomentumProcessor` and `MLBreakoutProcessor` give their
models, with numpy and without it. The price of a signal is read back from
them, at index 3.
-/

namespace AlphaPanda.Strategies

/-- What a processor takes from its environment: whether there is numpy,
`x ** 0.5`, `np.std`, and how numbers are printed. -/
structure Numerics where
  numpy : Bool
  sqrt : ℚ → Decimal
  std : List Decimal → Decimal
  repr : ℚ → String
  reprList : List Decimal → String

structure MLParameters where
  numerics : Numerics
  lookbackPeriods : ℤ
  confidenceThreshold : ℚ := 6 / 10
  positionSize : ℚ := 100
  model : Option (List Decimal → Except Exc (ℤ × ℚ))

def lastSlice (n : ℤ) (xs : List α) : List α :=
  if n < 0 then xs.drop (-n).toNat else lastItems n.toNat xs

/-- `a / b` in numpy, which does not raise. -/
def npDivide (a b : ℚ) : Decimal :=
  if b ≠ 0 then .ofRat (a / b)
  else if a = 0 then .nan
  else .num (if 0 < a then .posInf else .negInf)

def relativeChange (before now : ℚ) : ℚ := if before = 0 then 0 else (now - before) / before

def npReturns (prices : List ℚ) : List Decimal :=
  List.zipWith (fun before now => npDivide (now - before) before) prices prices.tail

def npMean (xs : List Decimal) : Decimal :=
  (xs.foldl Decimal.add (.ofRat 0)).div (.ofRat xs.length)

def indexError (message : String) : Exc := ⟨"IndexError", message, .builtin⟩

namespace MLMomentumProcessor

variable (c : MLParameters)

def volatility (prices : List ℚ) : Decimal :=
  let returns := ((prices.zip prices.tail).filter (·.1 ≠ 0)).map fun x => (x.2 - x.1) / x.1
  if returns = [] then .ofRat 0
  else c.numerics.sqrt ((returns.map fun r => r * r).sum / returns.length)

def extractFeatures (tick : MarketTick) (history : List MarketTick) : Except Exc (List Decimal) :=
  let short := (history.length : ℤ) < c.lookbackPeriods
  let prices := (lastSlice c.lookbackPeriods history).map (·.lastPrice)
  let currentPrice := tick.lastPrice
  let length := Decimal.ofRat history.length
  if !c.numerics.numpy then
    if short then .ok [.ofRat 0, .ofRat 0, .ofRat 0, .ofRat currentPrice, length]
    else match prices.head? with
      | none => .error (indexError "list index out of range")
      | some first =>
        let momentum5 := (itemFromEnd 5 prices).elim 0 (relativeChange · currentPrice)
        .ok [.ofRat (relativeChange first currentPrice), .ofRat momentum5, volatility c prices,
          .ofRat currentPrice, length]
  else if short then .ok (List.replicate 5 (.ofRat 0))
  else match prices.head? with
    | none => .error (indexError "index 0 is out of bounds for axis 0 with size 0")
    | some first =>
      let returns := npReturns prices
      let momentum5 := (itemFromEnd 5 prices).elim (.ofRat 0) fun p => npDivide (currentPrice - p) p
      .ok [npDivide (currentPrice - first) first, momentum5,
        if returns = [] then .ofRat 0 else c.numerics.std returns, .ofRat currentPrice, length]

end MLMomentumProcessor

def featurePrice (features : List Decimal) : Except Exc Decimal :=
  match features[3]? with
  | some price => .ok price
  | none => .error (indexError "list index out of range")

def MLMomentumProcessor (c : MLParameters) : MLProcessor (List Decimal) where
  lookbackPeriods := c.lookbackPeriods
  confidenceThreshold := c.confidenceThreshold
  positionSize := c.positionSize
  model := c.model
  extractFeatures := MLMomentumProcessor.extractFeatures c
  price := featurePrice
  metadata features prediction maxProb := Dict.ofList [
    ("ml_prediction", .int prediction),
    ("ml_confidence", .float (c.numerics.repr maxProb)),
    ("features", .container (c.numerics.reprList features) (features ≠ []))]

namespace MLBreakoutProcessor

variable (c : MLParameters)

def extractFeatures (tick : MarketTick) (history : List MarketTick) : Except Exc (List Decimal) :=
  if !c.numerics.numpy ∨ (history.length : ℤ) < c.lookbackPeriods then
    .ok [.ofRat 0, .ofRat tick.lastPrice, .ofRat 0, .ofRat history.length]
  else
    let prices := (lastSlice c.lookbackPeriods history).map (·.lastPrice)
    let currentPrice := tick.lastPrice
    match prices.max?, prices.min? with
    | some rollingHigh, some rollingLow =>
      let breakoutUp := relativeChange rollingHigh currentPrice
      let breakoutDown := relativeChange rollingLow currentPrice
      let returns := npReturns prices
      let atrLike := if returns = [] then .ofRat 0 else npMean (returns.map Decimal.abs)
      .ok [.ofRat breakoutUp, .ofRat breakoutDown, atrLike, .ofRat currentPrice]
    | _, _ => .error ⟨"ValueError",
        "zero-size array to reduction operation maximum which has no identity", .builtin⟩

def mlProcessor : MLProcessor (List Decimal) where
  lookbackPeriods := c.lookbackPeriods
  confidenceThreshold := c.confidenceThreshold
  positionSize := c.positionSize
  model := c.model
  extractFeatures := extractFeatures c
  price := featurePrice
  metadata _ _ _ := .empty

/-- Its signals have no metadata. -/
def processTick (tick : MarketTick) (history : List MarketTick) : Except Exc (Option SignalResult) :=
  ((mlProcessor c).processTick tick history).map (Option.map fun s => { s with metadata := none })

end MLBreakoutProcessor

inductive Processor where
  | rules (r : RulesProcessor)
  | mlMomentum (c : MLParameters)
  | mlBreakout (c : MLParameters)
  | hybridMomentum (momentum : RulesMomentumProcessor) (c : MLParameters) (policy : DecisionPolicy)

namespace Processor

def processTick : Processor → MarketTick → List MarketTick → Except Exc (Option SignalResult)
  | .rules r => r.processTick
  | .mlMomentum c => (MLMomentumProcessor c).processTick
  | .mlBreakout c => MLBreakoutProcessor.processTick c
  | .hybridMomentum momentum c policy =>
    (HybridMomentumProcessor momentum (MLMomentumProcessor c) policy).processTick

/-- No executor is built with a negative length. -/
def requiredHistoryLength : Processor → ℕ
  | .rules r => r.requiredHistoryLength
  | .mlMomentum c | .mlBreakout c => c.lookbackPeriods.toNat
  | .hybridMomentum momentum c policy =>
    (HybridMomentumProcessor momentum (MLMomentumProcessor c) policy).requiredHistoryLength

def toProcessor (p : Processor) : StrategyProcessor Unit where
  processTick tick history _ := (p.processTick tick history, ())
  requiredHistoryLength := p.requiredHistoryLength
  supportsInstrument _ := true

def executor (p : Processor) (validator : StandardStrategyValidator) (config : StrategyConfig) :
    StrategyExecutor Unit :=
  .init p.toProcessor validator config ()

end Processor

def plainNumerics : Numerics where
  numpy := true
  sqrt _ := .ofRat 0
  std _ := .ofRat 0
  repr _ := ""
  reprList _ := ""

end AlphaPanda.Strategies
