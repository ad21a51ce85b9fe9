import AlphaPanda.Events
import AlphaPanda.Exceptions
import AlphaPanda.Lib.Deque
import Mathlib.Algebra.Order.Field.Rat

/-!
# Strategies

`StrategyExecutor` and what it is composed of. A processor may keep a state
`ρ` of its own; the rule-based ones keep none.
-/

namespace AlphaPanda.Strategies

structure MarketTick where
  instrumentToken : ℤ
  lastPrice : ℚ
  timestamp : Timestamp
  deriving DecidableEq

/-- The quantity is any number: a processor takes it from its parameters. The
confidence is a number of `K`, a rational one unless it is said otherwise. -/
structure SignalResult (K : Type := ℚ) where
  signalType : String
  confidence : K
  quantity : ℚ
  price : Decimal
  metadata : Option Metadata := none
  deriving DecidableEq

structure StrategyProcessor (ρ : Type) (K : Type := ℚ) where
  processTick : MarketTick → List MarketTick → ρ → Except Exc (Option (SignalResult K)) × ρ
  requiredHistoryLength : ℕ
  supportsInstrument : ℤ → Bool

structure StandardStrategyValidator where
  maxSignalConfidence : ℚ := 100
  minQuantity : ℚ := 1

def StandardStrategyValidator.validateSignal [Field K] [LinearOrder K]
    (v : StandardStrategyValidator) (signal : SignalResult K) (marketData : MarketTick) :
    Except Exc Bool :=
  if signal.confidence < 0 ∨ (v.maxSignalConfidence : K) < signal.confidence then .ok false
  else if signal.quantity < v.minQuantity then .ok false
  else if signal.signalType ∉ ["BUY", "SELL", "HOLD"] then .ok false
  else if marketData.lastPrice ≤ 0 then .ok false
  else match signal.price with
    | .nan => .error .invalidOperation
    | .num price => .ok (!price.le (.fin 0))

structure StrategyConfig where
  strategyId : String
  activeBrokers : List String
  instrumentTokens : List ℤ
  enabled : Bool := true

structure StrategyExecutor (ρ : Type) (K : Type := ℚ) where
  processor : StrategyProcessor ρ K
  validator : StandardStrategyValidator
  config : StrategyConfig
  history : Deque MarketTick processor.requiredHistoryLength
  state : ρ

namespace StrategyExecutor

def init (processor : StrategyProcessor ρ K) (validator : StandardStrategyValidator)
    (config : StrategyConfig) (state : ρ) : StrategyExecutor ρ K :=
  ⟨processor, validator, config, .empty, state⟩

def canProcessTick (e : StrategyExecutor ρ K) (tick : MarketTick) : Bool :=
  tick.instrumentToken ∈ e.config.instrumentTokens &&
    e.processor.supportsInstrument tick.instrumentToken && e.config.enabled

variable [Field K] [LinearOrder K]

def validated (e : StrategyExecutor ρ K) (tick : MarketTick) :
    Option (SignalResult K) → Except Exc (Option (SignalResult K))
  | none => .ok none
  | some signal => (e.validator.validateSignal signal tick).map fun valid =>
    if valid then some signal else none

def processTick (e : StrategyExecutor ρ K) (tick : MarketTick) :
    Except Exc (Option (SignalResult K)) × StrategyExecutor ρ K :=
  if !e.canProcessTick tick then (.ok none, e)
  else
    let history := e.history.append tick
    let processed := e.processor.processTick tick history.items e.state
    (processed.1 >>= e.validated tick, { e with history := history, state := processed.2 })

end StrategyExecutor

end AlphaPanda.Strategies
