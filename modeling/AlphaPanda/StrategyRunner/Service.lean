import AlphaPanda.Lib.Coroutine
import AlphaPanda.Risk.Service
import AlphaPanda.Strategies.Executor

/-!
# The strategy runner

`StrategyRunnerService` after its start: the executors it loaded, and the
handler of the market ticks. Counters and Prometheus metrics are left out.
-/

namespace AlphaPanda.StrategyRunner

open Coroutine Strategies

abbrev State (ρ : Type) := Dict String (StrategyExecutor ρ)

structure Service where
  activeBrokers : List String
  instrumentToStrategies : Dict ℤ (List String)

structure Record where
  topic : String
  key : String
  data : TradingSignal
  eventType : EventType
  broker : String
  deriving DecidableEq

inductive Op where
  | getProducer
  | send (r : Record)
  | recordSignalGenerated (signal : TradingSignal) (broker : String)
  | incrementCount (name broker : String)
  deriving DecidableEq

abbrev Handler (ρ : Type) := Prog (State ρ) Op Exc

/-- The `data` of a message: a JSON object, with what `MarketTick(..)` makes
of its fields, or some other JSON. -/
inductive Data where
  | object (fields : Risk.Fields) (tick : Except Exc MarketTick)
  | other (v : Value)

-- ---------------------------------------------------------------------------
-- Emitting
-- ---------------------------------------------------------------------------

/-- The coroutines one after the other. The first failure is raised, and the
others run nevertheless. -/
def gather : List (Prog σ ω ε Unit) → Prog σ ω ε Unit
  | [] => pure ()
  | p :: ps => do
    tryCatch p fun e => do
      suppress (gather ps)
      throw e
    gather ps

def signalRecord (signal : TradingSignal) (broker strategyId : String) : Record :=
  { topic := (TopicMap.mk broker).signalsRaw
    key := PartitioningKeys.tradingSignalKey strategyId (toString signal.instrumentToken)
    data := signal
    eventType := .tradingSignal
    broker := broker }

def recordMetrics (signal : TradingSignal) (broker strategyId : String) : Handler ρ Unit :=
  suppress do
    Prog.perform (.recordSignalGenerated signal broker)
    Prog.perform (.incrementCount s!"strategies.{strategyId}.signals" broker)

def emitSignal (svc : Service) (signal : TradingSignal) (broker strategyId : String) :
    Handler ρ Unit :=
  if broker ∉ svc.activeBrokers then throw ⟨"ValueError", s!"Invalid broker: {broker}", .builtin⟩
  else
    let topic := (TopicMap.mk broker).signalsRaw
    if !validateBrokerTopicPair topic broker then
      throw ⟨"ValueError", s!"Topic {topic} does not match broker {broker}", .builtin⟩
    else do
      Prog.perform .getProducer
      Prog.perform (.send (signalRecord signal broker strategyId))
      recordMetrics signal broker strategyId

/-- `signal_type_map`, but for HOLD, which is skipped. -/
def signalTypeOf (text : String) : Option SignalType :=
  if text = "BUY" then some .buy else if text = "SELL" then some .sell else none

/-- Between 0 and 1; a number over 1 is a percentage. -/
def normalizeConfidence (raw : ℚ) : ℚ := max 0 (min 1 (if 1 < raw then raw / 100 else raw))

/-- `TradingSignal(..)`, which takes an integral quantity and a finite price. -/
def tradingSignal (strategyId : String) (tick : MarketTick) (side : SignalType) (r : SignalResult) :
    Except Exc TradingSignal :=
  match r.price with
  | .num (.fin price) =>
    if r.quantity.den = 1 then .ok
      { strategyId := strategyId
        instrumentToken := tick.instrumentToken
        signalType := side
        quantity := r.quantity.num
        price := some price
        timestamp := tick.timestamp
        confidence := some (normalizeConfidence r.confidence)
        metadata := some (r.metadata.getD .empty) }
    else .error ⟨"ValidationError",
      "Input should be a valid integer, got a number with a fractional part", .builtin⟩
  | _ => .error ⟨"ValidationError", "Input should be a finite number", .builtin⟩

def targets (svc : Service) (config : StrategyConfig) : List String :=
  config.activeBrokers.filter (· ∈ svc.activeBrokers)

def emitResult (svc : Service) (tick : MarketTick) (strategyId : String) (config : StrategyConfig)
    (r : SignalResult) : Handler ρ Unit :=
  match signalTypeOf r.signalType with
  | none => pure ()
  | some side =>
    match tradingSignal strategyId tick side r with
    | .error e => throw e
    | .ok signal => gather ((targets svc config).map fun broker => emitSignal svc signal broker strategyId)

-- ---------------------------------------------------------------------------
-- `_handle_market_tick`
-- ---------------------------------------------------------------------------

def processStrategy (svc : Service) (tick : MarketTick) (strategyId : String) : Handler ρ Unit := do
  let s ← get
  match s.get? strategyId with
  | none => pure ()
  | some executor => do
    let processed := executor.processTick tick
    set (s.set strategyId processed.2)
    match processed.1 with
    | .error e => throw e
    | .ok none => pure ()
    | .ok (some r) => emitResult svc tick strategyId executor.config r

/-- The loop over the interested strategies: what one of them raises is
logged, and the next one is processed. -/
def processStrategies (svc : Service) (tick : MarketTick) : List String → Handler ρ Unit
  | [] => pure ()
  | strategyId :: rest => do
    suppress (processStrategy svc tick strategyId)
    processStrategies svc tick rest

/-- The integer that a key of a dictionary equals, if it is hashable. -/
def asKey : Value → Except Exc (Option ℤ)
  | .int n => .ok (some n)
  | .bool b => .ok (some (if b then 1 else 0))
  | .float repr =>
    match Decimal.ofText repr with
    | some (.num (.fin q)) => .ok (if q.den = 1 then some q.num else none)
    | _ => .ok none
  | .container .. => .error ⟨"TypeError", "unhashable type: 'list'", .builtin⟩
  | .null | .str _ => .ok none

/-- `instrument_to_strategies.get(instrument_token, [])` -/
def interestedStrategyIds (svc : Service) (instrumentToken : Value) : Except Exc (List String) :=
  (asKey instrumentToken).map fun token => (token.bind svc.instrumentToStrategies.get?).getD []

def handleMarketTick (svc : Service) (marketOpen : Bool) (message : Streaming.Envelope Data) :
    Handler ρ Unit :=
  if !Risk.isEventType message.type .marketTick || !marketOpen then pure ()
  else match message.data with
    | .other v =>
      throw ⟨"AttributeError", s!"'{v.typeName}' object has no attribute 'get'", .builtin⟩
    | .object fields tick =>
      let instrumentToken := fields.get "instrument_token"
      if !instrumentToken.truthy then pure ()
      else match interestedStrategyIds svc instrumentToken with
        | .error e => throw e
        | .ok [] => pure ()
        | .ok strategyIds =>
          match tick with
          | .error e => throw e
          | .ok tick => processStrategies svc tick strategyIds

end AlphaPanda.StrategyRunner
