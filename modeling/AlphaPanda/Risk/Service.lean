import AlphaPanda.Risk.Rules
import AlphaPanda.Streaming.Reliability
import AlphaPanda.Topics

/-!
# The risk manager

`RiskManagerService` and its `RiskStateManager`. What it keeps is in Redis:
JSON items of collections, counters and prices, under keys that start with the
namespace it was last initialized with. What a read of Redis finds expired is
taken out before the message is handled.
-/

namespace AlphaPanda.Risk

open Coroutine

-- ---------------------------------------------------------------------------
-- State and operations
-- ---------------------------------------------------------------------------

/-- The keys of Redis by their type, and how often the clock was read. -/
structure State where
  collections : Dict String Value := .empty
  counters : Dict String ℤ := .empty
  values : Dict String Decimal := .empty
  clock : ℕ := 0

def State.expire (s : State) (expired : List String) : State :=
  { s with
    collections := expired.foldl Dict.pop s.collections
    counters := expired.foldl Dict.pop s.counters
    values := expired.foldl Dict.pop s.values }

inductive Payload where
  | validated (v : ValidatedSignal)
  | rejected (r : RejectedSignal)
  deriving DecidableEq

structure Record where
  topic : String
  key : String
  data : Payload
  eventType : EventType
  broker : String
  deriving DecidableEq

inductive Op where
  | keys (pattern : String)
  | mget (keys : List String)
  | incr (key : String)
  | setValue (key : String) (value : Decimal)
  | expire (key : String) (ttlSeconds : ℕ)
  | getProducer
  | send (r : Record)
  | recordSignalValidated (passed : Bool) (broker : String)
  deriving DecidableEq

abbrev Handler := Prog State Op Exc

/-- What the service is configured with and reads from outside: the clock at
its `n`-th reading, and the local date then. -/
structure Service where
  activeBrokers : List String
  now : ℕ → Timestamp
  today : ℕ → String
  format : FloatFormat

/-- The `data` of a message: a JSON object, with what `TradingSignal(**data)`
makes of it, or some other JSON. -/
inductive Data where
  | object (fields : Fields) (signal : Except String TradingSignal)
  | other (v : Value)

def readClock : Handler ℕ := do
  let s ← get
  set { s with clock := s.clock + 1 }
  pure s.clock

-- ---------------------------------------------------------------------------
-- RiskStateManager
-- ---------------------------------------------------------------------------

def redisError (what : String) (e : Exc) : Exc :=
  ⟨"RedisError", s!"Failed to {what}: {e.message}", .transient .infrastructure 0 5⟩

def redis (what : String) (op : Op) : Handler Unit :=
  tryCatch (Prog.perform op) fun e => throw (redisError what e)

/-- The managers are initialized with each active broker in turn. -/
def Service.namespace (svc : Service) : String := svc.activeBrokers.getLastD ""

def Service.redisKey (svc : Service) (keyType identifier : String) : String :=
  let baseKey := s!"risk:{keyType}:{identifier}"
  if svc.namespace = "" then baseKey else svc.namespace ++ ":" ++ baseKey

/-- The entries whose keys match a pattern: what it starts with, and `*`. -/
def scan (start : String) (entries : State → List (String × ν)) : Handler (List (String × ν)) := do
  redis s!"get keys by pattern {start}*" (.keys (start ++ "*"))
  let s ← get
  let keys := ((entries s).map Prod.fst).filter fun k => start.toList <+: k.toList
  if keys = [] then pure []
  else do
    redis "get multiple keys" (.mget keys)
    let s ← get
    pure ((entries s).filter fun e => e.1 ∈ keys)

def lastPart (key : String) : String :=
  String.ofList (key.toList.reverse.takeWhile (· ≠ ':')).reverse

def afterFirst (sep : List Char) : List Char → List Char
  | [] => []
  | c :: cs => if sep <+: c :: cs then (c :: cs).drop sep.length else afterFirst sep cs

def beforeFirst (sep : List Char) : List Char → List Char
  | [] => []
  | c :: cs => if sep <+: c :: cs then [] else c :: beforeFirst sep cs

def secondPart (sep key : String) : String :=
  String.ofList (beforeFirst sep.toList (afterFirst sep.toList key.toList))

def getState (svc : Service) : Handler RiskState := do
  let positions ← scan (svc.redisKey "collection" "positions:") (·.collections.entries)
  let trades ← scan (svc.redisKey "counter" "daily_trades_") (·.counters.entries)
  let prices ← scan (svc.redisKey "value" "recent_price_") (·.values.entries)
  pure
    { positions := .ofList (positions.map fun e => (lastPart e.1, e.2))
      dailyTrades := .ofList (trades.map fun e =>
        ("daily_trades_" ++ secondPart "daily_trades_" e.1, e.2))
      recentPrices := .ofList (prices.map fun e =>
        ("recent_price_" ++ secondPart "recent_price_" e.1, e.2)) }

def incrementDailyTrades (svc : Service) (strategyId broker : String) : Handler Unit := do
  let n ← readClock
  let counter := if broker = "" then s!"daily_trades_{strategyId}_{svc.today n}"
    else s!"daily_trades_{broker}_{strategyId}_{svc.today n}"
  let key := svc.redisKey "counter" counter
  redis s!"increment key {key}" (.incr key)
  modify fun s => { s with counters := s.counters.set key ((s.counters.get? key).getD 0 + 1) }
  redis s!"increment key {key}" (.expire key (86400 * 2))

def updateRecentPrice (svc : Service) (instrumentToken : String) (price : Decimal) :
    Handler Unit := do
  let key := svc.redisKey "value" s!"recent_price_{instrumentToken}"
  redis s!"set key {key}" (.setValue key price)
  modify fun s => { s with values := s.values.set key price }
  redis s!"set key {key}" (.expire key 3600)

def emitSignal (r : Record) : Handler Unit := do
  Prog.perform .getProducer
  Prog.perform (.send r)

/-- Parse the signal, publish the verdict on it, and count it. -/
def emitVerdict (svc : Service) (signal : Except String TradingSignal) (passed : Bool)
    (broker : String) (record : TradingSignal → Timestamp → Record) : Handler Unit :=
  match signal with
  | .error text => throw ⟨"ValidationError", text, .builtin⟩
  | .ok s => do
    let n ← readClock
    emitSignal (record s (svc.now n))
    suppress (Prog.perform (.recordSignalValidated passed broker))

def validatedRecord (key broker : String) (result : ValidationResult) (s : TradingSignal)
    (t : Timestamp) : Record :=
  { topic := (TopicMap.mk broker).signalsValidated
    key := key
    data := .validated
      { originalSignal := s
        validatedQuantity := s.quantity
        validatedPrice := s.price
        riskChecks := result.ruleResults
        timestamp := t }
    eventType := .validatedSignal
    broker := broker }

def emitValidatedSignal (svc : Service) (key broker : String) (signal : Except String TradingSignal)
    (result : ValidationResult) : Handler Unit :=
  emitVerdict svc signal true broker (validatedRecord key broker result)

def rejectedRecord (key broker : String) (result : ValidationResult) (s : TradingSignal)
    (t : Timestamp) : Record :=
  { topic := (TopicMap.mk broker).signalsRejected
    key := key
    data := .rejected
      { originalSignal := s
        rejectionReason := "; ".intercalate result.rejectionReasons
        riskChecks := result.ruleResults
        timestamp := t }
    eventType := .rejectedSignal
    broker := broker }

def emitRejectedSignal (svc : Service) (key broker : String) (signal : Except String TradingSignal)
    (result : ValidationResult) : Handler Unit :=
  emitVerdict svc signal false broker (rejectedRecord key broker result)

def updateRiskStateForSignal (svc : Service) (fields : Fields) (broker : String) : Handler Unit :=
  let strategyId := fields.get "strategy_id"
  if strategyId.truthy then incrementDailyTrades svc strategyId.text broker else pure ()

def handleTradingSignal (svc : Service) (key broker : String) (fields : Fields)
    (signal : Except String TradingSignal) : Handler Unit := do
  let riskState ← getState svc
  let n ← readClock
  match evaluateSignal svc.format (svc.today n) fields riskState with
  | .error e => throw e
  | .ok result =>
    if result.passed then do
      emitValidatedSignal svc key broker signal result
      updateRiskStateForSignal svc fields broker
    else emitRejectedSignal svc key broker signal result

def handleMarketTick (svc : Service) (fields : Fields) : Handler Unit :=
  let instrumentToken := fields.get "instrument_token"
  let lastPrice := fields.get "last_price"
  if instrumentToken.truthy && lastPrice.truthy then
    match toFloat lastPrice with
    | .error e => throw e
    | .ok price => updateRecentPrice svc instrumentToken.text price
  else pure ()

/-- `_is_event_type`; the values are in lower case. -/
def isEventType (t : Value) (et : EventType) : Bool :=
  match t with
  | .str s => Streaming.ErrorClassifier.lower s = et.value
  | _ => false

def handleMessage (svc : Service) (message : Streaming.Envelope Data) (topic : String) :
    Handler Unit :=
  let broker := TopicMap.getBrokerFromTopic topic
  if isEventType message.type .tradingSignal || isEventType message.type .marketTick then
    match message.data with
    | .other v =>
      throw ⟨"AttributeError", s!"'{v.typeName}' object has no attribute 'get'", .builtin⟩
    | .object fields signal =>
      if isEventType message.type .tradingSignal then
        let key := PartitioningKeys.tradingSignalKey (fields.getD "strategy_id" (.str "")).text
          (fields.getD "instrument_token" (.str "")).text
        handleTradingSignal svc key broker fields signal
      else handleMarketTick svc fields
  else pure ()

end AlphaPanda.Risk
