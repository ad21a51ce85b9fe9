import AlphaPanda.Events
import AlphaPanda.Lib.Interleave
import AlphaPanda.Streaming.ErrorHandling

/-!
# The reliability layer

How a record gets from a consumer to the handler of a service: the duplicate
check, the handler, the commit and the mark, and the error handler with its
retry and its dead letter queue. `σ` and `ω` are the state and the operations
of the service, `δ` is what the `data` field of a message holds for it.
-/

namespace AlphaPanda.Streaming

open Coroutine

/-- The fields of a message value that are read on the way to the handler. -/
structure Envelope (δ : Type) where
  id : Value
  type : Value
  data : δ
  deriving DecidableEq

/-- The value of a record: a JSON object, or some other JSON. -/
inductive Body (δ : Type) where
  | object (e : Envelope δ)
  | other (v : Value)
  deriving DecidableEq

structure Record (δ : Type) where
  topic : String
  partition : ℤ
  offset : ℕ
  key : Option String
  timestamp : ℤ
  value : Body δ
  deriving DecidableEq

/-- `topic.split('.')[0] if '.' in topic else 'unknown'` -/
def brokerOf (topic : String) : String :=
  if '.' ∈ topic.toList then String.ofList (topic.toList.takeWhile (· ≠ '.')) else "unknown"

def Record.broker (m : Record δ) : String := brokerOf m.topic

structure State (σ : Type) where
  service : σ
  /-- The keys that Redis holds. -/
  redis : List String
  localCache : List String
  messageRetryCount : Dict String ℕ

def State.start (service : σ) (redis : List String) : State σ := ⟨service, redis, [], .empty⟩

structure DlqEvent (δ : Type) where
  originalTopic : String
  originalPartition : ℤ
  originalOffset : ℕ
  originalTimestamp : ℤ
  serviceName : String
  errorType : ErrorType
  errorClass : String
  errorMessage : String
  failureReason : String
  retryCount : ℕ
  key : String
  value : Body δ
  headers : List (String × String)
  canReplay : Bool
  suggestedDelayMinutes : ℤ
  consumerGroup : String
  requiresManualReview : Bool
  deriving DecidableEq

inductive Op (ω δ : Type) where
  | service (op : ω)
  | exists (key : String)
  | setex (key : String) (ttlSeconds : ℕ)
  | commit (topic : String) (partition : ℤ) (offset : ℕ)
  | sleep (seconds : ℚ)
  | sendDlq (topic key : String) (event : DlqEvent δ)
  deriving DecidableEq

abbrev Layer (σ ω δ : Type) := Prog (State σ) (Op ω δ) Exc

def commit (m : Record δ) : Layer σ ω δ Unit :=
  Prog.perform (.commit m.topic m.partition (m.offset + 1))

/-- `pop` is the element that `set.pop` picks. -/
structure DeduplicationManager where
  serviceName : String
  ttlSeconds : ℕ := 3600
  pop : List String → String
  pop_mem : l ≠ [] → pop l ∈ l

namespace DeduplicationManager

def cacheKey (eventId broker : String) : String :=
  if broker = "" then eventId else broker ++ ":" ++ eventId

def redisKey (d : DeduplicationManager) (cacheKey : String) : String :=
  "dedup:" ++ d.serviceName ++ ":" ++ cacheKey

def cacheMaxSize : ℕ := 1000

def evict (d : DeduplicationManager) : ℕ → List String → List String
  | 0, cache => cache
  | _ + 1, [] => []
  | n + 1, cache => d.evict n (cache.erase (d.pop cache))

def addToLocalCache (d : DeduplicationManager) (cacheKey : String) (cache : List String) : List String :=
  let cache := if cacheMaxSize ≤ cache.length then d.evict (cacheMaxSize / 4) cache else cache
  cache.insert cacheKey

def isDuplicate (d : DeduplicationManager) (eventId broker : String) : Layer σ ω δ Bool := do
  let k := cacheKey eventId broker
  let s ← get
  if k ∈ s.localCache then pure true
  else do
    Prog.perform (.exists (d.redisKey k))
    let s ← get
    if d.redisKey k ∈ s.redis then do
      modify fun s => { s with localCache := d.addToLocalCache k s.localCache }
      pure true
    else pure false

def markProcessed (d : DeduplicationManager) (eventId broker : String) : Layer σ ω δ Unit := do
  let k := cacheKey eventId broker
  Prog.perform (.setex (d.redisKey k) d.ttlSeconds)
  modify fun s => { s with
    redis := s.redis.insert (d.redisKey k)
    localCache := d.addToLocalCache k s.localCache }

end DeduplicationManager

-- ---------------------------------------------------------------------------
-- ErrorHandler
-- ---------------------------------------------------------------------------

/-- `random` is what the jitter of a retry draws. -/
structure ErrorHandler where
  serviceName : String
  random : String → ℕ → ℚ

def messageKey (m : Record δ) : String := s!"{m.topic}:{m.partition}:{m.offset}"

def suggestedReplayDelay : ErrorType → ℤ
  | .transient => 5
  | .infrastructure => 15
  | .rateLimit => 30
  | .business => 60
  | .authentication => 120
  | .poison => -1

namespace ErrorHandler

def dlqEvent (h : ErrorHandler) (m : Record δ) (e : Exc) (reason : String) (retryCount : ℕ) :
    DlqEvent δ :=
  let errorType := ErrorClassifier.classifyError e
  { originalTopic := m.topic
    originalPartition := m.partition
    originalOffset := m.offset
    originalTimestamp := m.timestamp
    serviceName := h.serviceName
    errorType := errorType
    errorClass := e.name
    errorMessage := e.message
    failureReason := reason
    retryCount := retryCount
    key := m.key.getD "None"
    value := m.value
    -- The adapter object that stands for the record has no `headers`.
    headers := []
    canReplay := errorType ≠ .poison
    suggestedDelayMinutes := suggestedReplayDelay errorType
    consumerGroup := "alpha-panda." ++ h.serviceName
    requiresManualReview := errorType ∈ [.poison, .authentication] }

/-- `DLQPublisher.send_to_dlq`; whether the event was sent. -/
def sendToDlq (h : ErrorHandler) (m : Record δ) (e : Exc) (reason : String) (retryCount : ℕ) :
    Layer σ ω δ Bool :=
  tryCatch
    (do
      Prog.perform (.sendDlq (m.topic ++ ".dlq") (m.key.getD "None")
        (h.dlqEvent m e reason retryCount))
      pure true)
    fun _ => pure false

def sendToDlqAndCommit (h : ErrorHandler) (m : Record δ) (e : Exc) (reason : String)
    (retryCount : ℕ) : Layer σ ω δ Unit := do
  let sent ← h.sendToDlq m e reason retryCount
  if sent then do
    modify fun s => { s with messageRetryCount := s.messageRetryCount.pop (messageKey m) }
    commit m
  else pure ()

def delRetryCount (m : Record δ) : Layer σ ω δ Unit := do
  let s ← get
  match s.messageRetryCount.get? (messageKey m) with
  | none => throw ⟨"KeyError", s!"'{messageKey m}'", .builtin⟩
  | some _ => set { s with messageRetryCount := s.messageRetryCount.pop (messageKey m) }

/-- `_retry_processing`: one more attempt after a delay. What the attempt
raises, its commit included, is only logged. -/
def retryProcessing (h : ErrorHandler) (processing : Layer σ ω δ Unit) (m : Record δ) (e : Exc)
    (config : RetryConfig) (retryCount : ℕ) : Layer σ ω δ Bool := do
  modify fun s => { s with
    messageRetryCount := s.messageRetryCount.set (messageKey m) (retryCount + 1) }
  Prog.perform (.sleep (retryDelay e config retryCount (h.random (messageKey m) retryCount)))
  tryCatch
    (do
      processing
      delRetryCount m
      commit m
      pure true)
    fun _ => pure false

def handleProcessingError (h : ErrorHandler) (processing : Layer σ ω δ Unit) (m : Record δ)
    (e : Exc) : Layer σ ω δ Bool := do
  let s ← get
  let retryCount := (s.messageRetryCount.get? (messageKey m)).getD 0
  match plan e retryCount with
  | .dlq reason => do
    h.sendToDlqAndCommit m e reason retryCount
    pure true
  | .retry config => h.retryProcessing processing m e config retryCount

end ErrorHandler

structure ReliabilityLayer (σ ω δ : Type) where
  handlerFunc : Envelope δ → String → Layer σ ω δ Unit
  deduplicator : Option DeduplicationManager
  errorHandler : Option ErrorHandler

namespace ReliabilityLayer

def alreadyProcessed (rl : ReliabilityLayer σ ω δ) (m : Record δ) (eventId : Value) :
    Layer σ ω δ Bool :=
  match rl.deduplicator with
  | some d => if eventId.truthy then d.isDuplicate eventId.text m.broker else pure false
  | none => pure false

def commitAndMark (rl : ReliabilityLayer σ ω δ) (m : Record δ) (value : Envelope δ) :
    Layer σ ω δ Unit := do
  commit m
  match rl.deduplicator with
  | some d => if value.id.truthy then d.markProcessed value.id.text m.broker else pure ()
  | none => pure ()

def attempt (rl : ReliabilityLayer σ ω δ) (m : Record δ) (value : Envelope δ) :
    Layer σ ω δ Unit := do
  rl.handlerFunc value m.topic
  rl.commitAndMark m value

def onError (rl : ReliabilityLayer σ ω δ) (m : Record δ) (value : Envelope δ) (e : Exc) :
    Layer σ ω δ Unit :=
  match rl.errorHandler with
  | some h => do
    -- Whether it was handled is not looked at.
    let _ ← h.handleProcessingError (rl.handlerFunc value m.topic) m e
    pure ()
  | none => commit m

def processMessage (rl : ReliabilityLayer σ ω δ) (m : Record δ) : Layer σ ω δ Unit :=
  match m.value with
  | .other v =>
    throw ⟨"AttributeError", s!"'{v.typeName}' object has no attribute 'get'", .builtin⟩
  | .object value => do
    let duplicate ← rl.alreadyProcessed m value.id
    if duplicate then commit m
    else tryCatch (rl.attempt m value) (rl.onError m value)

end ReliabilityLayer

/-- A record as it is delivered: which Redis keys have expired by then, and
how its environment answers while it is processed. -/
structure Arrival (δ : Type) where
  record : Record δ
  expired : List String
  answers : List (Option Exc)

/-- What became of an arrival: the state it met, the operations of its
processing and how that ended. -/
structure Delivery (σ ω δ : Type) where
  arrival : Arrival δ
  before : State σ
  log : List (Op ω δ × Option Exc)
  result : Except Exc Unit

abbrev Delivery.record (d : Delivery σ ω δ) : Record δ := d.arrival.record

def State.expire (s : State σ) (expired : List String) : State σ :=
  { s with redis := s.redis.filter (· ∉ expired) }

namespace ReliabilityLayer

def deliver (rl : ReliabilityLayer σ ω δ) (s : State σ) (a : Arrival δ) :
    Outcome (State σ) (Op ω δ) Exc Unit :=
  (rl.processMessage a.record).exec a.answers (World.start (s.expire a.expired))

def delivery (rl : ReliabilityLayer σ ω δ) (s : State σ) (a : Arrival δ) : Delivery σ ω δ :=
  ⟨a, s.expire a.expired, (rl.deliver s a).world.log, (rl.deliver s a).result⟩

/-- `ServiceOrchestrator._consumption_loop`: one record after the other, until
one raises. -/
def consumptionLoop (rl : ReliabilityLayer σ ω δ) :
    State σ → List (Arrival δ) → List (Delivery σ ω δ)
  | _, [] => []
  | s, a :: rest =>
    rl.delivery s a ::
      match (rl.deliver s a).result with
      | .ok _ => rl.consumptionLoop (rl.deliver s a).world.st rest
      | .error _ => []

def deliveries (rl : ReliabilityLayer σ ω δ) :
    State σ → List (Arrival δ) → List (Delivery σ ω δ)
  | _, [] => []
  | s, a :: rest => rl.delivery s a :: rl.deliveries (rl.deliver s a).world.st rest

end ReliabilityLayer

/-- A service whose handler is one operation: to invoke it with a message
value and a topic. -/
abbrev Invocation (δ : Type) := Envelope δ × String

def invoking (deduplicator : Option DeduplicationManager) (errorHandler : Option ErrorHandler) :
    ReliabilityLayer Unit (Invocation δ) δ where
  handlerFunc value topic := Prog.perform (.service (value, topic))
  deduplicator := deduplicator
  errorHandler := errorHandler

end AlphaPanda.Streaming
