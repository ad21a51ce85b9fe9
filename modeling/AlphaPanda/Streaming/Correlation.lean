import AlphaPanda.Streaming.Service
import AlphaPanda.Topics

/-!
# Correlation ids

The context variables that the reliability layer sets for a message, in the task
that consumes one message after the other, and the events that the handler
sends through the producer. Both draw new ids from one supply.
-/

namespace AlphaPanda.Streaming

open Coroutine

-- ---------------------------------------------------------------------------
-- The context
-- ---------------------------------------------------------------------------

/-- The context variables; `None` is null. -/
structure Context where
  correlationId : Value := .null
  causationId : Value := .null
  requestMetadata : Dict String Value := .empty

/-- The context of a task, and how many ids were drawn. -/
structure Task where
  context : Context := {}
  generated : ℕ := 0

/-- The ids in the order in which they are drawn. -/
structure IdSupply where
  id : ℕ → String
  nonempty : id n ≠ ""

namespace CorrelationContext

def ensureCorrelationId (ids : IdSupply) (t : Task) : Task :=
  if t.context.correlationId.truthy then t
  else
    { context := { t.context with correlationId := .str (ids.id t.generated) }
      generated := t.generated + 1 }

def startNewTrace (ids : IdSupply) (serviceName operation : String) (t : Task) : Task :=
  let t := ensureCorrelationId ids t
  { t with context := { t.context with
      requestMetadata := .ofList [("trace_id", t.context.correlationId),
        ("root_service", .str serviceName), ("root_operation", .str operation)] } }

def continueTrace (correlationId eventId : Value) (serviceName operation : String) (t : Task) : Task :=
  { t with context :=
      { correlationId := correlationId
        causationId := eventId
        requestMetadata := ((t.context.requestMetadata.set "current_service" (.str serviceName)).set
          "current_operation" (.str operation)).set "parent_event_id" eventId } }

end CorrelationContext

-- ---------------------------------------------------------------------------
-- MessageProducer
-- ---------------------------------------------------------------------------

/-- The fields of a payload that the producer reads, and the rest. `type` is
the field as the schema reads it. -/
structure Payload (π : Type) where
  id : Option Value := none
  correlationId : Option Value := none
  type : Option (Except Exc EventType) := none
  rest : π

structure SendRequest (π : Type) where
  topic : String
  key : String
  data : Payload π
  eventType : Option EventType := none
  correlationId : Option String := none
  broker : String := "unknown"

structure EventEnvelope (π : Type) where
  id : String
  correlationId : String
  causationId : Option String := none
  broker : String
  type : EventType
  key : String
  source : String
  version : ℤ := 1
  data : Payload π

/-- A payload with an `id` is published as it is. -/
inductive Event (π : Type) where
  | envelope (e : EventEnvelope π)
  | wrapped (data : Payload π)

def Event.correlationId : Event π → Value
  | .envelope e => .str e.correlationId
  | .wrapped data => data.correlationId.getD .null

def SendRequest.names (r : SendRequest π) : Option Value :=
  if r.data.id.isSome then r.data.correlationId else (r.correlationId.filter (· ≠ "")).map .str

/-- What a handler asks for, and what becomes of it. -/
inductive Request (π ω : Type) where
  | send (request : SendRequest π)
  | other (op : ω)

inductive Sent (π ω : Type) where
  | publish (request : SendRequest π) (event : Event π)
  | other (op : ω)

structure MessageProducer where
  serviceName : String
  ids : IdSupply

namespace MessageProducer

def isMarketTicksTopic (topic : String) : Bool :=
  topic ∈ ["market.ticks", "market.equity.ticks", "market.crypto.ticks", "market.options.ticks",
    "market.forex.ticks"] ||
    ("market.".toList.isPrefixOf topic.toList && ".ticks".toList.isSuffixOf topic.toList)

def envelopeType (p : MessageProducer) (r : SendRequest π) : Except Exc EventType :=
  match r.eventType, r.data.type with
  | some type, _ => .ok type
  | none, some type => type
  | none, none =>
    if isMarketTicksTopic r.topic then .ok .marketTick
    else .error ⟨"ValueError", s!"event_type is required for non-market topics (service={p.serviceName}, topic={r.topic}, key={r.key})", .builtin⟩

def generateEventId (p : MessageProducer) : Prog Task ω Exc String := do
  let t ← get
  set { t with generated := t.generated + 1 }
  pure (p.ids.id t.generated)

def correlationId (p : MessageProducer) (r : SendRequest π) : Prog Task ω Exc String :=
  match r.correlationId.filter (· ≠ "") with
  | some c => pure c
  | none => p.generateEventId

/-- The answer to `publish` is what the send raises, if anything. -/
def send (p : MessageProducer) (r : SendRequest π) : Prog Task (Sent π ω) Exc Unit :=
  if r.data.id.isSome then Prog.perform (.publish r (.wrapped r.data))
  else do
    let id ← p.generateEventId
    match p.envelopeType r with
    | .error e => throw e
    | .ok type => do
      let correlationId ← p.correlationId r
      Prog.perform (.publish r (.envelope
        { id := id
          correlationId := correlationId
          broker := r.broker
          type := type
          key := r.key
          source := p.serviceName
          data := r.data }))

def carryOut (p : MessageProducer) : Request π ω → Prog Task (Sent π ω) Exc Unit
  | .send r => p.send r
  | .other op => Prog.perform (.other op)

end MessageProducer

/-- What the `data` of a message holds for its handler, beside the message's
correlation id. -/
structure Correlated (δ : Type) where
  correlationId : Value
  data : δ

/-- A record, the task once its context is set up, and the operations of its
processing. -/
structure Traced (π ω δ : Type) where
  record : Record (Correlated δ)
  task : Task
  log : List (Op (Sent π ω) (Correlated δ) × Option Exc)

structure TracedFlow (σ π ω δ : Type) where
  serviceName : String
  producer : MessageProducer
  handler : Envelope (Correlated δ) → String → Prog σ (Request π ω) Exc Unit
  deduplicator : Option DeduplicationManager
  errorHandler : Option ErrorHandler

namespace TracedFlow

variable {σ π ω δ : Type} (f : TracedFlow σ π ω δ)

def setUp (m : Record (Correlated δ)) (t : Task) : Task :=
  match m.value with
  | .other _ => t
  | .object value =>
    if value.data.correlationId.truthy then
      CorrelationContext.continueTrace value.data.correlationId value.id f.serviceName
        ("process_" ++ m.topic) t
    else CorrelationContext.startNewTrace f.producer.ids f.serviceName ("process_" ++ m.topic) t

def handle (value : Envelope (Correlated δ)) (topic : String) : Prog (σ × Task) (Sent π ω) Exc Unit :=
  (f.handler value topic).implement f.producer.carryOut

def processMessage (m : Record (Correlated δ)) :
    Prog (State Unit × σ × Task) (Op (Sent π ω) (Correlated δ)) Exc Unit := do
  modify fun s => (s.1, s.2.1, f.setUp m s.2.2)
  ((invoking f.deduplicator f.errorHandler).processMessage m).implement (carryOut f.handle)

def process (s : State Unit × σ × Task) (a : Arrival (Correlated δ)) :
    Outcome (State Unit × σ × Task) (Op (Sent π ω) (Correlated δ)) Exc Unit :=
  (f.processMessage a.record).exec a.answers (World.start (s.1.expire a.expired, s.2))

def run : State Unit × σ × Task → List (Arrival (Correlated δ)) → List (Traced π ω δ)
  | _, [] => []
  | s, a :: rest =>
    ⟨a.record, f.setUp a.record s.2.2, (f.process s a).world.log⟩ :: run (f.process s a).world.st rest

end TracedFlow

end AlphaPanda.Streaming
