import AlphaPanda.Events
import AlphaPanda.Exceptions
import AlphaPanda.Lib.Coroutine
import AlphaPanda.Topics

/-!
# The Zerodha trading service

`ZerodhaTradingService` acknowledges each validated signal with a placed order
and a placeholder snapshot.
-/

namespace AlphaPanda.Zerodha

open Coroutine

/-- A message on `zerodha.signals.validated`: its type, and its data or why
`ValidatedSignal(**data)` refuses it. -/
structure SignalMessage where
  type : Value
  data : Except String ValidatedSignal

structure State where
  nextId : OrderId := 0

inductive Payload where
  | placed (p : OrderPlaced)
  | pnl (p : PnlSnapshot)
  deriving DecidableEq

structure Record where
  topic : String
  key : String
  data : Payload
  eventType : EventType
  broker : String
  deriving DecidableEq

inductive Op where
  | getProducer
  | send (r : Record)
  | recordOrderProcessed (p : OrderPlaced)
  | recordPortfolioUpdate (portfolioId : String) (p : PnlSnapshot)
  deriving DecidableEq

abbrev Handler := Prog State Op Exc

def generateEventId : Handler OrderId := do
  let s ← get
  set { s with nextId := s.nextId + 1 }
  pure s.nextId

/-- `validated.validated_price or signal.price` -/
def orderPrice (v : ValidatedSignal) : Option ℚ :=
  match v.validatedPrice with
  | some q => if q = 0 then v.originalSignal.price else some q
  | none => v.originalSignal.price

def orderPlaced (v : ValidatedSignal) (orderId : OrderId) : OrderPlaced :=
  { orderId := orderId
    instrumentToken := v.originalSignal.instrumentToken
    signalType := v.originalSignal.signalType
    quantity := v.validatedQuantity
    price := orderPrice v
    timestamp := v.timestamp
    broker := "zerodha"
    status := .placed
    strategyId := v.originalSignal.strategyId
    executionMode := .zerodha }

def placedRecord (v : ValidatedSignal) (orderId : OrderId) : Record :=
  { topic := (TopicMap.mk "zerodha").ordersSubmitted
    key := PartitioningKeys.orderKey v.originalSignal.strategyId v.originalSignal.instrumentToken
      v.timestamp.text
    data := .placed (orderPlaced v orderId)
    eventType := .orderPlaced
    broker := "zerodha" }

/-- A placeholder: the portfolio is not known here. -/
def pnlSnapshot (v : ValidatedSignal) : PnlSnapshot :=
  { broker := "zerodha"
    instrumentToken := v.originalSignal.instrumentToken
    realizedPnl := 0
    unrealizedPnl := 0
    totalPnl := 0
    timestamp := v.timestamp }

def pnlRecord (v : ValidatedSignal) : Record :=
  { topic := (TopicMap.mk "zerodha").pnlSnapshots
    key := "portfolio_snapshot_zerodha:" ++ v.originalSignal.strategyId
    data := .pnl (pnlSnapshot v)
    eventType := .pnlSnapshot
    broker := "zerodha" }

/-- Publish the placed order and the snapshot. Nothing it raises leaves it. -/
def emitOrderPlaced (v : ValidatedSignal) (orderId : OrderId) : Handler Unit :=
  suppress do
    Prog.perform .getProducer
    Prog.perform (.send (placedRecord v orderId))
    Prog.perform (.send (pnlRecord v))
    suppress (Prog.perform (.recordOrderProcessed (orderPlaced v orderId)))
    suppress (Prog.perform
      (.recordPortfolioUpdate ("zerodha:" ++ v.originalSignal.strategyId) (pnlSnapshot v)))

/-- `_handle_validated_signal`. A payload that does not parse is logged and
dropped. -/
def handleValidatedSignal (m : SignalMessage) : Handler Unit :=
  if m.type ≠ .str EventType.validatedSignal.value then pure ()
  else match m.data with
    | .error _ => pure ()
    | .ok v => do
      let orderId ← generateEventId
      emitOrderPlaced v orderId

def published (log : List (Op × Option Exc)) : List Record :=
  log.filterMap fun
    | (.send r, none) => some r
    | _ => none

end AlphaPanda.Zerodha
