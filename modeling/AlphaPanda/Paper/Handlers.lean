import AlphaPanda.Paper.Orders

/-!
# The two handlers

`_handle_validated_signal` and `_handle_market_tick` as coroutines, and the
service as an event loop with one consumer for each.
-/

namespace AlphaPanda.Paper

open Coroutine

/-- A message on `paper.signals.validated`: its type, and its data or why
`ValidatedSignal(**data)` refuses it. -/
structure SignalMessage where
  type : Value
  data : Except String ValidatedSignal

structure TickMessage where
  type : Value
  instrumentToken : ℤ
  lastPrice : Value

-- ---------------------------------------------------------------------------
-- Publishing
-- ---------------------------------------------------------------------------

def orderRecord (topic : String) (s : TradingSignal) (t : Timestamp) (data : Payload)
    (eventType : EventType) : Record :=
  ⟨topic, PartitioningKeys.orderKey s.strategyId s.instrumentToken t.text, data, eventType, "paper"⟩

def orderFailed (v : ValidatedSignal) (orderId : OrderId) (reason : String) : OrderFailed :=
  let s := v.originalSignal
  { strategyId := s.strategyId
    instrumentToken := s.instrumentToken
    signalType := s.signalType
    quantity := v.validatedQuantity
    price := match v.validatedPrice with
      | some q => if q = 0 then s.price else some q
      | none => s.price
    orderId := orderId
    executionMode := .paper
    errorMessage := reason
    timestamp := v.timestamp
    broker := "paper" }

def failedRecord (v : ValidatedSignal) (orderId : OrderId) (reason : String) : Record :=
  orderRecord (TopicMap.mk "paper").ordersFailed v.originalSignal v.timestamp
    (.failed (orderFailed v orderId reason)) .orderFailed

/-- `_emit_order_failed`. Nothing it raises leaves it. -/
def emitOrderFailed (v : ValidatedSignal) (reason : String) : Handler Unit :=
  suppress do
    Prog.perform .getProducer
    let orderId ← generateEventId
    Prog.perform (.send (failedRecord v orderId reason))

def orderFilled (c : PaperTradingSettings) (o : Order) (orderId : OrderId) (qty : ℤ) : OrderFilled :=
  { orderId := orderId
    instrumentToken := o.signal.instrumentToken
    quantity := qty
    fillPrice := o.fillPrice
    timestamp := o.validated.timestamp
    broker := "paper"
    side := o.signal.signalType
    strategyId := o.signal.strategyId
    signalType := o.signal.signalType
    executionMode := .paper
    fees := fees c o.fillPrice qty }

def filledRecord (c : PaperTradingSettings) (o : Order) (orderId : OrderId) (qty : ℤ) : Record :=
  orderRecord (TopicMap.mk "paper").ordersFilled o.signal o.validated.timestamp
    (.filled (orderFilled c o orderId qty)) .orderFilled

def Order.apply (c : PaperTradingSettings) (o : Order) (qty : ℤ) : Portfolio → Portfolio :=
  applyFillToPortfolio o.signal.strategyId o.signal.instrumentToken o.signal.signalType qty
    o.fillPrice (fees c o.fillPrice qty)

def emitFills (c : PaperTradingSettings) (o : Order) (orderId : OrderId) : List ℤ → Handler Unit
  | [] => pure ()
  | qty :: parts => do
    Prog.perform (.send (filledRecord c o orderId qty))
    modify fun s => { s with portfolio := o.apply c qty s.portfolio }
    emitFills c o orderId parts

def pnlSnapshot (s : State) (v : ValidatedSignal) : Option PnlSnapshot :=
  let k := key v.originalSignal
  (unrealizedPnl s k).map fun unrealized =>
    { broker := "paper"
      instrumentToken := v.originalSignal.instrumentToken
      realizedPnl := s.portfolio.realizedOf k
      unrealizedPnl := unrealized
      totalPnl := s.portfolio.realizedOf k + unrealized
      timestamp := v.timestamp }

def pnlRecord (v : ValidatedSignal) (pnl : PnlSnapshot) : Record :=
  ⟨(TopicMap.mk "paper").pnlSnapshots,
    "portfolio_snapshot_paper:" ++ v.originalSignal.strategyId, .pnl pnl, .pnlSnapshot, "paper"⟩

/-- The PnL snapshot and the Redis metrics; `last` is the last part's fill. -/
def emitPnlSnapshot (v : ValidatedSignal) (last : OrderFilled) : Handler Unit :=
  suppress do
    let s ← get
    match pnlSnapshot s v with
    | none => throw ⟨"ValidationError", "Input should be a finite number", .builtin⟩
    | some pnl => do
      Prog.perform (.send (pnlRecord v pnl))
      suppress (Prog.perform (.recordOrderProcessed last))
      suppress (Prog.perform (.recordPortfolioUpdate pnl))

-- ---------------------------------------------------------------------------
-- `_handle_validated_signal`
-- ---------------------------------------------------------------------------

def simulateLatency (c : PaperTradingSettings) (rng : Rng) : Handler Unit :=
  if 0 < c.latencyMsMean ∨ 0 < c.latencyMsStd then
    suppress (Prog.perform (.sleep (max 0 (rng.gauss c.latencyMsMean c.latencyMsStd) / 1000)))
  else pure ()

/-- The balance starts at `starting_cash` with a strategy's first order. -/
def initCash (c : PaperTradingSettings) (strategyId : String) (p : Portfolio) : Portfolio :=
  match p.cash.get? strategyId with
  | some _ => p
  | none => { p with cash := p.cash.set strategyId c.startingCash }

def afterFills (svc : Service) (o : Order) (orderId : OrderId) (preQty qty : ℤ) : Handler Unit := do
  if o.signal.signalType = .buy ∧ preQty = 0 then
    modify (setBracketIfConfigured (key o.signal) o.fillPrice o.signal.md)
  emitPnlSnapshot o.validated (orderFilled svc.settings o orderId qty)

def partsOf (svc : Service) (o : Order) (qty : ℤ) : List ℤ :=
  splitParts svc.settings (svc.rng (idemKey o.validated)) qty

def fillOrder (svc : Service) (o : Order) (orderId : OrderId) (preQty qty : ℤ) : Handler Unit := do
  Prog.perform .getProducer
  emitFills svc.settings o orderId (partsOf svc o qty)
  afterFills svc o orderId preQty ((partsOf svc o qty).getLastD qty)

def executeOrder (svc : Service) (o : Order) : Handler Unit := do
  let orderId ← generateEventId
  modify fun s => { s with portfolio := initCash svc.settings o.signal.strategyId s.portfolio }
  let s ← get
  let held := (s.portfolio.position (key o.signal)).qty
  match sizeOrder svc.settings (s.portfolio.cashOf o.signal.strategyId) held o with
  | .error (.raises e) => throw e
  | .error (.fails reason) => emitOrderFailed o.validated reason
  | .ok qty => do
    modify fun s => { s with sized := s.sized ++ [(orderId, held)] }
    fillOrder svc o orderId held qty

def executeSignal (svc : Service) (v : ValidatedSignal) : Handler Unit := do
  let rng := svc.rng (idemKey v)
  simulateLatency svc.settings rng
  match route svc.settings rng v with
  | .error e => throw e
  | .ok (.failed reason) => emitOrderFailed v reason
  | .ok (.pending stop) => modify fun s => { s with pendingStops := s.pendingStops ++ [stop] }
  | .ok (.fillable order) => executeOrder svc order

def handleValidatedSignal (svc : Service) (m : SignalMessage) : Handler Unit :=
  if m.type ≠ .str EventType.validatedSignal.value then pure ()
  else match m.data with
    | .error _ => throw (.validation "Invalid validated signal payload")
    | .ok v => do
      let s ← get
      if h : idemKey v ∈ s.seen.keys then pure ()
      else do
        set { s with seen := s.seen.record (idemKey v) h }
        executeSignal svc v

-- ---------------------------------------------------------------------------
-- `_handle_market_tick`
-- ---------------------------------------------------------------------------

/-- The price a bracket exits at, if it triggers; the stop loss has priority. -/
def bracketTrigger (b : Bracket) : Decimal → Except Exc (Option ExtRat)
  | .nan => if b.tp = none ∧ b.sl = none then .ok none else .error .invalidOperation
  | .num lp => .ok (
    if b.sl.any lp.le then b.sl
    else if b.tp.any (·.le lp) then b.tp
    else none)

def bracketExit (key : Key) (orderId : OrderId) (qty : ℤ) (price : ℚ) (now : Timestamp) : OrderFilled :=
  { orderId := orderId
    instrumentToken := key.2
    quantity := qty
    fillPrice := price
    timestamp := now
    broker := "paper"
    side := .sell
    strategyId := key.1
    signalType := .sell
    executionMode := .paper
    fees := none }

def bracketExitRecord (key : Key) (orderId : OrderId) (qty : ℤ) (price : ℚ) (now : Timestamp) : Record :=
  ⟨(TopicMap.mk "paper").ordersFilled, PartitioningKeys.orderKey key.1 key.2 now.isoformat,
    .filled (bracketExit key orderId qty price now), .orderFilled, "paper"⟩

/-- `_emit_bracket_exit_fill`. Nothing it raises leaves it: neither an
infinite price, which `OrderFilled` refuses, nor the call that follows the
send, which leaves out the `fees` of `_apply_fill_to_portfolio`. -/
def emitBracketExitFill (svc : Service) (key : Key) (qty : ℤ) (price : ExtRat) : Handler Unit :=
  suppress do
    Prog.perform .getProducer
    let orderId ← generateEventId
    match price with
    | .fin p => do
      modify fun s => { s with sized := s.sized ++ [(orderId, s.found)] }
      Prog.perform (.send (bracketExitRecord key orderId qty p (svc.now orderId)))
      throw ⟨"TypeError",
        "PaperTradingService._apply_fill_to_portfolio() missing 1 required positional argument: 'fees'",
        .builtin⟩
    | _ => throw ⟨"ValidationError", "Input should be a finite number", .builtin⟩

/-- The loop over the brackets; returns the ones to remove. -/
def checkBrackets (svc : Service) (inst : ℤ) (lp : Decimal) : List (Key × Bracket) → Handler (List Key)
  | [] => pure []
  | (key, br) :: rest =>
    if key.2 ≠ inst then checkBrackets svc inst lp rest
    else do
      let s ← get
      let qty := (s.portfolio.position key).qty
      if qty ≤ 0 then return key :: (← checkBrackets svc inst lp rest)
      match bracketTrigger br lp with
      | .error e => throw e
      | .ok none => checkBrackets svc inst lp rest
      | .ok (some price) => do
        modify fun s => { s with found := (s.portfolio.position key).qty }
        emitBracketExitFill svc key qty price
        return key :: (← checkBrackets svc inst lp rest)

def evaluateBrackets (svc : Service) (inst : ℤ) (lp : Decimal) : Handler Unit := do
  let s ← get
  let toRemove ← checkBrackets svc inst lp s.brackets.entries
  modify fun s => { s with brackets := toRemove.foldl Dict.pop s.brackets }

/-- Build and execute the synthetic signal of a triggered stop. Its first
line reads the clock through `datetime`, a name the module does not import,
so the rest of it never runs. -/
def executeStop (_od : PendingStop) : Handler Unit :=
  throw ⟨"NameError", "name 'datetime' is not defined", .builtin⟩

/-- The loop over the pending stops; returns the ones that stay pending. -/
def checkStops (inst : ℤ) (lp : Decimal) : List PendingStop → Handler (List PendingStop)
  | [] => pure []
  | od :: rest =>
    if od.instrumentToken ≠ inst then return od :: (← checkStops inst lp rest)
    else if od.quantity ≤ 0 then checkStops inst lp rest
    else match lp with
      | .nan => throw .invalidOperation
      | .num price =>
        if stopTriggered od.side price od.stopPrice then do
          suppress (executeStop od)
          checkStops inst lp rest
        else return od :: (← checkStops inst lp rest)

def evaluateStops (inst : ℤ) (lp : Decimal) : Handler Unit := do
  let s ← get
  let pendingAfter ← checkStops inst lp s.pendingStops
  modify fun s => { s with pendingStops := pendingAfter }

def handleMarketTick (svc : Service) (m : TickMessage) : Handler Unit :=
  if m.type ≠ .str EventType.marketTick.value ∨ m.instrumentToken = 0 then pure ()
  else match m.lastPrice.toDecimal with
    | none => pure ()
    | some lp => do
      modify fun s => { s with lastPrice := s.lastPrice.set m.instrumentToken lp }
      evaluateBrackets svc m.instrumentToken lp
      evaluateStops m.instrumentToken lp

inductive Consumer where
  | signals
  | ticks
  deriving DecidableEq, Repr

inductive Message where
  | signal (m : SignalMessage)
  | tick (m : TickMessage)

def Message.consumer : Message → Consumer
  | .signal _ => .signals
  | .tick _ => .ticks

def handle (svc : Service) : Message → Handler Unit
  | .signal m => handleValidatedSignal svc m
  | .tick m => handleMarketTick svc m

def Service.system (svc : Service) : System Consumer Message State Op Exc where
  consumer := Message.consumer
  handler := handle svc

def Service.plain : Service where
  settings := { slippagePercent := 0, commissionPercent := 0 }
  rng _ := ⟨fun _ _ => 0, fun _ => 0, fun _ a _ => a, fun h => ⟨le_rfl, h⟩⟩
  now _ := ⟨"2024-01-02", "09:30:00+00:00"⟩

def signalOf (side : SignalType) (qty : ℤ) (price : ℚ) (time : String) (md : Metadata) :
    ValidatedSignal :=
  let t : Timestamp := ⟨"2024-01-02", time⟩
  { originalSignal := ⟨"s1", 1, side, qty, some price, t, none, some md⟩
    validatedQuantity := qty
    validatedPrice := some price
    timestamp := t }

def Message.ofSignal (v : ValidatedSignal) : Message := .signal ⟨.str "validated_signal", .ok v⟩

def Message.ofPrice (lastPrice : String) : Message := .tick ⟨.str "market_tick", 1, .str lastPrice⟩

def published (log : List (Op × Option Exc)) : List Record :=
  log.filterMap fun
    | (.send r, none) => some r
    | _ => none

def Record.fill? (r : Record) : Option OrderFilled :=
  match r.data with
  | .filled f => some f
  | _ => none

/-- The ORDER_FILLED events published on `paper.orders.filled`. -/
def fills (log : List (Op × Option Exc)) : List OrderFilled := (published log).filterMap Record.fill?

end AlphaPanda.Paper
