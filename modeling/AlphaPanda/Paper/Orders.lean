import AlphaPanda.Paper.State

/-!
# Routing, sizing and splitting an order

The decisions of `_handle_validated_signal` between its awaits, each as a
function of what it reads.
-/

namespace AlphaPanda.Paper

/-- `str.upper()` as far as it matters for ASCII words: `ı` is also an `I`. -/
def upper (s : String) : String :=
  s.map fun c => if c = 'ı' then 'I' else c.toUpper

def orderType (md : Metadata) : String := ((md.get? "order_type").elim "market" Value.text).toLower

def timeInForce (md : Metadata) : String := upper ((md.get? "tif").elim "DAY" Value.text)

/-- `a or b` for a price: zero counts as absent. -/
def orPrice (a : Option ℚ) (b : ℚ) : ℚ :=
  match a with
  | some q => if q = 0 then b else q
  | none => b

def basePrice (v : ValidatedSignal) : ℚ :=
  orPrice v.validatedPrice (orPrice v.originalSignal.price 0)

def key (s : TradingSignal) : Key := (s.strategyId, s.instrumentToken)

def idemKey (v : ValidatedSignal) : String :=
  s!"{v.originalSignal.strategyId}:{v.originalSignal.instrumentToken}:{v.timestamp.isoformat}"

-- ---------------------------------------------------------------------------
-- Routing
-- ---------------------------------------------------------------------------

/-- The price, instrument and quantity guardrails: why the order fails. -/
def guardrails (c : PaperTradingSettings) (s : TradingSignal) (price : ℚ) : Option String :=
  if c.minPrice.any (price < ·) then some "Price below minimum"
  else if c.maxPrice.any (fun m => 0 < m ∧ m < price) then some "Price above maximum"
  else if c.allowedInstruments ≠ [] ∧ s.instrumentToken ∉ c.allowedInstruments then
    some "Instrument not allowed"
  else if s.quantity < max 1 c.minQuantity then some "Quantity below minimum"
  else if c.maxQuantity.any (· < s.quantity) then some "Quantity exceeds maximum"
  else none

/-- An order that is filled now, for as much as sizing leaves of `quantity`. -/
structure Order where
  validated : ValidatedSignal
  orderType : String
  tif : String
  quantity : ℤ
  /-- `fill_price_base`, the slippage included. -/
  fillPrice : ℚ
  deriving DecidableEq

def Order.signal (o : Order) : TradingSignal := o.validated.originalSignal

inductive Routed where
  | failed (reason : String)
  | pending (stop : PendingStop)
  | fillable (order : Order)
  deriving DecidableEq

def limitPrice (orderType : String) (md : Metadata) (price : ℚ) : Option Decimal :=
  let limit := (md.find "limit_price").bind Value.toDecimal
  if orderType = "limit" ∧ limit = none then some (.ofRat price) else limit

def isCrossing (side : SignalType) (price : ℚ) : Option Decimal → Except Exc Bool
  | none => .ok true
  | some .nan => .error .invalidOperation
  | some (.num limit) => .ok (if side = .buy then (ExtRat.fin price).le limit else limit.le (.fin price))

def stopTriggered (side : SignalType) (price : ExtRat) (stop : ExtRat) : Bool :=
  if side = .buy then stop.le price else price.le stop

/-- BUY pays up, SELL receives less. -/
def slipped (c : PaperTradingSettings) (side : SignalType) (price : ℚ) : ℚ :=
  price * (if side = .buy then 1 + c.slippagePercent / 100 else 1 - c.slippagePercent / 100)

/-- What an immediate fill leaves of `requested`; `crossing` tells whether a
limit order is fillable. -/
def fillableQuantity (orderType : String) (crossing : Bool) (requested : ℤ) : ℤ :=
  if orderType = "limit" ∧ !crossing then 0 else requested

def fillQuantity (rng : Rng) (tif orderType : String) (fillable requested : ℤ) : ℤ :=
  if tif = "IOC" ∧ 0 < fillable ∧ fillable < requested then
    max 1 ⌊requested * max (1 / 10) (min 1 (rng.random 0))⌋
  else if orderType = "limit" ∧ fillable = 0 then 0
  else requested

def routePlain (c : PaperTradingSettings) (rng : Rng) (v : ValidatedSignal) (orderType : String)
    (crossing : Bool) : Routed :=
  let tif := timeInForce v.originalSignal.md
  let requested := v.validatedQuantity
  let fillable := fillableQuantity orderType crossing requested
  if tif = "FOK" ∧ fillable < requested then .failed "FOK not fully fillable"
  else if tif = "IOC" ∧ fillable ≤ 0 then .failed "IOC no immediate fill available"
  else .fillable ⟨v, orderType, tif, fillQuantity rng tif orderType fillable requested,
    slipped c v.originalSignal.signalType (basePrice v)⟩

/-- A stop or stop-limit order: pending until its stop price is reached. -/
def routeStop (c : PaperTradingSettings) (v : ValidatedSignal) (orderType : String) :
    Except Exc Routed :=
  let s := v.originalSignal
  let tif := timeInForce s.md
  let limit := limitPrice orderType s.md (basePrice v)
  match (s.md.find "stop_price").bind Value.toDecimal with
  | none => .ok (.failed "Missing stop_price for stop order")
  | some .nan => .error .invalidOperation
  | some (.num stop) =>
    if !stopTriggered s.signalType (.fin (basePrice v)) stop then
      if tif = "IOC" ∨ tif = "FOK" then .ok (.failed "Stop not triggered for IOC/FOK")
      else .ok (.pending
        { strategyId := s.strategyId
          instrumentToken := s.instrumentToken
          side := s.signalType
          quantity := v.validatedQuantity
          stopPrice := stop
          limitPrice := if orderType = "stop_limit" then limit else none
          orderType := orderType
          createdAt := v.timestamp })
    else
      let order (orderType : String) : Routed := .fillable ⟨v, orderType, tif, v.validatedQuantity,
        slipped c s.signalType (basePrice v)⟩
      if orderType = "stop" then .ok (order "market")
      else (isCrossing s.signalType (basePrice v) limit).map fun crossing =>
        if crossing then order "limit" else .failed "Stop-limit not crossing"

/-- From the guardrails to the decision to fill, to wait or to fail. -/
def route (c : PaperTradingSettings) (rng : Rng) (v : ValidatedSignal) : Except Exc Routed :=
  let s := v.originalSignal
  let orderType := orderType s.md
  match guardrails c s (basePrice v) with
  | some reason => .ok (.failed reason)
  | none =>
    if orderType = "stop" ∨ orderType = "stop_limit" then routeStop c v orderType
    else if orderType = "limit" then
      (isCrossing s.signalType (basePrice v) (limitPrice orderType s.md (basePrice v))).map
        (routePlain c rng v orderType)
    else .ok (routePlain c rng v orderType true)

/-- Why an order has no quantity: its sizing raises, or the order fails. -/
inductive Unsized where
  | raises (e : Exc)
  | fails (reason : String)
  deriving DecidableEq

/-- Keep a quantity within a limit: FOK fails, IOC takes what there is. -/
def capQuantity (tif : String) (qty limit : ℤ) (fok other : String) : Except Unsized ℤ :=
  if tif = "FOK" ∧ limit < qty then .error (.fails fok)
  else if limit < qty then
    if tif = "IOC" ∧ 0 < limit then .ok limit else .error (.fails other)
  else .ok qty

def unitCost (c : PaperTradingSettings) (o : Order) : ℚ :=
  o.fillPrice * (1 + c.commissionPercent / 100)

def divisionImpossible : Exc :=
  ⟨"InvalidOperation", "[<class 'decimal.DivisionImpossible'>]", .builtin⟩

def capCash (c : PaperTradingSettings) (cash : ℚ) (o : Order) (qty : ℤ) : Except Unsized ℤ :=
  if o.signal.signalType = .buy ∧ 0 < unitCost c o then
    match Decimal.floorDiv cash (unitCost c o) with
    | none => .error (.raises divisionImpossible)
    | some maxAffordable =>
      capQuantity o.tif qty maxAffordable "FOK insufficient cash" "Insufficient cash"
  else .ok qty

def capNotional (c : PaperTradingSettings) (o : Order) (qty : ℤ) : Except Unsized ℤ :=
  match c.maxPositionNotional with
  | none => .ok qty
  | some notional =>
    if 0 < notional ∧ 0 < unitCost c o then
      if ⌊notional / unitCost c o⌋ ≤ 0 then .error (.fails "Exceeds max position notional")
      else capQuantity o.tif qty ⌊notional / unitCost c o⌋
        "FOK exceeds max position notional" "Exceeds max position notional"
    else .ok qty

def capHeld (held : ℤ) (o : Order) (qty : ℤ) : Except Unsized ℤ :=
  if o.signal.signalType ≠ .buy then
    capQuantity o.tif qty held "FOK exceeds position size" "No position to sell"
  else .ok qty

def sizeOrder (c : PaperTradingSettings) (cash : ℚ) (held : ℤ) (o : Order) : Except Unsized ℤ := do
  let qty ← capCash c cash o o.quantity
  let qty ← capNotional c o qty
  capHeld held o qty

/-- `n + 1` parts that add up to `remaining`: at least 1 each, while there
is at least 1 left for the later ones. -/
def drawParts (rng : Rng) (remaining : ℤ) : ℕ → List ℤ
  | 0 => [remaining]
  | n + 1 =>
    let take := rng.randint (n + 1) 1 (max 1 (remaining - (n + 1)))
    take :: drawParts rng (remaining - take) n

def maxParts (c : PaperTradingSettings) : ℤ := if c.maxPartials = 0 then 1 else c.maxPartials

def splitParts (c : PaperTradingSettings) (rng : Rng) (qty : ℤ) : List ℤ :=
  if 1 < qty ∧ 1 < maxParts c ∧ rng.random 1 < c.partialFillProb then
    drawParts rng qty ((rng.randint 0 2 (min (maxParts c) qty)).toNat - 1)
  else [qty]

def fees (c : PaperTradingSettings) (price : ℚ) (qty : ℤ) : Option ℚ :=
  if price * qty = 0 then none else some (price * qty * (c.commissionPercent / 100))

end AlphaPanda.Paper
