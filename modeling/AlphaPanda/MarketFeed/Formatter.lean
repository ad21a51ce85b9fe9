import AlphaPanda.Instruments.Csv

/-!
# The tick formatter

`TickFormatter.format_tick` on what a ticker delivers: a dictionary of values
of any type. What a conversion raises, and what is caught, is as in the source.
-/

namespace AlphaPanda.MarketFeed.Formatter

-- ---------------------------------------------------------------------------
-- Raw values
-- ---------------------------------------------------------------------------

/-- Microseconds since 1970, and the offset from UTC of an aware one. -/
structure DateTime where
  micros : ℤ
  offset : Option ℤ
  deriving DecidableEq

/-- A value of Python. A number of another type than `int` is a `float`; an
`other` object has no items. -/
inductive Raw where
  | null
  | bool (b : Bool)
  | int (n : ℤ)
  | float (x : Decimal)
  | str (s : String)
  | list (items : List Raw)
  | dict (entries : List (String × Raw))
  | datetime (d : DateTime)
  | other (text : String)

abbrev RawTick := List (String × Raw)

namespace Raw

def typeName : Raw → String
  | .null => "NoneType"
  | .bool _ => "bool"
  | .int _ => "int"
  | .float _ => "float"
  | .str _ => "str"
  | .list _ => "list"
  | .dict _ => "dict"
  | .datetime _ => "datetime.datetime"
  | .other _ => "object"

def truthy : Raw → Bool
  | .null => false
  | .bool b => b
  | .int n => n ≠ 0
  | .float x => x.truthy
  | .str s => s ≠ ""
  | .list items => !items.isEmpty
  | .dict entries => !entries.isEmpty
  | .datetime _ | .other _ => true

def typeError (message : String) : Exc := ⟨"TypeError", message, .builtin⟩

def conversionSyntax : Exc := ⟨"InvalidOperation", "[<class 'decimal.ConversionSyntax'>]", .builtin⟩

def readDecimal : Raw → Option Decimal
  | .int n => some (.ofRat n)
  | .float x => some x
  | .str s | .other s => Decimal.ofText s
  | _ => none

def toDecimal (v : Raw) : Except Exc Decimal :=
  match v.readDecimal with
  | some x => .ok x
  | none => .error conversionSyntax

def toInt : Raw → Except Exc ℤ
  | .bool b => .ok (if b then 1 else 0)
  | .int n => .ok n
  | .float (.num (.fin q)) => .ok (if 0 ≤ q then ⌊q⌋ else ⌈q⌉)
  | .float (.num _) => .error ⟨"OverflowError", "cannot convert float infinity to integer", .builtin⟩
  | .float .nan => .error ⟨"ValueError", "cannot convert float NaN to integer", .builtin⟩
  | .str s =>
    match Instruments.parseInt s with
    | some n => .ok n
    | none => .error ⟨"ValueError", s!"invalid literal for int() with base 10: '{s}'", .builtin⟩
  | v => .error (typeError (s!"int() argument must be a string, a bytes-like object or a real " ++
      s!"number, not '{v.typeName}'"))

def item (v : Raw) (key : String) : Except Exc Raw :=
  match v with
  | .dict entries =>
    match entries.lookup key with
    | some x => .ok x
    | none => .error ⟨"KeyError", s!"'{key}'", .builtin⟩
  | .str _ => .error (typeError "string indices must be integers, not 'str'")
  | .list _ => .error (typeError "list indices must be integers or slices, not str")
  | v => .error (typeError s!"'{v.typeName}' object is not subscriptable")

def getList (v : Raw) (key : String) : Except Exc Raw :=
  match v with
  | .dict entries => .ok ((entries.lookup key).getD (.list []))
  | v => .error ⟨"AttributeError", s!"'{v.typeName}' object has no attribute 'get'", .builtin⟩

def firstFive : Raw → Except Exc (List Raw)
  | .list items => .ok (items.take 5)
  | .str s => .ok ((s.toList.take 5).map fun c => .str (String.singleton c))
  | .dict _ => .error (typeError "unhashable type: 'slice'")
  | v => .error (typeError s!"'{v.typeName}' object is not subscriptable")

end Raw

/-- The exceptions of these classes give the default. -/
def catching (classes : List String) (default : α) (x : Except Exc α) : Except Exc α :=
  match x with
  | .ok a => .ok a
  | .error e => if e.name ∈ classes then .ok default else .error e

structure Ohlc where
  open' : Decimal
  high : Decimal
  low : Decimal
  close : Decimal
  deriving DecidableEq

def price (v : Raw) (key : String) : Except Exc Decimal := do (← v.item key).toDecimal

def formatOhlc (ohlc : Raw) : Except Exc (Option Ohlc) :=
  if !ohlc.truthy then .ok none
  else catching ["KeyError", "ValueError", "TypeError"] none do
    return some ⟨← price ohlc "open", ← price ohlc "high", ← price ohlc "low", ← price ohlc "close"⟩

structure Level where
  price : Decimal
  quantity : ℤ
  orders : ℤ
  deriving DecidableEq

structure Depth where
  buy : List Level
  sell : List Level
  deriving DecidableEq

/-- Every exception makes an order invalid; only a dictionary raises none. -/
def isValidDepthOrder : Raw → Bool
  | .dict entries =>
    ["price", "quantity", "orders"].all fun field =>
      match entries.lookup field with
      | none | some .null => false
      | some _ => true
  | _ => false

def formatLevel (order : Raw) : Except Exc Level := do
  return ⟨← price order "price", ← (← order.item "quantity").toInt, ← (← order.item "orders").toInt⟩

def formatSide : List Raw → Except Exc (List Level)
  | [] => .ok []
  | order :: rest =>
    if isValidDepthOrder order then
      match formatLevel order with
      | .ok level => (formatSide rest).map (level :: ·)
      | .error e =>
        if e.name ∈ ["ValueError", "TypeError", "InvalidOperation"] then formatSide rest else .error e
    else formatSide rest

def formatMarketDepth (depth : Raw) : Except Exc (Option Depth) :=
  if !depth.truthy then .ok none
  else catching ["KeyError", "ValueError", "TypeError"] none do
    let buy ← formatSide (← (← depth.getList "buy").firstFive)
    let sell ← formatSide (← (← depth.getList "sell").firstFive)
    return if buy = [] ∧ sell = [] then none else some ⟨buy, sell⟩

/-- The clock, what `datetime` reads of a text, and `str(v)` of a value that
is no text, `int` or constant. -/
structure Environment where
  now : DateTime
  fromIsoFormat : String → Option DateTime
  strptime : String → Option DateTime
  text : Raw → String

def DateTime.toUtc (d : DateTime) : DateTime := ⟨d.micros - d.offset.getD 0, some 0⟩

def normalizeToUtc (env : Environment) : Raw → DateTime
  | .datetime d => d.toUtc
  | .str s =>
    match env.fromIsoFormat s with
    | some d => d.toUtc
    | none =>
      match env.strptime s with
      | some d => { d with offset := some 0 }
      | none => env.now
  | _ => env.now

def formatDatetime (env : Environment) : Raw → Option DateTime
  | .null => none
  | v => some (normalizeToUtc env v)

def get (rawTick : RawTick) (key : String) : Raw := (rawTick.lookup key).getD .null

def formatTimestamp (env : Environment) (rawTick : RawTick) : DateTime :=
  let exchange := get rawTick "exchange_timestamp"
  normalizeToUtc env (if exchange.truthy then exchange else get rawTick "last_trade_time")

-- ---------------------------------------------------------------------------
-- Ticks
-- ---------------------------------------------------------------------------

def text (env : Environment) : Raw → String
  | .null => "None"
  | .bool b => if b then "True" else "False"
  | .int n => toString n
  | .str s => s
  | v => env.text v

structure FormattedTick where
  instrumentToken : ℤ
  lastPrice : Decimal
  timestamp : DateTime
  volumeTraded : Option ℤ
  lastTradedQuantity : Option ℤ
  averageTradedPrice : Option Decimal
  totalBuyQuantity : Option ℤ
  totalSellQuantity : Option ℤ
  change : Option Decimal
  ohlc : Option Ohlc
  oi : Option ℤ
  oiDayHigh : Option ℤ
  oiDayLow : Option ℤ
  lastTradeTime : Option (Option DateTime)
  exchangeTimestamp : Option (Option DateTime)
  depth : Option Depth
  mode : Option String
  tradable : Option Bool
  deriving DecidableEq

def optional (rawTick : RawTick) (key : String) (f : Raw → Except Exc α) : Except Exc (Option α) :=
  match rawTick.lookup key with
  | none => .ok none
  | some v => (f v).map some

def formatTick (env : Environment) (rawTick : RawTick) : Except Exc FormattedTick := do
  let instrumentToken ← (← (Raw.dict rawTick).item "instrument_token").toInt
  let lastPrice ← price (.dict rawTick) "last_price"
  let volumeTraded ← optional rawTick "volume_traded" Raw.toInt
  let lastTradedQuantity ← optional rawTick "last_traded_quantity" Raw.toInt
  let averageTradedPrice ← optional rawTick "average_traded_price" Raw.toDecimal
  let totalBuyQuantity ← optional rawTick "total_buy_quantity" Raw.toInt
  let totalSellQuantity ← optional rawTick "total_sell_quantity" Raw.toInt
  let change ← optional rawTick "change" Raw.toDecimal
  let ohlc ← formatOhlc (get rawTick "ohlc")
  let oi ← optional rawTick "oi" Raw.toInt
  let oiDayHigh ← optional rawTick "oi_day_high" Raw.toInt
  let oiDayLow ← optional rawTick "oi_day_low" Raw.toInt
  let depth ← formatMarketDepth (get rawTick "depth")
  return {
    instrumentToken := instrumentToken
    lastPrice := lastPrice
    timestamp := formatTimestamp env rawTick
    volumeTraded := volumeTraded
    lastTradedQuantity := lastTradedQuantity
    averageTradedPrice := averageTradedPrice
    totalBuyQuantity := totalBuyQuantity
    totalSellQuantity := totalSellQuantity
    change := change
    ohlc := ohlc
    oi := oi
    oiDayHigh := oiDayHigh
    oiDayLow := oiDayLow
    lastTradeTime := (rawTick.lookup "last_trade_time").map (formatDatetime env)
    exchangeTimestamp := (rawTick.lookup "exchange_timestamp").map (formatDatetime env)
    depth := depth
    mode := (rawTick.lookup "mode").map (text env)
    tradable := (rawTick.lookup "tradable").map Raw.truthy }

end AlphaPanda.MarketFeed.Formatter
