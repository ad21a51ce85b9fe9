import AlphaPanda.Lib.Decimal
import AlphaPanda.Lib.Dict

/-!
# Events

The payloads of `core/schemas/events.py` that the modelled services read and
publish. A payload that parsed is a value of its structure; amounts are exact
rationals, since the models reject a NaN or infinite `Decimal`.
-/

namespace AlphaPanda

-- ---------------------------------------------------------------------------
-- JSON values
-- ---------------------------------------------------------------------------

/-- A JSON value as Python holds it. A float is given by its `repr`. -/
inductive Value where
  | null
  | bool (b : Bool)
  | int (n : ℤ)
  | float (repr : String)
  | str (s : String)
  | container (repr : String) (nonempty : Bool)
  deriving DecidableEq, Repr

namespace Value

def text : Value → String
  | .null => "None"
  | .bool b => if b then "True" else "False"
  | .int n => toString n
  | .float repr => repr
  | .str s => s
  | .container repr _ => repr

/-- `type(v).__name__` of a value that is no object. -/
def typeName : Value → String
  | .null => "NoneType"
  | .bool _ => "bool"
  | .int _ => "int"
  | .float _ => "float"
  | .str _ => "str"
  | .container .. => "list"

def truthy : Value → Bool
  | .null => false
  | .bool b => b
  | .int n => n ≠ 0
  | .float repr => (Decimal.ofText repr).all Decimal.truthy
  | .str s => s ≠ ""
  | .container _ nonempty => nonempty

/-- `float(v)`; `none` where it raises. -/
def toFloat : Value → Option Decimal
  | .bool b => some (.ofRat (if b then 1 else 0))
  | .int n => some (.ofRat n)
  | .float repr => Decimal.ofText repr
  | .str s => Decimal.ofFloatText s
  | .null | .container .. => none

/-- `Decimal(str(v))`; `none` where it raises. -/
def toDecimal (v : Value) : Option Decimal := Decimal.ofText v.text

end Value

/-- `datetime`, by the two parts of its text. -/
structure Timestamp where
  date : String
  time : String
  deriving DecidableEq, Repr

def Timestamp.isoformat (t : Timestamp) : String := t.date ++ "T" ++ t.time

def Timestamp.text (t : Timestamp) : String := t.date ++ " " ++ t.time

-- ---------------------------------------------------------------------------
-- Payloads
-- ---------------------------------------------------------------------------

inductive EventType where
  | marketTick
  | tradingSignal
  | validatedSignal
  | rejectedSignal
  | orderPlaced
  | orderFilled
  | orderFailed
  | pnlSnapshot
  | systemError
  deriving DecidableEq, Repr

def EventType.value : EventType → String
  | .marketTick => "market_tick"
  | .tradingSignal => "trading_signal"
  | .validatedSignal => "validated_signal"
  | .rejectedSignal => "rejected_signal"
  | .orderPlaced => "order_placed"
  | .orderFilled => "order_filled"
  | .orderFailed => "order_failed"
  | .pnlSnapshot => "pnl_snapshot"
  | .systemError => "system_error"

inductive SignalType where
  | buy
  | sell
  | hold
  deriving DecidableEq, Repr

inductive ExecutionMode where
  | paper
  | zerodha
  deriving DecidableEq, Repr

abbrev Metadata := Dict String Value

structure TradingSignal where
  strategyId : String
  instrumentToken : ℤ
  signalType : SignalType
  quantity : ℤ
  price : Option ℚ := none
  timestamp : Timestamp
  confidence : Option ℚ := none
  metadata : Option Metadata := none
  deriving DecidableEq

structure ValidatedSignal where
  originalSignal : TradingSignal
  validatedQuantity : ℤ
  validatedPrice : Option ℚ := none
  riskChecks : List (String × Bool) := []
  timestamp : Timestamp
  deriving DecidableEq

structure RejectedSignal where
  originalSignal : TradingSignal
  rejectionReason : String
  riskChecks : List (String × Bool)
  timestamp : Timestamp
  deriving DecidableEq

/-- The order ids are opaque: the `n`-th one generated. -/
abbrev OrderId := ℕ

inductive OrderStatus where
  | pending
  | placed
  | filled
  | cancelled
  | rejected
  | failed
  deriving DecidableEq, Repr

structure OrderPlaced where
  orderId : OrderId
  instrumentToken : ℤ
  signalType : SignalType
  quantity : ℤ
  price : Option ℚ
  timestamp : Timestamp
  broker : String
  status : OrderStatus
  strategyId : String
  executionMode : ExecutionMode
  deriving DecidableEq

structure OrderFilled where
  orderId : OrderId
  instrumentToken : ℤ
  quantity : ℤ
  fillPrice : ℚ
  timestamp : Timestamp
  broker : String
  side : SignalType
  strategyId : String
  signalType : SignalType
  executionMode : ExecutionMode
  fees : Option ℚ
  deriving DecidableEq

structure OrderFailed where
  strategyId : String
  instrumentToken : ℤ
  signalType : SignalType
  quantity : ℤ
  price : Option ℚ
  orderId : OrderId
  executionMode : ExecutionMode
  errorMessage : String
  timestamp : Timestamp
  broker : String
  deriving DecidableEq

structure PnlSnapshot where
  broker : String
  instrumentToken : ℤ
  realizedPnl : ℚ
  unrealizedPnl : ℚ
  totalPnl : ℚ
  timestamp : Timestamp
  deriving DecidableEq

/-- `md.get(name)`, where an absent key and a null are both `None`. -/
def Metadata.find (md : Metadata) (name : String) : Option Value :=
  match md.get? name with
  | some .null | none => none
  | some v => some v

/-- `signal.metadata or {}`. -/
def TradingSignal.md (s : TradingSignal) : Metadata := s.metadata.getD .empty

end AlphaPanda
