import AlphaPanda.Events
import AlphaPanda.Exceptions
import AlphaPanda.Lib.Interleave
import AlphaPanda.Topics

/-!
# The paper trading service

What `PaperTradingService` holds in memory, what it asks of its environment,
and the updates of its portfolio. Prices, cash and percentages are exact
rationals; logging and the Prometheus counters are left out.
-/

namespace AlphaPanda.Paper

open Coroutine

structure PaperTradingSettings where
  slippagePercent : ℚ := 5 / 100
  commissionPercent : ℚ := 1 / 10
  startingCash : ℚ := 1000000
  latencyMsMean : ℚ := 0
  latencyMsStd : ℚ := 0
  partialFillProb : ℚ := 0
  maxPartials : ℤ := 3
  minQuantity : ℤ := 1
  maxQuantity : Option ℤ := none
  minPrice : Option ℚ := some 0
  maxPrice : Option ℚ := none
  allowedInstruments : List ℤ := []
  maxPositionNotional : Option ℚ := none

/-- `random.Random(seed)`: what it draws, by the place of the draw in the
handler. -/
structure Rng where
  gauss : ℚ → ℚ → ℚ
  random : ℕ → ℚ
  randint : ℕ → ℤ → ℤ → ℤ
  randint_mem : a ≤ b → a ≤ randint n a b ∧ randint n a b ≤ b

/-- What the service is configured with and reads from outside. `now n` is
the clock when the `n`-th event id is generated. -/
structure Service where
  settings : PaperTradingSettings
  rng : String → Rng
  now : ℕ → Timestamp

-- ---------------------------------------------------------------------------
-- State
-- ---------------------------------------------------------------------------

structure SeenKeys where
  keys : List String
  queue : List String
  mem_iff : ∀ k, k ∈ keys ↔ k ∈ queue
  nodup : queue.Nodup
  bounded : queue.length < 2000

namespace SeenKeys

def empty : SeenKeys := ⟨[], [], by simp, by simp, by simp⟩

theorem queue_concat_ne_nil (s : SeenKeys) (key : String) : s.queue ++ [key] ≠ [] :=
  List.append_ne_nil_of_right_ne_nil _ (List.cons_ne_nil key [])

theorem nodup_concat {s : SeenKeys} (hq : key ∉ s.queue) : (s.queue ++ [key]).Nodup :=
  List.nodup_append.mpr ⟨s.nodup, by simp, by grind⟩

theorem mem_iff_tail {s : SeenKeys} {key : String} (hq : key ∉ s.queue)
    (hlen : s.queue.length + 1 = 2000) (k : String) :
    k ∈ (s.keys ++ [key]).filter (· ≠ (s.queue ++ [key]).head (s.queue_concat_ne_nil key)) ↔
      k ∈ (s.queue ++ [key]).tail := by
  obtain ⟨old, rest, hold⟩ : ∃ old rest, s.queue = old :: rest :=
    List.exists_cons_of_length_pos (by omega)
  have hnd := s.nodup
  have hmem := s.mem_iff k
  simp only [hold, List.nodup_cons, List.mem_cons, not_or] at hnd hmem hq
  simp only [hold, List.cons_append, List.head_cons, List.tail_cons, List.mem_filter,
    List.mem_append, List.mem_singleton, hmem, decide_eq_true_eq]
  grind

theorem mem_iff_concat (s : SeenKeys) (key k : String) :
    k ∈ s.keys ++ [key] ↔ k ∈ s.queue ++ [key] := by
  simp [s.mem_iff]

theorem tail_bounded (s : SeenKeys) (key : String) : (s.queue ++ [key]).tail.length < 2000 := by
  have hbounded := s.bounded
  simp only [List.length_tail, List.length_append, List.length_singleton]
  omega

theorem concat_bounded {s : SeenKeys} (key : String) (hlen : s.queue.length + 1 ≠ 2000) :
    (s.queue ++ [key]).length < 2000 := by
  have hbounded := s.bounded
  simp only [List.length_append, List.length_singleton]
  omega

/-- Record a new key; at `maxlen` the oldest one is dropped. -/
def record (s : SeenKeys) (key : String) (h : key ∉ s.keys) : SeenKeys :=
  have hq : key ∉ s.queue := fun hk => h ((s.mem_iff key).mpr hk)
  if hlen : s.queue.length + 1 = 2000 then
    { keys := (s.keys ++ [key]).filter (· ≠ (s.queue ++ [key]).head (s.queue_concat_ne_nil key))
      queue := (s.queue ++ [key]).tail
      mem_iff := mem_iff_tail hq hlen
      nodup := (nodup_concat hq).tail
      bounded := s.tail_bounded key }
  else
    { keys := s.keys ++ [key]
      queue := s.queue ++ [key]
      mem_iff := s.mem_iff_concat key
      nodup := nodup_concat hq
      bounded := concat_bounded key hlen }

theorem mem_record (s : SeenKeys) (h : key ∉ s.keys) : key ∈ (s.record key h).keys := by
  rw [(s.record key h).mem_iff]
  unfold record
  split
  · rename_i hlen
    obtain ⟨old, rest, hold⟩ : ∃ old rest, s.queue = old :: rest :=
      List.exists_cons_of_length_pos (by omega)
    simp [hold]
  · simp

end SeenKeys

/-- (strategy_id, instrument_token) -/
abbrev Key := String × ℤ

structure Position where
  qty : ℤ := 0
  avgPrice : ℚ := 0
  deriving DecidableEq

structure Bracket where
  tp : Option ExtRat
  sl : Option ExtRat
  deriving DecidableEq

structure PendingStop where
  strategyId : String
  instrumentToken : ℤ
  side : SignalType
  quantity : ℤ
  stopPrice : ExtRat
  limitPrice : Option Decimal
  orderType : String
  createdAt : Timestamp
  deriving DecidableEq

/-- `_positions`, `_realized` and `_cash`. -/
structure Portfolio where
  positions : Dict Key Position
  realized : Dict Key ℚ
  cash : Dict String ℚ
  deriving DecidableEq

structure State where
  seen : SeenKeys
  portfolio : Portfolio
  lastPrice : Dict ℤ Decimal
  brackets : Dict Key Bracket
  pendingStops : List PendingStop
  /-- How many event ids were generated. -/
  nextId : OrderId
  /-- Two history variables, which the service neither holds nor reads: the
  quantity the bracket loop last found held, and the quantity held when the
  order of each id was sized. -/
  found : ℤ
  sized : List (OrderId × ℤ)

def State.init : State := ⟨.empty, ⟨.empty, .empty, .empty⟩, .empty, .empty, [], 0, 0, []⟩

namespace Portfolio

def position (p : Portfolio) (key : Key) : Position := (p.positions.get? key).getD {}

def cashOf (p : Portfolio) (strategyId : String) : ℚ := (p.cash.get? strategyId).getD 0

def realizedOf (p : Portfolio) (key : Key) : ℚ := (p.realized.get? key).getD 0

theorem position_set {ps : Dict Key Position} :
    (Portfolio.mk (ps.set k pos) r c).position k' =
      if k' = k then pos else (Portfolio.mk ps r c).position k' := by
  simp only [position, Dict.get?_set]
  split <;> rfl

theorem cashOf_set {c : Dict String ℚ} :
    (Portfolio.mk ps r (c.set strategyId q)).cashOf s =
      if s = strategyId then q else (Portfolio.mk ps r c).cashOf s := by
  simp only [cashOf, Dict.get?_set]
  split <;> rfl

end Portfolio

inductive Payload where
  | filled (f : OrderFilled)
  | failed (f : OrderFailed)
  | pnl (p : PnlSnapshot)
  deriving DecidableEq

/-- `producer.send(topic, key, data, event_type, broker)` -/
structure Record where
  topic : String
  key : String
  data : Payload
  eventType : EventType
  broker : String
  deriving DecidableEq

inductive Op where
  | sleep (seconds : ℚ)
  /-- `_get_producer`, which raises when there is none. It does not suspend;
  letting it do so only adds interleavings. -/
  | getProducer
  | send (r : Record)
  | recordOrderProcessed (f : OrderFilled)
  | recordPortfolioUpdate (p : PnlSnapshot)
  deriving DecidableEq

abbrev Handler := Prog State Op Exc

abbrev PaperWorld := World State Op Exc

def generateEventId : Handler OrderId := do
  let s ← get
  set { s with nextId := s.nextId + 1 }
  pure s.nextId

def applyFillToPortfolio (strategyId : String) (instrumentToken : ℤ) (side : SignalType)
    (qty : ℤ) (price : ℚ) (fees : Option ℚ) (p : Portfolio) : Portfolio :=
  let key := (strategyId, instrumentToken)
  let q := (p.position key).qty
  let avg := (p.position key).avgPrice
  let feeVal := fees.getD 0
  if side = .buy then
    let newQty := q + qty
    let newAvg := if 0 < newQty then (avg * q + price * qty) / newQty else 0
    { p with
      positions := p.positions.set key ⟨newQty, newAvg⟩
      cash := p.cash.set strategyId (p.cashOf strategyId - price * qty - feeVal) }
  else
    let newQty := max 0 (q - qty)
    { realized := p.realized.set key (p.realizedOf key + (price - avg) * qty)
      cash := p.cash.set strategyId (p.cashOf strategyId + price * qty - feeVal)
      positions := p.positions.set key (if newQty = 0 then ⟨0, 0⟩ else ⟨newQty, avg⟩) }

/-- The percentages `_set_bracket_if_configured` reads: `float(md.get(name, 0.0) or 0.0)`. -/
def percentage (md : Metadata) (name : String) : Option Decimal :=
  match md.find name with
  | some v => if v.truthy then v.toFloat else some (.ofRat 0)
  | none => some (.ofRat 0)

/-- One side of a bracket: `entry_price * (1 ± pct / 100)` for a positive
percentage; `none` where the product is undefined. -/
def bracketPrice (entryPrice : ℚ) (sign : ℚ) : Decimal → Option (Option ExtRat)
  | .num (.fin p) => if 0 < p then some (some (.fin (entryPrice * (1 + sign * p / 100)))) else some none
  | .num .posInf =>
    (ExtRat.mulLeft entryPrice (if 0 < sign then .posInf else .negInf)).map some
  | .num .negInf | .nan => some none

/-- `_set_bracket_if_configured`: the bracket it sets, if it sets one. What
it raises is swallowed. -/
def bracketFor (entryPrice : ℚ) (md : Metadata) : Option Bracket :=
  let configured (name : String) := (md.find name).any Value.truthy
  if configured "bracket" ∨ configured "take_profit_pct" ∨ configured "stop_loss_pct" then do
    let tpPct ← percentage md "take_profit_pct"
    let slPct ← percentage md "stop_loss_pct"
    let tp ← bracketPrice entryPrice 1 tpPct
    let sl ← bracketPrice entryPrice (-1) slPct
    some ⟨tp, sl⟩
  else none

def setBracketIfConfigured (key : Key) (entryPrice : ℚ) (md : Metadata) (s : State) : State :=
  match bracketFor entryPrice md with
  | some bracket => { s with brackets := s.brackets.set key bracket }
  | none => s

/-- `_compute_unrealized_pnl_instrument`; `none` where it is not finite. -/
def unrealizedPnl (s : State) (key : Key) : Option ℚ :=
  let pos := s.portfolio.position key
  if pos.qty = 0 then some 0
  else match s.lastPrice.get? key.2 with
    | none => some 0
    | some (.num (.fin lp)) =>
      some (((if lp = 0 then pos.avgPrice else lp) - pos.avgPrice) * pos.qty)
    | some _ => none

end AlphaPanda.Paper
