import AlphaPanda.Paper.Provenance
import AlphaPanda.Pipeline.OneOrder
import AlphaPanda.Risk.Approval
import AlphaPanda.StrategyRunner.Origins
import AlphaPanda.Streaming.Flows
import AlphaPanda.Zerodha.Placing

/-!
# From market ticks to fills and orders

The strategy runner, the risk manager and the two trading services, and the
topics between them. The services run independently: any record of a topic may
be delivered at any time, late, again, or never, and any operation may fail.
Each fill of the paper broker still traces back to the ticks it is due to, and
so does each order that is placed with the other one.
-/

namespace AlphaPanda.Pipeline

open Coroutine Streaming

-- ---------------------------------------------------------------------------
-- The services and their topics
-- ---------------------------------------------------------------------------

structure Services where
  runner : StrategyRunner.Service
  runnerDeduplicator : DeduplicationManager
  runnerErrorHandler : ErrorHandler
  risk : Risk.Service
  riskDeduplicator : DeduplicationManager
  riskErrorHandler : ErrorHandler
  paper : Paper.Service
  zerodhaDeduplicator : DeduplicationManager
  zerodhaErrorHandler : ErrorHandler

def runnerFlow (S : Services) (marketOpen : Bool) :
    ConsumerFlow (StrategyRunner.State ρ) StrategyRunner.Op StrategyRunner.Data where
  handler message _ := StrategyRunner.handleMarketTick S.runner marketOpen message
  deduplicator := S.runnerDeduplicator
  errorHandler := S.runnerErrorHandler
  expire s _ := s

def zerodhaFlow (S : Services) :
    ConsumerFlow Zerodha.State Zerodha.Op (Except String ValidatedSignal) where
  handler message _ := Zerodha.handleValidatedSignal ⟨message.type, message.data⟩
  deduplicator := S.zerodhaDeduplicator
  errorHandler := S.zerodhaErrorHandler
  expire s _ := s

/-- The state of each service, and what was published on the topics between
them: the raw signals of all brokers, the validated ones for each of the two,
and the orders that were placed. -/
structure Network (ρ : Type) where
  runner : Streaming.State Unit × StrategyRunner.State ρ
  raw : List StrategyRunner.Record
  risk : Streaming.State Unit × Risk.State
  validated : List ValidatedSignal
  paper : Config Paper.Consumer Paper.State Paper.Op Exc
  validatedLive : List ValidatedSignal
  zerodha : Streaming.State Unit × Zerodha.State
  placed : List OrderPlaced

inductive Event where
  /-- A record of `market.ticks` is delivered to the strategy runner. -/
  | tick (marketOpen : Bool) (a : Arrival StrategyRunner.Data)
  /-- A record is delivered to the risk manager. -/
  | signal (a : Arrival Risk.Data)
  /-- The paper trading service takes a step. -/
  | paper (act : Act Paper.Consumer Paper.Message Exc)
  /-- A record is delivered to the Zerodha trading service. -/
  | live (a : Arrival (Except String ValidatedSignal))

def Network.delivers (n : Network ρ) : Event → Bool
  | .tick .. => true
  | .signal a =>
    match a.record.value with
    | .object ⟨_, type, .object _ (.ok s)⟩ => !Risk.isEventType type .tradingSignal ||
      n.raw.any fun r => r.topic = a.record.topic && r.data = s
    | _ => true
  | .paper (.deliver (.signal ⟨_, .ok v⟩)) => v ∈ n.validated
  | .paper _ => true
  | .live a =>
    match a.record.value with
    | .object ⟨_, type, .ok v⟩ => type ≠ .str EventType.validatedSignal.value || v ∈ n.validatedLive
    | _ => true

def Network.step (S : Services) (n : Network ρ) (e : Event) : Option (Network ρ) :=
  if !n.delivers e then none
  else match e with
    | .tick marketOpen a =>
      let w := ((runnerFlow S marketOpen).process n.runner a).world
      some { n with runner := w.st, raw := n.raw ++ StrategyRunner.published (serviceLog w.log) }
    | .signal a =>
      let w := ((riskFlow S.risk S.riskDeduplicator S.riskErrorHandler).process n.risk a).world
      let log := serviceLog w.log
      some { n with
        risk := w.st
        validated := n.validated ++ Risk.validatedFor "paper" log
        validatedLive := n.validatedLive ++ Risk.validatedFor "zerodha" log }
    | .paper act => (S.paper.system.step n.paper act).map fun c => { n with paper := c }
    | .live a =>
      let w := ((zerodhaFlow S).process n.zerodha a).world
      some { n with zerodha := w.st, placed := n.placed ++ Zerodha.placed (serviceLog w.log) }

def Network.run (S : Services) (n : Network ρ) : List Event → Option (Network ρ)
  | [] => some n
  | e :: es => (n.step S e).bind fun n' => n'.run S es

def Network.start (loaded : StrategyRunner.State ρ) (marks : List String) (risk : Risk.State) :
    Network ρ where
  runner := (.start () marks, loaded)
  raw := []
  risk := (.start () marks, risk)
  validated := []
  paper := .start .init
  validatedLive := []
  zerodha := (.start () marks, {})
  placed := []

def ticksOf (es : List Event) : List Strategies.MarketTick :=
  es.flatMap fun
    | .tick _ a =>
      match a.record.value with
      | .object message => StrategyRunner.ticksIn message
      | .other _ => []
    | _ => []

-- ---------------------------------------------------------------------------
-- What every step keeps
-- ---------------------------------------------------------------------------

/-- A strategy asked for it on some of the ticks, on a topic of the broker, and
it passed all rules. -/
def Ordered (S : Services) (loaded : StrategyRunner.State ρ) (ticks : List Strategies.MarketTick)
    (broker : String) (v : ValidatedSignal) : Prop :=
  ∃ r message, StrategyRunner.Asked S.runner loaded ticks r ∧ r.data = v.originalSignal ∧
    Risk.Approved broker message r.topic v

/-- An order is for such a signal. -/
def Placeable (S : Services) (loaded : StrategyRunner.State ρ) (ticks : List Strategies.MarketTick)
    (p : OrderPlaced) : Prop :=
  ∃ v orderId, Ordered S loaded ticks "zerodha" v ∧ p = Zerodha.orderPlaced v orderId

structure Network.Traced (S : Services) (loaded : StrategyRunner.State ρ)
    (ticks : List Strategies.MarketTick) (n : Network ρ) : Prop where
  fed : StrategyRunner.Fed loaded ticks n.runner.2
  raw : ∀ r ∈ n.raw, StrategyRunner.Asked S.runner loaded ticks r
  validated : ∀ v ∈ n.validated, Ordered S loaded ticks "paper" v
  validatedLive : ∀ v ∈ n.validatedLive, Ordered S loaded ticks "zerodha" v
  paper : S.paper.system.Reaches (Paper.Allowed (Ordered S loaded ticks "paper") True)
    (Config.start .init) n.paper
  placed : ∀ p ∈ n.placed, Placeable S loaded ticks p

section
variable {S : Services} {loaded : StrategyRunner.State ρ} {ticks : List Strategies.MarketTick}
  {n n' : Network ρ}

theorem Network.Traced.start (marks : List String) (risk : Risk.State) :
    (Network.start loaded marks risk).Traced S loaded ticks where
  fed := StrategyRunner.fed_loaded loaded
  raw := List.forall_mem_nil _
  validated := List.forall_mem_nil _
  validatedLive := List.forall_mem_nil _
  paper := .refl
  placed := List.forall_mem_nil _

theorem runner_process_accounted {marketOpen : Bool} {a : Arrival StrategyRunner.Data}
    {s : Streaming.State Unit × StrategyRunner.State ρ} (hfed : StrategyRunner.Fed loaded ticks s.2)
    (hticks : ∀ message, a.record.value = .object message →
      ∀ t ∈ StrategyRunner.ticksIn message, t ∈ ticks) :
    StrategyRunner.Fed loaded ticks ((runnerFlow S marketOpen).process s a).world.st.2 ∧
      ∀ r ∈ StrategyRunner.published (serviceLog ((runnerFlow S marketOpen).process s a).world.log),
        StrategyRunner.Asked S.runner loaded ticks r := by
  have haccounted : ∀ message, a.record.value = .object message → ∀ as t,
      StrategyRunner.Fed loaded ticks t → StrategyRunner.Accounted S.runner loaded ticks
        (invoke (runnerFlow S marketOpen).handler (message, a.record.topic) as t).world :=
    fun message hvalue as t ht => StrategyRunner.handleMarketTick_accounted (hticks message hvalue)
      as ⟨ht, List.forall_mem_nil _⟩
  obtain ⟨hend, hall⟩ := (runnerFlow S marketOpen).process_maintains s
    (I := StrategyRunner.Fed loaded ticks) hfed
    fun message hvalue as t ht => (haccounted message hvalue as t ht).fed
  refine ⟨hend, fun r hr => ?_⟩
  obtain ⟨x, hx, hsent⟩ := List.mem_filterMap.mp hr
  obtain ⟨message, as, t, hvalue, ht, hmem⟩ := hall x hx
  exact (haccounted message hvalue as t ht).asked r (List.mem_filterMap.mpr ⟨x, hmem, hsent⟩)

theorem risk_process_ordered {a : Arrival Risk.Data} {s : Streaming.State Unit × Risk.State}
    (hraw : ∀ r ∈ n.raw, StrategyRunner.Asked S.runner loaded ticks r)
    (hdelivers : n.delivers (.signal a)) (broker : String) :
    ∀ v ∈ Risk.validatedFor broker (serviceLog ((riskFlow S.risk S.riskDeduplicator
      S.riskErrorHandler).process s a).world.log), Ordered S loaded ticks broker v := by
  intro v hv
  obtain ⟨-, hall⟩ := (riskFlow S.risk S.riskDeduplicator S.riskErrorHandler).process_maintains s
    (a := a) (I := fun _ => True) trivial fun _ _ _ _ _ => trivial
  obtain ⟨record, hsend, hvalidated, htopic⟩ := Risk.mem_validatedFor hv
  obtain ⟨message, as, t, hvalue, -, hmem⟩ := hall _ hsend
  have happroved := Risk.sent_approved S.risk message a.record.topic as t hmem hvalidated htopic
  -- The signal of the message was published for the topic.
  obtain ⟨fields, hdata⟩ := happroved.parsed
  have htype := happroved.type
  obtain ⟨id, type, data⟩ := message
  obtain rfl : data = _ := hdata
  simp only [Network.delivers, hvalue, htype, Bool.not_true, Bool.false_or, List.any_eq_true,
    Bool.and_eq_true, decide_eq_true_eq] at hdelivers
  obtain ⟨r, hr, htopic, hsignal⟩ := hdelivers
  exact ⟨r, _, hraw r hr, hsignal, htopic ▸ happroved⟩

theorem paper_step_allowed (hvalidated : ∀ v ∈ n.validated, Ordered S loaded ticks "paper" v)
    (hdelivers : n.delivers (.paper act)) (c : Config Paper.Consumer Paper.State Paper.Op Exc) :
    Paper.Allowed (Ordered S loaded ticks "paper") True c act := by
  rcases act with (⟨type, data⟩ | m) | ⟨i, r⟩
  · rintro v rfl
    simp only [Network.delivers, decide_eq_true_eq] at hdelivers
    exact hvalidated v hdelivers
  · exact .inl trivial
  · trivial

theorem zerodha_process_placeable {a : Arrival (Except String ValidatedSignal)}
    {s : Streaming.State Unit × Zerodha.State}
    (hvalidated : ∀ v ∈ n.validatedLive, Ordered S loaded ticks "zerodha" v)
    (hdelivers : n.delivers (.live a)) :
    ∀ p ∈ Zerodha.placed (serviceLog ((zerodhaFlow S).process s a).world.log),
      Placeable S loaded ticks p := by
  intro p hp
  obtain ⟨-, hall⟩ := (zerodhaFlow S).process_maintains s (a := a) (I := fun _ => True) trivial
    fun _ _ _ _ _ => trivial
  obtain ⟨x, hx, hxp⟩ := List.mem_filterMap.mp hp
  obtain ⟨message, as, t, hvalue, -, hmem⟩ := hall x hx
  obtain ⟨htype, v, orderId, hdata, rfl⟩ := Zerodha.placed_ofSignal _ as t p
    (List.mem_filterMap.mpr ⟨x, hmem, hxp⟩)
  obtain ⟨id, type, data⟩ := message
  obtain rfl : data = _ := hdata
  simp only [Network.delivers, hvalue, Bool.or_eq_true, decide_eq_true_eq] at hdelivers
  exact ⟨v, orderId, hvalidated v (hdelivers.resolve_left (not_not.mpr htype)), rfl⟩

theorem Network.Traced.step (h : n.Traced S loaded ticks) (hticks : ∀ t ∈ ticksOf [e], t ∈ ticks)
    (hstep : n.step S e = some n') : n'.Traced S loaded ticks := by
  unfold Network.step at hstep
  split at hstep
  · cases hstep
  rename_i hdelivers
  rw [Bool.not_eq_true, Bool.not_eq_false'] at hdelivers
  split at hstep
  · rename_i marketOpen a
    cases hstep
    have hgiven : ∀ message, a.record.value = .object message →
        ∀ t ∈ StrategyRunner.ticksIn message, t ∈ ticks := by
      intro message hvalue t ht
      exact hticks t (by simpa [ticksOf, hvalue] using ht)
    obtain ⟨hfed, hasked⟩ : StrategyRunner.Fed loaded ticks _ ∧ _ :=
      runner_process_accounted h.fed hgiven
    exact { h with fed := hfed, raw := List.forall_mem_append.mpr ⟨h.raw, hasked⟩ }
  · rename_i a
    cases hstep
    have hordered := risk_process_ordered (s := n.risk) h.raw hdelivers
    exact { h with
      validated := List.forall_mem_append.mpr ⟨h.validated, hordered "paper"⟩
      validatedLive := List.forall_mem_append.mpr ⟨h.validatedLive, hordered "zerodha"⟩ }
  · rename_i act
    obtain ⟨c, hc, rfl⟩ := Option.map_eq_some_iff.mp hstep
    have hallowed := paper_step_allowed h.validated hdelivers n.paper
    exact { h with paper := h.paper.tail ⟨act, hallowed, hc⟩ }
  · rename_i a
    cases hstep
    have hplaceable := zerodha_process_placeable (s := n.zerodha) h.validatedLive hdelivers
    exact { h with placed := List.forall_mem_append.mpr ⟨h.placed, hplaceable⟩ }

theorem Network.Traced.run (h : n.Traced S loaded ticks) {es : List Event}
    (hticks : ∀ t ∈ ticksOf es, t ∈ ticks) (hrun : n.run S es = some n') :
    n'.Traced S loaded ticks := by
  induction es generalizing n with
  | nil =>
    cases hrun
    exact h
  | cons e es ih =>
    obtain ⟨n₁, hstep, hrun⟩ := Option.bind_eq_some_iff.mp hrun
    have hsplit : ticksOf (e :: es) = ticksOf [e] ++ ticksOf es := by simp [ticksOf]
    rw [hsplit] at hticks
    obtain ⟨hfirst, hrest⟩ := List.forall_mem_append.mp hticks
    exact ih (h.step hfirst hstep) hrest hrun

end

-- ---------------------------------------------------------------------------
-- Every run
-- ---------------------------------------------------------------------------

theorem broker_of_rawTopic (hdot : '.' ∉ broker.toList)
    (h : TopicMap.getBrokerFromTopic (TopicMap.mk broker).signalsRaw = broker')
    (hknown : broker' ≠ "unknown") : broker = broker' := by
  have htake : (TopicMap.mk broker).signalsRaw.toList.takeWhile (· ≠ '.') = broker.toList := by
    rw [TopicMap.signalsRaw, String.toList_append, List.takeWhile_append_of_pos]
    · simp
    · intro c hc
      exact decide_eq_true fun hdot' => hdot (hdot' ▸ hc)
  unfold TopicMap.getBrokerFromTopic at h
  rw [htake, String.ofList_toList] at h
  dsimp only at h
  split at h
  · exact h
  · exact absurd h.symm hknown

theorem tradingSignal_fields {tick : Strategies.MarketTick} {result : Strategies.SignalResult}
    (h : StrategyRunner.tradingSignal strategyId tick side result = .ok signal) :
    signal.strategyId = strategyId ∧ signal.instrumentToken = tick.instrumentToken ∧
      signal.signalType = side ∧ (signal.quantity : ℚ) = result.quantity := by
  unfold StrategyRunner.tradingSignal at h
  split at h
  · split at h
    · rename_i hden
      cases h
      exact ⟨rfl, rfl, rfl, Rat.coe_int_num_of_den_eq_one hden⟩
    · cases h
  · cases h

/-- In every run each order placed with the live broker is what a loaded
strategy that targets this broker, fed with ticks that were delivered, returned
for one of them. -/
theorem live_orders_asked (S : Services) (loaded : StrategyRunner.State ρ) (marks : List String)
    (risk : Risk.State) {es : List Event} (hrun : (Network.start loaded marks risk).run S es = some n)
    (hdots : ∀ broker ∈ S.runner.activeBrokers, '.' ∉ broker.toList) :
    ∀ p ∈ n.placed, ∃ executor tick earlier result,
      loaded.get? p.strategyId = some executor ∧ "zerodha" ∈ StrategyRunner.targets S.runner executor.config ∧
      (∀ t ∈ tick :: earlier, t ∈ ticksOf es) ∧
      ((executor.feed earlier).processTick tick).1 = .ok (some result) ∧
      StrategyRunner.signalTypeOf result.signalType = some p.signalType ∧
      p.instrumentToken = tick.instrumentToken ∧ (p.quantity : ℚ) = result.quantity := by
  have hstart : (Network.start loaded marks risk).Traced S loaded (ticksOf es) := .start marks risk
  intro p hp
  obtain ⟨v, orderId, ⟨r, message, hasked, hsignal, happroved⟩, rfl⟩ :=
    (hstart.run (fun _ => id) hrun).placed p hp
  have hquantity := happroved.quantity
  have hbroker := happroved.broker
  cases hasked with
  | @signal strategyId executor tick earlier side signal broker result hloaded hgiven hreturned hside hok
      htarget =>
    obtain rfl : signal = v.originalSignal := hsignal
    obtain ⟨hstrategy, hinstrument, rfl, hasked⟩ := tradingSignal_fields hok
    have hactive : broker ∈ S.runner.activeBrokers := of_decide_eq_true (List.mem_filter.mp htarget).2
    obtain rfl := broker_of_rawTopic (hdots broker hactive) hbroker (by decide)
    refine ⟨executor, tick, earlier, result, ?_, htarget, hgiven, hreturned, hside, hinstrument, ?_⟩
    · exact (congrArg loaded.get? hstrategy).trans hloaded
    · exact (congrArg Int.cast hquantity).trans hasked

def buyer (broker : String) : StrategyRunner.State Unit :=
  let processor : Strategies.StrategyProcessor Unit :=
    ⟨fun tick _ s => (.ok (some ⟨"BUY", 1 / 2, 2, .ofRat tick.lastPrice, none⟩), s), 1, fun _ => true⟩
  .ofList [("s1", .init processor {} ⟨"s1", [broker], [1], true⟩ ())]

def plainServices (broker : String) : Services where
  runner := ⟨[broker], .ofList [(1, ["s1"])]⟩
  runnerDeduplicator := popsFirst
  runnerErrorHandler := withoutJitter
  risk := plainRisk
  riskDeduplicator := popsFirst
  riskErrorHandler := withoutJitter
  paper := .plain
  zerodhaDeduplicator := popsFirst
  zerodhaErrorHandler := withoutJitter

def tradingTime : Timestamp := ⟨"2024-01-02", "09:30:00"⟩

def boughtSignal : TradingSignal :=
  ⟨"s1", 1, .buy, 2, some 10, tradingTime, some (1 / 2), some .empty⟩

def approvedSignal : ValidatedSignal :=
  ⟨boughtSignal, 2, some 10,
    [("MaxPositionSize", true), ("MaxDailyTrades", true), ("PriceLimit", true)], plainRisk.now 1⟩

def tickToSignal (broker : String) : List Event :=
  let tick : StrategyRunner.Data :=
    .object (.ofList [("instrument_token", .int 1)]) (.ok ⟨1, 10, tradingTime⟩)
  let fields := Dict.ofList [("strategy_id", .str "s1"), ("instrument_token", .int 1),
    ("signal_type", .str "BUY"), ("quantity", .int 2), ("price", .str "10")]
  [.tick true ⟨⟨"market.ticks", 0, 0, none, 0, .object ⟨.str "e0", .str "market_tick", tick⟩⟩, [], []⟩,
    .signal ⟨⟨broker ++ ".signals.raw", 0, 0, some "s1:1", 0,
      .object ⟨.str "e1", .str "trading_signal", .object fields (.ok boughtSignal)⟩⟩, [], []⟩]

def tickToOrder : List Event :=
  tickToSignal "zerodha" ++ [.live ⟨⟨"zerodha.signals.validated", 0, 0, some "s1:1", 0,
    .object ⟨.str "e2", .str "validated_signal", .ok approvedSignal⟩⟩, [], []⟩]

theorem tickToOrder_asked : ∃ n,
    (Network.start (buyer "zerodha") [] {}).run (plainServices "zerodha") tickToOrder = some n ∧
    n.placed.map (fun p => (p.strategyId, p.quantity)) = [("s1", 2)] ∧
    ∀ p ∈ n.placed, ∃ executor tick earlier result,
      (buyer "zerodha").get? p.strategyId = some executor ∧
      "zerodha" ∈ StrategyRunner.targets (plainServices "zerodha").runner executor.config ∧
      (∀ t ∈ tick :: earlier, t ∈ ticksOf tickToOrder) ∧
      ((executor.feed earlier).processTick tick).1 = .ok (some result) ∧
      StrategyRunner.signalTypeOf result.signalType = some p.signalType ∧
      p.instrumentToken = tick.instrumentToken ∧ (p.quantity : ℚ) = result.quantity := by
  have hrun : ((Network.start (buyer "zerodha") [] {}).run (plainServices "zerodha") tickToOrder).any
      (fun n => n.placed.map (fun p => (p.strategyId, p.quantity)) = [("s1", 2)]) := by
    decide +kernel
  obtain ⟨n, hn, hplaced⟩ := Option.any_eq_true _ _ |>.mp hrun
  exact ⟨n, hn, of_decide_eq_true hplaced, live_orders_asked _ _ [] {} hn (by decide)⟩

end AlphaPanda.Pipeline
