import AlphaPanda.Risk.Service

/-!
# Runs of the risk manager

The signals are handled one at a time. What a delivery publishes is a verdict
that depends only on the message and on the state the delivery finds.
-/

namespace AlphaPanda.Risk

open Coroutine

/-- A message as it is delivered, with what Redis finds expired by then and
how the operations of the handler are answered. -/
structure Delivery where
  message : Streaming.Envelope Data
  topic : String
  expired : List String := []
  answers : List (Option Exc) := []

structure Handled where
  delivery : Delivery
  before : State
  after : World State Op Exc

def Service.handle (svc : Service) (s : State) (d : Delivery) : Handled :=
  { delivery := d
    before := s.expire d.expired
    after := ((handleMessage svc d.message d.topic).exec d.answers
      (World.start (s.expire d.expired))).world }

def Service.run (svc : Service) (s : State) : List Delivery → List Handled
  | [] => []
  | d :: ds => svc.handle s d :: svc.run (svc.handle s d).after.st ds

def publishedRecord : Op × Option Exc → Option Record
  | (.send r, none) => some r
  | _ => none

def sent (log : List (Op × Option Exc)) : List Record := log.filterMap publishedRecord

-- ---------------------------------------------------------------------------
-- What the rules are given
-- ---------------------------------------------------------------------------

def matching (start : String) (entries : List (String × ν)) : List (String × ν) :=
  entries.filter fun e => start.toList <+: e.1.toList

def scanOps (start : String) (entries : List (String × ν)) : List Op :=
  .keys (start ++ "*") ::
    if matching start entries = [] then [] else [.mget ((matching start entries).map Prod.fst)]

def positionItems (svc : Service) (s : State) : List (String × Value) :=
  matching (svc.redisKey "collection" "positions:") s.collections.entries

def tradeCounters (svc : Service) (s : State) : List (String × ℤ) :=
  matching (svc.redisKey "counter" "daily_trades_") s.counters.entries

def priceValues (svc : Service) (s : State) : List (String × Decimal) :=
  matching (svc.redisKey "value" "recent_price_") s.values.entries

def readState (svc : Service) (s : State) : RiskState where
  positions := .ofList ((positionItems svc s).map fun e => (lastPart e.1, e.2))
  dailyTrades := .ofList ((tradeCounters svc s).map fun e =>
    ("daily_trades_" ++ secondPart "daily_trades_" e.1, e.2))
  recentPrices := .ofList ((priceValues svc s).map fun e =>
    ("recent_price_" ++ secondPart "recent_price_" e.1, e.2))

def readOps (svc : Service) (s : State) : List Op :=
  scanOps (svc.redisKey "collection" "positions:") s.collections.entries ++
    (scanOps (svc.redisKey "counter" "daily_trades_") s.counters.entries ++
      (scanOps (svc.redisKey "value" "recent_price_") s.values.entries))

theorem matching_keys (start : String) (l : List (String × ν)) :
    (l.map Prod.fst).filter (fun k => start.toList <+: k.toList) = (matching start l).map Prod.fst := by
  rw [matching, List.filter_map]
  rfl

theorem filter_matching (start : String) (l : List (String × ν)) :
    l.filter (fun e => e.1 ∈ (matching start l).map Prod.fst) = matching start l := by
  refine List.filter_congr fun e he => ?_
  rw [← matching_keys]
  have hmem : e.1 ∈ l.map Prod.fst := List.mem_map_of_mem he
  simp only [List.mem_filter, hmem, true_and, decide_eq_true_eq]

theorem scan_awaits (start : String) (entries : State → List (String × ν)) (s : State) :
    (scan start entries).Awaits s (scanOps start (entries s)) (matching start (entries s)) s := by
  have hkeys : (redis s!"get keys by pattern {start}*" (.keys (start ++ "*"))).Awaits s
      [.keys (start ++ "*")] () s := awaits_mapError (awaits_perform _ s) _
  unfold scan
  by_cases hnone : matching start (entries s) = []
  · rw [scanOps, if_pos hnone]
    refine hkeys.bind_nil (awaits_get_bind ?_)
    dsimp only
    rw [matching_keys, hnone]
    exact awaits_pure [] s
  · rw [scanOps, if_neg hnone]
    refine hkeys.bind (awaits_get_bind ?_)
    dsimp only
    rw [matching_keys, if_neg (by simpa using hnone)]
    refine (awaits_mapError (awaits_perform _ s) _).bind_nil (awaits_get_bind ?_)
    rw [filter_matching]
    exact awaits_pure _ s

theorem getState_awaits (svc : Service) (s : State) :
    (getState svc).Awaits s (readOps svc s) (readState svc s) s := by
  have hprices := scan_awaits (svc.redisKey "value" "recent_price_") (·.values.entries) s
  refine (scan_awaits _ _ s).bind ((scan_awaits _ _ s).bind ?_)
  exact hprices.bind_nil (awaits_pure (readState svc s) s)

-- ---------------------------------------------------------------------------
-- The verdict
-- ---------------------------------------------------------------------------

def verdictOf (svc : Service) (s : State) (broker : String) (fields : Fields)
    (signal : Except String TradingSignal) : Option Record :=
  let key := PartitioningKeys.tradingSignalKey (fields.getD "strategy_id" (.str "")).text
    (fields.getD "instrument_token" (.str "")).text
  match evaluateSignal svc.format (svc.today s.clock) fields (readState svc s), signal with
  | .ok result, .ok parsed =>
    let t := svc.now (s.clock + 1)
    some (if result.passed then validatedRecord key broker result parsed t
      else rejectedRecord key broker result parsed t)
  | _, _ => none

def Service.verdict (svc : Service) (s : State) (d : Delivery) : Option Record :=
  if isEventType d.message.type .tradingSignal then
    match d.message.data with
    | .object fields signal => verdictOf svc s (TopicMap.getBrokerFromTopic d.topic) fields signal
    | .other _ => none
  else none

def Service.publishes (svc : Service) (s : State) (d : Delivery) : Bool :=
  succeeds ((readOps svc s).length + 2) d.answers

def Op.isSend : Op → Bool
  | .send _ => true
  | _ => false

theorem publishedRecord_silent {x : Op × Option Exc} (h : x.1.isSend = false) :
    publishedRecord x = none := by
  obtain ⟨op, answer⟩ := x
  cases op with
  | send r => cases h
  | _ => rfl

theorem sent_answered {ops : List Op} (h : ∀ op ∈ ops, op.isSend = false)
    (as : List (Option Exc)) : sent (answered ops as) = [] := by
  induction ops generalizing as with
  | nil => rfl
  | cons op ops ih =>
    have hop := h op List.mem_cons_self
    unfold answered
    cases as.headD none with
    | none =>
      rw [sent, List.filterMap_cons_none (publishedRecord_silent hop)]
      exact ih (fun op hmem => h op (List.mem_cons_of_mem _ hmem)) _
    | some e => exact List.filterMap_cons_none (publishedRecord_silent hop)

theorem scanOps_silent {op : Op} (h : op ∈ scanOps start entries) : op.isSend = false := by
  unfold scanOps at h
  rcases List.mem_cons.mp h with rfl | h
  · rfl
  · split at h
    · cases h
    · cases List.mem_singleton.mp h
      rfl

theorem readOps_silent {op : Op} (h : op ∈ readOps svc s) : op.isSend = false := by
  unfold readOps at h
  rcases List.mem_append.mp h with h | h
  · exact scanOps_silent h
  · rcases List.mem_append.mp h with h | h <;> exact scanOps_silent h

abbrev Silent (p : Handler α) : Prop := p.Performs fun op => op.isSend = false

theorem Silent.sent {p : Handler α} (hp : Silent p) (as : List (Option Exc))
    (w : World State Op Exc) : sent (p.exec as w).world.log = sent w.log :=
  hp.filterMap (fun _ => publishedRecord_silent) as w

theorem sent_before {p : Handler α} {k : α → Handler β} (hk : ∀ a, Silent (k a))
    (as : List (Option Exc)) (w : World State Op Exc) :
    sent ((p >>= k).exec as w).world.log = sent (p.exec as w).world.log :=
  filterMap_bind_of_performs p hk (fun _ => publishedRecord_silent) as w

theorem redis_silent (what : String) (h : op.isSend = false) : Silent (redis what op) :=
  performs_tryCatch (performs_perform h) fun _ => performs_throw

theorem readClock_silent : Silent readClock :=
  performs_bind performs_get fun _ => performs_bind performs_set fun _ => performs_pure

theorem updateRiskStateForSignal_silent (svc : Service) (fields : Fields) (broker : String) :
    Silent (updateRiskStateForSignal svc fields broker) := by
  unfold updateRiskStateForSignal
  dsimp only
  split
  · refine performs_bind readClock_silent fun n => ?_
    exact performs_bind (redis_silent _ rfl) fun _ =>
      performs_bind performs_modify fun _ => redis_silent _ rfl
  · exact performs_pure

theorem handleMarketTick_silent (svc : Service) (fields : Fields) :
    Silent (handleMarketTick svc fields) := by
  unfold handleMarketTick
  dsimp only
  split
  · split
    · exact performs_throw
    · exact performs_bind (redis_silent _ rfl) fun _ =>
        performs_bind performs_modify fun _ => redis_silent _ rfl
  · exact performs_pure

theorem emitSignal_awaits (r : Record) (s : State) :
    (emitSignal r).Awaits s [.getProducer, .send r] () s :=
  (awaits_perform _ s).bind (awaits_perform _ s)

theorem emitSignal_sent (r : Record) (as : List (Option Exc)) (w : World State Op Exc) :
    sent ((emitSignal r).exec as w).world.log =
      sent w.log ++ if succeeds 2 as then [r] else [] := by
  rw [(emitSignal_awaits r w.st).log as w.log, sent, List.filterMap_append]
  refine congrArg _ ?_
  simp only [answered, succeeds_succ]
  cases as.headD none with
  | none => cases as.tail.headD none <;> rfl
  | some e => rfl

theorem emitVerdict_sent (svc : Service) (signal : Except String TradingSignal) (passed : Bool)
    (broker : String) (record : TradingSignal → Timestamp → Record) (as : List (Option Exc))
    (w : World State Op Exc) :
    sent ((emitVerdict svc signal passed broker record).exec as w).world.log =
      sent w.log ++ match signal with
        | .ok parsed => if succeeds 2 as then [record parsed (svc.now w.st.clock)] else []
        | .error _ => [] := by
  cases signal with
  | error text => exact (List.append_nil _).symm
  | ok parsed =>
    have hmetric : Silent (suppress (Prog.perform (.recordSignalValidated passed broker))) :=
      performs_suppress (performs_perform rfl)
    simp only [emitVerdict, readClock, exec_bind, exec_get, exec_set, exec_pure, Outcome.andThen_ok]
    rw [← exec_bind, sent_before fun _ => hmetric, emitSignal_sent]

theorem handleTradingSignal_sent (svc : Service) (broker : String) (fields : Fields)
    (signal : Except String TradingSignal) (as : List (Option Exc)) (s : State) :
    sent ((handleTradingSignal svc (PartitioningKeys.tradingSignalKey
        (fields.getD "strategy_id" (.str "")).text (fields.getD "instrument_token" (.str "")).text)
      broker fields signal).exec as (World.start s)).world.log =
      if succeeds ((readOps svc s).length + 2) as then (verdictOf svc s broker fields signal).toList
      else [] := by
  have hread := getState_awaits svc s
  have hnothing : sent (answered (readOps svc s) as) = [] := sent_answered (fun _ => readOps_silent) as
  unfold handleTradingSignal verdictOf
  rw [succeeds_add, exec_bind]
  by_cases hsucceeds : succeeds (readOps svc s).length as
  · rw [World.start, hread.returns as [] hsucceeds, Outcome.andThen_ok, hsucceeds, Bool.true_and]
    simp only [readClock, exec_bind, exec_get, exec_set, exec_pure, Outcome.andThen_ok]
    cases evaluateSignal svc.format (svc.today s.clock) fields (readState svc s) with
    | error e =>
      simp [hnothing]
    | ok result =>
      dsimp only
      by_cases hpassed : result.passed
      · rw [if_pos hpassed, sent_before fun _ => updateRiskStateForSignal_silent _ _ _,
          emitValidatedSignal, emitVerdict_sent, List.nil_append, hnothing]
        cases signal <;> simp [hpassed]
      · rw [if_neg hpassed, emitRejectedSignal, emitVerdict_sent, List.nil_append, hnothing]
        cases signal <;> simp [hpassed]
  · obtain ⟨e, he⟩ := hread.raises as [] (Bool.not_eq_true _ ▸ hsucceeds)
    rw [World.start, Outcome.andThen, he, if_neg (by simp [hsucceeds])]
    rw [hread.log, List.nil_append]
    exact hnothing

theorem handle_sent (svc : Service) (s : State) (d : Delivery) :
    sent (svc.handle s d).after.log =
      if svc.publishes (svc.handle s d).before d then
        (svc.verdict (svc.handle s d).before d).toList
      else [] := by
  unfold Service.handle Service.verdict Service.publishes handleMessage
  dsimp only
  by_cases hsignal : isEventType d.message.type .tradingSignal
  · rw [hsignal, Bool.true_or, if_pos rfl, if_pos rfl]
    cases d.message.data with
    | other v => simp [World.start, sent]
    | object fields signal => exact handleTradingSignal_sent svc _ fields signal d.answers _
  · rw [if_neg hsignal]
    have hnothing : ∀ p : Handler Unit, Silent p →
        sent (p.exec d.answers (World.start (s.expire d.expired))).world.log = [] :=
      fun p hp => hp.sent d.answers _
    rw [Option.toList_none, ite_self]
    refine hnothing _ ?_
    split
    · split
      · exact performs_throw
      · exact handleMarketTick_silent svc _
    · exact performs_pure

theorem run_deliveries (svc : Service) (s : State) (ds : List Delivery) :
    (svc.run s ds).map Handled.delivery = ds := by
  induction ds generalizing s with
  | nil => rfl
  | cons d ds ih => exact congrArg (d :: ·) (ih _)

theorem mem_run {svc : Service} {ds : List Delivery} (h : x ∈ svc.run s ds) :
    ∃ s', ∃ d ∈ ds, x = svc.handle s' d := by
  induction ds generalizing s with
  | nil => cases h
  | cons d ds ih =>
    rcases List.mem_cons.mp h with rfl | h
    · exact ⟨s, d, List.mem_cons_self, rfl⟩
    · obtain ⟨s', d', hd, hx⟩ := ih h
      exact ⟨s', d', List.mem_cons_of_mem _ hd, hx⟩

-- ---------------------------------------------------------------------------
-- The validated signals
-- ---------------------------------------------------------------------------

def Record.validatedFor (broker : String) (r : Record) : Option ValidatedSignal :=
  match r.data with
  | .validated v => if r.broker = broker then some v else none
  | .rejected _ => none

def Handled.validatedOn (h : Handled) (broker : String) : List ValidatedSignal :=
  (sent h.after.log).filterMap (Record.validatedFor broker)

/-- A signal on the broker's topic that parses and passes the rules, and whose
verdict is published. -/
structure Admitted (svc : Service) (broker : String) (h : Handled) (fields : Fields)
    (signal : TradingSignal) : Prop where
  type : isEventType h.delivery.message.type .tradingSignal
  data : h.delivery.message.data = .object fields (.ok signal)
  topic : TopicMap.getBrokerFromTopic h.delivery.topic = broker
  position : Passes (({} : MaxPositionSizeRule).check svc.format fields (readState svc h.before))
  daily : Passes (({} : MaxDailyTradesRule).check (svc.today h.before.clock) fields
    (readState svc h.before))
  price : Passes (({} : PriceLimitRule).check svc.format fields (readState svc h.before))
  publishes : svc.publishes h.before h.delivery

theorem verdictOf_validatedFor (h : evaluateSignal svc.format (svc.today s.clock) fields
    (readState svc s) = .ok result) (parsed : TradingSignal) (b broker : String) :
    ∃ v : ValidatedSignal, v.originalSignal = parsed ∧ v.validatedQuantity = parsed.quantity ∧
      (verdictOf svc s b fields (.ok parsed)).toList.filterMap (Record.validatedFor broker) =
        if result.passed ∧ b = broker then [v] else [] := by
  refine ⟨⟨parsed, parsed.quantity, parsed.price, result.ruleResults, svc.now (s.clock + 1)⟩,
    rfl, rfl, ?_⟩
  simp only [verdictOf, h]
  by_cases hpassed : result.passed
  · by_cases hbroker : b = broker <;> simp [hpassed, hbroker, validatedRecord, Record.validatedFor]
  · simp [hpassed, rejectedRecord, Record.validatedFor]

theorem Admitted.evaluates (h : Admitted svc broker x fields signal) :
    ∃ result, evaluateSignal svc.format (svc.today x.before.clock) fields (readState svc x.before) =
      .ok result ∧ result.passed :=
  (evaluateSignal_passes _ _ _ _).mpr ⟨h.position, h.daily, h.price⟩

theorem validatedOn_cases {svc : Service} {ds : List Delivery} (hx : x ∈ svc.run s ds)
    (broker : String) :
    (∃ fields signal v, Admitted svc broker x fields signal ∧ v.originalSignal = signal ∧
      v.validatedQuantity = signal.quantity ∧ x.validatedOn broker = [v]) ∨
    ((∀ fields signal, ¬Admitted svc broker x fields signal) ∧ x.validatedOn broker = []) := by
  obtain ⟨s', d, -, rfl⟩ := mem_run hx
  have hsent := handle_sent svc s' d
  rw [Handled.validatedOn, hsent]
  by_cases hpublishes : svc.publishes (svc.handle s' d).before d
  case neg =>
    rw [if_neg hpublishes]
    exact .inr ⟨fun fields signal hadmitted => hpublishes hadmitted.publishes, rfl⟩
  rw [if_pos hpublishes, Service.verdict]
  by_cases hsignal : isEventType d.message.type .tradingSignal
  case neg =>
    rw [if_neg hsignal]
    exact .inr ⟨fun fields signal hadmitted => hsignal hadmitted.type, rfl⟩
  rw [if_pos hsignal]
  cases hdata : d.message.data with
  | other v =>
    refine .inr ⟨fun fields signal hadmitted => ?_, rfl⟩
    cases hdata.symm.trans hadmitted.data
  | object fields signal =>
    cases signal with
    | error text =>
      refine .inr ⟨fun fields' signal' hadmitted => ?_, ?_⟩
      · cases hdata.symm.trans hadmitted.data
      · dsimp only [verdictOf]
        split <;> simp_all
    | ok parsed =>
      rcases hresult : evaluateSignal svc.format (svc.today (svc.handle s' d).before.clock) fields
        (readState svc (svc.handle s' d).before) with e | result
      · refine .inr ⟨fun fields' signal' hadmitted => ?_, by simp [verdictOf, hresult]⟩
        cases hdata.symm.trans hadmitted.data
        obtain ⟨result, hok, -⟩ := hadmitted.evaluates
        cases hresult.symm.trans hok
      obtain ⟨v, hv, hquantity, hvalidated⟩ := verdictOf_validatedFor hresult parsed
        (TopicMap.getBrokerFromTopic d.topic) broker
      dsimp only
      rw [hvalidated]
      by_cases hpasses : result.passed ∧ TopicMap.getBrokerFromTopic d.topic = broker
      · rw [if_pos hpasses]
        obtain ⟨hposition, hdaily, hprice⟩ :=
          (evaluateSignal_passes _ _ _ _).mp ⟨result, hresult, hpasses.1⟩
        exact .inl ⟨fields, parsed, v, ⟨hsignal, hdata, hpasses.2, hposition, hdaily, hprice,
          hpublishes⟩, hv, hquantity, rfl⟩
      · rw [if_neg hpasses]
        refine .inr ⟨fun fields' signal' hadmitted => hpasses ?_, rfl⟩
        cases hdata.symm.trans hadmitted.data
        obtain ⟨result', hok, hpassed⟩ := hadmitted.evaluates
        cases hresult.symm.trans hok
        exact ⟨hpassed, hadmitted.topic⟩

end AlphaPanda.Risk
