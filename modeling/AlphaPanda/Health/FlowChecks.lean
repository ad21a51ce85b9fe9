import AlphaPanda.Health.HealthChecker
import AlphaPanda.Monitoring.EndToEnd

/-!
# Checks of the flow

The checks by which `ServiceHealthChecker` looks for recent activity among the
pipeline metrics. The metrics state times without a zone, and a check subtracts
them from a time that has one, which raises. So a check that finds a time to
look at reports nothing, and the one of the orders goes by its two counts, which
are the same key.
-/

namespace AlphaPanda.Health

open Json Monitoring Monitoring.MetricsRegistry

-- ---------------------------------------------------------------------------
-- What a check reads
-- ---------------------------------------------------------------------------

/-- What each `get` of a check returns, by its number. -/
abbrev Gets := ℕ → String → Except Exc (Option Raw)

def truthy : Raw → Bool
  | .bytes b => b.size ≠ 0
  | .str s => s ≠ ""

def decode : Raw → Except Exc String
  | .bytes b =>
    match String.fromUTF8? b with
    | some s => .ok s
    | none => .error ⟨"UnicodeDecodeError", "'utf-8' codec can't decode", .builtin⟩
  | .str s => strDecode s

def countOf (raw : Option Raw) : Except Exc ℤ :=
  match raw.filter truthy with
  | none => .ok 0
  | some raw =>
    match decodeBytes (some raw) with
    | some s => toInt s
    | none => .error ⟨"ValueError", "invalid literal for int() with base 10", .builtin⟩

section
variable (fl : Floats) (iso : IsoFormat)

def timeStated (now : ℤ) (text : String) : Except Exc (DateTime × ℚ) :=
  match loads fl text with
  | some (.object entries) =>
    match entries.lookup "timestamp" with
    | some (.str timestamp) =>
      match iso.fromisoformat timestamp with
      | some ⟨clock, some utcOffset⟩ =>
        .ok (⟨clock, some utcOffset⟩, ((now - (clock - utcOffset) : ℤ) : ℚ) / 1000000)
      | some ⟨_, none⟩ =>
        .error ⟨"TypeError", "can't subtract offset-naive and offset-aware datetimes", .builtin⟩
      | none => .error ⟨"ValueError", s!"Invalid isoformat string: '{timestamp}'", .builtin⟩
    | some _ => .error ⟨"TypeError", "fromisoformat: argument must be str", .builtin⟩
    | none => .error ⟨"KeyError", "'timestamp'", .builtin⟩
  | some _ => .error ⟨"TypeError", "string indices must be integers, not 'str'", .builtin⟩
  | none => .error ⟨"JSONDecodeError", "Expecting value", .builtin⟩

def lastTime (now : ℤ) (raw : Raw) : Except Exc (DateTime × ℚ) := do
  timeStated fl iso now (← decode raw)

end

-- ---------------------------------------------------------------------------
-- The checks
-- ---------------------------------------------------------------------------

structure FlowReport where
  status : HealthStatus
  message : String
  details : Option (Dict String Value) := none

def FlowReport.result (r : FlowReport) : Result :=
  .dict (some r.status.value) (some r.message) r.details

/-- How a float is written: its `repr`, and with one decimal. -/
structure FloatTexts where
  repr : ℚ → String
  fixed : ℚ → String

/-- What the three checks share: without a client nothing is checked, and what
raises is reported. -/
def flowCheck (name title : String) (inspect : Gets → Except Exc FlowReport) :
    Option Gets → FlowReport
  | none => { status := .unknown, message := s!"Redis client not available for {name} check" }
  | some get =>
    match inspect get with
    | .ok report => report
    | .error e => { status := .unknown, message := s!"{title} check failed: {e.message}" }

section
variable (fl : Floats) (iso : IsoFormat) (texts : FloatTexts) (now : ℤ)

def inspectMarketData (get : Gets) : Except Exc FlowReport := do
  match (← get 0 marketTicksLast).filter truthy with
  | none =>
    pure
      { status := .degraded
        message := "No recent market data activity found"
        details := some (.ofList [("last_market_tick", .null),
          ("check_time", .str (iso.isoformat ⟨now, some 0⟩))]) }
  | some raw =>
    let last ← lastTime fl iso now raw
    if 30 < last.2 then
      pure
        { status := .degraded
          message := s!"Market data is stale ({texts.fixed last.2}s old)"
          details := some (.ofList [("last_market_tick", .str (iso.isoformat last.1)),
            ("age_seconds", .float (texts.repr last.2)), ("max_age_seconds", .int 30)]) }
    else
      let tickCount ← countOf (← get 1 marketTicksCount)
      pure
        { status := .healthy
          message := s!"Market data flowing normally ({tickCount} ticks/min)"
          details := some (.ofList [("last_market_tick", .str (iso.isoformat last.1)),
            ("age_seconds", .float (texts.repr last.2)), ("ticks_per_minute", .int tickCount),
            ("flow_rate", .str (if 10 < tickCount then "normal" else "low"))]) }

def checkMarketDataFlow : Option Gets → FlowReport :=
  flowCheck "market data flow" "Market data flow" (inspectMarketData fl iso texts now)

def flowBroker (activeBrokers : List String) : String := activeBrokers.headD "paper"

variable (activeBrokers : List String)

def inspectSignals (get : Gets) : Except Exc FlowReport := do
  let broker := flowBroker activeBrokers
  let lastSignal ← get 0 (signalsLast broker)
  let signalCount ← countOf (← get 1 (signalsCount broker))
  match lastSignal.filter truthy with
  | none =>
    pure
      { status := .healthy
        message := "No recent signals generated (may be normal during low volatility)"
        details := some (.ofList [("last_signal_time", .null),
          ("signals_last_5min", .int signalCount), ("broker", .str broker)]) }
  | some raw =>
    let last ← lastTime fl iso now raw
    let seen : List (String × Value) := [("last_signal_time", .str (iso.isoformat last.1)),
      ("age_seconds", .float (texts.repr last.2)), ("signals_last_5min", .int signalCount),
      ("broker", .str broker)]
    if 300 < last.2 ∧ signalCount = 0 then
      pure
        { status := .degraded
          message := "No signals generated in 5.0 minutes"
          details := some (.ofList seen) }
    else
      pure
        { status := .healthy
          message := s!"Signal generation active ({signalCount} signals in 5min)"
          details := some (.ofList (seen ++
            [("generation_rate", .str (if 0 < signalCount then "normal" else "low"))])) }

def checkSignalGenerationFlow : Option Gets → FlowReport :=
  flowCheck "signal generation flow" "Signal generation flow"
    (inspectSignals fl iso texts now activeBrokers)

def successRate (filled failed : ℤ) : ℚ :=
  if 0 < filled + failed then (filled : ℚ) / (filled + failed : ℤ) * 100 else 100

def orderStatus (filled failed : ℤ) : HealthStatus × String :=
  let total := filled + failed
  let rate := successRate filled failed
  if rate < 80 ∧ 5 < total then (.degraded, s!"Low order success rate ({texts.fixed rate}%)")
  else if filled < failed ∧ 10 < total then
    (.degraded, s!"More failed than successful orders ({failed}F vs {filled}S)")
  else (.healthy, s!"Order processing normal ({total} orders, {texts.fixed rate}% success)")

/-- Filled and failed orders are counted under one key, which is read twice. -/
def inspectOrders (get : Gets) : Except Exc FlowReport := do
  let broker := flowBroker activeBrokers
  let lastOrder ← get 0 (ordersLast broker)
  let filledRaw ← get 1 (ordersCount broker)
  let failedRaw ← get 2 (ordersCount broker)
  let filled ← countOf filledRaw
  let failed ← countOf failedRaw
  if (lastOrder.filter truthy).isNone ∧ filled + failed = 0 then
    pure
      { status := .healthy
        message := "No recent order activity (normal during low signal periods)"
        details := some (.ofList [("last_order_time", .null), ("orders_last_hour", .int 0),
          ("success_rate", .float "0.0"), ("broker", .str broker)]) }
  else
    let last ← (lastOrder.filter truthy).mapM (lastTime fl iso now)
    pure
      { status := (orderStatus texts filled failed).1
        message := (orderStatus texts filled failed).2
        details := some (.ofList
          [("last_order_time", last.elim .null fun l => .str (iso.isoformat l.1)),
           ("age_seconds", last.elim (.int 0) fun l => .float (texts.repr l.2)),
           ("orders_last_hour", .int (filled + failed)), ("filled_orders", .int filled),
           ("failed_orders", .int failed),
           ("success_rate", .float (texts.repr (successRate filled failed))),
           ("broker", .str broker)]) }

def checkOrderFlow : Option Gets → FlowReport :=
  flowCheck "order flow" "Order flow" (inspectOrders fl iso texts now activeBrokers)

end

end AlphaPanda.Health

-- ---------------------------------------------------------------------------
-- What was counted
-- ---------------------------------------------------------------------------

namespace AlphaPanda.Monitoring

open MetricsRegistry

def tally (r : Redis) (key : String) : ℕ :=
  match r.get? key with
  | some (.count n) => n
  | _ => 0

section
variable {fl : Floats} {iso : IsoFormat}

theorem incr_tally (now : ℤ) (countKey : String) (h : Counted r key) :
    tally (Command.run now r (.incr countKey)) key = tally r key + if countKey = key then 1 else 0 := by
  by_cases hkey : countKey = key
  · subst hkey
    rw [if_pos rfl, Command.run, Redis.read, tally, tally]
    cases hheld : r.get? countKey with
    | none => simp
    | some held =>
      cases held with
      | count n => simp
      | text s deadline => exact absurd hheld (h s deadline)
  · rw [if_neg hkey, add_zero, tally, incr_get?_of_ne now r hkey]
    rfl

theorem setex_tally (now : ℤ) (r : Redis) (ttlSeconds : ℕ) (text : String) (h : key ≠ lastKey) :
    tally (Command.run now r (.setex lastKey ttlSeconds text)) key = tally r key := by
  rw [tally, setex_get?, if_neg h]
  rfl

def Recording.times (x : Recording fl) (stage broker : String) : ℕ :=
  if x.stage = stage then x.contexts.count broker else 0

theorem Recording.run_tally (x : Recording fl) (now : ℤ) {r : Redis} {stage : String}
    (hplain : ':' ∉ stage.toList)
    (h : Counted r (buildKey stage broker "count")) :
    tally (x.run iso now r) (buildKey stage broker "count") =
      tally r (buildKey stage broker "count") + x.times stage broker := by
  rw [run, commands, keys_eq, times]
  induction x.contexts generalizing r with
  | nil => simp
  | cons ns contexts ih =>
    have hcounted := incr_counted now (buildKey x.stage ns "count") h
    rw [List.map_cons, List.flatMap_cons, List.foldl_append, List.foldl_cons, List.foldl_cons,
      List.foldl_nil, ih, setex_tally _ _ _ _ (countKey_ne_lastKey _ _ _ _), incr_tally now _ h]
    · simp only [buildKey_inj x.stage_plain hplain, List.count_cons]
      grind
    · intro s deadline
      rw [setex_get?, if_neg (countKey_ne_lastKey _ _ _ _)]
      exact hcounted s deadline

theorem Timeline.run_tally (timeline : Timeline fl) (hplain : ':' ∉ stage.toList) :
    tally (timeline.run iso) (buildKey stage broker "count") =
      (timeline.map fun e => e.2.times stage broker).sum := by
  induction timeline using List.reverseRecOn with
  | nil => rfl
  | append_singleton timeline e ih =>
    have hrun : run iso (timeline ++ [e]) = e.2.run iso e.1 (run iso timeline) := by
      rw [run, List.foldl_append]
      rfl
    rw [hrun, e.2.run_tally e.1 hplain (run_counted iso timeline stage broker), ih, List.map_append,
      List.sum_append, List.map_singleton, List.sum_singleton]

theorem Recording.times_orders (x : Recording fl) (broker : String) :
    x.times "orders" broker = if x.Concerns "orders" broker then 1 else 0 := by
  cases x with
  | orderProcessed order ns =>
    by_cases h : ns = broker
    · simp [times, Concerns, stage, contexts, h]
    · simp [times, Concerns, stage, contexts, h, Ne.symm h]
  | signalValidated signal passed ns => cases passed <;> simp [times, Concerns, stage]
  | _ => simp [times, Concerns, stage]

def Timeline.orders (timeline : Timeline fl) (broker : String) : ℕ :=
  timeline.countP fun e => e.2.Concerns "orders" broker

theorem Timeline.run_orders (timeline : Timeline fl) (broker : String) :
    tally (timeline.run iso) (buildKey "orders" broker "count") = timeline.orders broker := by
  rw [timeline.run_tally (by simp), orders]
  induction timeline with
  | nil => rfl
  | cons e timeline ih =>
    rw [List.map_cons, List.sum_cons, ih, e.2.times_orders, List.countP_cons, add_comm]
    simp

end

end AlphaPanda.Monitoring

namespace AlphaPanda.Health

open Json Monitoring Monitoring.MetricsRegistry

-- ---------------------------------------------------------------------------
-- Reports
-- ---------------------------------------------------------------------------

section
variable {fl : Floats} {iso : IsoFormat} {client : Client} {texts : FloatTexts}

theorem truthy_ofText (client : Client) (h : s ≠ "") : truthy (client.ofText s) = true := by
  have hdecodes := client.decodes s
  cases hraw : client.ofText s with
  | bytes b =>
    refine decide_eq_true fun hsize => h ?_
    obtain rfl : b = ByteArray.empty := ByteArray.ext (Array.eq_empty_of_size_eq_zero hsize)
    rw [hraw] at hdecodes
    exact (Option.some.inj hdecodes).symm
  | str s' =>
    rw [hraw] at hdecodes
    obtain rfl := Option.some.inj hdecodes
    exact decide_eq_true h

theorem decode_ofText (client : Client) (s : String) :
    decode (client.ofText s) = .ok s ∨ ∃ e, decode (client.ofText s) = .error e := by
  have hdecodes := client.decodes s
  cases hraw : client.ofText s with
  | bytes b =>
    rw [hraw] at hdecodes
    exact .inl (by simp only [decode, show String.fromUTF8? b = some s from hdecodes])
  | str s' => exact .inr ⟨_, rfl⟩

/-- The time that a record call states has no zone. -/
theorem timeStated_recorded (x : Recording fl) (t now : ℤ) :
    timeStated fl iso now (String.ofList (dumps fl (x.lastData iso t))) =
      .error ⟨"TypeError", "can't subtract offset-naive and offset-aware datetimes", .builtin⟩ := by
  rw [timeStated, loads_dumps (x.lastData_distinct t), Recording.lastData]
  simp only [List.lookup_cons_self, iso.fromisoformat_isoformat]

theorem lastTime_error (client : Client) (h : timeStated fl iso now s = .error e) :
    ∃ e', lastTime fl iso now (client.ofText s) = .error e' := by
  rw [lastTime]
  rcases decode_ofText client s with hdecode | ⟨e', hdecode⟩
  · exact ⟨e, by rw [hdecode]; exact h⟩
  · exact ⟨e', by rw [hdecode]; rfl⟩

def Gets.Reads (iso : IsoFormat) (client : Client) (timelines : ℕ → Timeline fl) (times : ℕ → ℤ)
    (get : Gets) : Prop :=
  ∀ n key, get n key = .ok ((((timelines n).run iso).read (times n) key).map client.ofHeld)

instance decidableUsed (timeline : Timeline fl) (now : ℤ) (stage broker : String) :
    Decidable (timeline.Used now stage broker) :=
  decidable_of_iff ((timeline.latest stage broker).any
    fun e => decide (now < e.1 + metricsTtl * 1000000)) (by simp [Timeline.Used, Option.any_eq_true])

/-- A check finds the last record call, where it has not expired, and raises at
its time. -/
theorem last_cases (iso : IsoFormat) (client : Client) (timeline : Timeline fl) (t : ℤ)
    (broker : String) (hplain : ':' ∉ stage.toList) :
    (timeline.Used t stage broker ∧ ∃ raw,
      (((timeline.run iso).read t (buildKey stage broker "last")).map client.ofHeld).filter truthy =
        some raw ∧ ∀ now, ∃ e, lastTime fl iso now raw = .error e) ∨
    ¬timeline.Used t stage broker ∧
      (((timeline.run iso).read t (buildKey stage broker "last")).map client.ofHeld).filter truthy =
        none := by
  rw [Redis.read, Timeline.run_lastKey timeline hplain, Timeline.Used]
  cases hlatest : timeline.latest stage broker with
  | none => exact .inr ⟨by simp, rfl⟩
  | some e =>
    simp only [Option.map_some, Option.some.injEq, exists_eq_left']
    by_cases hlive : t < e.1 + metricsTtl * 1000000
    · have hne := @lastData_truthy fl iso e.2 e.1 (e.1 + metricsTtl * 1000000)
      simp only [Held.truthy, decide_eq_true_eq] at hne
      refine .inl ⟨hlive, _, ?_, fun now => lastTime_error client (timeStated_recorded e.2 e.1 now)⟩
      rw [if_pos hlive, Option.map_some, Client.ofHeld, Option.filter_some,
        truthy_ofText client hne, if_pos rfl]
    · refine .inr ⟨hlive, ?_⟩
      rw [if_neg hlive]
      rfl

theorem countOf_recorded (client : Client) (timeline : Timeline fl) (t : ℤ) (stage broker : String) :
    countOf (((timeline.run iso).read t (buildKey stage broker "count")).map client.ofHeld) =
      .ok (tally (timeline.run iso) (buildKey stage broker "count") : ℤ) := by
  have hcounted := timeline.run_counted iso stage broker
  rw [Redis.read, tally]
  cases hheld : (timeline.run iso).get? (buildKey stage broker "count") with
  | none => rfl
  | some held =>
    cases held with
    | text s deadline => exact absurd hheld (hcounted s deadline)
    | count n =>
      have hne : n.repr ≠ "" := by
        intro h
        have hparse := parseInt_repr n
        rw [h] at hparse
        cases hparse
      simp only [countOf, Option.map_some, Client.ofHeld, Option.filter_some, truthy_ofText client hne,
        if_true, client.decodes, Monitoring.toInt, parseInt_repr]

variable {get : Gets} {timelines : ℕ → Timeline fl} {times : ℕ → ℤ}

theorem checkMarketDataFlow_status (hreads : get.Reads iso client timelines times) (now : ℤ) :
    (checkMarketDataFlow fl iso texts now (some get)).status =
      if (timelines 0).Used (times 0) "market_ticks" "market" then .unknown else .degraded := by
  have hkey : marketTicksLast = buildKey "market_ticks" "market" "last" := by decide
  rw [checkMarketDataFlow, flowCheck, inspectMarketData, hreads 0, hkey]
  have hplain : ':' ∉ "market_ticks".toList := by simp
  rcases last_cases iso client (timelines 0) (times 0) "market" hplain with
    ⟨hused, raw, hraw, herror⟩ | ⟨hunused, hraw⟩
  · obtain ⟨e, he⟩ := herror now
    simp only [bind, Except.bind, hraw, he, if_pos hused]
  · simp only [bind, Except.bind, hraw, if_neg hunused, pure, Except.pure]

theorem checkSignalGenerationFlow_status (hreads : get.Reads iso client timelines times) (now : ℤ)
    (activeBrokers : List String) :
    (checkSignalGenerationFlow fl iso texts now activeBrokers (some get)).status =
      if (timelines 0).Used (times 0) "signals" (flowBroker activeBrokers) then .unknown
      else .healthy := by
  rw [checkSignalGenerationFlow, flowCheck, inspectSignals, hreads 0, hreads 1, signalsLast,
    signalsCount]
  have hplain : ':' ∉ "signals".toList := by simp
  rcases last_cases iso client (timelines 0) (times 0) (flowBroker activeBrokers) hplain with
    ⟨hused, raw, hraw, herror⟩ | ⟨hunused, hraw⟩
  · obtain ⟨e, he⟩ := herror now
    simp only [bind, Except.bind, countOf_recorded, hraw, he, if_pos hused]
  · simp only [bind, Except.bind, countOf_recorded, hraw, if_neg hunused, pure, Except.pure]

theorem orderStatus_status {filled failed : ℕ} (h : filled ≤ failed) :
    (orderStatus texts filled failed).1 = if 5 < filled + failed then .degraded else .healthy := by
  by_cases htotal : 5 < filled + failed
  · have hpos : (0 : ℚ) < filled + failed := by exact_mod_cast (by omega : 0 < filled + failed)
    have hle : (filled : ℚ) ≤ failed := by exact_mod_cast h
    have hrate : successRate filled failed < 80 := by
      rw [successRate, if_pos (by omega), div_mul_eq_mul_div]
      push_cast
      rw [div_lt_iff₀ hpos]
      linarith
    simp only [orderStatus, if_pos htotal]
    rw [if_pos ⟨hrate, by omega⟩]
  · simp only [orderStatus, if_neg htotal]
    rw [if_neg (by omega), if_neg (by omega)]

theorem checkOrderFlow_status (hreads : get.Reads iso client timelines times) (now : ℤ)
    (activeBrokers : List String)
    (hlater : (timelines 1).orders (flowBroker activeBrokers) ≤
      (timelines 2).orders (flowBroker activeBrokers)) :
    (checkOrderFlow fl iso texts now activeBrokers (some get)).status =
      if (timelines 0).Used (times 0) "orders" (flowBroker activeBrokers) then .unknown
      else if 5 < (timelines 1).orders (flowBroker activeBrokers) +
          (timelines 2).orders (flowBroker activeBrokers) then .degraded
      else .healthy := by
  rw [checkOrderFlow, flowCheck, inspectOrders, hreads 0, hreads 1, hreads 2, ordersLast, ordersCount]
  simp only [bind, Except.bind, countOf_recorded, Timeline.run_orders]
  have hplain : ':' ∉ "orders".toList := by simp
  rcases last_cases iso client (timelines 0) (times 0) (flowBroker activeBrokers) hplain with
    ⟨hused, raw, hraw, herror⟩ | ⟨hunused, hraw⟩
  · obtain ⟨e, he⟩ := herror now
    simp [hraw, he, if_pos hused]
  · simp only [hraw, if_neg hunused, Option.isNone_none, true_and, Option.mapM_none]
    by_cases hzero : ((timelines 1).orders (flowBroker activeBrokers) : ℤ) +
        (timelines 2).orders (flowBroker activeBrokers) = 0
    · simp only [if_pos hzero, pure, Except.pure]
      rw [if_neg (by omega)]
    · simp only [if_neg hzero, pure, Except.pure]
      exact orderStatus_status hlater

theorem runHealthCheck_report (report : FlowReport) {check : HealthCheck} (henabled : check.enabled)
    (houtcome : check.outcome = .returned report.result) :
    (runHealthCheck check).status = .unknown := by
  have hreported : check.outcome.reported = some report.status := by
    simp [houtcome, FlowReport.result, Outcome.reported, HealthStatus.ofValue_ok.mpr rfl,
      Except.toOption]
  rw [runHealthCheck_status henabled hreported, houtcome]
  rfl

/-- What the checks report of a pipeline, whatever was recorded and goes on being
recorded while they read. A stage that was used within five minutes is unknown
to its check. Otherwise the ticks are degraded, the signals healthy, and the
orders degraded as soon as six are counted, each of them twice. To the checker
every report is unknown. -/
theorem flow_reports (hreads : get.Reads iso client timelines times) (now : ℤ)
    (activeBrokers : List String) (hlater : timelines 1 <+: timelines 2) :
    let ticks := checkMarketDataFlow fl iso texts now (some get)
    let signals := checkSignalGenerationFlow fl iso texts now activeBrokers (some get)
    let orders := checkOrderFlow fl iso texts now activeBrokers (some get)
    let broker := flowBroker activeBrokers
    ticks.status =
        (if (timelines 0).Used (times 0) "market_ticks" "market" then .unknown else .degraded) ∧
      signals.status =
        (if (timelines 0).Used (times 0) "signals" broker then .unknown else .healthy) ∧
      orders.status =
        (if (timelines 0).Used (times 0) "orders" broker then .unknown
        else if 5 < (timelines 1).orders broker + (timelines 2).orders broker then .degraded
        else .healthy) ∧
      ∀ report ∈ [ticks, signals, orders], ∀ check : HealthCheck, check.enabled →
        check.outcome = .returned report.result → (runHealthCheck check).status = .unknown := by
  have hgrown : (timelines 1).orders (flowBroker activeBrokers) ≤
      (timelines 2).orders (flowBroker activeBrokers) := hlater.sublist.countP_le
  exact ⟨checkMarketDataFlow_status hreads now,
    checkSignalGenerationFlow_status hreads now activeBrokers,
    checkOrderFlow_status hreads now activeBrokers hgrown,
    fun report _ check henabled houtcome => runHealthCheck_report report henabled houtcome⟩

end

def bytesClient : Client where
  ofText s := .bytes s.toUTF8
  decodes s := by
    rw [decodeBytes, String.fromUTF8?]
    exact dif_pos s.isValidUTF8

def threeOrders : Timeline noFloats := List.replicate 3 (0, .orderProcessed .empty "paper")

def afterThreeOrders : Gets := fun _ key =>
  .ok (((threeOrders.run .epoch).read 300000000 key).map bytesClient.ofHeld)

def halfTexts : FloatTexts := ⟨fun _ => "50.0", fun _ => "50.0"⟩

theorem threeOrders_degraded :
    (checkOrderFlow noFloats .epoch halfTexts 300000000 ["paper"] (some afterThreeOrders)).status =
      .degraded := by
  have hreads : afterThreeOrders.Reads .epoch bytesClient (fun _ => threeOrders) fun _ => 300000000 :=
    fun _ _ => rfl
  refine (flow_reports hreads 300000000 ["paper"] (List.prefix_refl _)).2.2.1.trans ?_
  decide

end AlphaPanda.Health
