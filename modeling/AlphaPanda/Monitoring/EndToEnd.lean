import AlphaPanda.Monitoring.PipelineValidator
import Mathlib.Tactic.IntervalCases
import Mathlib.Tactic.NormNum

/-!
# End-to-end validation

`PipelineValidator.validate_end_to_end_flow`: the five stages of a broker's
pipeline are checked in turn, and the number of healthy ones gives the verdict
on the whole. The three later checks find a stage unhealthy as soon as it has
recorded anything, so a pipeline that is in use is critical, and one in which
nothing is ever validated is healthy.
-/

namespace AlphaPanda.Monitoring

open Json MetricsRegistry

namespace MetricsRegistry

def strategiesCount (broker : String) : String := buildKey "strategies" broker "count"

end MetricsRegistry

-- ---------------------------------------------------------------------------
-- Reports
-- ---------------------------------------------------------------------------

inductive StageIssue where
  | ofCheck (issue : Issue)
  | noTicks
  | marketDataLatency (latencySeconds : ℚ)
  | noSignals (broker : String)
  | signalLatency (broker : String) (latencySeconds : ℚ)

structure MarketDataReport where
  healthy : Bool
  latencyMs : Option ℚ := none
  thresholdMs : Option ℚ := none
  message : Option String := none
  reason : Option String := none
  issue : Option StageIssue := none
  recommendation : Option String := none
  error : Option String := none

structure SignalReport where
  healthy : Bool
  broker : String
  lastSignalTime : Option ℤ := none
  signalsLast5min : Option ℤ := none
  info : Option String := none
  latencyMs : Option ℚ := none
  issue : Option StageIssue := none
  recommendation : Option String := none
  error : Option String := none

inductive StageReport where
  | marketData (report : MarketDataReport)
  | signals (report : SignalReport)
  | check (report : Report)
  | skipped (broker reason : String)

namespace StageReport

def healthy : StageReport → Bool
  | .marketData report => report.healthy
  | .signals report => report.healthy
  | .check report => report.healthy
  | .skipped .. => true

def issue : StageReport → Option StageIssue
  | .marketData report => report.issue
  | .signals report => report.issue
  | .check report => report.issue.map .ofCheck
  | .skipped .. => none

def recommendation : StageReport → Option String
  | .marketData report => report.recommendation
  | .signals report => report.recommendation
  | .check report => report.recommendation
  | .skipped .. => none

end StageReport

-- ---------------------------------------------------------------------------
-- The first two stages
-- ---------------------------------------------------------------------------

/-- What a check takes from outside while it is made: the time, the market
hours, where it asks for them again these too, and what Redis answers. -/
structure Moment where
  now : ℤ
  marketOpen : Except Exc Bool
  stillOpen : Except Exc Bool
  redis : String → Except Exc (Option Raw)

structure EndToEndValidator extends PipelineValidator where
  startTime : ℤ
  gracePeriodSeconds : ℚ := 30
  marketDataLatency : ℚ := 1

section
variable (fl : Floats) (iso : IsoFormat) (v : EndToEndValidator) (m : Moment)

def marketDataOf : Except Exc MarketDataReport := do
  if !(← m.marketOpen) then
    pure
      { healthy := true
        message := some "Market closed: skipping market-data latency checks"
        reason := some "market_closed" }
  else match m.redis marketTicksLast with
    | .error e =>
      pure { healthy := false, issue := some (.ofCheck .redisUnavailable), error := some e.message }
    | .ok raw =>
      match (decodeBytes raw).filter (· ≠ "") with
      | none =>
        pure
          { healthy := false
            issue := some .noTicks
            recommendation := some "Check market feed service and authentication" }
      | some text =>
        match parseTimestampFromJsonOrIso fl iso text with
        | none => pure { healthy := false, issue := some (.ofCheck .metricsParseError) }
        | some time =>
          let latency : ℚ := (m.now - time) / 1000000
          let result : MarketDataReport :=
            { healthy := latency ≤ v.marketDataLatency
              latencyMs := some (latency * 1000)
              thresholdMs := some (v.marketDataLatency * 1000) }
          pure (if latency ≤ v.marketDataLatency then result else
            { result with
              issue := some (.marketDataLatency latency)
              recommendation := some "Check market feed service connectivity and performance" })

def validateMarketDataFlow : MarketDataReport :=
  match marketDataOf fl iso v m with
  | .ok report => report
  | .error e => { healthy := false, issue := some (.ofCheck .validationError), error := some e.message }

/-- How many strategies target the broker; `none` where that cannot be read. -/
def activeStrategies : Option ℤ :=
  match m.redis (strategiesCount v.broker) with
  | .error _ => none
  | .ok none => some 0
  | .ok raw => (decodeBytes raw).bind Instruments.parseInt

/-- The function imports the name in the branches that look for strategies, so
it is local everywhere in it. -/
def unboundRegistry : Exc :=
  ⟨"UnboundLocalError",
    "cannot access local variable 'MetricsRegistry' where it is not associated with a value", .builtin⟩

def signalsOf : Except Exc SignalReport := do
  let expecting := (← m.marketOpen) && v.tradingEnabled
  let noStrategies := s!"No active strategies configured for {v.broker}"
  if expecting && activeStrategies v m = some 0 then
    pure { healthy := true, broker := v.broker, signalsLast5min := some 0, info := some noStrategies }
  else if !expecting then throw unboundRegistry
  else match m.redis (signalsLast v.broker), m.redis (signalsCount v.broker) with
    | .ok lastRaw, .ok countRaw =>
      let count ← ((decodeBytes countRaw).filter (· ≠ "")).mapM toInt
      let result : SignalReport :=
        { healthy := true, broker := v.broker, signalsLast5min := some (count.getD 0) }
      if !((← m.stillOpen) && v.tradingEnabled) then pure result
      else match (decodeBytes lastRaw).filter (· ≠ "") with
        | none =>
          pure (if activeStrategies v m = some 0 then { result with info := some noStrategies } else
            { result with
              healthy := false
              issue := some (.noSignals v.broker)
              recommendation :=
                some s!"Check strategy runner and {v.broker} broker configuration" })
        | some text =>
          match parseTimestampFromJsonOrIso fl iso text with
          | none =>
            pure { healthy := false, broker := v.broker, issue := some (.ofCheck .metricsParseError) }
          | some time =>
            let latency : ℚ := (m.now - time) / 1000000
            let result := { result with lastSignalTime := some time }
            pure (if 5 < latency then
              { result with
                healthy := false
                latencyMs := some (latency * 1000)
                issue := some (.signalLatency v.broker latency)
                recommendation := some s!"Check strategy runner performance for {v.broker}" }
              else result)
    | .error e, _ | .ok _, .error e =>
      pure
        { healthy := false
          broker := v.broker
          issue := some (.ofCheck .redisUnavailable)
          error := some e.message }

def validateSignalGeneration : SignalReport :=
  match signalsOf fl iso v m with
  | .ok report => report
  | .error e =>
    { healthy := false
      broker := v.broker
      issue := some (.ofCheck .validationError)
      error := some e.message }

end

-- ---------------------------------------------------------------------------
-- The whole pipeline
-- ---------------------------------------------------------------------------

inductive OverallHealth where
  | startup
  | error
  | idle
  | healthy
  | warning
  | degraded
  | critical
  deriving DecidableEq

def OverallHealth.text : OverallHealth → String
  | .startup => "startup"
  | .error => "error"
  | .idle => "idle"
  | .healthy => "healthy"
  | .warning => "warning"
  | .degraded => "degraded"
  | .critical => "critical"

/-- An issue that is `none` is unknown. -/
structure Bottleneck where
  stage : String
  issue : Option StageIssue
  broker : String
  details : Option String := none

structure Recommendation where
  stage : String
  recommendation : String
  broker : String

structure Results where
  validationId : String
  timestamp : String
  broker : String
  stages : List (String × StageReport) := []
  bottlenecks : List Bottleneck := []
  recommendations : List Recommendation := []
  overallHealth : OverallHealth
  message : Option String := none
  error : Option String := none

def analyzePipelineHealth (broker : String) (stages : List (String × StageReport)) :
    OverallHealth × List Bottleneck × List Recommendation :=
  let unhealthy := stages.filter fun s => !s.2.healthy
  let healthyStages : ℚ := stages.countP fun s => s.2.healthy
  let totalStages : ℚ := stages.length
  let overallHealth :=
    if healthyStages = totalStages then .healthy
    else if totalStages * (8 / 10) ≤ healthyStages then .warning
    else if totalStages * (6 / 10) ≤ healthyStages then .degraded
    else .critical
  (overallHealth, unhealthy.map fun s => ⟨s.1, s.2.issue, broker, none⟩,
    unhealthy.filterMap fun s => s.2.recommendation.map fun r => ⟨s.1, r, broker⟩)

/-- What a validation takes from outside, and at which moments its checks are made. -/
structure Validation where
  validationId : String
  timestamp : String
  now : ℤ
  ping : Except Exc Unit
  marketOpen : Except Exc Bool
  marketData : Moment
  signalGeneration : Moment
  riskValidation : Moment
  orderExecution : Moment
  portfolioUpdates : Moment

section
variable (fl : Floats) (iso : IsoFormat) (v : EndToEndValidator) (x : Validation)

def openStages : List (String × StageReport) :=
  [("market_data", .marketData (validateMarketDataFlow fl iso v x.marketData)),
    ("signal_generation", .signals (validateSignalGeneration fl iso v x.signalGeneration)),
    ("risk_validation", .check
      (validateRiskManagement fl iso v.toPipelineValidator x.riskValidation.redis x.riskValidation.now)),
    ("order_execution", .check
      (validateOrderExecution fl iso v.toPipelineValidator x.orderExecution.redis x.orderExecution.now)),
    ("portfolio_updates", .check
      (validatePortfolioUpdates fl iso v.toPipelineValidator x.portfolioUpdates.redis
        x.portfolioUpdates.now))]

def idleStages : List (String × StageReport) :=
  let reason := if v.tradingEnabled then "market_closed" else "trading_disabled"
  [("market_data", .marketData (validateMarketDataFlow fl iso v x.marketData)),
    ("signal_generation", .skipped v.broker "market_closed"),
    ("risk_validation", .skipped v.broker "market_closed"),
    ("order_execution", .skipped v.broker reason),
    ("portfolio_updates", .skipped v.broker reason)]

def inStartupGracePeriod : Bool := ((x.now - v.startTime : ℤ) : ℚ) / 1000000 < v.gracePeriodSeconds

def validateEndToEndFlow : Results :=
  let results (overallHealth : OverallHealth) : Results :=
    { validationId := x.validationId
      timestamp := x.timestamp
      broker := v.broker
      overallHealth := overallHealth }
  if inStartupGracePeriod v x then
    { results .startup with message := some "Service starting up, validation deferred" }
  else match x.ping, x.marketOpen with
    | .error e, _ =>
      { results .error with
        bottlenecks :=
          [⟨"infrastructure", some (.ofCheck .redisUnavailable), v.broker, some e.message⟩]
        message := some "Redis connectivity issue detected" }
    | .ok _, .error e => { results .error with error := some e.message }
    | .ok _, .ok false =>
      { results .idle with
        stages := idleStages fl iso v x
        message := some "Market closed; validator in idle mode" }
    | .ok _, .ok true =>
      let stages := openStages fl iso v x
      let (overallHealth, bottlenecks, recommendations) := analyzePipelineHealth v.broker stages
      { results overallHealth with
        stages := stages
        bottlenecks := bottlenecks
        recommendations := recommendations }

end

-- ---------------------------------------------------------------------------
-- Counters
-- ---------------------------------------------------------------------------

theorem isDigit_bounds {c : Char} (h : c.isDigit) : 48 ≤ c.toNat ∧ c.toNat ≤ 57 := by
  simp only [Char.isDigit, Bool.and_eq_true, decide_eq_true_eq, UInt32.le_iff_toNat_le] at h
  exact h

theorem strip_digits {cs : List Char} (h : ∀ c ∈ cs, c.isDigit) : Decimal.strip cs = cs := by
  have hspace : ∀ c ∈ cs, Decimal.isSpace c = false := by
    intro c hc
    have hbounds := isDigit_bounds (h c hc)
    simp only [Decimal.isSpace, decide_eq_false_iff_not, List.mem_cons, List.not_mem_nil, or_false]
    omega
  have hdrop : ∀ ds : List Char, (∀ c ∈ ds, Decimal.isSpace c = false) →
      ds.dropWhile Decimal.isSpace = ds := by
    rintro (_ | ⟨d, ds⟩) hds
    · rfl
    · exact List.dropWhile_cons_of_neg (by simp [hds d List.mem_cons_self])
  rw [Decimal.strip, hdrop cs hspace, hdrop _ fun c hc => hspace c (List.mem_reverse.mp hc),
    List.reverse_reverse]

theorem readSign_digits {cs : List Char} (h : ∀ c ∈ cs, c.isDigit) :
    Decimal.readSign cs = (false, cs) := by
  unfold Decimal.readSign
  split
  · exact absurd (h '-' List.mem_cons_self) (by decide)
  · exact absurd (h '+' List.mem_cons_self) (by decide)
  · rfl

theorem underscoresOk_digits {cs : List Char} (h : ∀ c ∈ cs, c.isDigit) (before : Option Char) :
    Decimal.underscoresOk before cs = true := by
  induction cs generalizing before with
  | nil => rfl
  | cons c cs ih =>
    have hrest := ih (fun d hd => h d (List.mem_cons_of_mem _ hd)) (some c)
    unfold Decimal.underscoresOk
    split
    · rfl
    · rename_i heq
      obtain ⟨rfl, -⟩ := List.cons.inj heq
      exact absurd (h '_' List.mem_cons_self) (by decide)
    · rename_i heq
      obtain ⟨rfl, rfl⟩ := List.cons.inj heq
      exact hrest

theorem parseInt_repr (n : ℕ) : Instruments.parseInt n.repr = some (n : ℤ) := by
  have hdigits : ∀ c ∈ n.repr.toList, c.isDigit := by
    intro c hc
    rw [Nat.repr, String.toList_ofList] at hc
    exact Nat.isDigit_of_mem_toDigits (by decide) (by decide) hc
  have hne : n.repr.toList ≠ [] := by
    rw [Nat.repr, String.toList_ofList]
    exact Nat.toDigits_ne_nil
  have hvalue : Decimal.digitsValue n.repr.toList = n := by
    rw [Nat.repr, String.toList_ofList, Decimal.digitsValue]
    exact Nat.ofDigitChars_eq_foldl.symm.trans (Nat.ofDigitChars_toDigits (by decide) (by decide))
  have hfilter : n.repr.toList.filter (· ≠ '_') = n.repr.toList := by
    refine List.filter_eq_self.mpr fun c hc => decide_eq_true ?_
    rintro rfl
    exact absurd (hdigits '_' hc) (by decide)
  have hall : n.repr.toList.all Char.isDigit = true := List.all_eq_true.mpr hdigits
  simp only [Instruments.parseInt, strip_digits hdigits, readSign_digits hdigits, hfilter,
    underscoresOk_digits hdigits none, hall, hne, ne_eq, not_false_eq_true, and_self, if_true, hvalue]
  rfl

def OverallHealth.ofUnhealthy : ℕ → OverallHealth
  | 0 => .healthy
  | 1 => .warning
  | 2 => .degraded
  | _ => .critical

theorem ofUnhealthy_critical (h : 3 ≤ n) : OverallHealth.ofUnhealthy n = .critical := by
  obtain ⟨n, rfl⟩ := Nat.exists_eq_add_of_le' h
  rfl

theorem ofUnhealthy_healthy : OverallHealth.ofUnhealthy n = .healthy ↔ n = 0 := by
  rcases n with _ | _ | _ | n <;> simp [OverallHealth.ofUnhealthy]

def unhealthyStages (stages : List (String × StageReport)) : List String :=
  (stages.filter fun s => !s.2.healthy).map Prod.fst

theorem countP_healthy (stages : List (String × StageReport)) :
    stages.countP (fun s => s.2.healthy) + (unhealthyStages stages).length = stages.length := by
  have hcount := List.length_eq_countP_add_countP (fun s => s.2.healthy) (l := stages)
  simp only [unhealthyStages, List.length_map, ← List.countP_eq_length_filter]
  simpa using hcount.symm

theorem analyze_overall (broker : String) {stages : List (String × StageReport)}
    (h : stages.length = 5) :
    (analyzePipelineHealth broker stages).1 = .ofUnhealthy (unhealthyStages stages).length := by
  have hcount := countP_healthy stages
  unfold analyzePipelineHealth
  generalize (unhealthyStages stages).length = n at hcount ⊢
  generalize stages.countP (fun s => s.2.healthy) = healthy at hcount ⊢
  rw [h] at hcount ⊢
  have hn : n ≤ 5 := by omega
  obtain rfl : healthy = 5 - n := by omega
  interval_cases n <;> norm_num [OverallHealth.ofUnhealthy]

section
variable {fl : Floats} {iso : IsoFormat} {v : EndToEndValidator} {x : Validation}

structure Validation.Checks (x : Validation) (v : EndToEndValidator) : Prop where
  started : inStartupGracePeriod v x = false
  reachable : x.ping = .ok ()
  marketOpen : x.marketOpen = .ok true

theorem validate_checks (h : x.Checks v) :
    (validateEndToEndFlow fl iso v x).overallHealth =
        .ofUnhealthy (unhealthyStages (openStages fl iso v x)).length ∧
      (validateEndToEndFlow fl iso v x).bottlenecks.map Bottleneck.stage =
        unhealthyStages (openStages fl iso v x) := by
  unfold validateEndToEndFlow
  rw [h.started, h.reachable, h.marketOpen]
  exact ⟨analyze_overall v.broker rfl, List.map_map⟩

end

-- ---------------------------------------------------------------------------
-- What the services recorded
-- ---------------------------------------------------------------------------

/-- How the client returns what a key holds. -/
structure Client where
  ofText : String → Raw
  decodes : ∀ s, decodeBytes (some (ofText s)) = some s

def Client.ofHeld (client : Client) : Held → Raw
  | .count n => client.ofText n.repr
  | .text s _ => client.ofText s

section
variable {fl : Floats} {iso : IsoFormat} {client : Client} {v : EndToEndValidator} {x : Validation}

/-- At that moment Redis answers, from what was recorded until then. -/
def Moment.Reads (iso : IsoFormat) (client : Client) (timeline : Timeline fl) (m : Moment) : Prop :=
  ∀ key, m.redis key = .ok (((timeline.run iso).read m.now key).map client.ofHeld)

def Timeline.Used (timeline : Timeline fl) (now : ℤ) (stage broker : String) : Prop :=
  ∃ e, timeline.latest stage broker = some e ∧ now < e.1 + metricsTtl * 1000000

theorem Moment.Reads.numeric {m : Moment} {timeline : Timeline fl} (h : m.Reads iso client timeline)
    (stage broker : String) :
    ∃ countRaw, m.redis (buildKey stage broker "count") = .ok countRaw ∧ Numeric countRaw := by
  refine ⟨_, h _, fun text htext => ?_⟩
  have hcounted := timeline.run_counted iso stage broker
  rw [Redis.read] at htext
  cases hheld : (timeline.run iso).get? (buildKey stage broker "count") with
  | none =>
    rw [hheld] at htext
    cases htext
  | some held =>
    cases held with
    | count n =>
      rw [hheld] at htext
      obtain rfl : n.repr = text := Option.some.inj ((client.decodes _).symm.trans htext)
      simp [parseInt_repr]
    | text s deadline => exact absurd hheld (hcounted s deadline)

theorem Moment.Reads.blank_iff {m : Moment} {timeline : Timeline fl} (h : m.Reads iso client timeline)
    (broker : String) (hplain : ':' ∉ stage.toList) :
    ∃ raw, m.redis (buildKey stage broker "last") = .ok raw ∧
      (Blank raw ↔ ¬timeline.Used m.now stage broker) := by
  refine ⟨_, h _, ?_⟩
  rw [Redis.read, Timeline.run_lastKey timeline hplain, Timeline.Used]
  cases hlatest : timeline.latest stage broker with
  | none => simp [Blank, decodeBytes]
  | some e =>
    simp only [Option.map_some, Option.some.injEq, exists_eq_left']
    split
    · rename_i hlive
      have htruthy := @lastData_truthy fl iso e.2 e.1 (e.1 + metricsTtl * 1000000)
      simp only [Held.truthy, decide_eq_true_eq] at htruthy
      simp [Blank, Client.ofHeld, client.decodes, htruthy, hlive]
    · rename_i hexpired
      simp [Blank, decodeBytes, hexpired]

theorem validate_healthy_iff {stage : Stage} {w : PipelineValidator} {m : Moment}
    {timeline : Timeline fl} (h : m.Reads iso client timeline) (htrading : w.tradingEnabled)
    (hlast : stage.lastKey w.broker = buildKey name w.broker "last")
    (hcount : stage.countKey w.broker = buildKey name w.broker "count") (hplain : ':' ∉ name.toList) :
    (stage.validate fl iso w m.redis m.now).healthy ↔ ¬timeline.Used m.now name w.broker := by
  obtain ⟨raw, hraw, hblank⟩ := h.blank_iff w.broker hplain
  obtain ⟨countRaw, hcountRaw, hnumeric⟩ := h.numeric name w.broker
  rw [← hblank]
  exact validate_healthy m.now htrading (hlast ▸ hraw) (hcount ▸ hcountRaw) hnumeric

theorem length_unhealthyStages :
    (unhealthyStages (openStages fl iso v x)).length =
      (!(validateMarketDataFlow fl iso v x.marketData).healthy).toNat +
      (!(validateSignalGeneration fl iso v x.signalGeneration).healthy).toNat +
      (!(validateRiskManagement fl iso v.toPipelineValidator x.riskValidation.redis
        x.riskValidation.now).healthy).toNat +
      (!(validateOrderExecution fl iso v.toPipelineValidator x.orderExecution.redis
        x.orderExecution.now).healthy).toNat +
      (!(validatePortfolioUpdates fl iso v.toPipelineValidator x.portfolioUpdates.redis
        x.portfolioUpdates.now).healthy).toNat := by
  have hone : ∀ b : Bool, (if b then 1 else 0) = b.toNat := by
    intro b
    cases b <;> simp only [Bool.toNat_false, Bool.toNat_true, Bool.false_eq_true, if_true, if_false]
  simp only [unhealthyStages, List.length_map, ← List.countP_eq_length_filter, openStages,
    List.countP_cons, List.countP_nil, StageReport.healthy, hone]
  omega

/-- A validation that checks the stages of a broker that trades, when each of
the three later ones reads what was recorded for it until then: a pipeline in
which signals were validated, orders processed and the portfolio updated within
five minutes is critical, whatever its ticks and signals; and one is healthy
only if nothing of the three was recorded. -/
theorem used_pipeline_critical (h : x.Checks v) (htrading : v.tradingEnabled)
    {risk orders portfolio : Timeline fl} (hrisk : x.riskValidation.Reads iso client risk)
    (horders : x.orderExecution.Reads iso client orders)
    (hportfolio : x.portfolioUpdates.Reads iso client portfolio) :
    (risk.Used x.riskValidation.now "signals_validated" v.broker →
        orders.Used x.orderExecution.now "orders" v.broker →
        portfolio.Used x.portfolioUpdates.now "portfolio_updates" v.broker →
        (validateEndToEndFlow fl iso v x).overallHealth = .critical) ∧
      ((validateEndToEndFlow fl iso v x).overallHealth = .healthy ↔
        (validateMarketDataFlow fl iso v x.marketData).healthy ∧
        (validateSignalGeneration fl iso v x.signalGeneration).healthy ∧
        ¬risk.Used x.riskValidation.now "signals_validated" v.broker ∧
        ¬orders.Used x.orderExecution.now "orders" v.broker ∧
        ¬portfolio.Used x.portfolioUpdates.now "portfolio_updates" v.broker) := by
  have hvalidated : (validateRiskManagement fl iso v.toPipelineValidator _ _).healthy ↔ _ :=
    validate_healthy_iff hrisk htrading rfl rfl (by simp)
  have hprocessed : (validateOrderExecution fl iso v.toPipelineValidator _ _).healthy ↔ _ :=
    validate_healthy_iff horders htrading rfl rfl (by simp)
  have hupdated : (validatePortfolioUpdates fl iso v.toPipelineValidator _ _).healthy ↔ _ :=
    validate_healthy_iff hportfolio htrading rfl rfl (by simp)
  rw [(validate_checks h).1, length_unhealthyStages, ofUnhealthy_healthy, ← hvalidated, ← hprocessed,
    ← hupdated]
  constructor
  · intro hused hused' hused''
    have hrisk : (validateRiskManagement fl iso v.toPipelineValidator _ _).healthy = false :=
      Bool.eq_false_iff.mpr fun hhealthy => hvalidated.mp hhealthy hused
    have horders : (validateOrderExecution fl iso v.toPipelineValidator _ _).healthy = false :=
      Bool.eq_false_iff.mpr fun hhealthy => hprocessed.mp hhealthy hused'
    have hportfolio : (validatePortfolioUpdates fl iso v.toPipelineValidator _ _).healthy = false :=
      Bool.eq_false_iff.mpr fun hhealthy => hupdated.mp hhealthy hused''
    rw [hrisk, horders, hportfolio]
    exact ofUnhealthy_critical (Nat.le_add_left 3 _)
  · simp [Nat.add_eq_zero_iff, Bool.toNat_eq_zero, and_assoc]

end

def strClient : Client := ⟨.str, fun _ => rfl⟩

def paperEndToEnd : EndToEndValidator where
  toPipelineValidator := paperValidator
  startTime := -60000000

def busyMoment : Moment where
  now := 0
  marketOpen := .ok true
  stillOpen := .ok true
  redis key := .ok ((((recordedNow "paper").run .epoch).read 0 key).map strClient.ofHeld)

def busyValidation : Validation where
  validationId := "v1"
  timestamp := epochText
  now := 0
  ping := .ok ()
  marketOpen := .ok true
  marketData := busyMoment
  signalGeneration := busyMoment
  riskValidation := busyMoment
  orderExecution := busyMoment
  portfolioUpdates := busyMoment

theorem busyValidation_critical :
    (validateEndToEndFlow noFloats .epoch paperEndToEnd busyValidation).overallHealth = .critical := by
  have hchecks : busyValidation.Checks paperEndToEnd := ⟨by decide +kernel, rfl, rfl⟩
  have hreads : busyMoment.Reads .epoch strClient (recordedNow "paper") := fun _ => rfl
  exact (used_pipeline_critical hchecks rfl hreads hreads hreads).1 ⟨_, rfl, by decide⟩
    ⟨_, rfl, by decide⟩ ⟨_, rfl, by decide⟩

end AlphaPanda.Monitoring
