import AlphaPanda.Monitoring.PipelineMetrics

/-!
# The pipeline validator

The checks of the risk management, the order execution and the portfolio
updates of a broker, which are one check up to their keys, threshold and texts.
-/

namespace AlphaPanda.Monitoring

open Json MetricsRegistry

/-- What the client returns for a key that is held. -/
inductive Raw where
  | bytes (b : ByteArray)
  | str (s : String)

def decodeBytes : Option Raw → Option String
  | none => none
  | some (.bytes b) => String.fromUTF8? b
  | some (.str s) => some s

/-- A naive time is taken for UTC. -/
def DateTime.utc (t : DateTime) : ℤ := t.clock - t.utcOffset.getD 0

def timestampField (fl : Floats) (value : String) : Option String :=
  match loads fl value with
  | some (.object entries) =>
    match entries.lookup "timestamp" with
    | some (.str timestamp) => some timestamp
    | _ => none
  | _ => none

def parseTimestampFromJsonOrIso (fl : Floats) (iso : IsoFormat) (value : String) : Option ℤ :=
  (((timestampField fl value).bind iso.fromisoformat).orElse fun _ => iso.fromisoformat value).map
    DateTime.utc

-- ---------------------------------------------------------------------------
-- The checks
-- ---------------------------------------------------------------------------

/-- The text of `latency` ends with the seconds, rounded to two places. -/
inductive Issue where
  | redisUnavailable
  | metricsParseError
  | validationError
  | latency (what broker : String) (latencySeconds : ℚ)
  deriving DecidableEq

/-- The report of a check: what it puts under the names of its stage, and the rest. -/
structure Report where
  healthy : Bool
  broker : String
  lastTime : Option (String × Option String) := none
  count : Option (String × ℤ) := none
  latencyMs : Option ℚ := none
  skipped : Option String := none
  issue : Option Issue := none
  recommendation : Option String := none
  error : Option String := none

structure PipelineValidator where
  broker : String
  tradingEnabled : Bool

/-- What tells the three checks apart. -/
structure Stage where
  needsTrading : Bool
  lastKey : String → String
  countKey : String → String
  lastField : String
  countField : String
  thresholdSeconds : ℚ
  latencyText : String
  service : String

/-- `.decode()` on what `_decode_bytes` returned. -/
def strDecode (_ : String) : Except Exc String :=
  .error ⟨"AttributeError", "'str' object has no attribute 'decode'", .builtin⟩

def toInt (s : String) : Except Exc ℤ :=
  match Instruments.parseInt s with
  | some n => .ok n
  | none => .error ⟨"ValueError", s!"invalid literal for int() with base 10: '{s}'", .builtin⟩

section
variable (fl : Floats) (iso : IsoFormat)

/-- What is checked of the values that Redis returned, inside of the `try`. -/
def Stage.inspect (stage : Stage) (v : PipelineValidator) (now : ℤ) (lastRaw countRaw : Option Raw) :
    Except Exc Report := do
  -- An empty text counts as nothing.
  let lastText := (decodeBytes lastRaw).filter (· ≠ "")
  let countText := (decodeBytes countRaw).filter (· ≠ "")
  let lastTime ← lastText.mapM strDecode
  let count ← countText.mapM toInt
  let result : Report :=
    { healthy := true
      broker := v.broker
      lastTime := some (stage.lastField, lastTime)
      count := some (stage.countField, count.getD 0) }
  match lastText with
  | none => pure result
  | some text =>
    match parseTimestampFromJsonOrIso fl iso text with
    | none => pure { healthy := false, broker := v.broker, issue := some .metricsParseError }
    | some time =>
      let latency : ℚ := (now - time) / 1000000
      if stage.thresholdSeconds < latency then
        pure { result with
          healthy := false
          latencyMs := some (latency * 1000)
          issue := some (.latency stage.latencyText v.broker latency)
          recommendation := some s!"Check {stage.service} service performance for {v.broker}" }
      else pure result

def Stage.validate (stage : Stage) (v : PipelineValidator) (redis : String → Except Exc (Option Raw))
    (now : ℤ) : Report :=
  if stage.needsTrading && !v.tradingEnabled then
    { healthy := true, broker := v.broker, skipped := some "trading_disabled" }
  else
    match redis (stage.lastKey v.broker), redis (stage.countKey v.broker) with
    | .ok lastRaw, .ok countRaw =>
      match stage.inspect fl iso v now lastRaw countRaw with
      | .ok report => report
      | .error e =>
        { healthy := false, broker := v.broker, issue := some .validationError, error := some e.message }
    | .error e, _ | .ok _, .error e =>
      { healthy := false, broker := v.broker, issue := some .redisUnavailable, error := some e.message }

def riskManagement : Stage where
  needsTrading := false
  lastKey := signalsValidatedLast
  countKey := signalsValidatedCount
  lastField := "last_validation_time"
  countField := "validations_last_5min"
  thresholdSeconds := 2
  latencyText := "Risk validation latency too high"
  service := "risk manager"

def orderExecution : Stage where
  needsTrading := true
  lastKey := ordersLast
  countKey := ordersCount
  lastField := "last_execution_time"
  countField := "executions_last_5min"
  thresholdSeconds := 10
  latencyText := "Order execution latency too high"
  service := "trading engine"

def portfolioUpdates : Stage where
  needsTrading := true
  lastKey := portfolioUpdatesLast
  countKey := portfolioUpdatesCount
  lastField := "last_update_time"
  countField := "updates_last_5min"
  thresholdSeconds := 3
  latencyText := "Portfolio update latency too high"
  service := "portfolio manager"

def validateRiskManagement := riskManagement.validate fl iso

def validateOrderExecution := orderExecution.validate fl iso

def validatePortfolioUpdates := portfolioUpdates.validate fl iso

end

-- ---------------------------------------------------------------------------
-- Verdicts
-- ---------------------------------------------------------------------------

section
variable {fl : Floats} {iso : IsoFormat} {stage : Stage} {v : PipelineValidator}

def Stage.Fresh (fl : Floats) (iso : IsoFormat) (stage : Stage) (now : ℤ) (lastRaw : Option Raw) : Prop :=
  ∃ text time, decodeBytes lastRaw = some text ∧ parseTimestampFromJsonOrIso fl iso text = some time ∧
    ((now - time : ℤ) : ℚ) / 1000000 ≤ stage.thresholdSeconds

def Blank (lastRaw : Option Raw) : Prop := (decodeBytes lastRaw).filter (· ≠ "") = none

def Numeric (countRaw : Option Raw) : Prop :=
  ∀ text, decodeBytes countRaw = some text → Instruments.parseInt text ≠ none

theorem numeric_none : Numeric none := by
  intro text h
  cases h

/-- Where there is a text, its `.decode()` raises. -/
theorem inspect_healthy (now : ℤ) (hnumeric : Numeric countRaw) :
    (∃ report, stage.inspect fl iso v now lastRaw countRaw = .ok report ∧ report.healthy) ↔
      Blank lastRaw := by
  rw [Stage.inspect, Blank]
  cases (decodeBytes lastRaw).filter (· ≠ "") with
  | some text => simp [strDecode, bind, Except.bind]
  | none =>
    have hcount : ∃ count, ((decodeBytes countRaw).filter (· ≠ "")).mapM toInt = .ok count := by
      cases htext : (decodeBytes countRaw).filter (· ≠ "") with
      | none => exact ⟨none, rfl⟩
      | some text =>
        obtain ⟨n, hn⟩ := Option.ne_none_iff_exists'.mp
          (hnumeric text (Option.eq_some_of_filter_eq_some htext))
        exact ⟨some n, by simp [toInt, hn]⟩
    obtain ⟨count, hcount⟩ := hcount
    simp only [Option.mapM_none, hcount, bind, Except.bind]
    exact iff_of_true ⟨_, rfl, rfl⟩ trivial

theorem validate_healthy {redis : String → Except Exc (Option Raw)} (now : ℤ)
    (htrading : v.tradingEnabled) (hlast : redis (stage.lastKey v.broker) = .ok lastRaw)
    (hcount : redis (stage.countKey v.broker) = .ok countRaw) (hnumeric : Numeric countRaw) :
    (stage.validate fl iso v redis now).healthy ↔ Blank lastRaw := by
  rw [← inspect_healthy now hnumeric, Stage.validate, htrading, hlast, hcount]
  simp only [Bool.not_true, Bool.and_false, Bool.false_eq_true, if_false]
  cases stage.inspect fl iso v now lastRaw countRaw <;> simp

theorem parse_empty : parseTimestampFromJsonOrIso fl iso "" = none := by
  have hfield : timestampField fl "" = none := rfl
  rw [parseTimestampFromJsonOrIso, hfield, iso.fromisoformat_empty]
  rfl

theorem Stage.Fresh.not_blank (h : stage.Fresh fl iso now lastRaw) : ¬Blank lastRaw := by
  obtain ⟨text, time, htext, hparse, -⟩ := h
  rw [Blank, htext, Option.filter_some]
  split
  · simp
  · rename_i hempty
    obtain rfl : text = "" := by simpa using hempty
    rw [parse_empty] at hparse
    cases hparse

/-- A stage is found healthy as it should be only where nothing is stored, or
where a text is stored that is no timestamp or too old a one: a fresh one is
found unhealthy, what is no text healthy. -/
theorem validate_iff {redis : String → Except Exc (Option Raw)} (now : ℤ)
    (htrading : v.tradingEnabled) (hlast : redis (stage.lastKey v.broker) = .ok lastRaw)
    (hcount : redis (stage.countKey v.broker) = .ok countRaw) (hnumeric : Numeric countRaw) :
    ((stage.validate fl iso v redis now).healthy ↔
        lastRaw = none ∨ stage.Fresh fl iso now lastRaw) ↔
      lastRaw = none ∨ ¬Blank lastRaw ∧ ¬stage.Fresh fl iso now lastRaw := by
  rw [validate_healthy now htrading hlast hcount hnumeric]
  by_cases hnone : lastRaw = none
  · have hblank : Blank lastRaw := by
      rw [hnone]
      rfl
    exact iff_of_true (iff_of_true hblank (.inl hnone)) (.inl hnone)
  · rw [or_iff_right hnone, or_iff_right hnone]
    constructor
    · intro h
      have hblank : ¬Blank lastRaw := fun hblank => (h.mp hblank).not_blank hblank
      exact ⟨hblank, fun hfresh => hblank (h.mpr hfresh)⟩
    · rintro ⟨hblank, hfresh⟩
      exact iff_of_false hblank hfresh

def paperValidator : PipelineValidator := ⟨"paper", true⟩

def orderRecorded : Raw :=
  .str (String.ofList (dumps noFloats
    ((Recording.orderProcessed .empty "paper").lastData .epoch 0 : Json noFloats.Finite)))

/-- Redis when three orders were processed, the last one at the epoch. -/
def redisWithOrders (key : String) : Except Exc (Option Raw) :=
  .ok (some (if key = ordersLast "paper" then orderRecorded else .str "3"))

/-- An hour later. -/
theorem validate_iff_stale :
    ((validateOrderExecution noFloats .epoch paperValidator redisWithOrders 3600000000).healthy ↔
        some orderRecorded = none ∨
          orderExecution.Fresh noFloats .epoch 3600000000 (some orderRecorded)) ↔
      some orderRecorded = none ∨ ¬Blank (some orderRecorded) ∧
        ¬orderExecution.Fresh noFloats .epoch 3600000000 (some orderRecorded) := by
  have hlast : redisWithOrders (orderExecution.lastKey "paper") = .ok (some orderRecorded) :=
    congrArg (Except.ok ∘ some) (if_pos rfl)
  have hcount : redisWithOrders (orderExecution.countKey "paper") = .ok (some (.str "3")) :=
    congrArg (Except.ok ∘ some) (if_neg (countKey_ne_lastKey _ _ _ _))
  have hnumeric : Numeric (some (.str "3")) := by
    intro text htext
    cases htext
    decide +kernel
  exact validate_iff 3600000000 rfl hlast hcount hnumeric

theorem orderRecorded_fresh : orderExecution.Fresh noFloats .epoch 0 (some orderRecorded) := by
  refine ⟨_, 0, rfl, ?_, by norm_num [orderExecution]⟩
  rw [parseTimestampFromJsonOrIso, timestampField, loads_dumps (Recording.lastData_distinct _ _)]
  rfl

def redisWithOrder (key : String) : Except Exc (Option Raw) :=
  .ok (if key = ordersLast "paper" then some orderRecorded else none)

/-- An order that was processed just now. -/
theorem order_unhealthy :
    orderExecution.Fresh noFloats .epoch 0 (some orderRecorded) ∧
      redisWithOrder (orderExecution.lastKey "paper") = .ok (some orderRecorded) ∧
      redisWithOrder (orderExecution.countKey "paper") = .ok none ∧
      (validateOrderExecution noFloats .epoch paperValidator redisWithOrder 0).healthy = false := by
  have hlast : redisWithOrder (orderExecution.lastKey "paper") = .ok (some orderRecorded) :=
    congrArg _ (if_pos rfl)
  have hcount : redisWithOrder (orderExecution.countKey "paper") = .ok none :=
    congrArg _ (if_neg (countKey_ne_lastKey _ _ _ _))
  refine ⟨orderRecorded_fresh, hlast, hcount, Bool.eq_false_iff.mpr fun hhealthy => ?_⟩
  exact orderRecorded_fresh.not_blank
    ((validate_healthy 0 rfl hlast hcount numeric_none).mp hhealthy)

end

end AlphaPanda.Monitoring
