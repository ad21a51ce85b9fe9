import AlphaPanda.Exceptions
import AlphaPanda.Instruments.Csv
import AlphaPanda.Lib.JsonRoundTrip
import Mathlib.Data.List.Induction

/-!
# Pipeline metrics

`PipelineMetricsCollector`: each record call sets the last activity of a stage
for a broker and counts it, `get_pipeline_health` reads the five stages of a
broker back. Ticks are recorded for the namespace that the market feed passes,
and under the key of the registry, which is that of the namespace `market`.
-/

namespace AlphaPanda.Monitoring

open Json

/-- A `datetime`: what its clock shows, in microseconds, and its offset from
UTC if it has a zone. -/
structure DateTime where
  clock : ℤ
  utcOffset : Option ℤ
  deriving DecidableEq

/-- `datetime.isoformat` and `datetime.fromisoformat`. -/
structure IsoFormat where
  isoformat : DateTime → String
  fromisoformat : String → Option DateTime
  fromisoformat_isoformat : ∀ clock, fromisoformat (isoformat ⟨clock, none⟩) = some ⟨clock, none⟩
  fromisoformat_empty : fromisoformat "" = none

namespace MetricsRegistry

def buildKey (stage broker metricType : String) : String := s!"pipeline:{stage}:{broker}:{metricType}"

def marketTicksLast : String := "pipeline:market_ticks:market:last"

def marketTicksCount : String := "pipeline:market_ticks:market:count"

def signalsLast (broker : String) : String := buildKey "signals" broker "last"

def signalsCount (broker : String) : String := buildKey "signals" broker "count"

def signalsValidatedLast (broker : String) : String := buildKey "signals_validated" broker "last"

def signalsValidatedCount (broker : String) : String := buildKey "signals_validated" broker "count"

def signalsRejectedLast (broker : String) : String := buildKey "signals_rejected" broker "last"

def signalsRejectedCount (broker : String) : String := buildKey "signals_rejected" broker "count"

def ordersLast (broker : String) : String := buildKey "orders" broker "last"

def ordersCount (broker : String) : String := buildKey "orders" broker "count"

def portfolioUpdatesLast (broker : String) : String := buildKey "portfolio_updates" broker "last"

def portfolioUpdatesCount (broker : String) : String := buildKey "portfolio_updates" broker "count"

end MetricsRegistry

open MetricsRegistry

/-- What a key holds: a counter, or a text until a time in microseconds. -/
inductive Held where
  | count (n : ℕ)
  | text (s : String) (deadline : ℤ)
  deriving DecidableEq

abbrev Redis := Dict String Held

def Redis.read (r : Redis) (now : ℤ) (key : String) : Option Held :=
  match r.get? key with
  | some (.text s deadline) => if now < deadline then some (.text s deadline) else none
  | held => held

inductive Command where
  | incr (key : String)
  | setex (key : String) (ttlSeconds : ℕ) (text : String)

/-- A text is no integer: to count it is an error. -/
def Command.run (now : ℤ) (r : Redis) : Command → Redis
  | .incr key =>
    match r.read now key with
    | none => r.set key (.count 1)
    | some (.count n) => r.set key (.count (n + 1))
    | some (.text ..) => r
  | .setex key ttlSeconds text => r.set key (.text text (now + ttlSeconds * 1000000))

-- ---------------------------------------------------------------------------
-- The collector
-- ---------------------------------------------------------------------------

abbrev Payload (fl : Floats) := Dict String {v : Json fl.Finite // v.Distinct}

section
variable {fl : Floats} (iso : IsoFormat)

def Payload.field (p : Payload fl) (name : String) : Json fl.Finite :=
  match p.get? name with
  | some v => v.1
  | none => .null

/-- The record calls; each names the broker it is made for. -/
inductive Recording (fl : Floats) where
  | marketTick (tickData : Payload fl) (brokerContext : String)
  | signalGenerated (signal : Payload fl) (brokerContext : String)
  | signalValidated (signal : Payload fl) (passed : Bool) (brokerContext : String)
  | orderProcessed (order : Payload fl) (brokerContext : String)
  | portfolioUpdate (portfolioId : String) (updateData : Payload fl) (brokerContext : String)

def metricsTtl : ℕ := 300

/-- What `last_data` has besides the timestamp. -/
def Recording.fields : Recording fl → List (String × Json fl.Finite)
  | .marketTick tickData _ =>
    [("symbol", tickData.field "symbol"), ("instrument_token", tickData.field "instrument_token"),
     ("last_price", tickData.field "last_price")]
  | .signalGenerated signal _ =>
    [("signal_id", signal.field "id"), ("strategy_id", signal.field "strategy_id"),
     ("instrument_token", signal.field "instrument_token"), ("signal_type", signal.field "signal_type")]
  | .signalValidated signal passed _ =>
    [("signal_id", signal.field "id"), ("strategy_id", signal.field "strategy_id"),
     ("validation_passed", .bool passed)]
  | .orderProcessed order _ =>
    [("order_id", order.field "id"), ("strategy_id", order.field "strategy_id"),
     ("status", order.field "status"), ("instrument_token", order.field "instrument_token")]
  | .portfolioUpdate portfolioId updateData _ =>
    [("portfolio_id", .str portfolioId), ("total_pnl", updateData.field "total_pnl"),
     ("cash_balance", updateData.field "cash_balance")]

def Recording.lastData (x : Recording fl) (now : ℤ) : Json fl.Finite :=
  .object (("timestamp", .str (iso.isoformat ⟨now, none⟩)) :: x.fields)

def Recording.keys : Recording fl → List (String × String)
  | .marketTick _ ns =>
    [(marketTicksCount, marketTicksLast),
     (s!"pipeline:market_ticks:{ns}:count", s!"pipeline:market_ticks:{ns}:last")]
  | .signalGenerated _ ns => [(signalsCount ns, signalsLast ns)]
  | .signalValidated _ passed ns =>
    [(if passed then signalsValidatedCount ns else signalsRejectedCount ns,
      if passed then signalsValidatedLast ns else signalsRejectedLast ns)]
  | .orderProcessed _ ns => [(ordersCount ns, ordersLast ns)]
  | .portfolioUpdate _ _ ns => [(portfolioUpdatesCount ns, portfolioUpdatesLast ns)]

def Recording.commands (x : Recording fl) (now : ℤ) : List Command :=
  x.keys.flatMap fun (countKey, lastKey) =>
    [.incr countKey, .setex lastKey metricsTtl (String.ofList (dumps fl (x.lastData iso now)))]

/-- All commands are carried out, also after one that is an error. -/
def Recording.run (x : Recording fl) (now : ℤ) (r : Redis) : Redis :=
  (x.commands iso now).foldl (Command.run now) r

abbrev Timeline (fl : Floats) := List (ℤ × Recording fl)

def Timeline.run (timeline : Timeline fl) : Redis :=
  timeline.foldl (fun r e => e.2.run iso e.1 r) .empty

-- ---------------------------------------------------------------------------
-- Pipeline health
-- ---------------------------------------------------------------------------

/-- An age that is `none` is infinite. -/
structure StageHealth (fl : Floats) where
  stageName : String
  healthy : Bool
  lastActivity : Option (Json fl.Finite) := none
  ageSeconds : Option ℚ := none
  totalCount : ℤ := 0
  thresholdSeconds : Option ℚ := none
  message : Option String := none
  error : Option String := none

def Held.truthy : Held → Bool
  | .count _ => true
  | .text s _ => s ≠ ""

def Held.toInt : Held → Except Exc ℤ
  | .count n => .ok n
  | .text s _ =>
    match Instruments.parseInt s with
    | some n => .ok n
    | none => .error ⟨"ValueError", s!"invalid literal for int() with base 10: '{s}'", .builtin⟩

def Held.activity (iso : IsoFormat) : Held → Except Exc (Json fl.Finite × ℤ)
  | .count _ => .error ⟨"TypeError", "'int' object is not subscriptable", .builtin⟩
  | .text s _ =>
    match loads fl s with
    | some (.object entries) =>
      match entries.lookup "timestamp" with
      | some (.str timestamp) =>
        match iso.fromisoformat timestamp with
        | some ⟨clock, none⟩ => .ok (.object entries, clock)
        | some ⟨_, some _⟩ =>
          .error ⟨"TypeError", "can't subtract offset-naive and offset-aware datetimes", .builtin⟩
        | none => .error ⟨"ValueError", s!"Invalid isoformat string: '{timestamp}'", .builtin⟩
      | some _ => .error ⟨"TypeError", "fromisoformat: argument must be str", .builtin⟩
      | none => .error ⟨"KeyError", "'timestamp'", .builtin⟩
    | some _ => .error ⟨"TypeError", "string indices must be integers, not 'str'", .builtin⟩
    | none => .error ⟨"JSONDecodeError", "Expecting value", .builtin⟩

def stageThreshold (stageName : String) : ℚ := if stageName = "market_ticks" then 5 else 60

def getStageHealth (fl : Floats) (iso : IsoFormat) (r : Redis) (stageName : String) (now : ℤ) (ns : String) : StageHealth fl :=
  let lastKey := s!"pipeline:{stageName}:{ns}:last"
  let countKey := s!"pipeline:{stageName}:{ns}:count"
  let health : Except Exc (StageHealth fl) := do
    let totalCount := (r.read now countKey).getD (.count 0)
    match (r.read now lastKey).filter Held.truthy with
    | some lastData =>
      let (lastActivity, lastTime) ← lastData.activity iso
      let age : ℚ := (now - lastTime) / 1000000
      let n ← totalCount.toInt
      pure
        { stageName := stageName
          healthy := age < stageThreshold stageName
          lastActivity := some lastActivity
          ageSeconds := some age
          totalCount := n
          thresholdSeconds := some (stageThreshold stageName) }
    | none =>
      let n ← totalCount.toInt
      pure
        { stageName := stageName
          healthy := false
          totalCount := n
          message := some "No recent activity found" }
  match health with
  | .ok health => health
  | .error e => { stageName := stageName, healthy := false, error := some e.message }

structure PipelineHealth (fl : Floats) where
  broker : String
  overallHealthy : Bool
  stages : List (StageHealth fl)

def pipelineStages : List String :=
  ["market_ticks", "signals", "signals_validated", "orders", "portfolio_updates"]

def getPipelineHealth (fl : Floats) (iso : IsoFormat) (r : Redis) (now : ℤ) (brokerContext : String) :
    PipelineHealth fl :=
  let stages := pipelineStages.map fun stage => getStageHealth fl iso r stage now brokerContext
  { broker := brokerContext
    overallHealthy := stages.all (·.healthy)
    stages := stages }

end

-- ---------------------------------------------------------------------------
-- Keys are told apart
-- ---------------------------------------------------------------------------

theorem append_colon_inj {cs cs' rest rest' : List Char} (h : ':' ∉ cs) (h' : ':' ∉ cs')
    (heq : cs ++ ':' :: rest = cs' ++ ':' :: rest') : cs = cs' ∧ rest = rest' := by
  induction cs generalizing cs' with
  | nil =>
    cases cs' with
    | nil => exact ⟨rfl, List.tail_eq_of_cons_eq heq⟩
    | cons c cs' => exact absurd (List.head_eq_of_cons_eq heq ▸ List.mem_cons_self) h'
  | cons c cs ih =>
    cases cs' with
    | nil => exact absurd (List.head_eq_of_cons_eq heq ▸ List.mem_cons_self) h
    | cons c' cs' =>
      obtain ⟨hcs, hrest⟩ := ih (fun hmem => h (List.mem_cons_of_mem _ hmem))
        (fun hmem => h' (List.mem_cons_of_mem _ hmem)) (List.tail_eq_of_cons_eq heq)
      exact ⟨by rw [List.head_eq_of_cons_eq heq, hcs], hrest⟩

theorem buildKey_toList (stage broker metricType : String) :
    (buildKey stage broker metricType).toList =
      "pipeline:".toList ++ (stage.toList ++ ':' :: (broker.toList ++ ':' :: metricType.toList)) := by
  delta buildKey
  simp [toString]

theorem buildKey_inj (h : ':' ∉ stage.toList) (h' : ':' ∉ stage'.toList) :
    buildKey stage broker metricType = buildKey stage' broker' metricType ↔
      stage = stage' ∧ broker = broker' := by
  constructor
  · intro heq
    have hlist := congrArg String.toList heq
    rw [buildKey_toList, buildKey_toList, List.append_cancel_left_eq] at hlist
    obtain ⟨hstage, hbroker⟩ := append_colon_inj h h' hlist
    exact ⟨String.toList_inj.mp hstage, String.toList_inj.mp (List.append_cancel_right hbroker)⟩
  · rintro ⟨rfl, rfl⟩
    rfl

theorem lastKey_inj (h : ':' ∉ stage.toList) (h' : ':' ∉ stage'.toList) :
    buildKey stage broker "last" = buildKey stage' broker' "last" ↔
      stage = stage' ∧ broker = broker' :=
  buildKey_inj h h'

theorem countKey_ne_lastKey (stage broker stage' broker' : String) :
    buildKey stage broker "count" ≠ buildKey stage' broker' "last" := by
  intro heq
  have hlist := congrArg (fun key => key.toList.reverse) heq
  simp [buildKey_toList] at hlist

theorem keys_last (stage ns : String) : s!"pipeline:{stage}:{ns}:last" = buildKey stage ns "last" := by
  rw [← String.toList_inj, buildKey_toList]
  simp [toString]

theorem keys_count (stage ns : String) : s!"pipeline:{stage}:{ns}:count" = buildKey stage ns "count" := by
  rw [← String.toList_inj, buildKey_toList]
  simp [toString]

section
variable {fl : Floats} {iso : IsoFormat}

def Recording.stage : Recording fl → String
  | .marketTick .. => "market_ticks"
  | .signalGenerated .. => "signals"
  | .signalValidated _ passed _ => if passed then "signals_validated" else "signals_rejected"
  | .orderProcessed .. => "orders"
  | .portfolioUpdate .. => "portfolio_updates"

/-- The brokers in whose keys it is found. -/
def Recording.contexts : Recording fl → List String
  | .marketTick _ ns => ["market", ns]
  | .signalGenerated _ ns | .signalValidated _ _ ns | .orderProcessed _ ns | .portfolioUpdate _ _ ns =>
    [ns]

theorem Recording.stage_plain (x : Recording fl) : ':' ∉ x.stage.toList := by
  cases x with
  | signalValidated _ passed _ => cases passed <;> simp [stage]
  | _ => simp [stage]

theorem Recording.keys_eq (x : Recording fl) :
    x.keys = x.contexts.map fun ns => (buildKey x.stage ns "count", buildKey x.stage ns "last") := by
  cases x with
  | marketTick _ ns =>
    simp only [keys, contexts, stage, List.map_cons, List.map_nil, ← keys_count, ← keys_last]
    rfl
  | signalValidated _ passed _ => cases passed <;> rfl
  | _ => rfl

-- ---------------------------------------------------------------------------
-- What is read back
-- ---------------------------------------------------------------------------

def Recording.Concerns (x : Recording fl) (stage broker : String) : Prop :=
  x.stage = stage ∧ broker ∈ x.contexts

instance (x : Recording fl) (stage broker : String) : Decidable (x.Concerns stage broker) :=
  inferInstanceAs (Decidable (_ ∧ _))

theorem incr_get?_of_ne (now : ℤ) (r : Redis) (h : countKey ≠ key) :
    (Command.run now r (.incr countKey)).get? key = r.get? key := by
  rw [Command.run]
  split
  · exact Dict.get?_set_of_ne _ h.symm
  · exact Dict.get?_set_of_ne _ h.symm
  · rfl

theorem setex_get? (now : ℤ) (r : Redis) (lastKey : String) (ttlSeconds : ℕ) (text : String) :
    (Command.run now r (.setex lastKey ttlSeconds text)).get? key =
      if key = lastKey then some (.text text (now + ttlSeconds * 1000000)) else r.get? key :=
  Dict.get?_set r

theorem Recording.run_lastKey (x : Recording fl) (now : ℤ) (r : Redis) {stage : String}
    (h : ':' ∉ stage.toList) :
    (x.run iso now r).get? (buildKey stage broker "last") =
      if x.Concerns stage broker then
        some (.text (String.ofList (dumps fl (x.lastData iso now))) (now + metricsTtl * 1000000))
      else r.get? (buildKey stage broker "last") := by
  rw [run, commands, keys_eq]
  change _ = if x.stage = stage ∧ broker ∈ x.contexts then _ else _
  induction x.contexts generalizing r with
  | nil => simp
  | cons ns contexts ih =>
    rw [List.map_cons, List.flatMap_cons, List.foldl_append, ih, List.foldl_cons, List.foldl_cons,
      List.foldl_nil, setex_get?, incr_get?_of_ne now r (countKey_ne_lastKey _ _ _ _)]
    simp only [lastKey_inj h x.stage_plain, List.mem_cons]
    grind

def Timeline.latest (timeline : Timeline fl) (stage broker : String) : Option (ℤ × Recording fl) :=
  timeline.reverse.find? fun e => e.2.Concerns stage broker

theorem Timeline.run_lastKey (timeline : Timeline fl) (h : ':' ∉ stage.toList) :
    (timeline.run iso).get? (buildKey stage broker "last") =
      (timeline.latest stage broker).map fun e =>
        .text (String.ofList (dumps fl (e.2.lastData iso e.1))) (e.1 + metricsTtl * 1000000) := by
  induction timeline using List.reverseRecOn with
  | nil => rfl
  | append_singleton timeline e ih =>
    rw [run, List.foldl_append, List.foldl_cons, List.foldl_nil, Recording.run_lastKey e.2 e.1 _ h,
      latest, List.reverse_append, List.reverse_singleton, List.singleton_append, List.find?_cons]
    by_cases hlatest : e.2.Concerns stage broker
    · rw [if_pos hlatest, decide_eq_true hlatest]
      rfl
    · rw [if_neg hlatest, decide_eq_false hlatest]
      exact ih

def Counted (r : Redis) (key : String) : Prop := ∀ s deadline, r.get? key ≠ some (.text s deadline)

theorem incr_counted (now : ℤ) (countKey : String) (h : Counted r key) :
    Counted (Command.run now r (.incr countKey)) key := by
  intro s deadline
  have hset : ∀ n, (Dict.set r countKey (.count n)).get? key ≠ some (.text s deadline) := by
    intro n
    rw [Dict.get?_set]
    split
    · simp
    · exact h s deadline
  rw [Command.run]
  split
  · exact hset 1
  · exact hset _
  · exact h s deadline

theorem Recording.run_counted (x : Recording fl) (now : ℤ) (stage broker : String)
    (h : Counted r (buildKey stage broker "count")) :
    Counted (x.run iso now r) (buildKey stage broker "count") := by
  rw [run, commands, keys_eq]
  induction x.contexts generalizing r with
  | nil => exact h
  | cons ns contexts ih =>
    rw [List.map_cons, List.flatMap_cons, List.foldl_append, List.foldl_cons, List.foldl_cons,
      List.foldl_nil]
    refine ih fun s deadline => ?_
    rw [setex_get?, if_neg (countKey_ne_lastKey _ _ _ _)]
    exact incr_counted now _ h s deadline

theorem Timeline.run_counted (iso : IsoFormat) (timeline : Timeline fl) (stage broker : String) :
    Counted (timeline.run iso) (buildKey stage broker "count") := by
  induction timeline using List.reverseRecOn with
  | nil => simp [Counted, run]
  | append_singleton timeline e ih =>
    rw [run, List.foldl_append]
    exact e.2.run_counted e.1 stage broker ih

theorem Counted.toInt (h : Counted r key) (now : ℤ) :
    ∃ n, ((Redis.read r now key).getD (.count 0)).toInt = .ok n := by
  rw [Redis.read]
  cases hheld : r.get? key with
  | none => exact ⟨0, rfl⟩
  | some held =>
    cases held with
    | count n => exact ⟨n, rfl⟩
    | text s deadline => exact absurd hheld (h s deadline)

structure Timeline.Elapsed (timeline : Timeline fl) (now : ℤ) : Prop where
  ordered : timeline.Pairwise fun e e' => e.1 ≤ e'.1
  past : ∀ e ∈ timeline, e.1 ≤ now

def Timeline.Fresh (timeline : Timeline fl) (now : ℤ) (stage broker : String) (seconds : ℚ) : Prop :=
  ∃ e ∈ timeline, e.2.Concerns stage broker ∧ ((now - e.1 : ℤ) : ℚ) / 1000000 < seconds

theorem Timeline.Fresh.latest {timeline : Timeline fl} (h : timeline.Fresh now stage broker seconds)
    (helapsed : timeline.Elapsed now) :
    ∃ e, timeline.latest stage broker = some e ∧ e.1 ≤ now ∧
      ((now - e.1 : ℤ) : ℚ) / 1000000 < seconds := by
  obtain ⟨e, he, hconcerns, hage⟩ := h
  have hsome : (timeline.latest stage broker).isSome := by
    rw [Timeline.latest, List.find?_isSome]
    exact ⟨e, List.mem_reverse.mpr he, decide_eq_true hconcerns⟩
  obtain ⟨e', he'⟩ := Option.isSome_iff_exists.mp hsome
  obtain ⟨-, later, earlier, hsplit, hlater⟩ := List.find?_eq_some_iff_append.mp he'
  have hreverse : timeline.reverse.Pairwise fun e e' => e'.1 ≤ e.1 :=
    List.pairwise_reverse.mpr helapsed.ordered
  refine ⟨e', he', helapsed.past e' ?_, ?_⟩
  · rw [← List.mem_reverse, hsplit]
    simp
  · -- What was found is the latest of them.
    have hle : e.1 ≤ e'.1 := by
      rw [← List.mem_reverse, hsplit, List.mem_append, List.mem_cons] at he
      rw [hsplit, List.pairwise_append, List.pairwise_cons] at hreverse
      rcases he with he | rfl | he
      · simpa [hconcerns] using hlater e he
      · exact le_rfl
      · exact hreverse.2.1.1 e he
    refine lt_of_le_of_lt ?_ hage
    gcongr

theorem Payload.field_distinct (p : Payload fl) (name : String) : (p.field name).Distinct := by
  rw [field]
  split
  · rename_i v _
    exact v.2
  · trivial

theorem Recording.lastData_distinct (x : Recording fl) (now : ℤ) : (x.lastData iso now).Distinct := by
  cases x <;>
    simp [lastData, fields, Distinct, DistinctEntries, Payload.field_distinct]

theorem activity_lastData (x : Recording fl) (now deadline : ℤ) :
    (Held.text (String.ofList (dumps fl (x.lastData iso now))) deadline).activity iso =
      .ok (x.lastData iso now, now) := by
  rw [Held.activity, loads_dumps (x.lastData_distinct now), Recording.lastData]
  simp only [List.lookup_cons_self, iso.fromisoformat_isoformat]

theorem lastData_truthy (x : Recording fl) (now deadline : ℤ) :
    (Held.text (String.ofList (dumps fl (x.lastData iso now))) deadline).truthy = true := by
  have hne : dumps fl (x.lastData iso now) ≠ [] := by
    rw [Recording.lastData, dumps]
    simp
  simpa [Held.truthy, ← String.toList_inj] using hne

theorem stageThreshold_le (stageName : String) : stageThreshold stageName ≤ 60 := by
  rw [stageThreshold]
  split <;> norm_num

theorem stageThreshold_pos (stageName : String) : 0 < stageThreshold stageName := by
  rw [stageThreshold]
  split <;> norm_num

theorem getStageHealth_healthy {timeline : Timeline fl} (hplain : ':' ∉ stage.toList)
    (h : timeline.Fresh now stage broker (stageThreshold stage)) (helapsed : timeline.Elapsed now) :
    (getStageHealth fl iso (timeline.run iso) stage now broker).healthy = true := by
  obtain ⟨e, he, hpast, hage⟩ := h.latest helapsed
  have hlive : now < e.1 + metricsTtl * 1000000 := by
    have hlt := hage.trans_le (stageThreshold_le stage)
    rw [div_lt_iff₀ (by norm_num)] at hlt
    have hlt' : now - e.1 < 60 * 1000000 := by exact_mod_cast hlt
    simp only [metricsTtl]
    omega
  have hread : Redis.read (timeline.run iso) now (buildKey stage broker "last") =
      some (.text (String.ofList (dumps fl (e.2.lastData iso e.1))) (e.1 + metricsTtl * 1000000)) := by
    rw [Redis.read, timeline.run_lastKey hplain, he]
    exact if_pos hlive
  obtain ⟨n, hn⟩ := (timeline.run_counted iso stage broker).toInt now
  simp only [getStageHealth, keys_last, keys_count, hread, Option.filter_some, lastData_truthy, if_true,
    activity_lastData, hn, bind, Except.bind, pure, Except.pure]
  refine decide_eq_true ?_
  exact_mod_cast hage

theorem getStageHealth_unhealthy {timeline : Timeline fl} (hplain : ':' ∉ stage.toList)
    (h : timeline.latest stage broker = none) (now : ℤ) :
    (getStageHealth fl iso (timeline.run iso) stage now broker).healthy = false := by
  have hread : Redis.read (timeline.run iso) now (buildKey stage broker "last") = none := by
    rw [Redis.read, timeline.run_lastKey hplain, h]
    rfl
  obtain ⟨n, hn⟩ := (timeline.run_counted iso stage broker).toInt now
  simp only [getStageHealth, keys_last, keys_count, hread, Option.filter_none, hn, bind, Except.bind,
    pure, Except.pure]

-- ---------------------------------------------------------------------------
-- Writers and readers
-- ---------------------------------------------------------------------------

def PipelineHealth.Reported (h : PipelineHealth fl) : Prop :=
  h.overallHealthy ∧ ∀ stage ∈ h.stages, stage.healthy

/-- The market feed records its ticks for `shared`. -/
def Timeline.ByServices (timeline : Timeline fl) : Prop :=
  ∀ e ∈ timeline, ∀ tickData ns, e.2 = .marketTick tickData ns → ns = "shared"

/-- Whom a stage is recorded for, for the sake of a broker. -/
def recordedFor (stage broker : String) : String := if stage = "market_ticks" then "shared" else broker

def Timeline.Active (timeline : Timeline fl) (now : ℤ) (broker : String) : Prop :=
  ∀ stage ∈ pipelineStages,
    timeline.Fresh now stage (recordedFor stage broker) (stageThreshold stage)

theorem reported_iff_stages (r : Redis) (now : ℤ) (broker : String) :
    (getPipelineHealth fl iso r now broker).Reported ↔
      ∀ stage ∈ pipelineStages, (getStageHealth fl iso r stage now broker).healthy := by
  simp [PipelineHealth.Reported, getPipelineHealth]

theorem plain_of_mem : stage ∈ pipelineStages → ':' ∉ stage.toList := by
  simp only [pipelineStages, List.mem_cons, List.not_mem_nil, or_false]
  rintro (rfl | rfl | rfl | rfl | rfl) <;> simp

/-- A tick is found by those who ask for `market` or for its namespace. -/
theorem Recording.Concerns.marketTick {x : Recording fl} (h : x.Concerns "market_ticks" broker) :
    ∃ tickData ns, x = .marketTick tickData ns ∧ (broker = "market" ∨ broker = ns) := by
  obtain ⟨hstage, hbroker⟩ := h
  cases x with
  | marketTick tickData ns => exact ⟨tickData, ns, rfl, by simpa [contexts] using hbroker⟩
  | signalValidated _ passed _ => cases passed <;> simp [stage] at hstage
  | _ => simp [stage] at hstage

theorem latest_marketTicks {timeline : Timeline fl} (hservices : timeline.ByServices)
    (h : ¬(broker = "shared" ∨ broker = "market")) : timeline.latest "market_ticks" broker = none := by
  rw [Timeline.latest, List.find?_eq_none]
  intro e he hconcerns
  obtain ⟨tickData, ns, htick, hbroker⟩ := (of_decide_eq_true hconcerns).marketTick
  obtain rfl := hservices e (List.mem_reverse.mp he) tickData ns htick
  exact h hbroker.symm

theorem fresh_of_active {timeline : Timeline fl} (hactive : timeline.Active now broker)
    (h : broker = "shared" ∨ broker = "market") (hstage : stage ∈ pipelineStages) :
    timeline.Fresh now stage broker (stageThreshold stage) := by
  have hfresh := hactive stage hstage
  rw [recordedFor] at hfresh
  split at hfresh
  · rename_i hmarket
    subst hmarket
    rcases h with rfl | rfl
    · exact hfresh
    · obtain ⟨e, he, hconcerns, hage⟩ := hfresh
      obtain ⟨tickData, ns, htick, -⟩ := hconcerns.marketTick
      exact ⟨e, he, ⟨hconcerns.1, by simp [htick, Recording.contexts]⟩, hage⟩
  · exact hfresh

/-- However recently everything was recorded, a broker is reported healthy only
if it has the name of one of the two namespaces that ticks are stored under. -/
theorem reported_iff {timeline : Timeline fl} {now : ℤ} (broker : String)
    (helapsed : timeline.Elapsed now) (hservices : timeline.ByServices)
    (hactive : timeline.Active now broker) :
    (getPipelineHealth fl iso (timeline.run iso) now broker).Reported ↔
      broker = "shared" ∨ broker = "market" := by
  rw [reported_iff_stages]
  constructor
  · intro h
    by_contra hname
    have hmarket := h "market_ticks" List.mem_cons_self
    rw [getStageHealth_unhealthy (plain_of_mem List.mem_cons_self)
      (latest_marketTicks hservices hname) now] at hmarket
    cases hmarket
  · intro h stage hstage
    exact getStageHealth_healthy (plain_of_mem hstage) (fresh_of_active hactive h hstage) helapsed

end

-- ---------------------------------------------------------------------------
-- Everything recorded just now
-- ---------------------------------------------------------------------------

def noFloats : Floats where
  Finite := Empty
  repr x := nomatch x
  float _ := none
  valid x := nomatch x
  not_int x := nomatch x
  float_repr x := nomatch x

def epochText : String := "1970-01-01T00:00:00"

def epochIsoformat (t : DateTime) : String :=
  if t.clock = 0 then epochText else String.ofList (dumps noFloats (.int t.clock))

def epochFromisoformat (text : String) : Option DateTime :=
  if text = epochText then some ⟨0, none⟩
  else match loads noFloats text with
    | some (.int clock) => some ⟨clock, none⟩
    | _ => none

theorem loads_epochText : loads noFloats epochText = none := by rfl

theorem epochFromisoformat_isoformat (clock : ℤ) :
    epochFromisoformat (epochIsoformat ⟨clock, none⟩) = some ⟨clock, none⟩ := by
  rw [epochIsoformat]
  split
  · rename_i hzero
    obtain rfl : clock = 0 := hzero
    rfl
  · have hread : loads noFloats (String.ofList (dumps noFloats (.int clock))) = some (.int clock) :=
      loads_dumps trivial
    rw [epochFromisoformat, if_neg, hread]
    intro htext
    rw [htext, loads_epochText] at hread
    cases hread

/-- As it is at the epoch; any other time is written as a number. -/
def IsoFormat.epoch : IsoFormat where
  isoformat := epochIsoformat
  fromisoformat := epochFromisoformat
  fromisoformat_isoformat := epochFromisoformat_isoformat
  fromisoformat_empty := rfl

def recordedNow (broker : String) : Timeline noFloats :=
  [(0, .marketTick .empty "shared"), (0, .signalGenerated .empty broker),
   (0, .signalValidated .empty true broker), (0, .orderProcessed .empty broker),
   (0, .portfolioUpdate "portfolio" .empty broker)]

theorem recordedNow_elapsed (broker : String) : (recordedNow broker).Elapsed 0 := by
  constructor <;> simp [recordedNow]

theorem recordedNow_byServices (broker : String) : (recordedNow broker).ByServices := by
  intro e he tickData ns htick
  simp only [recordedNow, List.mem_cons, List.not_mem_nil, or_false] at he
  rcases he with rfl | rfl | rfl | rfl | rfl <;> cases htick
  rfl

theorem recordedNow_active (broker : String) : (recordedNow broker).Active 0 broker := by
  intro stage hstage
  simp only [pipelineStages, List.mem_cons, List.not_mem_nil, or_false] at hstage
  rcases hstage with rfl | rfl | rfl | rfl | rfl
  · exact ⟨(0, .marketTick .empty "shared"), by simp [recordedNow],
      ⟨rfl, by simp [Recording.contexts, recordedFor]⟩, by simpa using stageThreshold_pos _⟩
  · exact ⟨(0, .signalGenerated .empty broker), by simp [recordedNow],
      ⟨rfl, by simp [Recording.contexts, recordedFor]⟩, by simpa using stageThreshold_pos _⟩
  · exact ⟨(0, .signalValidated .empty true broker), by simp [recordedNow],
      ⟨rfl, by simp [Recording.contexts, recordedFor]⟩, by simpa using stageThreshold_pos _⟩
  · exact ⟨(0, .orderProcessed .empty broker), by simp [recordedNow],
      ⟨rfl, by simp [Recording.contexts, recordedFor]⟩, by simpa using stageThreshold_pos _⟩
  · exact ⟨(0, .portfolioUpdate "portfolio" .empty broker), by simp [recordedNow],
      ⟨rfl, by simp [Recording.contexts, recordedFor]⟩, by simpa using stageThreshold_pos _⟩

theorem reported_iff_shared :
    (getPipelineHealth noFloats .epoch ((recordedNow "shared").run .epoch) 0 "shared").Reported ↔
      "shared" = "shared" ∨ "shared" = "market" :=
  reported_iff "shared" (recordedNow_elapsed _) (recordedNow_byServices _) (recordedNow_active _)

/-- The paper broker, right after everything was recorded for it. -/
theorem paper_not_reported :
    (recordedNow "paper").Elapsed 0 ∧ (recordedNow "paper").ByServices ∧
      (recordedNow "paper").Active 0 "paper" ∧
      ¬(getPipelineHealth noFloats .epoch ((recordedNow "paper").run .epoch) 0 "paper").Reported := by
  refine ⟨recordedNow_elapsed _, recordedNow_byServices _, recordedNow_active _, ?_⟩
  rw [reported_iff_stages]
  intro h
  have hmarket := h "market_ticks" List.mem_cons_self
  rw [getStageHealth_unhealthy (plain_of_mem List.mem_cons_self)
    (latest_marketTicks (recordedNow_byServices _) (by decide)) 0] at hmarket
  cases hmarket

end AlphaPanda.Monitoring
