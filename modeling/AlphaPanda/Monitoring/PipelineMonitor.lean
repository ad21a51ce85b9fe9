import AlphaPanda.Lib.Confined
import AlphaPanda.Lib.JsonRoundTrip
import AlphaPanda.Lib.RedisList
import AlphaPanda.Monitoring.EndToEnd

/-!
# The pipeline monitor

`core/monitoring/pipeline_monitor.py`: a task that validates the pipelines of
all active brokers again and again, keeps what it found in Redis, and backs off
while that fails. The health history that it keeps is read by
`api/routers/monitoring.py`.
-/

namespace AlphaPanda.Monitoring

open Coroutine Json

-- ---------------------------------------------------------------------------
-- What is stored
-- ---------------------------------------------------------------------------

def OverallHealth.acceptable (health : OverallHealth) : Bool :=
  health ∈ [.healthy, .warning, .startup, .idle]

structure AggregatedResults where
  timestamp : String
  overallHealthy : Bool
  activeBrokers : List String
  brokerResults : List (String × Results)

/-- What is written as JSON under a key. -/
inductive Stored where
  | validation (results : Results)
  | aggregated (results : AggregatedResults)

inductive MonitorOp where
  | validateEndToEndFlow (broker : String)
  | setex (key : String) (seconds : ℤ) (value : Stored)
  | lpush (key text : String)
  | ltrim (key : String) (start stop : ℤ)
  | expire (key : String) (seconds : ℤ)
  | sleep (seconds : ℚ)

/-- Its state is `consecutive_failures`; `stop` cancels it. -/
abbrev MonitorTask := Prog ℕ MonitorOp Fault

structure PipelineMonitor where
  activeBrokers : List String
  validators : Dict String EndToEndValidator
  monitorInterval : ℚ := 30

/-- What a round takes from outside: the validation of each broker and the
time of its record, and the time of the aggregated results. -/
structure Round where
  validation : String → Validation
  recorded : String → ℤ
  completed : ℤ

def validationKey (broker : String) : String := "pipeline:validation:" ++ broker

def aggregatedKey : String := "pipeline:validation:aggregated"

def historyKey (broker : String) : String := "pipeline:health_history:" ++ broker

def healthRecord {F : Type} (timestamp : String) (results : Results) (broker : String) : Json F :=
  .object
    [("timestamp", .str timestamp), ("overall_health", .str results.overallHealth.text),
      ("broker", .str broker),
      ("stage_health", .object (results.stages.map fun s => (s.1, .bool s.2.healthy))),
      ("bottleneck_count", .int results.bottlenecks.length)]

-- ---------------------------------------------------------------------------
-- The task
-- ---------------------------------------------------------------------------

section
variable (fl : Floats) (iso : IsoFormat) (m : PipelineMonitor)

def storeHealthHistory (now : ℤ) (results : Results) (broker : String) : MonitorTask Unit :=
  tryCatch
    (do
      let record : Json fl.Finite := healthRecord (iso.isoformat ⟨now, none⟩) results broker
      Prog.perform (.lpush (historyKey broker) (String.ofList (dumps fl record)))
      Prog.perform (.ltrim (historyKey broker) 0 99)
      Prog.perform (.expire (historyKey broker) 86400))
    fun
      | .raised _ => pure ()
      | .cancelled => throw .cancelled

def monitorBroker (round : Round) (broker : String) (validator : EndToEndValidator) :
    MonitorTask (String × Results) := do
  Prog.perform (.validateEndToEndFlow broker)
  let results := validateEndToEndFlow fl iso validator (round.validation broker)
  Prog.perform (.setex (validationKey broker) 300 (.validation results))
  storeHealthHistory fl iso (round.recorded broker) results broker
  pure (broker, results)

def monitorBrokers (round : Round) :
    List (String × EndToEndValidator) → MonitorTask (List (String × Results))
  | [] => pure []
  | (broker, validator) :: rest => do
    let results ← monitorBroker fl iso round broker validator
    let allResults ← monitorBrokers round rest
    pure (results :: allResults)

def aggregate (round : Round) (allResults : List (String × Results)) : AggregatedResults where
  timestamp := iso.isoformat ⟨round.completed, none⟩
  overallHealthy := allResults.all fun r => r.2.overallHealth.acceptable
  activeBrokers := m.activeBrokers
  brokerResults := allResults

/-- What is tried in a round. -/
def cycle (round : Round) : MonitorTask Unit := do
  let allResults ← monitorBrokers fl iso round m.validators.entries
  Prog.perform (.setex aggregatedKey 300 (.aggregated (aggregate iso m round allResults)))
  set 0
  Prog.perform (.sleep m.monitorInterval)

def backoff (consecutiveFailures : ℕ) : ℚ :=
  if 3 ≤ consecutiveFailures then min 300 (m.monitorInterval * consecutiveFailures) else 30

def pauseAfterFailure : MonitorTask Unit := do
  modify (· + 1)
  let consecutiveFailures ← get
  Prog.perform (.sleep (backoff m consecutiveFailures))

/-- `_monitoring_loop`, for as many rounds as there are before `stop`. -/
def monitoringLoop : List Round → MonitorTask Unit
  | [] => pure ()
  | round :: rounds => do
    let goOn ← tryCatch (do cycle fl iso m round; pure true) fun
      | .cancelled => pure false
      | .raised _ => do
        pauseAfterFailure m
        pure true
    if goOn then monitoringLoop rounds else pure ()

end

section
variable (fl : Floats) (m : PipelineMonitor) (lrange : String → ℤ → ℤ → Except Exc (List String))

def readHistory (broker : String) (limit : ℤ) : Except Exc (List (Json fl.Finite)) := do
  let historyData ← lrange (historyKey broker) 0 (limit - 1)
  historyData.mapM fun record =>
    match loads fl record with
    | some value => pure value
    | none => throw ⟨"JSONDecodeError", "Expecting value", .builtin⟩

def getHealthHistory (broker : Option String) (limit : ℤ) : Dict String (List (Json fl.Finite)) :=
  let brokers := match broker.filter (· ≠ "") with
    | some broker => [broker]
    | none => m.activeBrokers
  match brokers.mapM fun broker => (readHistory fl lrange broker limit).map (broker, ·) with
  | .ok history => Dict.ofList history
  | .error _ => Dict.empty

structure HistoryResponse (F : Type) where
  history : List (Json F)
  limit : ℤ
  broker : String

def HistoryResponse.count (r : HistoryResponse F) : ℕ := r.history.length

/-- `GET /pipeline/history`; what raises is answered with status 500. -/
def pipelineHistory (limit : ℤ) : Except Exc (HistoryResponse fl.Finite) :=
  let brokerNs := m.activeBrokers.headD "unknown"
  match readHistory fl lrange brokerNs limit with
  | .ok history => .ok ⟨history, limit, brokerNs⟩
  | .error e =>
    .error ⟨"HTTPException", "Failed to get pipeline history: " ++ e.message, .builtin⟩

end

-- ---------------------------------------------------------------------------
-- The pace
-- ---------------------------------------------------------------------------

inductive OpKind where
  | validation
  | history
  | aggregate
  | pause
  deriving DecidableEq

def MonitorOp.kind : MonitorOp → OpKind
  | .validateEndToEndFlow _ | .setex _ _ (.validation _) => .validation
  | .setex _ _ (.aggregated _) => .aggregate
  | .lpush .. | .ltrim .. | .expire .. => .history
  | .sleep _ => .pause

abbrev MonitorCall := MonitorOp × Option Fault

/-- A call after which the round goes on: on the history, it may have raised. -/
def Harmless (c : MonitorCall) : Prop :=
  c.1.kind = .history ∧ c.2 ≠ some .cancelled ∨ c.1.kind = .validation ∧ c.2 = none

theorem Harmless.not_cancelled {c : MonitorCall} (h : Harmless c) : c.2 ≠ some .cancelled := by
  rcases h with ⟨-, h⟩ | ⟨-, h⟩
  · exact h
  · rw [h]
    exact fun hc => by cases hc

/-- A call that ends the work on the brokers: one that was cancelled, or one
that is not on the history and raised. -/
def Breaking (c : MonitorCall) : Prop :=
  c.2 = some .cancelled ∨ c.1.kind = .validation

section
variable {fl : Floats} {iso : IsoFormat} {m : PipelineMonitor} {round : Round}

theorem storeHealthHistory_ends (now : ℤ) (results : Results) (broker : String) :
    (storeHealthHistory fl iso now results broker).Ends Harmless Breaking fun _ => True := by
  refine ends_tryCatch (Q := fun c => c.1.kind = .history) ?_ ?_
  · refine ends_bind (R := fun _ => True) ?_ fun _ _ =>
      ends_bind (R := fun _ => True) ?_ fun _ _ => ?_
    all_goals exact ends_perform (.inl ⟨rfl, fun h => by cases h⟩) (fun _ => rfl) trivial
  · rintro op (e | _) hop
    · exact .inl ⟨.inl ⟨hop, fun h => by cases h⟩, ends_pure trivial⟩
    · exact .inr ⟨.inl rfl, rfl⟩

theorem monitorBroker_ends (round : Round) (broker : String) (validator : EndToEndValidator) :
    (monitorBroker fl iso round broker validator).Ends Harmless Breaking
      (· = (broker, validateEndToEndFlow fl iso validator (round.validation broker))) := by
  refine ends_bind (R := fun _ => True)
    (ends_perform (.inr ⟨rfl, rfl⟩) (fun _ => .inr rfl) trivial) fun _ _ => ?_
  refine ends_bind (R := fun _ => True)
    (ends_perform (.inr ⟨rfl, rfl⟩) (fun _ => .inr rfl) trivial) fun _ _ => ?_
  exact ends_bind (storeHealthHistory_ends _ _ _) fun _ _ => ends_pure rfl

def Round.results (fl : Floats) (iso : IsoFormat) (round : Round)
    (validators : List (String × EndToEndValidator)) : List (String × Results) :=
  validators.map fun v => (v.1, validateEndToEndFlow fl iso v.2 (round.validation v.1))

theorem monitorBrokers_ends (round : Round) (validators : List (String × EndToEndValidator)) :
    (monitorBrokers fl iso round validators).Ends Harmless Breaking
      (· = round.results fl iso validators) := by
  induction validators with
  | nil => exact ends_pure rfl
  | cons v validators ih =>
    refine ends_bind (monitorBroker_ends round v.1 v.2) ?_
    rintro _ rfl
    refine ends_bind ih ?_
    rintro _ rfl
    exact ends_pure rfl

def aggregateOp (fl : Floats) (iso : IsoFormat) (m : PipelineMonitor) (round : Round) : MonitorOp :=
  .setex aggregatedKey 300
    (.aggregated (aggregate iso m round (round.results fl iso m.validators.entries)))

/-- How a round is tried: the calls, the failures in a row after it and how it ends. -/
inductive Cycled (fl : Floats) (iso : IsoFormat) (m : PipelineMonitor) (round : Round) (n : ℕ) :
    List MonitorCall → ℕ → Except Fault Unit → Prop where
  | completed (hcalls : ∀ c ∈ calls, Harmless c) :
      Cycled fl iso m round n
        (calls ++ [(aggregateOp fl iso m round, none), (.sleep m.monitorInterval, none)]) 0 (.ok ())
  | failed (hcalls : ∀ c ∈ calls, Harmless c) (hop : op.kind = .validation ∨ op.kind = .aggregate) :
      Cycled fl iso m round n (calls ++ [(op, some (.raised e))]) n (.error (.raised e))
  | cancelled (hcalls : ∀ c ∈ calls, c.2 ≠ some .cancelled) :
      Cycled fl iso m round n (calls ++ [(op, some .cancelled)]) n' (.error .cancelled)
  | woken (hcalls : (.sleep m.monitorInterval, some (.raised e)) ∈ calls) :
      Cycled fl iso m round n calls 0 (.error (.raised e))

theorem cycle_exec (as : List (Option Fault)) (w : World ℕ MonitorOp Fault) :
    let o := (cycle fl iso m round).exec as w
    ∃ calls, o.world.log = w.log ++ calls ∧ Cycled fl iso m round w.st calls o.world.st o.result := by
  have hends : (monitorBrokers fl iso round m.validators.entries).Ends _ _ _ :=
    monitorBrokers_ends round m.validators.entries
  obtain ⟨calls, hworld, hending⟩ := hends as w
  rw [cycle, exec_bind]
  generalize (monitorBrokers fl iso round m.validators.entries).exec as w = o at hworld hending ⊢
  obtain ⟨result, world, rest⟩ := o
  obtain rfl : world = _ := hworld
  cases hending with
  | @raised calls op e hcalls hlast =>
    refine ⟨_, rfl, ?_⟩
    cases e with
    | cancelled => exact .cancelled fun c hc => (hcalls c hc).not_cancelled
    | raised e =>
      refine .failed hcalls (.inl ?_)
      exact hlast.resolve_left fun h => by cases h
  | returned hcalls hresult =>
    subst hresult
    simp only [Outcome.andThen_ok, exec_bind, exec_perform, World.record]
    cases rest.headD none with
    | some e =>
      refine ⟨_, List.append_assoc .., ?_⟩
      cases e with
      | cancelled => exact .cancelled fun c hc => (hcalls c hc).not_cancelled
      | raised e => exact .failed hcalls (.inr rfl)
    | none =>
      simp only [Outcome.andThen_ok, exec_set]
      refine ⟨_, (List.append_assoc ..).trans (List.append_assoc ..), ?_⟩
      cases rest.tail.headD none with
      | none => exact .completed hcalls
      | some e =>
        cases e with
        | raised e => exact .woken (by simp)
        | cancelled =>
          rw [← List.append_assoc]
          refine .cancelled fun c hc => ?_
          rcases List.mem_append.mp hc with hc | hc
          · exact (hcalls c hc).not_cancelled
          · rw [List.mem_singleton.mp hc]
            exact fun h => by cases h

end

/-- The calls of each round that came to its pause, from so many failures in a row. -/
inductive Paced (fl : Floats) (iso : IsoFormat) (m : PipelineMonitor) :
    ℕ → List Round → List (List MonitorCall) → Prop where
  | nil : Paced fl iso m n rounds []
  | completed {round : Round} (hcalls : ∀ c ∈ calls, Harmless c) (hrest : Paced fl iso m 0 rounds paced) :
      Paced fl iso m n (round :: rounds)
        ((calls ++ [(aggregateOp fl iso m round, none), (.sleep m.monitorInterval, none)]) :: paced)
  | failed {round : Round} (hcalls : ∀ c ∈ calls, Harmless c)
      (hop : op.kind = .validation ∨ op.kind = .aggregate) (hrest : Paced fl iso m (n + 1) rounds paced) :
      Paced fl iso m n (round :: rounds)
        ((calls ++ [(op, some (.raised e)), (.sleep (backoff m (n + 1)), none)]) :: paced)

def Interrupted (calls : List MonitorCall) : Prop :=
  ∃ before op, calls = before ++ [(op, some .cancelled)] ∧ ∀ c ∈ before, c.2 ≠ some .cancelled

section
variable {fl : Floats} {iso : IsoFormat} {m : PipelineMonitor}

theorem monitoringLoop_exec (rounds : List Round) (as : List (Option Fault))
    (w : World ℕ MonitorOp Fault)
    (hsleep : ∀ seconds e, (.sleep seconds, some (.raised e)) ∉
      ((monitoringLoop fl iso m rounds).exec as w).world.log) :
    let o := (monitoringLoop fl iso m rounds).exec as w
    ∃ paced rest, o.world.log = w.log ++ (paced.flatten ++ rest) ∧ Paced fl iso m w.st rounds paced ∧
      (paced.length = rounds.length ∧ rest = [] ∧ o.result = .ok () ∨
        paced.length < rounds.length ∧ Interrupted rest) := by
  induction rounds generalizing as w with
  | nil => exact ⟨[], [], (List.append_nil _).symm, .nil, .inl ⟨rfl, rfl, rfl⟩⟩
  | cons round rounds ih =>
    obtain ⟨calls, hlog, hcycled⟩ := @cycle_exec fl iso m round as w
    simp only [monitoringLoop, exec_bind, exec_tryCatch] at hsleep ⊢
    generalize (cycle fl iso m round).exec as w = o at hlog hcycled hsleep ⊢
    obtain ⟨result, ⟨n, log⟩, as'⟩ := o
    obtain rfl : log = _ := hlog
    cases hcycled with
    | completed hcalls =>
      simp only [Outcome.andThen_ok, Outcome.orElse_ok, exec_pure, if_true] at hsleep ⊢
      obtain ⟨paced, rest, hlog, hpaced, hstop⟩ := ih _ _ hsleep
      refine ⟨_ :: paced, rest, hlog.trans (by simp), .completed hcalls hpaced, ?_⟩
      simpa using hstop
    | @failed calls op e hcalls hop =>
      simp only [Outcome.andThen_error, Outcome.orElse_error, pauseAfterFailure, exec_bind, exec_modify,
        exec_get, exec_perform, Outcome.andThen_ok, World.record] at hsleep ⊢
      generalize as'.headD none = answer at hsleep ⊢
      cases answer with
      | none =>
        simp only [Outcome.andThen_ok, exec_pure, if_true] at hsleep ⊢
        obtain ⟨paced, rest, hlog, hpaced, hstop⟩ := ih _ _ hsleep
        refine ⟨_ :: paced, rest, hlog.trans ?_, .failed hcalls (e := e) hop hpaced, ?_⟩
        · simp
        · simpa using hstop
      | some fault =>
        simp only [Outcome.andThen_error] at hsleep ⊢
        cases fault with
        | raised e' => exact absurd (by simp) (hsleep (backoff m (w.st + 1)) e')
        | cancelled =>
          refine ⟨[], calls ++ [(op, some (.raised e))] ++ [(_, some .cancelled)], List.append_assoc ..,
            .nil, .inr ⟨Nat.succ_pos _, _, _, rfl, ?_⟩⟩
          intro c hc
          rcases List.mem_append.mp hc with hc | hc
          · exact (hcalls c hc).not_cancelled
          · rw [List.mem_singleton.mp hc]
            exact fun h => by cases h
    | cancelled hcalls => exact ⟨[], _, rfl, .nil, .inr ⟨Nat.succ_pos _, _, _, rfl, hcalls⟩⟩
    | woken hcalls =>
      simp only [Outcome.andThen_error, Outcome.orElse_error, ← exec_bind] at hsleep
      rw [Prog.exec_log_eq] at hsleep
      exact absurd (List.mem_append_left _ (List.mem_append_right _ hcalls)) (hsleep _ _)

/-- No failure stops the monitor. Every round comes to one pause: the interval,
when the results of all brokers were stored, and else one that is longer from
the third failure in a row on. What raises on the history is no failure. Only a
call that is cancelled ends it, and then nothing more is called. -/
theorem monitor_goes_on (rounds : List Round) (as : List (Option Fault))
    (hsleep : ∀ seconds e, (.sleep seconds, some (.raised e)) ∉
      ((monitoringLoop fl iso m rounds).exec as (World.start 0)).world.log) :
    let o := (monitoringLoop fl iso m rounds).exec as (World.start 0)
    ∃ paced rest, o.world.log = paced.flatten ++ rest ∧ Paced fl iso m 0 rounds paced ∧
      (paced.length = rounds.length ∧ rest = [] ∧ o.result = .ok () ∨
        paced.length < rounds.length ∧ Interrupted rest) :=
  monitoringLoop_exec rounds as (World.start 0) hsleep

end

-- ---------------------------------------------------------------------------
-- The history
-- ---------------------------------------------------------------------------

def MonitorOp.change (key : String) : MonitorOp → Option (RedisList.Change String)
  | .lpush k text => if k = key then some (.lpush text) else none
  | .ltrim k start stop => if k = key then some (.ltrim start stop) else none
  | _ => none

def MonitorOp.text (key : String) : MonitorOp → Option String
  | .lpush k text => if k = key then some text else none
  | _ => none

/-- What may have become of the list under a key by the time that those calls
were made. A call that raised has taken effect or not, and the key may expire
at any time. -/
inductive Happened (key : String) : List MonitorCall → List (RedisList.Change String) → Prop where
  | start : Happened key [] []
  | done (h : Happened key calls changes) :
      Happened key (calls ++ [(op, r)]) (changes ++ (op.change key).toList)
  | lost (h : Happened key calls changes) : Happened key (calls ++ [(op, some e)]) changes
  | expired (h : Happened key calls changes) : Happened key calls (changes ++ [.removed])

theorem happened_all (key : String) (calls : List MonitorCall) :
    Happened key calls (calls.filterMap fun c => c.1.change key) := by
  induction calls using List.reverseRecOn with
  | nil => exact .start
  | append_singleton calls c ih =>
    have hdone : Happened key (calls ++ [c]) (_ ++ (c.1.change key).toList) := .done ih
    rw [List.filterMap_append]
    cases hchange : c.1.change key <;> simpa [hchange] using hdone

def MonitorOp.TrimsToHundred : MonitorOp → Prop
  | .ltrim _ start stop => start = 0 ∧ stop = 99
  | _ => True

theorem Happened.leaves (h : Happened key calls changes) (hcalls : ∀ c ∈ calls, c.1.TrimsToHundred) :
    RedisList.Leaves 100 changes := by
  induction h with
  | start => exact fun start stop h => absurd h List.not_mem_nil
  | @done calls changes op r h ih =>
    intro start stop hmem
    rcases List.mem_append.mp hmem with hmem | hmem
    · exact ih (fun c hc => hcalls c (List.mem_append_left _ hc)) start stop hmem
    · have hop := hcalls (op, r) (List.mem_append_right _ List.mem_cons_self)
      cases op <;> simp [MonitorOp.change] at hmem
      obtain ⟨-, rfl, rfl⟩ := hmem
      obtain ⟨rfl, rfl⟩ := hop
      exact ⟨rfl, le_rfl⟩
  | lost h ih => exact ih fun c hc => hcalls c (List.mem_append_left _ hc)
  | expired h ih =>
    intro start stop hmem
    rcases List.mem_append.mp hmem with hmem | hmem
    · exact ih hcalls start stop hmem
    · simp at hmem

theorem Happened.pushed (h : Happened key calls changes) :
    ∃ kept : List String, kept.Sublist (calls.filterMap fun c => c.1.text key) ∧
      RedisList.pushed changes = kept.reverse := by
  induction h with
  | start => exact ⟨[], List.Sublist.refl _, rfl⟩
  | @done calls changes op r h ih =>
    obtain ⟨kept, hkept, hpushed⟩ := ih
    rw [List.filterMap_append]
    cases op with
    | lpush k text =>
      by_cases hk : k = key
      · refine ⟨kept ++ [text], ?_, ?_⟩
        · simpa [MonitorOp.text, hk] using hkept
        · simp [MonitorOp.change, hk, hpushed]
      · exact ⟨kept, by simpa [MonitorOp.text, hk] using hkept, by simpa [MonitorOp.change, hk] using hpushed⟩
    | ltrim k start stop =>
      refine ⟨kept, by simpa [MonitorOp.text] using hkept, ?_⟩
      by_cases hk : k = key <;> simpa [MonitorOp.change, hk] using hpushed
    | _ => exact ⟨kept, by simpa [MonitorOp.text] using hkept, by simpa [MonitorOp.change] using hpushed⟩
  | lost h ih =>
    obtain ⟨kept, hkept, hpushed⟩ := ih
    rw [List.filterMap_append]
    exact ⟨kept, hkept.trans (List.sublist_append_left _ _), hpushed⟩
  | expired h ih => exact ⟨[], List.nil_sublist _, RedisList.pushed_removed _⟩

section
variable {fl : Floats} {iso : IsoFormat} {m : PipelineMonitor} {broker : String}

def written (record : Json fl.Finite) : String := String.ofList (dumps fl record)

def Round.records (fl : Floats) (iso : IsoFormat) (broker : String) (round : Round)
    (validators : List (String × EndToEndValidator)) : List (Json fl.Finite) :=
  (validators.filter fun v => v.1 = broker).map fun v =>
    healthRecord (iso.isoformat ⟨round.recorded v.1, none⟩)
      (validateEndToEndFlow fl iso v.2 (round.validation v.1)) v.1

theorem historyKey_inj : historyKey b = historyKey broker ↔ b = broker :=
  String.append_right_inj "pipeline:health_history:"

theorem storeHealthHistory_follows (now : ℤ) (results : Results) (b : String) :
    (storeHealthHistory fl iso now results b).Follows (MonitorOp.text (historyKey broker))
      (if b = broker then [written (healthRecord (iso.isoformat ⟨now, none⟩) results b : Json fl.Finite)]
        else []) := by
  rw [← List.append_nil (if b = broker then _ else _)]
  refine follows_tryCatch ?_ ?_
  · refine Prog.Follows.mono (follows_bind follows_perform fun _ =>
      follows_bind (l := []) follows_perform fun _ => follows_perform) ?_
    simp only [MonitorOp.text, historyKey_inj]
    split <;> simp [written]
  · rintro (e | _)
    · exact follows_pure
    · exact follows_throw

theorem monitorBroker_follows (round : Round) (b : String) (validator : EndToEndValidator) :
    (monitorBroker fl iso round b validator).Follows (MonitorOp.text (historyKey broker))
      ((round.records fl iso broker [(b, validator)]).map written) := by
  refine Prog.Follows.mono (follows_bind follows_perform fun _ => follows_bind follows_perform fun _ =>
    follows_bind (storeHealthHistory_follows _ _ b) fun _ => follows_pure (l := [])) ?_
  by_cases hb : b = broker <;> simp [MonitorOp.text, Round.records, hb]

theorem monitorBrokers_follows (round : Round) (validators : List (String × EndToEndValidator)) :
    (monitorBrokers fl iso round validators).Follows (MonitorOp.text (historyKey broker))
      ((round.records fl iso broker validators).map written) := by
  induction validators with
  | nil => exact follows_pure
  | cons v validators ih =>
    refine Prog.Follows.mono (follows_bind (monitorBroker_follows round v.1 v.2) fun _ =>
      follows_bind ih fun _ => follows_pure (l := [])) ?_
    by_cases hv : v.1 = broker <;> simp [Round.records, hv]

theorem cycle_follows (round : Round) :
    (cycle fl iso m round).Follows (MonitorOp.text (historyKey broker))
      ((round.records fl iso broker m.validators.entries).map written) := by
  refine Prog.Follows.mono (follows_bind (monitorBrokers_follows round _) fun _ =>
    follows_bind follows_perform fun _ => follows_bind (follows_set (l := [])) fun _ =>
      follows_perform) ?_
  simp [MonitorOp.text]

theorem pauseAfterFailure_follows :
    (pauseAfterFailure m).Follows (MonitorOp.text (historyKey broker)) [] :=
  follows_bind (l := []) follows_modify fun _ => follows_bind (l := []) follows_get fun _ =>
    follows_perform

theorem monitoringLoop_follows (rounds : List Round) :
    (monitoringLoop fl iso m rounds).Follows (MonitorOp.text (historyKey broker))
      ((rounds.flatMap fun round => round.records fl iso broker m.validators.entries).map written) := by
  induction rounds with
  | nil => exact follows_pure
  | cons round rounds ih =>
    rw [List.flatMap_cons, List.map_append]
    have hround := follows_bind (@cycle_follows fl iso m broker round)
      fun _ => follows_pure (l := []) (a := true)
    refine Prog.Follows.mono (follows_bind (follows_tryCatch (m := []) hround ?_) (m := _) fun goOn => ?_)
      (List.Sublist.append_right (by simp) _)
    · rintro (e | _)
      · exact follows_bind (l := []) pauseAfterFailure_follows fun _ => follows_pure
      · exact follows_pure
    · split
      · exact ih
      · exact follows_pure

theorem storeHealthHistory_confined (now : ℤ) (results : Results) (b : String) :
    (storeHealthHistory fl iso now results b).Confined MonitorOp.TrimsToHundred := by
  refine confined_tryCatch ?_ ?_
  · exact confined_bind (confined_perform trivial) fun _ =>
      confined_bind (confined_perform ⟨rfl, rfl⟩) fun _ => confined_perform trivial
  · rintro (e | _)
    · exact confined_pure
    · exact confined_throw

theorem monitorBrokers_confined (round : Round) (validators : List (String × EndToEndValidator)) :
    (monitorBrokers fl iso round validators).Confined MonitorOp.TrimsToHundred := by
  induction validators with
  | nil => exact confined_pure
  | cons v validators ih =>
    refine confined_bind ?_ fun _ => confined_bind ih fun _ => confined_pure
    exact confined_bind (confined_perform trivial) fun _ => confined_bind (confined_perform trivial)
      fun _ => confined_bind (storeHealthHistory_confined _ _ v.1) fun _ => confined_pure

theorem monitoringLoop_confined (rounds : List Round) :
    (monitoringLoop fl iso m rounds).Confined MonitorOp.TrimsToHundred := by
  induction rounds with
  | nil => exact confined_pure
  | cons round rounds ih =>
    refine confined_bind (confined_tryCatch ?_ ?_) fun goOn => ?_
    · refine confined_bind ?_ fun _ => confined_pure
      exact confined_bind (monitorBrokers_confined round _) fun _ =>
        confined_bind (confined_perform trivial) fun _ => confined_bind confined_set fun _ =>
          confined_perform trivial
    · rintro (e | _)
      · refine confined_bind ?_ fun _ => confined_pure
        exact confined_bind confined_modify fun _ => confined_bind confined_get fun _ =>
          confined_perform trivial
      · exact confined_pure
    · split
      · exact ih
      · exact confined_pure

-- ---------------------------------------------------------------------------
-- What its readers get
-- ---------------------------------------------------------------------------

theorem stages_nodup (v : EndToEndValidator) (x : Validation) :
    ((validateEndToEndFlow fl iso v x).stages.map Prod.fst).Nodup := by
  have hnames : ["market_data", "signal_generation", "risk_validation", "order_execution",
      "portfolio_updates"].Nodup := by decide
  unfold validateEndToEndFlow
  split
  · exact List.nodup_nil
  · split
    · exact List.nodup_nil
    · exact List.nodup_nil
    · exact hnames
    · exact hnames

theorem distinctEntries_bool {l : List (String × Bool)} :
    DistinctEntries (F := fl.Finite) (l.map fun s => (s.1, .bool s.2)) := by
  induction l with
  | nil => trivial
  | cons s l ih => exact ⟨trivial, ih⟩

theorem healthRecord_distinct {results : Results} (h : (results.stages.map Prod.fst).Nodup)
    (timestamp : String) : (healthRecord timestamp results broker : Json fl.Finite).Distinct := by
  have hnames : ["timestamp", "overall_health", "broker", "stage_health", "bottleneck_count"].Nodup := by
    decide
  have hstages := @distinctEntries_bool fl (results.stages.map fun s => (s.1, s.2.healthy))
  rw [List.map_map] at hstages
  refine ⟨hnames, trivial, trivial, trivial, ⟨?_, hstages⟩, trivial, trivial⟩
  rwa [List.map_map]

theorem records_distinct (round : Round) (validators : List (String × EndToEndValidator)) :
    ∀ record ∈ round.records fl iso broker validators, record.Distinct := by
  intro record hrecord
  obtain ⟨v, -, rfl⟩ := List.mem_map.mp hrecord
  exact healthRecord_distinct (stages_nodup v.2 _) _

theorem readHistory_written {lrange : String → ℤ → ℤ → Except Exc (List String)} {limit : ℤ}
    {records : List (Json fl.Finite)}
    (h : lrange (historyKey broker) 0 (limit - 1) = .ok (records.map written))
    (hdistinct : ∀ record ∈ records, record.Distinct) :
    readHistory fl lrange broker limit = .ok records := by
  simp only [readHistory, h, bind, Except.bind]
  clear h
  induction records with
  | nil => rfl
  | cons record records ih =>
    have hloads : loads fl (written record) = some record :=
      loads_dumps (hdistinct record List.mem_cons_self)
    have hrest := ih fun r hr => hdistinct r (List.mem_cons_of_mem _ hr)
    rw [List.map_cons, List.mapM_cons, hrest, hloads]
    rfl

/-- One start of the monitor and what came of its calls. -/
structure MonitorRun where
  monitor : PipelineMonitor
  rounds : List Round
  answers : List (Option Fault)

def MonitorRun.calls (fl : Floats) (iso : IsoFormat) (r : MonitorRun) : List MonitorCall :=
  ((monitoringLoop fl iso r.monitor r.rounds).exec r.answers (World.start 0)).world.log

def MonitorRun.records (fl : Floats) (iso : IsoFormat) (broker : String) (r : MonitorRun) :
    List (Json fl.Finite) :=
  r.rounds.flatMap fun round => round.records fl iso broker r.monitor.validators.entries

theorem MonitorRun.texts_sublist (r : MonitorRun) :
    ((r.calls fl iso).filterMap fun c => c.1.text (historyKey broker)).Sublist
      ((r.records fl iso broker).map written) := by
  obtain ⟨calls, hlog, hsublist⟩ := (@monitoringLoop_follows fl iso r.monitor broker r.rounds).exec
    r.answers (World.start 0)
  rwa [MonitorRun.calls, hlog]

theorem MonitorRun.trims (r : MonitorRun) : ∀ c ∈ r.calls fl iso, c.1.TrimsToHundred := by
  obtain ⟨calls, hlog, hconfined⟩ := (@monitoringLoop_confined fl iso r.monitor r.rounds).exec
    r.answers (World.start 0)
  rw [MonitorRun.calls, hlog]
  exact hconfined

theorem MonitorRun.texts_flatMap (runs : List MonitorRun) :
    ((runs.flatMap (MonitorRun.calls fl iso)).filterMap fun c => c.1.text (historyKey broker)).Sublist
      ((runs.flatMap (MonitorRun.records fl iso broker)).map written) := by
  induction runs with
  | nil => exact List.Sublist.refl _
  | cons r runs ih =>
    rw [List.flatMap_cons, List.flatMap_cons, List.filterMap_append, List.map_append]
    exact r.texts_sublist.append ih

theorem MonitorRun.records_distinct (runs : List MonitorRun) :
    ∀ record ∈ runs.flatMap (MonitorRun.records fl iso broker), record.Distinct := by
  intro record hrecord
  obtain ⟨r, -, hrecord⟩ := List.mem_flatMap.mp hrecord
  obtain ⟨round, -, hrecord⟩ := List.mem_flatMap.mp hrecord
  exact Monitoring.records_distinct round _ record hrecord

theorem readHistory_newest (runs : List MonitorRun) {calls : List MonitorCall}
    (hcalls : calls <+: runs.flatMap (MonitorRun.calls fl iso))
    (hhappened : Happened (historyKey broker) calls changes) {limit : ℤ} (hpos : 1 ≤ limit)
    (hlimit : limit ≤ 100) {lrange : String → ℤ → ℤ → Except Exc (List String)}
    (hlrange : lrange (historyKey broker) 0 (limit - 1) =
      .ok (RedisList.range (RedisList.after changes) 0 (limit - 1))) :
    ∃ kept : List (Json fl.Finite), kept.Sublist (runs.flatMap (MonitorRun.records fl iso broker)) ∧
      RedisList.pushed changes = kept.reverse.map written ∧
      readHistory fl lrange broker limit = .ok (kept.reverse.take limit.toNat) := by
  have htrims : ∀ c ∈ calls, c.1.TrimsToHundred := by
    intro c hc
    obtain ⟨r, -, hr⟩ := List.mem_flatMap.mp (hcalls.subset hc)
    exact r.trims c hr
  obtain ⟨texts, htexts, hpushed⟩ := hhappened.pushed
  obtain ⟨kept, hkept, rfl⟩ := List.sublist_map_iff.mp
    ((htexts.trans (hcalls.sublist.filterMap _)).trans (MonitorRun.texts_flatMap runs))
  refine ⟨kept, hkept, hpushed.trans List.map_reverse.symm, readHistory_written ?_ ?_⟩
  · rw [hlrange, RedisList.range_after (hhappened.leaves htrims) hpos hlimit, hpushed, List.map_take,
      List.map_reverse]
  · intro record hrecord
    exact MonitorRun.records_distinct runs record
      (hkept.subset (List.mem_reverse.mp (List.mem_of_mem_take hrecord)))

/-- What the readers of the history get at some moment of any runs of the
monitor: of the records that were pushed since the list was last removed, the
newest ones as they were made, newest first. -/
theorem history_newest (reader : PipelineMonitor) (runs : List MonitorRun) {calls : List MonitorCall}
    (hcalls : calls <+: runs.flatMap (MonitorRun.calls fl iso))
    (hhappened : Happened (historyKey broker) calls changes) {limit : ℤ} (hpos : 1 ≤ limit)
    (hlimit : limit ≤ 100) {lrange : String → ℤ → ℤ → Except Exc (List String)}
    (hlrange : lrange (historyKey broker) 0 (limit - 1) =
      .ok (RedisList.range (RedisList.after changes) 0 (limit - 1))) :
    ∃ kept : List (Json fl.Finite), kept.Sublist (runs.flatMap (MonitorRun.records fl iso broker)) ∧
      RedisList.pushed changes = kept.reverse.map written ∧
      (broker ≠ "" → getHealthHistory fl reader lrange (some broker) limit =
        Dict.ofList [(broker, kept.reverse.take limit.toNat)]) ∧
      (reader.activeBrokers.head? = some broker → pipelineHistory fl reader lrange limit =
        .ok ⟨kept.reverse.take limit.toNat, limit, broker⟩) := by
  obtain ⟨kept, hkept, hpushed, hread⟩ := readHistory_newest runs hcalls hhappened hpos hlimit hlrange
  refine ⟨kept, hkept, hpushed, fun hne => ?_, fun hfirst => ?_⟩
  · have hbroker : (some broker).filter (· ≠ "") = some broker := by simp [hne]
    simp only [getHealthHistory, hbroker, List.mapM_cons, List.mapM_nil, hread]
    rfl
  · have hbroker : reader.activeBrokers.headD "unknown" = broker := by
      simp [List.headD_eq_head?_getD, hfirst]
    rw [pipelineHistory, hbroker, hread]

end

def paperMonitor : PipelineMonitor where
  activeBrokers := ["paper"]
  validators := Dict.ofList [("paper", paperEndToEnd)]

def busyRound : Round where
  validation _ := busyValidation
  recorded _ := 0
  completed := 0

def refused : Exc := ⟨"RuntimeError", "refused", .builtin⟩

theorem paperMonitor_goes_on :
    let o := (monitoringLoop noFloats .epoch paperMonitor [busyRound, busyRound]).exec
      [some (.raised refused)] (World.start 0)
    ∃ paced rest, o.world.log = paced.flatten ++ rest ∧
      Paced noFloats .epoch paperMonitor 0 [busyRound, busyRound] paced ∧
      (paced.length = 2 ∧ rest = [] ∧ o.result = .ok () ∨ paced.length < 2 ∧ Interrupted rest) := by
  refine monitor_goes_on [busyRound, busyRound] [some (.raised refused)] ?_
  have hbrokers : paperMonitor.validators.entries = [("paper", paperEndToEnd)] := rfl
  intro seconds e
  simp [monitoringLoop, cycle, hbrokers, monitorBrokers, monitorBroker, storeHealthHistory,
    pauseAfterFailure, World.record, World.start]

def paperRun : MonitorRun := ⟨paperMonitor, [busyRound, busyRound], [some (.raised refused)]⟩

def paperChanges : List (RedisList.Change String) :=
  (paperRun.calls noFloats .epoch).filterMap fun c => c.1.change (historyKey "paper")

theorem paperRun_newest : ∃ kept : List (Json noFloats.Finite),
    kept.Sublist ([paperRun].flatMap (MonitorRun.records noFloats .epoch "paper")) ∧
      RedisList.pushed paperChanges = kept.reverse.map written ∧
      ("paper" ≠ "" → getHealthHistory noFloats paperMonitor
          (fun _ start stop => .ok (RedisList.range (RedisList.after paperChanges) start stop))
          (some "paper") 10 = Dict.ofList [("paper", kept.reverse.take 10)]) ∧
      (paperMonitor.activeBrokers.head? = some "paper" → pipelineHistory noFloats paperMonitor
          (fun _ start stop => .ok (RedisList.range (RedisList.after paperChanges) start stop)) 10 =
        .ok ⟨kept.reverse.take 10, 10, "paper"⟩) :=
  history_newest paperMonitor [paperRun] (by simp) (happened_all _ _) (by decide) (by decide) rfl

end AlphaPanda.Monitoring
