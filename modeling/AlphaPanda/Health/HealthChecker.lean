import AlphaPanda.Events
import AlphaPanda.Exceptions
import AlphaPanda.Lib.Dict
import AlphaPanda.Lib.History

/-!
# The health checker

`ServiceHealthChecker`: a check's outcome is converted to a status, and the
statuses of the enabled checks to an overall one. The status of a dict is looked
up among the names of the members of `HealthStatus`, which are in capitals; its
values are not.
-/

namespace AlphaPanda.Health

inductive HealthStatus where
  | healthy
  | degraded
  | unhealthy
  | unknown
  deriving DecidableEq, Repr

namespace HealthStatus

def value : HealthStatus → String
  | .healthy => "healthy"
  | .degraded => "degraded"
  | .unhealthy => "unhealthy"
  | .unknown => "unknown"

/-- The keys of `HealthStatus.__members__`. -/
def members : List String := ["HEALTHY", "DEGRADED", "UNHEALTHY", "UNKNOWN"]

def ofValue (value : String) : Except Exc HealthStatus :=
  match [healthy, degraded, unhealthy, unknown].find? fun s => s.value = value with
  | some s => .ok s
  | none => .error ⟨"ValueError", s!"'{value}' is not a valid HealthStatus", .builtin⟩

theorem ofValue_ok {text : String} : ofValue text = .ok s ↔ text = s.value := by
  constructor
  · intro h
    unfold ofValue at h
    split at h
    · rename_i hfind
      cases h
      simpa [eq_comm] using List.find?_some hfind
    · cases h
  · rintro rfl
    cases s <;> rfl

theorem value_not_member (s : HealthStatus) : s.value ∉ members := by cases s <;> decide

/-- What counts as a failure: unhealthy or degraded. -/
def Failing (s : HealthStatus) : Prop := s = .unhealthy ∨ s = .degraded

instance (s : HealthStatus) : Decidable s.Failing := inferInstanceAs (Decidable (_ ∨ _))

end HealthStatus

-- ---------------------------------------------------------------------------
-- Checks and their outcomes
-- ---------------------------------------------------------------------------

inductive Result where
  | bool (b : Bool)
  | dict (status message : Option String) (details : Option (Dict String Value))
  | other (v : Value)

inductive Outcome where
  | returned (r : Result)
  | raised (e : Exc)
  | timedOut

/-- A registered check, and how its function ends. `timeout` is as `str` writes it. -/
structure HealthCheck where
  name : String
  component : String
  outcome : Outcome
  timeout : String := "5.0"
  critical : Bool := true
  enabled : Bool := true

structure HealthResult where
  name : String
  component : String
  status : HealthStatus
  message : String
  details : Option (Dict String Value) := none
  error : Option String := none

def ofTruth (b : Bool) : HealthStatus := if b then .healthy else .unhealthy

def interpret : Result → Except Exc (HealthStatus × String × Option (Dict String Value))
  | .bool b => .ok (ofTruth b, if b then "Check passed" else "Check failed", none)
  | .dict status message details => do
    let statusStr := status.getD "unknown"
    let status ← if statusStr ∈ HealthStatus.members then HealthStatus.ofValue statusStr
      else .ok .unknown
    pure (status, message.getD "No message provided", details)
  | .other v => .ok (ofTruth v.truthy, if v.truthy then v.text else "Check failed", none)

def HealthCheck.failed (check : HealthCheck) (e : Exc) : HealthResult where
  name := check.name
  component := check.component
  status := .unhealthy
  message := s!"Health check failed: {e.message}"
  error := some e.message

def runHealthCheck (check : HealthCheck) : HealthResult :=
  if !check.enabled then
    { name := check.name
      component := check.component
      status := .unknown
      message := "Health check disabled" }
  else
    match check.outcome with
    | .returned r =>
      match interpret r with
      | .ok (status, message, details) =>
        { name := check.name
          component := check.component
          status := status
          message := message
          details := details }
      | .error e => check.failed e
    | .raised e => check.failed e
    | .timedOut =>
      { name := check.name
        component := check.component
        status := .unhealthy
        message := s!"Health check timed out after {check.timeout}s"
        error := some "timeout" }

structure Summary where
  totalChecks : ℕ
  healthy : ℕ
  degraded : ℕ
  criticalFailures : List HealthResult
  nonCriticalFailures : List HealthResult

structure OverallHealth where
  status : HealthStatus
  checks : Dict String HealthResult
  summary : Summary

def results (checks : List HealthCheck) : Dict String HealthResult :=
  .ofList ((checks.filter (·.enabled)).map fun check => (check.name, runHealthCheck check))

def Summary.add (results : Dict String HealthResult) (s : Summary) (check : HealthCheck) : Summary :=
  match results.get? check.name with
  | none => s
  | some result =>
    let s := match result.status with
      | .healthy => { s with healthy := s.healthy + 1 }
      | .degraded => { s with degraded := s.degraded + 1 }
      | .unhealthy | .unknown => s
    if result.status = .degraded ∨ result.status = .unhealthy then
      if check.critical then { s with criticalFailures := s.criticalFailures ++ [result] }
      else { s with nonCriticalFailures := s.nonCriticalFailures ++ [result] }
    else s

def summarize (checks : List HealthCheck) : Summary :=
  checks.foldl (Summary.add (results checks)) ⟨checks.length, 0, 0, [], []⟩

def Summary.status (s : Summary) : HealthStatus :=
  if s.criticalFailures ≠ [] then .unhealthy
  else if s.nonCriticalFailures ≠ [] ∨ 0 < s.degraded then .degraded
  else .healthy

def getOverallHealth (checks : List HealthCheck) : OverallHealth where
  status := (summarize checks).status
  checks := results checks
  summary := summarize checks

-- ---------------------------------------------------------------------------
-- From the results to the overall status
-- ---------------------------------------------------------------------------

def FailsIn (results : Dict String HealthResult) (check : HealthCheck) : Prop :=
  ∃ result, results.get? check.name = some result ∧ result.status.Failing

section
variable {results : Dict String HealthResult}

theorem add_criticalFailures (s : Summary) (check : HealthCheck) :
    (s.add results check).criticalFailures ≠ [] ↔
      s.criticalFailures ≠ [] ∨ (check.critical ∧ FailsIn results check) := by
  unfold Summary.add FailsIn
  cases results.get? check.name with
  | none => simp
  | some result =>
    cases hstatus : result.status <;> cases check.critical <;> simp [HealthStatus.Failing, hstatus]

theorem add_nonCritical (s : Summary) (check : HealthCheck) :
    ((s.add results check).nonCriticalFailures ≠ [] ∨ 0 < (s.add results check).degraded) ↔
      (s.nonCriticalFailures ≠ [] ∨ 0 < s.degraded) ∨ ∃ result, results.get? check.name = some result ∧
        (result.status = .degraded ∨ ¬check.critical ∧ result.status = .unhealthy) := by
  unfold Summary.add
  cases results.get? check.name with
  | none => simp
  | some result =>
    cases hstatus : result.status <;> cases check.critical <;> simp [hstatus]

end

theorem criticalFailures_iff (checks : List HealthCheck) :
    (summarize checks).criticalFailures ≠ [] ↔
      ∃ check ∈ checks, check.critical ∧ FailsIn (results checks) check := by
  rw [summarize, List.foldl_iff (P := fun s : Summary => s.criticalFailures ≠ []) add_criticalFailures]
  simp

theorem nonCritical_iff (checks : List HealthCheck) :
    ((summarize checks).nonCriticalFailures ≠ [] ∨ 0 < (summarize checks).degraded) ↔
      ∃ check ∈ checks, ∃ result, (results checks).get? check.name = some result ∧
        (result.status = .degraded ∨ ¬check.critical ∧ result.status = .unhealthy) := by
  rw [summarize, List.foldl_iff
    (P := fun s : Summary => s.nonCriticalFailures ≠ [] ∨ 0 < s.degraded) add_nonCritical]
  simp

theorem results_get? {checks : List HealthCheck} (hnames : (checks.map (·.name)).Nodup)
    (hcheck : check ∈ checks) :
    (results checks).get? check.name =
      if check.enabled then some (runHealthCheck check) else none := by
  have honce : ∀ result,
      (check.name, result) ∈ (checks.filter (·.enabled)).map (fun c => (c.name, runHealthCheck c)) →
        check.enabled ∧ result = runHealthCheck check := by
    intro result hmem
    obtain ⟨other, hother, heq⟩ := List.mem_map.mp hmem
    obtain ⟨hother, henabled⟩ := List.mem_filter.mp hother
    obtain ⟨hname, rfl⟩ := Prod.mk.inj heq
    obtain rfl := List.inj_on_of_nodup_map hnames hother hcheck hname
    exact ⟨henabled, rfl⟩
  split
  · rename_i henabled
    refine Dict.get?_ofList ?_ fun result hmem => (honce result hmem).2
    exact List.mem_map_of_mem (f := fun c => (c.name, runHealthCheck c))
      (List.mem_filter.mpr ⟨hcheck, henabled⟩)
  · rename_i henabled
    rw [Option.eq_none_iff_forall_not_mem]
    intro result hget
    exact henabled (honce result (Dict.mem_of_get?_ofList hget)).1

theorem failsIn_iff {checks : List HealthCheck} (hnames : (checks.map (·.name)).Nodup)
    (hcheck : check ∈ checks) :
    FailsIn (results checks) check ↔ check.enabled ∧ (runHealthCheck check).status.Failing := by
  rw [FailsIn, results_get? hnames hcheck]
  split <;> simp [*]

theorem overall_unhealthy_iff {checks : List HealthCheck} (hnames : (checks.map (·.name)).Nodup) :
    (getOverallHealth checks).status = .unhealthy ↔
      ∃ check ∈ checks, check.critical ∧ check.enabled ∧ (runHealthCheck check).status.Failing := by
  have hstatus : (getOverallHealth checks).status = .unhealthy ↔
      (summarize checks).criticalFailures ≠ [] := by
    simp only [getOverallHealth, Summary.status]
    split
    · simp [*]
    · split <;> simp [*]
  rw [hstatus, criticalFailures_iff]
  refine exists_congr fun check => and_congr_right fun hcheck => and_congr_right fun _ => ?_
  exact failsIn_iff hnames hcheck

theorem overall_healthy_iff {checks : List HealthCheck} (hnames : (checks.map (·.name)).Nodup) :
    (getOverallHealth checks).status = .healthy ↔
      ∀ check ∈ checks, check.enabled → ¬(runHealthCheck check).status.Failing := by
  have hstatus : (getOverallHealth checks).status = .healthy ↔
      (summarize checks).criticalFailures = [] ∧
        ¬((summarize checks).nonCriticalFailures ≠ [] ∨ 0 < (summarize checks).degraded) := by
    simp only [getOverallHealth, Summary.status]
    split
    · simp [*]
    · split <;> simp_all
  rw [hstatus, nonCritical_iff, ← not_ne_iff, criticalFailures_iff]
  constructor
  · rintro ⟨hcritical, hother⟩ check hcheck henabled hfailing
    by_cases hc : check.critical
    · exact hcritical ⟨check, hcheck, hc, (failsIn_iff hnames hcheck).mpr ⟨henabled, hfailing⟩⟩
    · refine hother ⟨check, hcheck, _, (results_get? hnames hcheck).trans (if_pos henabled), ?_⟩
      exact hfailing.symm.imp_right fun h => ⟨hc, h⟩
  · intro h
    constructor
    · rintro ⟨check, hcheck, -, hfails⟩
      obtain ⟨henabled, hfailing⟩ := (failsIn_iff hnames hcheck).mp hfails
      exact h check hcheck henabled hfailing
    · rintro ⟨check, hcheck, result, hget, hstatus⟩
      obtain ⟨henabled, hfailing⟩ := (failsIn_iff hnames hcheck).mp
        ⟨result, hget, hstatus.symm.imp_left And.right⟩
      exact h check hcheck henabled hfailing

-- ---------------------------------------------------------------------------
-- What a check reports
-- ---------------------------------------------------------------------------

/-- The status that an outcome reports: a bool, the value of a status in a
dict, or a failure. -/
def Outcome.reported : Outcome → Option HealthStatus
  | .returned (.bool b) => some (ofTruth b)
  | .returned (.dict (some status) _ _) => (HealthStatus.ofValue status).toOption
  | .returned (.dict none _ _) | .returned (.other _) => none
  | .raised _ | .timedOut => some .unhealthy

def Outcome.isDict : Outcome → Bool
  | .returned (.dict ..) => true
  | _ => false

theorem toOption_eq_some {x : Except ε α} : x.toOption = some a ↔ x = .ok a := by
  cases x <;> simp [Except.toOption]

theorem runHealthCheck_status {check : HealthCheck} (henabled : check.enabled)
    (h : check.outcome.reported = some status) :
    (runHealthCheck check).status = if check.outcome.isDict then .unknown else status := by
  unfold runHealthCheck
  rw [henabled]
  generalize check.outcome = outcome at h ⊢
  rcases outcome with (b | ⟨_ | text, message, details⟩ | v) | e | _
  · exact Option.some.inj h
  · cases h
  · obtain rfl := HealthStatus.ofValue_ok.mp (toOption_eq_some.mp h)
    simp [interpret, HealthStatus.value_not_member, Outcome.isDict, bind, Except.bind, pure, Except.pure]
  · cases h
  · exact Option.some.inj h
  · exact Option.some.inj h

/-- Checks give what they report, and the overall status goes by it. -/
structure Aggregates (checks : List HealthCheck) : Prop where
  reported : ∀ check ∈ checks, check.enabled → check.outcome.isDict →
    check.outcome.reported = some (runHealthCheck check).status
  unhealthy : (∃ check ∈ checks, check.enabled ∧ check.critical ∧
      ∃ status, check.outcome.reported = some status ∧ status.Failing) →
    (getOverallHealth checks).status = .unhealthy
  healthy : (getOverallHealth checks).status = .healthy → ∀ check ∈ checks, check.enabled →
    ∀ status, check.outcome.reported = some status → ¬status.Failing

/-- Every dict that an enabled check returned says `unknown`. -/
def DictsUnknown (checks : List HealthCheck) : Prop :=
  ∀ check ∈ checks, check.enabled → check.outcome.isDict → check.outcome.reported = some .unknown

/-- A dict with the value of a status is taken for unknown, so all is well only
where it says so. -/
theorem aggregates_iff {checks : List HealthCheck} (hnames : (checks.map (·.name)).Nodup)
    (hreports : ∀ check ∈ checks, check.outcome.reported ≠ none) :
    Aggregates checks ↔ DictsUnknown checks := by
  constructor
  · intro h check hcheck henabled hdict
    obtain ⟨status, hreported⟩ := Option.ne_none_iff_exists'.mp (hreports check hcheck)
    have hunknown := runHealthCheck_status henabled hreported
    rw [h.reported check hcheck henabled hdict, hunknown, if_pos hdict]
  · intro h
    have hstatus : ∀ check ∈ checks, check.enabled → ∀ status, check.outcome.reported = some status →
        (runHealthCheck check).status = status := by
      intro check hcheck henabled status hreported
      rw [runHealthCheck_status henabled hreported]
      split
      · rename_i hdict
        exact Option.some.inj ((h check hcheck henabled hdict).symm.trans hreported)
      · rfl
    refine ⟨fun check hcheck henabled hdict => ?_, ?_, ?_⟩
    · have hreported := h check hcheck henabled hdict
      rw [hstatus check hcheck henabled _ hreported, hreported]
    · rintro ⟨check, hcheck, henabled, hcritical, status, hreported, hfailing⟩
      refine (overall_unhealthy_iff hnames).mpr ⟨check, hcheck, hcritical, henabled, ?_⟩
      rwa [hstatus check hcheck henabled status hreported]
    · intro hhealthy check hcheck henabled status hreported
      rw [← hstatus check hcheck henabled status hreported]
      exact (overall_healthy_iff hnames).mp hhealthy check hcheck henabled

def databaseDown : HealthCheck where
  name := "database"
  component := "infrastructure"
  outcome := .returned (.dict (some "unhealthy") (some "Database connection failed") none)

def redisRaised : HealthCheck where
  name := "redis"
  component := "infrastructure"
  outcome := .raised (.validation "no connection")

def feedSlow : HealthCheck where
  name := "market_feed"
  component := "services"
  outcome := .timedOut
  critical := false

theorem aggregates_iff_three : Aggregates [databaseDown, redisRaised, feedSlow] ↔
    DictsUnknown [databaseDown, redisRaised, feedSlow] :=
  aggregates_iff (by decide) (by decide +kernel)

/-- A critical check that reports a failure in a dict, and a healthy system. -/
theorem healthy_while_databaseDown :
    databaseDown.critical ∧ databaseDown.outcome.reported = some .unhealthy ∧
      (runHealthCheck databaseDown).status = .unknown ∧
      (getOverallHealth [databaseDown]).status = .healthy := by
  decide +kernel

end AlphaPanda.Health
