import AlphaPanda.Health.HealthChecker
import AlphaPanda.Lib.Confined
import AlphaPanda.Lib.Oracle
import AlphaPanda.Monitoring.Alerting

/-!
# The periodic health check and its alerts

`_periodic_health_check` and `_send_health_alerts`. The alert about a component
names a variable that does not exist, so that the only alert that is ever sent
is the one about the system as a whole, which comes first.
-/

namespace AlphaPanda.Health

open Coroutine
open Monitoring (Alert AlertManager Sending)

-- ---------------------------------------------------------------------------
-- The task
-- ---------------------------------------------------------------------------

inductive HealthOp where
  | sleep
  | checks
  | sendAlert (alert : Alert)

abbrev HealthTask := Prog Unit HealthOp Fault

structure Round where
  checks : List HealthCheck
  now : ℤ

def Round.health (round : Round) : OverallHealth := getOverallHealth round.checks

def systemAlert (activeBrokers : List String) (now : ℤ) : Alert where
  title := "System Health Check Failed"
  severity := .critical
  category := .system
  component := "health_checker"
  brokerNamespace := ",".intercalate activeBrokers
  timestamp := now

/-- The alert for a result is not made: its `broker_namespace` is `broker`. -/
def alertOn (checkName : String) (result : HealthResult) : HealthTask Unit :=
  let undefined : Fault := .raised ⟨"NameError", "name 'broker' is not defined", .builtin⟩
  if result.status = .unhealthy then throw undefined
  else if checkName = "zerodha_authentication" ∧ result.status ≠ .healthy then throw undefined
  else pure ()

def alertOnSystem (activeBrokers : List String) (round : Round) : HealthTask Unit :=
  if round.health.status = .unhealthy then
    Prog.perform (.sendAlert (systemAlert activeBrokers round.now))
  else pure ()

def sendHealthAlerts (activeBrokers : List String) (round : Round) : HealthTask Unit := do
  alertOnSystem activeBrokers round
  Prog.each (fun check => alertOn check.1 check.2) round.health.checks.entries

def checkRound (activeBrokers : List String) (round : Round) : HealthTask Unit := do
  Prog.perform .sleep
  Prog.perform .checks
  if round.health.status = .healthy then pure () else sendHealthAlerts activeBrokers round

/-- `_periodic_health_check`, for as many rounds as there are before `stop`. -/
def periodicHealthCheck (activeBrokers : List String) : List Round → HealthTask Unit
  | [] => pure ()
  | round :: rounds => do
    let goOn ← tryCatch (do checkRound activeBrokers round; pure true) fun
      | .cancelled => pure false
      | .raised _ => pure true
    if goOn then periodicHealthCheck activeBrokers rounds else pure ()

def HealthOp.alert : HealthOp → Option Alert
  | .sendAlert alert => some alert
  | _ => none

def alertsSent (activeBrokers : List String) (rounds : List Round) (answers : List (Option Fault)) :
    List Alert :=
  ((periodicHealthCheck activeBrokers rounds).exec answers (World.start ())).world.log.filterMap
    fun c => c.1.alert

-- ---------------------------------------------------------------------------
-- When there is an alert
-- ---------------------------------------------------------------------------

/-- An outcome that counts as a failure. The name of a status in a dict is
looked up as if it were its value, and raises. -/
def Outcome.fails : Outcome → Bool
  | .returned (.bool b) => !b
  | .returned (.dict status _ _) => status.getD "unknown" ∈ HealthStatus.members
  | .returned (.other v) => !v.truthy
  | .raised _ | .timedOut => true

theorem ofValue_member (h : text ∈ HealthStatus.members) : ∃ e, HealthStatus.ofValue text = .error e := by
  cases hvalue : HealthStatus.ofValue text with
  | error e => exact ⟨e, rfl⟩
  | ok status =>
    obtain rfl := HealthStatus.ofValue_ok.mp hvalue
    exact absurd h (HealthStatus.value_not_member status)

theorem failing_ofTruth (b : Bool) : (ofTruth b).Failing ↔ b = false := by
  cases b <;> decide

theorem failing_iff {check : HealthCheck} (henabled : check.enabled) :
    (runHealthCheck check).status.Failing ↔ check.outcome.fails := by
  unfold runHealthCheck
  rw [henabled]
  rcases check.outcome with (b | ⟨status, message, details⟩ | v) | e | _
  · simpa [Outcome.fails, interpret] using failing_ofTruth b
  · simp only [Outcome.fails, interpret, decide_eq_true_eq]
    by_cases hmember : status.getD "unknown" ∈ HealthStatus.members
    · obtain ⟨e, he⟩ := ofValue_member hmember
      simp [hmember, he, bind, Except.bind, HealthCheck.failed, HealthStatus.Failing]
    · simp [hmember, bind, Except.bind, pure, Except.pure, HealthStatus.Failing]
  · simpa [Outcome.fails, interpret] using failing_ofTruth v.truthy
  · simp [Outcome.fails, HealthCheck.failed, HealthStatus.Failing]
  · simp [Outcome.fails, HealthStatus.Failing]

def Round.Broken (round : Round) : Prop :=
  ∃ check ∈ round.checks, check.critical ∧ check.enabled ∧ check.outcome.fails

instance (round : Round) : Decidable round.Broken := List.decidableBEx _ _

theorem unhealthy_iff {round : Round} (hnames : (round.checks.map (·.name)).Nodup) :
    round.health.status = .unhealthy ↔ round.Broken := by
  rw [Round.health, overall_unhealthy_iff hnames]
  refine exists_congr fun check => and_congr_right fun _ => and_congr_right fun _ => ?_
  exact and_congr_right fun henabled => failing_iff henabled

/-- The alerts of the rounds in which a critical check failed. -/
def expectedAlerts (activeBrokers : List String) (rounds : List Round) : List Alert :=
  (rounds.filter fun round => round.Broken).map fun round => systemAlert activeBrokers round.now

section
variable {activeBrokers : List String}

theorem expectedAlerts_cons (round : Round) (rounds : List Round) :
    expectedAlerts activeBrokers (round :: rounds) =
      expectedAlerts activeBrokers [round] ++ expectedAlerts activeBrokers rounds := by
  rw [expectedAlerts, ← List.singleton_append, List.filter_append, List.map_append]
  rfl

theorem alertOn_follows (checkName : String) (result : HealthResult) :
    (alertOn checkName result).Follows HealthOp.alert [] := by
  unfold alertOn
  split
  · exact follows_throw
  split
  · exact follows_throw
  · exact follows_pure

theorem each_follows (checks : List (String × HealthResult)) :
    (Prog.each (fun check => alertOn check.1 check.2) checks).Follows HealthOp.alert [] := by
  induction checks with
  | nil => exact follows_pure
  | cons check checks ih => exact follows_bind (l := []) (alertOn_follows _ _) fun _ => ih

theorem alertOnSystem_follows {round : Round} (hnames : (round.checks.map (·.name)).Nodup) :
    (alertOnSystem activeBrokers round).Follows HealthOp.alert (expectedAlerts activeBrokers [round]) := by
  unfold alertOnSystem expectedAlerts
  split
  · rename_i hunhealthy
    rw [List.filter_cons_of_pos (by simpa using (unhealthy_iff hnames).mp hunhealthy)]
    exact follows_perform
  · exact follows_pure

theorem checkRound_follows {round : Round} (hnames : (round.checks.map (·.name)).Nodup) :
    (checkRound activeBrokers round).Follows HealthOp.alert (expectedAlerts activeBrokers [round]) := by
  refine follows_bind (l := []) follows_perform fun _ => follows_bind (l := []) follows_perform fun _ => ?_
  split
  · exact follows_pure
  · refine Prog.Follows.mono (follows_bind (alertOnSystem_follows hnames) fun _ => each_follows _) ?_
    rw [List.append_nil]
    exact List.Sublist.refl _

theorem periodicHealthCheck_follows {rounds : List Round}
    (hnames : ∀ round ∈ rounds, (round.checks.map (·.name)).Nodup) :
    (periodicHealthCheck activeBrokers rounds).Follows HealthOp.alert
      (expectedAlerts activeBrokers rounds) := by
  induction rounds with
  | nil => exact follows_pure
  | cons round rounds ih =>
    obtain ⟨hround, hrounds⟩ := List.forall_mem_cons.mp hnames
    rw [expectedAlerts_cons]
    have htried := follows_bind (@checkRound_follows activeBrokers _ hround) fun _ =>
      follows_pure (l := []) (a := true)
    refine Prog.Follows.mono (follows_bind (follows_tryCatch (m := []) htried ?_) fun goOn => ?_)
      (List.Sublist.append_right (by simp) _)
    · rintro (e | _)
      · exact follows_pure
      · exact follows_pure
    · split
      · exact ih hrounds
      · exact follows_pure

theorem alertsSent_sublist {rounds : List Round}
    (hnames : ∀ round ∈ rounds, (round.checks.map (·.name)).Nodup) (answers : List (Option Fault)) :
    (alertsSent activeBrokers rounds answers).Sublist (expectedAlerts activeBrokers rounds) := by
  obtain ⟨new, hnew, hsublist⟩ :=
    (@periodicHealthCheck_follows activeBrokers _ hnames).exec answers (World.start ())
  rwa [alertsSent, hnew]

-- ---------------------------------------------------------------------------
-- Where nothing else fails
-- ---------------------------------------------------------------------------

theorem each_exec (checks : List (String × HealthResult)) (w : World Unit HealthOp Fault) :
    ∃ result, (Prog.each (fun check => alertOn check.1 check.2) checks).exec [] w = ⟨result, w, []⟩ ∧
      result ≠ .error .cancelled := by
  induction checks with
  | nil => exact ⟨.ok (), rfl, by simp⟩
  | cons check checks ih =>
    rw [Prog.each, exec_bind]
    unfold alertOn
    split
    · exact ⟨_, rfl, by simp⟩
    split
    · exact ⟨_, rfl, by simp⟩
    · exact ih

theorem expectedAlerts_singleton {round : Round} (hnames : (round.checks.map (·.name)).Nodup) :
    expectedAlerts activeBrokers [round] =
      if round.health.status = .unhealthy then [systemAlert activeBrokers round.now] else [] := by
  simp only [expectedAlerts, unhealthy_iff hnames, List.filter_cons, List.filter_nil, decide_eq_true_eq]
  split <;> rfl

theorem checkRound_exec {round : Round} (hnames : (round.checks.map (·.name)).Nodup)
    (w : World Unit HealthOp Fault) :
    ∃ result calls, (checkRound activeBrokers round).exec [] w = ⟨result, ⟨(), w.log ++ calls⟩, []⟩ ∧
      result ≠ .error .cancelled ∧
      (calls.filterMap fun c => c.1.alert) = expectedAlerts activeBrokers [round] := by
  rw [expectedAlerts_singleton hnames]
  simp only [checkRound, exec_bind, exec_perform_nil, Outcome.andThen_ok, World.record]
  split
  · rename_i hhealthy
    refine ⟨.ok (), [(.sleep, none), (.checks, none)], ?_, by simp, ?_⟩
    · simp
    · simp [hhealthy, HealthOp.alert]
  · simp only [sendHealthAlerts, alertOnSystem, exec_bind]
    split
    · obtain ⟨result, hresult, hgoes⟩ := each_exec round.health.checks.entries
        ⟨(), w.log ++ [(.sleep, none)] ++ [(.checks, none)] ++
          [(.sendAlert (systemAlert activeBrokers round.now), none)]⟩
      refine ⟨result, [(.sleep, none), (.checks, none),
        (.sendAlert (systemAlert activeBrokers round.now), none)], ?_, hgoes, by simp [HealthOp.alert]⟩
      simpa [World.record] using hresult
    · obtain ⟨result, hresult, hgoes⟩ := each_exec round.health.checks.entries
        ⟨(), w.log ++ [(.sleep, none)] ++ [(.checks, none)]⟩
      refine ⟨result, [(.sleep, none), (.checks, none)], ?_, hgoes, by simp [HealthOp.alert]⟩
      simpa using hresult

theorem periodicHealthCheck_exec {rounds : List Round}
    (hnames : ∀ round ∈ rounds, (round.checks.map (·.name)).Nodup) (w : World Unit HealthOp Fault) :
    ∃ calls, ((periodicHealthCheck activeBrokers rounds).exec [] w).world.log = w.log ++ calls ∧
      (calls.filterMap fun c => c.1.alert) = expectedAlerts activeBrokers rounds := by
  induction rounds generalizing w with
  | nil => exact ⟨[], (List.append_nil _).symm, rfl⟩
  | cons round rounds ih =>
    obtain ⟨hround, hrounds⟩ := List.forall_mem_cons.mp hnames
    obtain ⟨result, first, hexec, hgoes, hfirst⟩ := @checkRound_exec activeBrokers _ hround w
    obtain ⟨rest, hlog, hrest⟩ := ih hrounds ⟨(), w.log ++ first⟩
    refine ⟨first ++ rest, ?_, ?_⟩
    · have hwhole : w.log ++ (first ++ rest) = (w.log ++ first) ++ rest := (List.append_assoc ..).symm
      rw [hwhole, ← hlog, periodicHealthCheck, exec_bind, exec_tryCatch, exec_bind, hexec]
      rcases result with (e | _) | _
      · rfl
      · exact absurd rfl hgoes
      · rfl
    · rw [List.filterMap_append, hfirst, hrest, ← expectedAlerts_cons]

/-- A critical check that fails is reported, unless an await raises. -/
theorem alertsSent_eq {rounds : List Round} (hnames : ∀ round ∈ rounds, (round.checks.map (·.name)).Nodup)
    {answers : List (Option Fault)}
    (hquiet : ∀ c ∈ ((periodicHealthCheck activeBrokers rounds).exec answers (World.start ())).world.log,
      c.2 = none) :
    alertsSent activeBrokers rounds answers = expectedAlerts activeBrokers rounds := by
  obtain ⟨calls, hlog, hcalls⟩ :=
    @periodicHealthCheck_exec activeBrokers _ hnames (World.start ())
  rw [alertsSent, ← exec_quiet _ _ _ hquiet, hlog]
  exact hcalls

end

def systemKey : String := "health_checker:system:System Health Check Failed"

theorem systemAlert_key (activeBrokers : List String) (now : ℤ) :
    (systemAlert activeBrokers now).suppressionKey = systemKey := rfl

/-- The checker alerts on the system in the rounds in which a critical check
failed, and on nothing else: no component and no login is ever named. Whatever
else is sent through the manager under other keys, such an alert is suppressed
only for another one that was delivered less than an hour before. -/
theorem only_system_alerts (activeBrokers : List String) {rounds : List Round}
    (hnames : ∀ round ∈ rounds, (round.checks.map (·.name)).Nodup) (answers : List (Option Fault))
    (m : AlertManager) {xs : List Sending}
    (hown : (xs.map (·.alert)).filter (·.suppressionKey = systemKey) =
      alertsSent activeBrokers rounds answers) :
    (alertsSent activeBrokers rounds answers).Sublist (expectedAlerts activeBrokers rounds) ∧
    ((∀ c ∈ ((periodicHealthCheck activeBrokers rounds).exec answers (World.start ())).world.log,
        c.2 = none) → alertsSent activeBrokers rounds answers = expectedAlerts activeBrokers rounds) ∧
    ∀ before a, before ++ [(a, .suppressed)] <+: (m.run xs).1 →
      a ∈ alertsSent activeBrokers rounds answers →
        ∃ b ∈ alertsSent activeBrokers rounds answers,
          (b, .sent) ∈ before ∧ a.timestamp - b.timestamp < 60 * Monitoring.minute := by
  have hsublist := @alertsSent_sublist activeBrokers _ hnames answers
  refine ⟨hsublist, fun hquiet => alertsSent_eq hnames hquiet, fun before a htrace ha => ?_⟩
  obtain ⟨round, -, rfl⟩ := List.mem_map.mp (hsublist.subset ha)
  obtain ⟨b, hlast, hwithin⟩ := Monitoring.suppressed_after m xs htrace
  obtain ⟨hsent, hkey⟩ := Monitoring.mem_of_lastDelivered hlast
  have hgiven : b ∈ xs.map (·.alert) := by
    rw [← Monitoring.alerts_run m xs]
    have hrun : (b, .sent) ∈ (m.run xs).1 := htrace.subset (List.mem_append_left _ hsent)
    exact List.mem_map_of_mem hrun
  refine ⟨b, ?_, hsent, hwithin⟩
  rw [← hown]
  exact List.mem_filter.mpr ⟨hgiven, decide_eq_true hkey⟩

def databaseRaised : HealthCheck := { databaseDown with outcome := .raised (.validation "no connection") }

def databaseLost (now : ℤ) : Round := ⟨[databaseRaised], now⟩

def tenMinutes : List Round := [databaseLost 0, databaseLost (10 * Monitoring.minute)]

theorem tenMinutes_alerts :
    (alertsSent ["paper"] tenMinutes []).Sublist (expectedAlerts ["paper"] tenMinutes) ∧
    ((∀ c ∈ ((periodicHealthCheck ["paper"] tenMinutes).exec [] (World.start ())).world.log,
        c.2 = none) → alertsSent ["paper"] tenMinutes [] = expectedAlerts ["paper"] tenMinutes) ∧
    ∀ before a, before ++ [(a, .suppressed)] <+: (({} : AlertManager).run
        [⟨systemAlert ["paper"] 0, [.ok true]⟩,
          ⟨systemAlert ["paper"] (10 * Monitoring.minute), [.ok true]⟩]).1 →
      a ∈ alertsSent ["paper"] tenMinutes [] →
        ∃ b ∈ alertsSent ["paper"] tenMinutes [],
          (b, .sent) ∈ before ∧ a.timestamp - b.timestamp < 60 * Monitoring.minute :=
  only_system_alerts ["paper"] (by decide) [] {} (by decide +kernel)

end AlphaPanda.Health
