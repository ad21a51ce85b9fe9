import AlphaPanda.Exceptions
import AlphaPanda.Lib.Deque
import AlphaPanda.Lib.Dict
import Mathlib.Data.List.Induction
import Mathlib.Tactic.Linarith

/-!
# Alerting

`AlertManager.send_alert_object` and the suppression of similar alerts. An
alert is suppressed for what was delivered under its key, which names neither
the broker nor the severity.
-/

namespace AlphaPanda.Monitoring

-- ---------------------------------------------------------------------------
-- Alerts and channels
-- ---------------------------------------------------------------------------

inductive AlertSeverity where
  | critical
  | high
  | medium
  | low
  | info
  deriving DecidableEq, Repr

def AlertSeverity.order : AlertSeverity → ℕ
  | .info => 0
  | .low => 1
  | .medium => 2
  | .high => 3
  | .critical => 4

inductive AlertCategory where
  | authentication
  | marketData
  | trading
  | system
  | pipeline
  | performance
  deriving DecidableEq, Repr

def AlertCategory.value : AlertCategory → String
  | .authentication => "authentication"
  | .marketData => "market_data"
  | .trading => "trading"
  | .system => "system"
  | .pipeline => "pipeline"
  | .performance => "performance"

/-- A time is a number of microseconds. -/
structure Alert where
  title : String
  severity : AlertSeverity
  category : AlertCategory
  component : String
  brokerNamespace : String := "unknown"
  timestamp : ℤ
  suppressDurationMinutes : ℤ := 60
  deriving DecidableEq

structure AlertChannel where
  supportsSeverity : AlertSeverity → Bool

def LoggingChannel : AlertChannel := ⟨fun _ => true⟩

def EmailChannel : AlertChannel := ⟨fun severity => AlertSeverity.medium.order ≤ severity.order⟩

def SlackChannel : AlertChannel := ⟨fun _ => true⟩

def PagerDutyChannel : AlertChannel := ⟨fun severity => severity = .critical⟩

structure AlertManager where
  channels : List AlertChannel := [LoggingChannel]

structure AlertingSettings where
  email : Bool := false
  slack : Bool := false
  pagerduty : Bool := false

def configureAlerting (settings : AlertingSettings) : AlertManager where
  channels := LoggingChannel :: ((if settings.email then [EmailChannel] else []) ++
    (if settings.slack then [SlackChannel] else []) ++
    if settings.pagerduty then [PagerDutyChannel] else [])

theorem configureAlerting_supports (settings : AlertingSettings) (severity : AlertSeverity) :
    ∃ c ∈ (configureAlerting settings).channels, c.supportsSeverity severity :=
  ⟨LoggingChannel, List.mem_cons_self, rfl⟩

structure State where
  alertHistory : List Alert := []
  suppressedAlerts : Dict String ℤ := .empty
  alertsSent : ℕ := 0
  alertsSuppressed : ℕ := 0
  alertsFailed : ℕ := 0
  lastAlertTime : Option ℤ := none

inductive Outcome where
  | suppressed
  | sent
  | failed
  deriving DecidableEq, Repr

def Alert.suppressionKey (a : Alert) : String := s!"{a.component}:{a.category.value}:{a.title}"

def minute : ℤ := 60000000

def isSuppressed (s : State) (a : Alert) : Bool :=
  match s.suppressedAlerts.get? a.suppressionKey with
  | some lastAlertTime => a.timestamp - lastAlertTime < a.suppressDurationMinutes * minute
  | none => false

/-- An alert, and how each channel answers if it is asked. -/
structure Sending where
  alert : Alert
  answers : List (Except Exc Bool)

def AlertManager.successCount (m : AlertManager) (x : Sending) : ℕ :=
  (m.channels.zip x.answers).countP fun c =>
    c.1.supportsSeverity x.alert.severity && match c.2 with
      | .ok sent => sent
      | .error _ => false

def AlertManager.sendAlertObject (m : AlertManager) (s : State) (x : Sending) : Outcome × State :=
  if isSuppressed s x.alert then (.suppressed, { s with alertsSuppressed := s.alertsSuppressed + 1 })
  else if 0 < m.successCount x then
    (.sent, { s with
      alertsSent := s.alertsSent + 1
      lastAlertTime := some x.alert.timestamp
      alertHistory := (s.alertHistory ++ [x.alert]).rtake 1000
      suppressedAlerts := s.suppressedAlerts.set x.alert.suppressionKey x.alert.timestamp })
  else (.failed, { s with alertsFailed := s.alertsFailed + 1 })

-- ---------------------------------------------------------------------------
-- Runs
-- ---------------------------------------------------------------------------

/-- What became of the alerts so far, in their order. -/
abbrev Trace := List (Alert × Outcome)

def AlertManager.advance (m : AlertManager) (run : Trace × State) (x : Sending) : Trace × State :=
  let sent := m.sendAlertObject run.2 x
  (run.1 ++ [(x.alert, sent.1)], sent.2)

def AlertManager.run (m : AlertManager) (xs : List Sending) : Trace × State := xs.foldl m.advance ([], {})

def lastDelivered (key : String) (trace : Trace) : Option Alert :=
  ((trace.filter fun e => e.2 = .sent ∧ e.1.suppressionKey = key).map Prod.fst).getLast?

/-- `b` is less than the suppression of `a` before it. -/
def Within (b a : Alert) : Prop := a.timestamp - b.timestamp < a.suppressDurationMinutes * minute

/-- `b` says of the same what `a` says, and is as severe at least. -/
structure Covers (b a : Alert) : Prop where
  component : b.component = a.component
  category : b.category = a.category
  title : b.title = a.title
  broker : b.brokerNamespace = a.brokerNamespace
  severity : a.severity.order ≤ b.severity.order

/-- Every suppressed alert is covered by one delivered within its suppression. -/
def HidesNone (trace : Trace) : Prop :=
  ∀ before a, before ++ [(a, .suppressed)] <+: trace →
    ∃ b, (b, .sent) ∈ before ∧ b.timestamp ≤ a.timestamp ∧ Within b a ∧ Covers b a

/-- What was last delivered under an alert's key covers the alert, unless its
suppression is over. -/
def KeysCover (trace : Trace) : Prop :=
  ∀ before a outcome, before ++ [(a, outcome)] <+: trace →
    ∀ b, lastDelivered a.suppressionKey before = some b → Within b a → Covers b a

section
variable {m : AlertManager}

theorem run_concat (m : AlertManager) (xs : List Sending) (x : Sending) :
    m.run (xs ++ [x]) = m.advance (m.run xs) x := by
  simp [AlertManager.run]

theorem lastDelivered_concat (key : String) (trace : Trace) (a : Alert) (outcome : Outcome) :
    lastDelivered key (trace ++ [(a, outcome)]) =
      if outcome = .sent ∧ a.suppressionKey = key then some a else lastDelivered key trace := by
  unfold lastDelivered
  rw [List.filter_append]
  split <;> simp_all

theorem mem_of_lastDelivered (h : lastDelivered key trace = some b) :
    (b, .sent) ∈ trace ∧ b.suppressionKey = key := by
  obtain ⟨⟨b', outcome⟩, hmem, rfl⟩ := List.mem_map.mp (List.mem_of_getLast? h)
  obtain ⟨htrace, hsent⟩ := List.mem_filter.mp hmem
  simp only [decide_eq_true_eq] at hsent
  obtain ⟨rfl, hkey⟩ := hsent
  exact ⟨htrace, hkey⟩

def Tracks (run : Trace × State) : Prop :=
  ∀ key, run.2.suppressedAlerts.get? key = (lastDelivered key run.1).map (·.timestamp)

theorem tracks_advance (h : Tracks run) (x : Sending) : Tracks (m.advance run x) := by
  intro key
  simp only [AlertManager.advance, AlertManager.sendAlertObject, lastDelivered_concat]
  split
  · simpa using h key
  split
  · rw [Dict.get?_set]
    by_cases hkey : key = x.alert.suppressionKey
    · simp [hkey]
    · simpa [hkey, Ne.symm hkey] using h key
  · simpa using h key

theorem tracks_run (m : AlertManager) (xs : List Sending) : Tracks (m.run xs) := by
  induction xs using List.reverseRecOn with
  | nil => exact fun _ => rfl
  | append_singleton xs x ih =>
    rw [run_concat]
    exact tracks_advance ih x

theorem isSuppressed_iff (h : Tracks run) : isSuppressed run.2 a ↔
    ∃ b, lastDelivered a.suppressionKey run.1 = some b ∧ Within b a := by
  unfold isSuppressed Within
  rw [h]
  cases lastDelivered a.suppressionKey run.1 with
  | none => simp
  | some b => simp

theorem alerts_run (m : AlertManager) (xs : List Sending) :
    (m.run xs).1.map Prod.fst = xs.map (·.alert) := by
  induction xs using List.reverseRecOn with
  | nil => rfl
  | append_singleton xs x ih =>
    rw [run_concat, List.map_append, ← ih]
    simp [AlertManager.advance]

theorem keysCover_concat : KeysCover (trace ++ [(a, outcome)]) ↔ KeysCover trace ∧
    ∀ b, lastDelivered a.suppressionKey trace = some b → Within b a → Covers b a := by
  simp only [KeysCover, List.prefix_concat_iff]
  constructor
  · exact fun h => ⟨fun before a' o hbefore => h before a' o (.inr hbefore), h trace a outcome (.inl rfl)⟩
  · rintro ⟨htrace, hlast⟩ before a' o (heq | hbefore)
    · obtain ⟨rfl, hpair⟩ := List.append_inj' heq rfl
      cases hpair
      exact hlast
    · exact htrace before a' o hbefore

theorem hidesNone_concat : HidesNone (trace ++ [(a, outcome)]) ↔ HidesNone trace ∧ (outcome = .suppressed →
    ∃ b, (b, .sent) ∈ trace ∧ b.timestamp ≤ a.timestamp ∧ Within b a ∧ Covers b a) := by
  simp only [HidesNone, List.prefix_concat_iff]
  constructor
  · refine fun h => ⟨fun before a' hbefore => h before a' (.inr hbefore), ?_⟩
    rintro rfl
    exact h trace a (.inl rfl)
  · rintro ⟨htrace, hlast⟩ before a' (heq | hbefore)
    · obtain ⟨rfl, hpair⟩ := List.append_inj' heq rfl
      cases hpair
      exact hlast rfl
    · exact htrace before a' hbefore

theorem suppressed_of_outcome (h : (m.sendAlertObject s x).1 = .suppressed) : isSuppressed s x.alert := by
  unfold AlertManager.sendAlertObject at h
  split at h
  · assumption
  · split at h <;> cases h

theorem timestamp_le (m : AlertManager) (htimes : ((xs ++ [x]).map (·.alert.timestamp)).Pairwise (· ≤ ·))
    (h : (b, outcome) ∈ (m.run xs).1) : b.timestamp ≤ x.alert.timestamp := by
  rw [List.map_append, List.map_singleton, List.pairwise_append] at htimes
  have halert : b ∈ xs.map (·.alert) := alerts_run m xs ▸ List.mem_map_of_mem h
  obtain ⟨y, hy, rfl⟩ := List.mem_map.mp halert
  exact htimes.2.2 _ (List.mem_map_of_mem hy) _ (List.mem_singleton_self _)

theorem suppressed_after (m : AlertManager) (xs : List Sending)
    (h : before ++ [(a, .suppressed)] <+: (m.run xs).1) :
    ∃ b, lastDelivered a.suppressionKey before = some b ∧ Within b a := by
  induction xs using List.reverseRecOn with
  | nil => exact absurd h.length_le (by simp [AlertManager.run])
  | append_singleton xs x ih =>
    rw [run_concat, AlertManager.advance, List.prefix_concat_iff] at h
    rcases h with heq | hbefore
    · obtain ⟨rfl, hlast⟩ := List.append_inj' heq rfl
      obtain ⟨rfl, hsuppressed⟩ := Prod.mk.inj (List.singleton_inj.mp hlast)
      exact (isSuppressed_iff (tracks_run m xs)).mp (suppressed_of_outcome hsuppressed.symm)
    · exact ih hbefore

/-- In a run in which the last delivery under a key always covers what it
suppresses, no suppressed alert goes without a delivery that covers it. -/
theorem hides_none (m : AlertManager) (xs : List Sending)
    (htimes : (xs.map (·.alert.timestamp)).Pairwise (· ≤ ·)) (hcover : KeysCover (m.run xs).1) :
    HidesNone (m.run xs).1 := by
  induction xs using List.reverseRecOn with
  | nil => exact fun before a h => absurd h.length_le (by simp [AlertManager.run])
  | append_singleton xs x ih =>
    rw [run_concat] at hcover ⊢
    obtain ⟨hbefore, hx⟩ := keysCover_concat.mp hcover
    have hsorted := htimes
    rw [List.map_append, List.pairwise_append] at hsorted
    refine hidesNone_concat.mpr ⟨ih hsorted.1 hbefore, fun hsuppressed => ?_⟩
    obtain ⟨b, hb, hwithin⟩ :=
      (isSuppressed_iff (tracks_run m xs)).mp (suppressed_of_outcome hsuppressed)
    obtain ⟨hmem, -⟩ := mem_of_lastDelivered hb
    exact ⟨b, hmem, timestamp_le m htimes hmem, hwithin, hx b hb hwithin⟩

-- ---------------------------------------------------------------------------
-- Equal durations
-- ---------------------------------------------------------------------------

def Spaced (d : ℤ) (trace : Trace) : Prop :=
  ∀ c b, (c, .sent) ∈ trace → lastDelivered c.suppressionKey trace = some b →
    b = c ∨ c.timestamp + d * minute ≤ b.timestamp

theorem sent_not_suppressed (h : (m.sendAlertObject s x).1 = .sent) : ¬isSuppressed s x.alert := by
  unfold AlertManager.sendAlertObject at h
  split at h
  · cases h
  · assumption

theorem exists_lastDelivered (h : (c, .sent) ∈ trace) :
    ∃ b, lastDelivered c.suppressionKey trace = some b := by
  have hmem : c ∈ (trace.filter fun e => e.2 = .sent ∧ e.1.suppressionKey = c.suppressionKey).map Prod.fst :=
    List.mem_map.mpr ⟨_, List.mem_filter.mpr ⟨h, by simp⟩, rfl⟩
  exact ⟨_, List.getLast?_eq_some_getLast (List.ne_nil_of_mem hmem)⟩

theorem spaced_run (m : AlertManager) (xs : List Sending)
    (htimes : (xs.map (·.alert.timestamp)).Pairwise (· ≤ ·))
    (hequal : ∀ x ∈ xs, x.alert.suppressDurationMinutes = d) : Spaced d (m.run xs).1 := by
  induction xs using List.reverseRecOn with
  | nil => exact fun _ _ h => by cases h
  | append_singleton xs x ih =>
    have hsorted := htimes
    rw [List.map_append, List.pairwise_append] at hsorted
    have hspaced := ih hsorted.1 fun y hy => hequal y (List.mem_append_left _ hy)
    rw [run_concat]
    intro c b hc hb
    change (c, Outcome.sent) ∈ (m.run xs).1 ++ [(x.alert, _)] at hc
    change lastDelivered c.suppressionKey ((m.run xs).1 ++ [(x.alert, _)]) = some b at hb
    rw [lastDelivered_concat] at hb
    split at hb
    · rename_i hsent
      cases hb
      rcases List.mem_append.mp hc with hold | hnew
      · obtain ⟨last, hlast⟩ := exists_lastDelivered hold
        have hopen : ¬Within last x.alert := by
          intro hwithin
          refine sent_not_suppressed hsent.1 ((isSuppressed_iff (tracks_run m xs)).mpr ⟨last, ?_, hwithin⟩)
          rw [hsent.2]
          exact hlast
        rw [Within, hequal x (by simp)] at hopen
        have hle := timestamp_le m htimes (mem_of_lastDelivered hlast).1
        rcases hspaced c last hold hlast with rfl | hapart <;> right <;> linarith
      · exact .inl (congrArg Prod.fst (List.mem_singleton.mp hnew)).symm
    · rename_i hother
      rcases List.mem_append.mp hc with hold | hnew
      · exact hspaced c b hold hb
      · obtain ⟨rfl, houtcome⟩ := Prod.mk.inj (List.mem_singleton.mp hnew)
        exact absurd ⟨houtcome.symm, rfl⟩ hother

theorem Covers.key (h : Covers b a) : b.suppressionKey = a.suppressionKey := by
  rw [Alert.suppressionKey, h.component, h.category, h.title, ← Alert.suppressionKey]

/-- Where all alerts are suppressed for as long, this is also needed. -/
theorem keysCover_of_hidesNone (m : AlertManager) (xs : List Sending)
    (htimes : (xs.map (·.alert.timestamp)).Pairwise (· ≤ ·))
    (hequal : ∀ x ∈ xs, x.alert.suppressDurationMinutes = d) (h : HidesNone (m.run xs).1) :
    KeysCover (m.run xs).1 := by
  induction xs using List.reverseRecOn with
  | nil => exact fun before a o h => absurd h.length_le (by simp [AlertManager.run])
  | append_singleton xs x ih =>
    have hsorted := htimes
    rw [List.map_append, List.pairwise_append] at hsorted
    have hequal' : ∀ y ∈ xs, y.alert.suppressDurationMinutes = d :=
      fun y hy => hequal y (List.mem_append_left _ hy)
    rw [run_concat] at h ⊢
    obtain ⟨hbefore, hx⟩ := hidesNone_concat.mp h
    refine keysCover_concat.mpr ⟨ih hsorted.1 hequal' hbefore, fun b hb hwithin => ?_⟩
    have hsuppressed : isSuppressed (m.run xs).2 x.alert :=
      (isSuppressed_iff (tracks_run m xs)).mpr ⟨b, hb, hwithin⟩
    obtain ⟨c, hc, -, hwithin', hcovers⟩ := hx (by rw [AlertManager.sendAlertObject, if_pos hsuppressed])
    rcases spaced_run m xs hsorted.1 hequal' c b hc (hcovers.key ▸ hb) with rfl | hapart
    · exact hcovers
    · -- a delivery before the last one is out of the window
      have hle := timestamp_le m htimes (mem_of_lastDelivered hb).1
      rw [Within, hequal x (by simp)] at hwithin'
      linarith

end

def threshold (severity : AlertSeverity) (timestamp : ℤ) : Alert where
  title := "Metric Threshold Exceeded: error_rate"
  severity := severity
  category := .performance
  component := "market_feed"
  timestamp := timestamp

def delivered (severity : AlertSeverity) (timestamp : ℤ) : Sending :=
  ⟨threshold severity timestamp, [.ok true]⟩

theorem repeated_covered :
    HidesNone (({} : AlertManager).run [delivered .critical 0, delivered .high minute]).1 := by
  refine hides_none _ _ (by decide) ?_
  have hrun : (({} : AlertManager).run [delivered .critical 0, delivered .high minute]).1 =
      ([] ++ [(threshold .critical 0, .sent)]) ++ [(threshold .high minute, .suppressed)] := by
    decide +kernel
  rw [hrun, keysCover_concat, keysCover_concat]
  refine ⟨⟨fun before a o h => absurd h.length_le (by simp), fun b hb => by cases hb⟩, fun b hb _ => ?_⟩
  have hlast : lastDelivered (threshold .high minute).suppressionKey [(threshold .critical 0, .sent)] =
      some (threshold .critical 0) := by decide +kernel
  cases hlast.symm.trans hb
  exact ⟨rfl, rfl, rfl, rfl, by decide⟩

/-- A critical alert is hidden by the warning before it. -/
theorem escalation_hidden : ¬∀ (m : AlertManager) (xs : List Sending),
    (xs.map (·.alert.timestamp)).Pairwise (· ≤ ·) → HidesNone (m.run xs).1 := by
  intro h
  have hhides := h {} [delivered .high 0, delivered .critical minute] (by decide)
  have hrun : (({} : AlertManager).run [delivered .high 0, delivered .critical minute]).1 =
      [(threshold .high 0, .sent)] ++ [(threshold .critical minute, .suppressed)] := by decide +kernel
  rw [hrun] at hhides
  obtain ⟨b, hb, -, -, hcovers⟩ := hhides _ _ (List.prefix_refl _)
  cases List.mem_singleton.mp hb
  exact absurd hcovers.severity (by decide)

end AlphaPanda.Monitoring
