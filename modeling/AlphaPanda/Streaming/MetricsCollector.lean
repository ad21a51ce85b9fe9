import AlphaPanda.Lib.Deque
import AlphaPanda.Lib.Dict
import Mathlib.Algebra.Order.Field.Rat
import Mathlib.Data.List.Induction
import Mathlib.Tactic.Linarith

/-!
# The metrics of a reliability layer

`MetricsCollector`: its counters go back to the last reset, while the health
status speaks of the last 50 messages. A rate is the exact quotient; with at
most 50 messages no quotient lies near a threshold that it is not equal to.
-/

namespace AlphaPanda.Streaming

inductive HealthStatus where
  | starting
  | healthy
  | warning
  | degraded
  | critical
  deriving DecidableEq, Repr

/-- Times are in microseconds, durations in seconds. -/
structure MetricsCollector (windowSize : ℕ) where
  successCount : ℕ := 0
  failureCount : ℕ := 0
  totalMessages : ℕ := 0
  processingDurations : Deque ℚ windowSize := .empty
  totalProcessingTime : ℚ := 0
  errorCounts : Dict String ℕ := .empty
  lastErrorTime : Option ℤ := none
  messageTimestamps : Deque ℤ windowSize := .empty
  healthStatus : HealthStatus := .healthy

namespace MetricsCollector

def classify (recentFailures recentWindow : ℕ) : HealthStatus :=
  let recentErrorRate : ℚ := recentFailures / recentWindow
  if 1 / 2 < recentErrorRate then .critical
  else if 1 / 10 < recentErrorRate then .degraded
  else if 1 / 20 < recentErrorRate then .warning
  else .healthy

def updateHealthStatus (m : MetricsCollector w) : MetricsCollector w :=
  { m with healthStatus :=
      if m.totalMessages = 0 then .starting
      else
        let recentWindow := min 50 m.totalMessages
        classify (min m.failureCount recentWindow) recentWindow }

def recordSuccess (m : MetricsCollector w) (now : ℤ) (processingDuration : ℚ) : MetricsCollector w :=
  updateHealthStatus { m with
    successCount := m.successCount + 1
    totalMessages := m.totalMessages + 1
    totalProcessingTime := m.totalProcessingTime + processingDuration
    processingDurations := m.processingDurations.append processingDuration
    messageTimestamps := m.messageTimestamps.append now }

def errorKey (errorType : String) : Option String → String
  | none | some "" => errorType
  | some brokerContext => s!"{brokerContext}:{errorType}"

def recordFailure (m : MetricsCollector w) (now : ℤ) (errorType : String)
    (brokerContext : Option String) : MetricsCollector w :=
  let key := errorKey errorType brokerContext
  updateHealthStatus { m with
    failureCount := m.failureCount + 1
    totalMessages := m.totalMessages + 1
    errorCounts := m.errorCounts.set key ((m.errorCounts.get? key).getD 0 + 1)
    lastErrorTime := some now
    messageTimestamps := m.messageTimestamps.append now }

def resetMetrics (_ : MetricsCollector w) : MetricsCollector w := {}

def getHealthStatus (m : MetricsCollector w) : HealthStatus := m.updateHealthStatus.healthStatus

-- ---------------------------------------------------------------------------
-- Histories
-- ---------------------------------------------------------------------------

inductive Recording where
  | success (now : ℤ) (processingDuration : ℚ)
  | failure (now : ℤ) (errorType : String) (brokerContext : Option String)
  | reset

def record (m : MetricsCollector w) : Recording → MetricsCollector w
  | .success now processingDuration => m.recordSuccess now processingDuration
  | .failure now errorType brokerContext => m.recordFailure now errorType brokerContext
  | .reset => m.resetMetrics

def run (recordings : List Recording) : MetricsCollector w := recordings.foldl record {}

inductive Ending where
  | success
  | failure
  deriving DecidableEq, Repr

def extend (endings : List Ending) : Recording → List Ending
  | .success .. => endings ++ [.success]
  | .failure .. => endings ++ [.failure]
  | .reset => []

/-- How the messages since the last reset ended, oldest first. -/
def endings (recordings : List Recording) : List Ending := recordings.foldl extend []

def failures (endings : List Ending) : ℕ := endings.count .failure

def recent (endings : List Ending) : List Ending := endings.rtake 50

def documented (endings : List Ending) : HealthStatus :=
  classify (failures (recent endings)) (min 50 endings.length)

/-- The failures of the session, of which at most 50 are counted, lie in the
same band as those of the last 50 messages. -/
def SameBand (session latest : ℕ) : Prop :=
  session ≤ 2 ∨ (3 ≤ latest ∧ session ≤ 5) ∨ (6 ≤ latest ∧ session ≤ 25) ∨ 26 ≤ latest

structure Counts (m : MetricsCollector w) (endings : List Ending) : Prop where
  success : m.successCount = endings.count .success
  failure : m.failureCount = failures endings
  total : m.totalMessages = endings.length

theorem counts_step {m : MetricsCollector w} (h : m.Counts l) (r : Recording) :
    (m.record r).Counts (extend l r) := by
  cases r with
  | success now duration =>
    refine ⟨?_, ?_, ?_⟩
    · simp [record, recordSuccess, updateHealthStatus, extend, h.success]
    · simp [record, recordSuccess, updateHealthStatus, extend, failures, h.failure]
    · simp [record, recordSuccess, updateHealthStatus, extend, h.total]
  | failure now errorType brokerContext =>
    refine ⟨?_, ?_, ?_⟩
    · simp [record, recordFailure, updateHealthStatus, extend, h.success]
    · simp [record, recordFailure, updateHealthStatus, extend, failures, h.failure]
    · simp [record, recordFailure, updateHealthStatus, extend, h.total]
  | reset => exact ⟨rfl, rfl, rfl⟩

theorem run_counts (recordings : List Recording) :
    (run recordings : MetricsCollector w).Counts (endings recordings) := by
  induction recordings using List.reverseRecOn with
  | nil => exact ⟨rfl, rfl, rfl⟩
  | append_singleton recordings r ih =>
    rw [run, endings, List.foldl_append, List.foldl_append]
    exact counts_step ih r

theorem threshold_lt {q : ℚ} {k : ℕ} (hlow : k ≤ q * 50) (hhigh : q * 50 < k + 1) (n : ℕ) :
    q < n / 50 ↔ k + 1 ≤ n := by
  rw [lt_div_iff₀ (by norm_num)]
  constructor
  · intro h
    exact_mod_cast hlow.trans_lt h
  · intro h
    have hcast : (k : ℚ) + 1 ≤ n := by exact_mod_cast h
    exact hhigh.trans_le hcast

theorem classify_fifty (n : ℕ) :
    classify n 50 =
      if 26 ≤ n then .critical else if 6 ≤ n then .degraded else if 3 ≤ n then .warning else .healthy := by
  have hcritical : (1 / 2 : ℚ) < n / 50 ↔ 26 ≤ n :=
    threshold_lt (by norm_num) (by norm_num) n
  have hdegraded : (1 / 10 : ℚ) < n / 50 ↔ 6 ≤ n :=
    threshold_lt (by norm_num) (by norm_num) n
  have hwarning : (1 / 20 : ℚ) < n / 50 ↔ 3 ≤ n :=
    threshold_lt (by norm_num) (by norm_num) n
  simp only [classify, Nat.cast_ofNat, hcritical, hdegraded, hwarning]

theorem classify_eq_iff {session latest : ℕ} (h : latest ≤ session) :
    classify (min session 50) 50 = classify latest 50 ↔ SameBand session latest := by
  rw [classify_fifty, classify_fifty, SameBand]
  grind

theorem failures_recent_le (l : List Ending) : failures (recent l) ≤ failures l :=
  List.Sublist.count_le _ (List.drop_sublist _ l)

theorem failures_le_length (l : List Ending) : failures l ≤ l.length := List.count_le_length

theorem recent_of_length_le (h : l.length ≤ 50) : recent l = l := by
  rw [recent, List.rtake, Nat.sub_eq_zero_of_le h, List.drop_zero]

theorem Counts.getHealthStatus {m : MetricsCollector w} (h : m.Counts l) (hne : l ≠ []) :
    m.getHealthStatus = classify (min (failures l) (min 50 l.length)) (min 50 l.length) := by
  have hlength : l.length ≠ 0 := fun hzero => hne (List.eq_nil_of_length_eq_zero hzero)
  simp only [MetricsCollector.getHealthStatus, updateHealthStatus, h.total, h.failure, if_neg hlength]

/-- The status is the documented one as long as the session is no longer than
the window, and after that while the failures of the session count as many as
those of the window. -/
theorem getHealthStatus_iff (recordings : List Recording) (hne : endings recordings ≠ []) :
    (run recordings : MetricsCollector w).getHealthStatus = documented (endings recordings) ↔
      (endings recordings).length ≤ 50 ∨
        SameBand (failures (endings recordings)) (failures (recent (endings recordings))) := by
  rw [(run_counts recordings).getHealthStatus hne, documented]
  generalize endings recordings = l
  by_cases hlength : l.length ≤ 50
  · refine iff_of_true ?_ (.inl hlength)
    rw [recent_of_length_le hlength, Nat.min_eq_right hlength,
      Nat.min_eq_left (failures_le_length l)]
  · rw [Nat.min_eq_left (Nat.le_of_not_le hlength), or_iff_right hlength]
    exact classify_eq_iff (failures_recent_le l)

def recovering : List Recording :=
  List.replicate 26 (.failure 0 "ValueError" none) ++ List.replicate 50 (.success 0 1)

theorem getHealthStatus_iff_recovering :
    (run recovering : MetricsCollector 100).getHealthStatus = documented (endings recovering) ↔
      (endings recovering).length ≤ 50 ∨
        SameBand (failures (endings recovering)) (failures (recent (endings recovering))) :=
  getHealthStatus_iff recovering (by decide +kernel)

theorem critical_while_recovering :
    endings recovering ≠ [] ∧ documented (endings recovering) = .healthy ∧
      (run recovering : MetricsCollector 100).getHealthStatus = .critical := by
  decide +kernel

theorem classify_critical (h : w < 2 * n) (hw : 0 < w) : classify n w = .critical := by
  have hcast : (w : ℚ) < 2 * n := by exact_mod_cast h
  have hpos : (0 : ℚ) < w := by exact_mod_cast hw
  have hrate : (1 / 2 : ℚ) < n / w := by
    rw [lt_div_iff₀ hpos]
    linarith
  simp only [classify, hrate, if_true]

/-- After 26 failures the status is critical until the next reset, whatever follows. -/
theorem critical_of_failures {recordings : List Recording} (h : 26 ≤ failures (endings recordings)) :
    (run recordings : MetricsCollector w).getHealthStatus = .critical := by
  have hlength := failures_le_length (endings recordings)
  have hne : endings recordings ≠ [] := by
    intro hnil
    simp [hnil, failures] at h
  rw [(run_counts recordings).getHealthStatus hne]
  exact classify_critical (by omega) (by omega)

end MetricsCollector

end AlphaPanda.Streaming
