import AlphaPanda.Exceptions
import AlphaPanda.Lib.Interleave
import Mathlib.Algebra.Order.Ring.Rat
import Mathlib.Tactic.Linarith

/-!
# The circuit breaker

Any number of callers share one breaker, each suspended while its function
runs. The clock is one more task of the loop: it only moves forward.
-/

namespace AlphaPanda.Resilience

open Coroutine

structure CircuitBreaker where
  failureThreshold : ℤ := 5
  recoveryTimeout : ℤ := 60
  expectedException : Exc → Bool := fun _ => true

inductive CircuitState where
  | closed
  | opened
  | halfOpen
  deriving DecidableEq

/-- A start of a function: the state its call found, the last failure recorded
by then, and the clock. -/
structure Start where
  state : CircuitState
  lastFailure : Option ℚ
  clock : ℚ
  deriving DecidableEq

/-- The breaker, the clock, and a history: the times of the failures recorded
and the starts, the latest first. -/
structure State where
  failureCount : ℤ := 0
  lastFailureTime : Option ℚ := none
  state : CircuitState := .closed
  clock : ℚ
  failures : List ℚ := []
  started : List Start := []

inductive Func where
  | coroutine
  | plain (finished : ℚ) (raised : Option Exc)

inductive Op where
  | func
  deriving DecidableEq

abbrev Handler := Prog State Op Exc

def State.advance (s : State) (now : ℚ) : State := { s with clock := max s.clock now }

namespace CircuitBreaker

variable (b : CircuitBreaker)

def shouldAttemptReset (s : State) : Bool :=
  match s.lastFailureTime with
  | none => true
  | some t => decide (b.recoveryTimeout < s.clock - t)

def recordFailure (s : State) : State :=
  { s with
    failureCount := s.failureCount + 1
    lastFailureTime := some s.clock
    state := if b.failureThreshold ≤ s.failureCount + 1 then .opened else s.state
    failures := s.clock :: s.failures }

def reset (s : State) : State :=
  { s with failureCount := 0, lastFailureTime := none, state := .closed }

def checkRecovery : Handler Unit := do
  let s ← get
  if s.state = .opened then
    if b.shouldAttemptReset s then modify fun s => { s with state := .halfOpen }
    else throw ⟨"RuntimeError", "Circuit breaker is OPEN - failing fast", .builtin⟩
  else pure ()

def runFunc : Func → Handler Unit
  | .coroutine => Prog.perform .func
  | .plain finished raised => do
    modify (·.advance finished)
    match raised with
    | none => pure ()
    | some e => throw e

def succeed : Handler Unit :=
  modify fun s => if s.state = .halfOpen then reset s else s

def fail (e : Exc) : Handler Unit := do
  if b.expectedException e then modify b.recordFailure
  throw e

def call (f : Func) : Handler Unit := do
  let found ← get
  b.checkRecovery
  modify fun s => { s with started := ⟨found.state, s.failures.head?, s.clock⟩ :: s.started }
  tryCatch (do runFunc f; succeed) b.fail

end CircuitBreaker

inductive Event where
  | tick (now : ℚ)
  | call (caller : ℕ) (f : Func)

def system (b : CircuitBreaker) : System (Option ℕ) Event State Op Exc where
  consumer
    | .tick _ => none
    | .call caller _ => some caller
  handler
    | .tick now => modify (·.advance now)
    | .call _ f => b.call f

-- ---------------------------------------------------------------------------
-- The invariant
-- ---------------------------------------------------------------------------

/-- A start that the breaker may make. -/
def Start.Allowed (b : CircuitBreaker) (x : Start) : Prop :=
  x.state = .closed ∨ ∃ t, x.lastFailure = some t ∧ b.recoveryTimeout < x.clock - t

structure Safe (b : CircuitBreaker) (s : State) : Prop where
  closed : s.state = .closed → s.failureCount < b.failureThreshold
  tripped : s.state ≠ .closed → b.failureThreshold ≤ s.failureCount ∧ s.lastFailureTime.isSome
  started : ∀ x ∈ s.started, x.Allowed b

/-- While half open it stays so long after the last failure. -/
structure Inv (b : CircuitBreaker) (s : State) : Prop extends Safe b s where
  recorded : s.state ≠ .closed → s.failures.head? = s.lastFailureTime
  recovering : s.state = .halfOpen → ∀ t ∈ s.lastFailureTime, b.recoveryTimeout < s.clock - t

section
variable {b : CircuitBreaker} {s : State}

theorem Inv.advance (h : Inv b s) (now : ℚ) : Inv b (s.advance now) := by
  refine ⟨⟨h.closed, h.tripped, h.started⟩, h.recorded, fun hstate t ht => ?_⟩
  exact (h.recovering hstate t ht).trans_le (sub_le_sub_right (le_max_left s.clock now) t)

theorem Inv.recordFailure (h : Inv b s) : Inv b (b.recordFailure s) := by
  unfold CircuitBreaker.recordFailure
  by_cases htrip : b.failureThreshold ≤ s.failureCount + 1
  · refine ⟨⟨fun hstate => ?_, fun _ => ⟨htrip, rfl⟩, h.started⟩, fun _ => rfl, fun hstate => ?_⟩
    · simp [htrip] at hstate
    · simp [htrip] at hstate
  · -- Below the threshold it was closed, and stays so.
    have hclosed : s.state = .closed := by
      by_contra hopen
      exact htrip ((h.tripped hopen).1.trans (by omega))
    refine ⟨⟨fun _ => not_le.mp htrip, fun hstate => ?_, h.started⟩, fun _ => rfl, fun hstate => ?_⟩
    · simp [htrip, hclosed] at hstate
    · simp [htrip, hclosed] at hstate

theorem Inv.reset (h : Inv b s) (hthreshold : 1 ≤ b.failureThreshold) :
    Inv b (CircuitBreaker.reset s) :=
  ⟨⟨fun _ => by exact hthreshold, fun hopen => absurd rfl hopen, h.started⟩,
    fun hopen => absurd rfl hopen, fun hhalf => by cases hhalf⟩

theorem Inv.succeed (h : Inv b s) (hthreshold : 1 ≤ b.failureThreshold) :
    Inv b (if s.state = .halfOpen then CircuitBreaker.reset s else s) := by
  split
  · exact h.reset hthreshold
  · exact h

theorem Inv.begin (h : Inv b s) (hopen : s.state ≠ .opened) (found : CircuitState)
    (hfound : s.state = .closed → found = .closed) :
    Inv b { s with started := ⟨found, s.failures.head?, s.clock⟩ :: s.started } := by
  refine ⟨⟨h.closed, h.tripped, List.forall_mem_cons.mpr ⟨?_, h.started⟩⟩, h.recorded, h.recovering⟩
  by_cases hclosed : s.state = .closed
  · exact .inl (hfound hclosed)
  · have hhalf : s.state = .halfOpen := by
      cases hs : s.state <;> simp_all
    obtain ⟨t, ht⟩ := Option.isSome_iff_exists.mp (h.tripped hclosed).2
    exact .inr ⟨t, (h.recorded hclosed).trans ht, h.recovering hhalf t ht⟩

theorem Inv.halfOpen (h : Inv b s) (hopen : s.state = .opened) (hreset : b.shouldAttemptReset s) :
    Inv b { s with state := .halfOpen } := by
  have hnot : s.state ≠ .closed := by simp [hopen]
  refine ⟨⟨fun hstate => ?_, fun _ => h.tripped hnot, h.started⟩, fun _ => h.recorded hnot,
    fun _ t ht => ?_⟩
  · cases hstate
  rw [CircuitBreaker.shouldAttemptReset, Option.mem_def.mp ht] at hreset
  exact of_decide_eq_true hreset

end

def Maintains (b : CircuitBreaker) (p : Handler Unit) : Prop :=
  ∀ w₀ w, Inv b w.st → p.Meets (fun _ w => Inv b w.st) (fun _ w => Inv b w.st)
    (fun _ _ w => Inv b w.st) w₀ w

section
variable {b : CircuitBreaker}

theorem fail_maintains (e : Exc) : Maintains b (b.fail e) := by
  intro w₀ w h
  unfold CircuitBreaker.fail
  split
  · exact h.recordFailure
  · exact h

theorem succeed_maintains (hthreshold : 1 ≤ b.failureThreshold) :
    Maintains b CircuitBreaker.succeed := fun _ _ h => h.succeed hthreshold

theorem runFunc_maintains (f : Func) : Maintains b (CircuitBreaker.runFunc f) := by
  intro w₀ w h
  cases f with
  | coroutine => exact (meets_perform Op.func).mpr ⟨h, fun w' h' => ⟨h', fun _ => h'⟩⟩
  | plain finished raised =>
    cases raised with
    | none => exact h.advance finished
    | some e => exact h.advance finished

theorem guarded_maintains (hthreshold : 1 ≤ b.failureThreshold) (f : Func) :
    Maintains b (tryCatch (do CircuitBreaker.runFunc f; CircuitBreaker.succeed) b.fail) := by
  intro w₀ w h
  rw [meets_tryCatch, meets_bind]
  refine (runFunc_maintains f w₀ w h).mono fun r w₁ w₂ h₂ => ?_
  cases r with
  | ok u => exact succeed_maintains hthreshold w₁ w₂ h₂
  | error e => exact fail_maintains e w₁ w₂ h₂

theorem call_maintains (hthreshold : 1 ≤ b.failureThreshold) (f : Func) : Maintains b (b.call f) := by
  intro w₀ w h
  unfold CircuitBreaker.call CircuitBreaker.checkRecovery
  simp only [meets_bind, meets_get]
  split
  · rename_i hopen
    split
    · rename_i hreset
      simp only [meets_modify]
      refine guarded_maintains hthreshold f _ _ ((h.halfOpen hopen hreset).begin ?_ _ fun hclosed => ?_)
      · simp
      · cases hclosed
    · exact h
  · rename_i hopen
    simp only [meets_pure, meets_modify]
    exact guarded_maintains hthreshold f _ _ (h.begin hopen _ id)

theorem handlers_maintain (hthreshold : 1 ≤ b.failureThreshold) (m : Event) :
    Maintains b ((system b).handler m) := by
  cases m with
  | tick now => exact fun _ _ h => h.advance now
  | call caller f => exact call_maintains hthreshold f

theorem initial_inv (hthreshold : 1 ≤ b.failureThreshold) (now : ℚ) : Inv b { clock := now } := by
  refine ⟨⟨fun _ => hthreshold, fun hopen => ?_, List.forall_mem_nil _⟩, fun hopen => ?_, fun hhalf => ?_⟩
  · exact absurd rfl hopen
  · exact absurd rfl hopen
  · cases hhalf

end

/-- However the calls interleave, the breaker is closed below the threshold and
tripped from it on, and it starts a function only when it was closed or the last
failure is long enough ago. -/
theorem breaker_safe (b : CircuitBreaker) (hthreshold : 1 ≤ b.failureThreshold) (now : ℚ)
    (as : List (Act (Option ℕ) Event Exc)) (c : Config (Option ℕ) State Op Exc)
    (hrun : (system b).run (.start { clock := now }) as = some c) : Safe b c.world.st := by
  have hreach : (system b).Reaches (fun _ _ => True) (.start { clock := now }) c :=
    System.reaches_of_run hrun (System.runs_of_forall fun _ _ _ => trivial)
  have hinv := System.maintains (I := fun w => Inv b w.st)
    (fun m w h => handlers_maintain hthreshold m w w h) (initial_inv hthreshold now) (fun _ => rfl)
    hreach
  exact hinv.toSafe

/-- Two calls are started; the second fails and trips the breaker, the first
succeeds; a third is refused, and a fourth tried once the timeout is over. -/
def slowSuccess : List (Act (Option ℕ) Event Exc) :=
  [.deliver (.call 1 .coroutine), .deliver (.call 2 .coroutine),
    .resume (some 2) (some ⟨"TimeoutError", "", .builtin⟩), .resume (some 1) none,
    .deliver (.call 3 .coroutine), .deliver (.tick 61), .deliver (.call 4 .coroutine)]

theorem slow_success_safe : ∃ c,
    (system { failureThreshold := 1 }).run (.start { clock := 0 }) slowSuccess = some c ∧
      Safe { failureThreshold := 1 } c.world.st := by
  have hsome : ((system { failureThreshold := 1 }).run (.start { clock := 0 }) slowSuccess).isSome := by
    decide +kernel
  obtain ⟨c, hc⟩ := Option.isSome_iff_exists.mp hsome
  exact ⟨c, hc, breaker_safe { failureThreshold := 1 } (by decide) 0 slowSuccess c hc⟩

end AlphaPanda.Resilience
