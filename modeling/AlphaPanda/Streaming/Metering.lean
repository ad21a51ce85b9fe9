import AlphaPanda.Lib.Machine
import AlphaPanda.Streaming.EffectivelyOnce
import AlphaPanda.Streaming.MetricsCollector

/-!
# The metrics of the reliability layer

The reliability layer with its metrics collector: a message counts as a success
or a failure when its processing is over, and the callback that the builder
gives to the publisher of dead letters counts a failure as well.
-/

namespace AlphaPanda.Streaming

open Coroutine

-- ---------------------------------------------------------------------------
-- The layer
-- ---------------------------------------------------------------------------

/-- A reliability layer with a collector. `now` and `duration` are what its
clocks show at the end of a record's processing. -/
structure MeteredLayer (σ ω δ : Type) extends ReliabilityLayer σ ω δ where
  /-- The publisher of dead letters has the builder's callback. -/
  onDlq : Bool
  now : Record δ → ℤ
  duration : Record δ → ℚ

abbrev Metered (σ : Type) (windowSize : ℕ) := State σ × MetricsCollector windowSize

abbrev Meter (σ : Type) (windowSize : ℕ) (ω δ : Type) := Prog (Metered σ windowSize) (Op ω δ) Exc

def metering (f : MetricsCollector w → MetricsCollector w) : Meter σ w ω δ Unit :=
  modify fun s => (s.1, f s.2)

namespace MeteredLayer

variable (rl : MeteredLayer σ ω δ)

def notify (m : Record δ) (dlqTopic : String) : Meter σ w ω δ Unit :=
  if rl.onDlq then
    metering fun metrics => metrics.recordFailure (rl.now m) "dlq" (some (brokerOf dlqTopic))
  else pure ()

def sendToDlq (h : ErrorHandler) (m : Record δ) (e : Exc) (reason : String) (retryCount : ℕ) :
    Meter σ w ω δ Bool :=
  tryCatch
    (do
      Prog.perform (.sendDlq (m.topic ++ ".dlq") (m.key.getD "None")
        (h.dlqEvent m e reason retryCount))
      rl.notify m (m.topic ++ ".dlq")
      pure true)
    fun _ => pure false

def sendToDlqAndCommit (h : ErrorHandler) (m : Record δ) (e : Exc) (reason : String)
    (retryCount : ℕ) : Meter σ w ω δ Unit := do
  let sent ← rl.sendToDlq h m e reason retryCount
  if sent then do
    modify fun s =>
      ({ s.1 with messageRetryCount := s.1.messageRetryCount.pop (messageKey m) }, s.2)
    (commit m).beside
  else pure ()

def handleProcessingError (h : ErrorHandler) (m : Record δ) (value : Envelope δ) (e : Exc) :
    Meter σ w ω δ Bool := do
  let s ← get
  let retryCount := (s.1.messageRetryCount.get? (messageKey m)).getD 0
  match plan e retryCount with
  | .dlq reason => do
    rl.sendToDlqAndCommit h m e reason retryCount
    pure true
  | .retry config => (h.retryProcessing (rl.handlerFunc value m.topic) m e config retryCount).beside

def handleError (m : Record δ) (value : Envelope δ) (e : Exc) : Meter σ w ω δ Unit :=
  match rl.errorHandler with
  | some h => do
    let _ ← rl.handleProcessingError h m value e
    pure ()
  | none => (commit m).beside

def attempt (m : Record δ) (value : Envelope δ) : Meter σ w ω δ Unit := do
  (rl.toReliabilityLayer.attempt m value).beside
  metering fun metrics => metrics.recordSuccess (rl.now m) (rl.duration m)

def onError (m : Record δ) (value : Envelope δ) (e : Exc) : Meter σ w ω δ Unit := do
  rl.handleError m value e
  metering fun metrics => metrics.recordFailure (rl.now m) e.message (some m.broker)

def processMessage (m : Record δ) : Meter σ w ω δ Unit :=
  match m.value with
  | .other v =>
    throw ⟨"AttributeError", s!"'{v.typeName}' object has no attribute 'get'", .builtin⟩
  | .object value => do
    let duplicate ← (rl.alreadyProcessed m value.id).beside
    if duplicate then (commit m).beside
    else tryCatch (rl.attempt m value) (rl.onError m value)

def deliver (s : Metered σ w) (a : Arrival δ) : Metered σ w :=
  ((rl.processMessage a.record).exec a.answers (World.start (s.1.expire a.expired, s.2))).world.st

def step (s : Metered σ w) (a : Arrival δ) : Option (Metered σ w) := some (rl.deliver s a)

end MeteredLayer

-- ---------------------------------------------------------------------------
-- The layer below
-- ---------------------------------------------------------------------------

namespace MeteredLayer

variable {rl : MeteredLayer σ ω δ}

theorem notify_shadows {p : Meter σ w ω δ α} {q : Layer σ ω δ α} (h : p.Shadows q) (m : Record δ)
    (dlqTopic : String) : (rl.notify m dlqTopic >>= fun _ => p).Shadows q := by
  unfold notify
  split
  · exact shadows_aside h
  · exact h

theorem sendToDlqAndCommit_shadows (h : ErrorHandler) (m : Record δ) (e : Exc) (reason : String)
    (retryCount : ℕ) : (rl.sendToDlqAndCommit h m e reason retryCount : Meter σ w ω δ Unit).Shadows
      (h.sendToDlqAndCommit m e reason retryCount) := by
  refine shadows_bind ?_ fun sent => ?_
  · refine shadows_tryCatch (shadows_bind (shadows_perform _) fun _ => ?_) fun _ => shadows_pure false
    exact notify_shadows (shadows_pure true) m _
  · cases sent with
    | false => exact shadows_pure ()
    | true =>
      exact shadows_bind (shadows_modify fun s : State σ =>
        { s with messageRetryCount := s.messageRetryCount.pop (messageKey m) })
        fun _ => shadows_beside (commit m)

theorem handleProcessingError_shadows (h : ErrorHandler) (m : Record δ) (value : Envelope δ) (e : Exc) :
    (rl.handleProcessingError h m value e : Meter σ w ω δ Bool).Shadows
      (h.handleProcessingError (rl.handlerFunc value m.topic) m e) := by
  refine shadows_get fun s metrics => ?_
  simp only
  cases plan e ((s.messageRetryCount.get? (messageKey m)).getD 0) with
  | dlq reason =>
    exact shadows_bind (sendToDlqAndCommit_shadows h m e reason _) fun _ => shadows_pure true
  | retry config => exact shadows_beside _

theorem onError_shadows (m : Record δ) (value : Envelope δ) (e : Exc) :
    (rl.onError m value e : Meter σ w ω δ Unit).Shadows (rl.toReliabilityLayer.onError m value e) := by
  refine shadows_then ?_ _
  unfold handleError ReliabilityLayer.onError
  cases rl.errorHandler with
  | none => exact shadows_beside (commit m)
  | some h =>
    exact shadows_bind (handleProcessingError_shadows h m value e) fun _ => shadows_pure ()

theorem attempt_shadows (m : Record δ) (value : Envelope δ) :
    (rl.attempt m value : Meter σ w ω δ Unit).Shadows (rl.toReliabilityLayer.attempt m value) :=
  shadows_then (shadows_beside _) _

theorem processMessage_shadows (m : Record δ) : (rl.processMessage m : Meter σ w ω δ Unit).Shadows
    (rl.toReliabilityLayer.processMessage m) := by
  unfold processMessage ReliabilityLayer.processMessage
  cases m.value with
  | other v => exact shadows_throw _
  | object value =>
    refine shadows_bind (shadows_beside _) fun duplicate => ?_
    cases duplicate with
    | true => exact shadows_beside (commit m)
    | false => exact shadows_tryCatch (attempt_shadows m value) (onError_shadows m value)

/-- Beside its metrics, a metered layer does what the layer does. -/
theorem deliver_fst (s : Metered σ w) (a : Arrival δ) :
    (rl.deliver s a).1 = (rl.toReliabilityLayer.deliver s.1 a).world.st := by
  obtain ⟨metrics, h⟩ := processMessage_shadows (w := w) a.record a.answers (s.1.expire a.expired) s.2 []
  exact congrArg (fun o : Outcome (Metered σ w) (Op ω δ) Exc Unit => o.world.st.1) h

end MeteredLayer

-- ---------------------------------------------------------------------------
-- What becomes of a message
-- ---------------------------------------------------------------------------

inductive Fate where
  /-- Its value is no object, or the duplicate check raised. -/
  | refused
  | skipped
  | processed
  /-- The retry returned, whether or not it succeeded. -/
  | retried
  /-- The wait before the retry raised. -/
  | interrupted
  | unpublished
  | deadLettered (committed : Bool)
  /-- There is no error handler. -/
  | unhandled (committed : Bool)
  deriving DecidableEq, Repr

namespace Fate

def count (onDlq : Bool) : Fate → ℕ
  | .refused | .skipped | .interrupted => 0
  | .processed | .retried | .unpublished => 1
  | .deadLettered committed => onDlq.toNat + committed.toNat
  | .unhandled committed => committed.toNat

/-- A dead letter that is announced counts as a failure; so does one that is
committed. -/
def Once (onDlq : Bool) : Fate → Prop
  | .refused | .interrupted => False
  | .skipped | .processed | .retried | .unpublished => True
  | .deadLettered committed => committed ≠ onDlq
  | .unhandled committed => committed

theorem count_eq_iff {fate : Fate} :
    fate.count onDlq = (if fate = .skipped then 0 else 1) ↔ fate.Once onDlq := by
  rcases fate with _ | _ | _ | _ | _ | _ | committed | committed
  case deadLettered => cases committed <;> cases onDlq <;> simp [count, Once]
  case unhandled => cases committed <;> simp [count, Once]
  all_goals simp [count, Once]

end Fate

namespace ReliabilityLayer

variable (rl : ReliabilityLayer σ ω δ)

def checked (s : State σ) (a : Arrival δ) (value : Envelope δ) : Outcome (State σ) (Op ω δ) Exc Bool :=
  (rl.alreadyProcessed a.record value.id).exec a.answers (World.start (s.expire a.expired))

def errorFate (m : Record δ) (e : Exc) (as : List (Option Exc)) (s : State σ) : Fate :=
  match rl.errorHandler with
  | none => .unhandled (as.headD none).isNone
  | some _ =>
    match plan e ((s.messageRetryCount.get? (messageKey m)).getD 0), as.headD none with
    | .retry _, none => .retried
    | .retry _, some _ => .interrupted
    | .dlq _, none => .deadLettered (as.tail.headD none).isNone
    | .dlq _, some _ => .unpublished

def attemptFate (m : Record δ) (o : Outcome (State σ) (Op ω δ) Exc Unit) : Fate :=
  match o.result with
  | .ok () => .processed
  | .error e => rl.errorFate m e o.rest o.world.st

def fate (s : State σ) (a : Arrival δ) : Fate :=
  match a.record.value with
  | .other _ => .refused
  | .object value =>
    let check := rl.checked s a value
    match check.result with
    | .error _ => .refused
    | .ok true => .skipped
    | .ok false => rl.attemptFate a.record ((rl.attempt a.record value).exec check.rest check.world)

end ReliabilityLayer

-- ---------------------------------------------------------------------------
-- What is counted
-- ---------------------------------------------------------------------------

namespace MetricsCollector

def counted (c : MetricsCollector w) : ℕ := c.successCount + c.failureCount

@[simp] theorem counted_recordSuccess (c : MetricsCollector w) (now : ℤ) (duration : ℚ) :
    (c.recordSuccess now duration).counted = c.counted + 1 := by
  simp [counted, recordSuccess, updateHealthStatus]
  omega

@[simp] theorem counted_recordFailure (c : MetricsCollector w) (now : ℤ) (errorType : String)
    (brokerContext : Option String) :
    (c.recordFailure now errorType brokerContext).counted = c.counted + 1 := by
  simp [counted, recordFailure, updateHealthStatus]
  omega

end MetricsCollector

namespace MeteredLayer

section
variable {rl : MeteredLayer σ ω δ}

theorem exec_notify (rl : MeteredLayer σ ω δ) (m : Record δ) (dlqTopic : String) (as : List (Option Exc))
    (w : World (Metered σ n) (Op ω δ) Exc) : ∃ w',
    w'.st.2.counted = w.st.2.counted + rl.onDlq.toNat ∧
      (rl.notify m dlqTopic).exec as w = ⟨.ok (), w', as⟩ := by
  unfold notify
  cases rl.onDlq with
  | false => exact ⟨w, rfl, rfl⟩
  | true => exact ⟨_, MetricsCollector.counted_recordFailure .., rfl⟩

theorem counted_beside (p : Layer σ ω δ α) (as : List (Option Exc))
    (w : World (Metered σ n) (Op ω δ) Exc) :
    (p.beside.exec as w).world.st.2.counted = w.st.2.counted ∧
      (p.beside.exec as w).result = (p.exec as ⟨w.st.1, w.log⟩).result := by
  have h := exec_beside p as w.st.1 w.st.2 w.log
  exact ⟨congrArg (fun o => o.world.st.2.counted) h, congrArg (·.result) h⟩

/-- The count with the failure that is recorded if handling the error returns. -/
def tally (o : Outcome (Metered σ n) (Op ω δ) Exc α) : ℕ := o.world.st.2.counted + o.result.toBool.toNat

theorem tally_bind_pure (p : Meter σ n ω δ α) (b : β) (as : List (Option Exc))
    (w : World (Metered σ n) (Op ω δ) Exc) :
    tally ((p >>= fun _ => pure b).exec as w) = tally (p.exec as w) := by
  rw [exec_bind]
  rcases p.exec as w with ⟨_ | a, w', as'⟩ <;> rfl

theorem tally_beside (p : Layer σ ω δ α) (as : List (Option Exc))
    (w : World (Metered σ n) (Op ω δ) Exc) : tally (p.beside.exec as w) =
      w.st.2.counted + (p.exec as ⟨w.st.1, w.log⟩).result.toBool.toNat := by
  obtain ⟨hcounted, hresult⟩ := counted_beside p as w
  rw [tally, hcounted, hresult]

theorem commit_result (m : Record δ) (as : List (Option Exc)) (w : World (State σ) (Op ω δ) Exc) :
    ((commit m).exec as w).result.toBool = (as.headD none).isNone := by
  rw [commit, exec_perform]
  cases as.headD none <;> rfl

theorem retryProcessing_result (h : ErrorHandler) (processing : Layer σ ω δ Unit) (m : Record δ)
    (e : Exc) (config : RetryConfig) (retryCount : ℕ) (as : List (Option Exc))
    (w : World (State σ) (Op ω δ) Exc) :
    ((h.retryProcessing processing m e config retryCount).exec as w).result.toBool =
      (as.headD none).isNone := by
  rw [ErrorHandler.retryProcessing, exec_bind, exec_modify, Outcome.andThen_ok, exec_bind, exec_perform]
  cases as.headD none with
  | some raised => rfl
  | none =>
    rw [Outcome.andThen_ok, exec_tryCatch]
    generalize Prog.exec _ _ _ = o
    rcases o with ⟨_ | _, w', as'⟩ <;> rfl

theorem exec_sendToDlq (rl : MeteredLayer σ ω δ) (h : ErrorHandler) (m : Record δ) (e : Exc) (reason : String)
    (retryCount : ℕ) (as : List (Option Exc)) (w : World (Metered σ n) (Op ω δ) Exc) : ∃ w',
    w'.st.2.counted = w.st.2.counted + ((as.headD none).isNone && rl.onDlq).toNat ∧
      (rl.sendToDlq h m e reason retryCount).exec as w =
        ⟨.ok (as.headD none).isNone, w', as.tail⟩ := by
  rw [sendToDlq, exec_tryCatch, exec_bind, exec_perform]
  cases as.headD none with
  | some raised =>
    refine ⟨_, ?_, rfl⟩
    rfl
  | none =>
    obtain ⟨w', hcounted, hnotify⟩ := exec_notify rl m (m.topic ++ ".dlq") as.tail
      (w.record (.sendDlq (m.topic ++ ".dlq") (m.key.getD "None") (h.dlqEvent m e reason retryCount))
        none)
    refine ⟨w', hcounted, ?_⟩
    rw [Outcome.andThen_ok, exec_bind, hnotify]
    rfl

theorem sendToDlqAndCommit_tally (h : ErrorHandler) (m : Record δ) (e : Exc) (reason : String)
    (retryCount : ℕ) (as : List (Option Exc)) (w : World (Metered σ n) (Op ω δ) Exc) :
    tally ((rl.sendToDlqAndCommit h m e reason retryCount).exec as w) = w.st.2.counted +
      match as.headD none with
      | none => (Fate.deadLettered (as.tail.headD none).isNone).count rl.onDlq
      | some _ => 1 := by
  obtain ⟨w', hcounted, hsent⟩ := exec_sendToDlq rl h m e reason retryCount as w
  rw [sendToDlqAndCommit, exec_bind, hsent, Outcome.andThen_ok]
  cases hanswer : as.headD none with
  | some raised =>
    simp only [hanswer, Option.isNone_some, Bool.false_and, Bool.toNat_false, add_zero] at hcounted
    simp [tally, hcounted, Except.toBool]
  | none =>
    simp only [hanswer, Option.isNone_none, Bool.true_and] at hcounted
    simp only [Option.isNone_none, if_true, exec_bind, exec_modify, Outcome.andThen_ok]
    rw [tally_beside, commit_result, hcounted, Fate.count, Nat.add_assoc]

theorem handleError_tally (m : Record δ) (value : Envelope δ) (e : Exc) (as : List (Option Exc))
    (w : World (Metered σ n) (Op ω δ) Exc) : tally ((rl.handleError m value e).exec as w) =
      w.st.2.counted + (rl.errorFate m e as w.st.1).count rl.onDlq := by
  unfold handleError ReliabilityLayer.errorFate
  cases rl.errorHandler with
  | none => rw [tally_beside, commit_result, Fate.count]
  | some h =>
    rw [tally_bind_pure, handleProcessingError, exec_bind, exec_get, Outcome.andThen_ok]
    simp only
    cases plan e ((w.st.1.messageRetryCount.get? (messageKey m)).getD 0) with
    | dlq reason =>
      rw [tally_bind_pure, sendToDlqAndCommit_tally]
      cases as.headD none <;> rfl
    | retry config =>
      rw [tally_beside, retryProcessing_result]
      cases as.headD none <;> rfl

theorem onError_counted (m : Record δ) (value : Envelope δ) (e : Exc) (as : List (Option Exc))
    (w : World (Metered σ n) (Op ω δ) Exc) : ((rl.onError m value e).exec as w).world.st.2.counted =
      w.st.2.counted + (rl.errorFate m e as w.st.1).count rl.onDlq := by
  rw [onError, exec_bind, ← handleError_tally m value e as w]
  rcases (rl.handleError m value e).exec as w with ⟨_ | _, w', as'⟩
  · rfl
  · exact MetricsCollector.counted_recordFailure ..

theorem attempt_counted (m : Record δ) (value : Envelope δ) (as : List (Option Exc))
    (w : World (Metered σ n) (Op ω δ) Exc) :
    ((tryCatch (rl.attempt m value) (rl.onError m value)).exec as w).world.st.2.counted =
      w.st.2.counted + (rl.attemptFate m ((rl.toReliabilityLayer.attempt m value).exec as
        ⟨w.st.1, w.log⟩)).count rl.onDlq := by
  have h := exec_beside (rl.toReliabilityLayer.attempt m value) as w.st.1 w.st.2 w.log
  rw [exec_tryCatch, attempt, exec_bind]
  rw [show w = ⟨(w.st.1, w.st.2), w.log⟩ from rfl, h]
  rcases (rl.toReliabilityLayer.attempt m value).exec as ⟨w.st.1, w.log⟩ with ⟨e | _, w', as'⟩
  · exact onError_counted m value e as' ⟨(w'.st, w.st.2), w'.log⟩
  · exact MetricsCollector.counted_recordSuccess ..

theorem deliver_counted (rl : MeteredLayer σ ω δ) (s : Metered σ n) (a : Arrival δ) :
    (rl.deliver s a).2.counted = s.2.counted + (rl.fate s.1 a).count rl.onDlq := by
  unfold deliver processMessage ReliabilityLayer.fate
  cases a.record.value with
  | other v => rfl
  | object value =>
    have h := exec_beside (rl.alreadyProcessed a.record value.id) a.answers (s.1.expire a.expired) s.2 []
    simp only [exec_bind, World.start, ReliabilityLayer.checked]
    rw [h]
    rcases (rl.alreadyProcessed a.record value.id).exec a.answers ⟨s.1.expire a.expired, []⟩ with
      ⟨_ | duplicate, w', as'⟩
    · rfl
    · cases duplicate with
      | true => exact (counted_beside (commit a.record) as' ⟨(w'.st, s.2), w'.log⟩).1
      | false => exact attempt_counted a.record value as' ⟨(w'.st, s.2), w'.log⟩

end

-- ---------------------------------------------------------------------------
-- Accounting
-- ---------------------------------------------------------------------------

section
variable (rl : MeteredLayer σ ω δ)

def skips (s : State σ) (a : Arrival δ) : Bool :=
  match a.record.value with
  | .other _ => false
  | .object value =>
    match (rl.checked s a value).result with
    | .error _ => false
    | .ok duplicate => duplicate

/-- How often a message has to be counted. -/
def due (s : State σ) (a : Arrival δ) : ℕ := if rl.skips s a then 0 else 1

def messages (s : Metered σ n) : List (Arrival δ) → ℕ
  | [] => 0
  | a :: rest => rl.due s.1 a + messages (rl.deliver s a) rest

structure Accounted (s : Metered σ n) (arrivals : List (Arrival δ)) : Prop where
  each : Machine.Runs rl.step (fun s a => (rl.deliver s a).2.counted = s.2.counted + rl.due s.1 a)
    s arrivals
  total : ∀ s', Machine.run rl.step s arrivals = some s' →
    s'.2.counted = s.2.counted + rl.messages s arrivals

end

section
variable {rl : MeteredLayer σ ω δ}

theorem skips_iff : rl.skips s a ↔ rl.fate s a = .skipped := by
  unfold skips ReliabilityLayer.fate
  cases a.record.value with
  | other v => simp
  | object value =>
    simp only
    cases (rl.checked s a value).result with
    | error e => simp
    | ok duplicate =>
      cases duplicate with
      | true => simp
      | false =>
        simp only [Bool.false_eq_true, false_iff, ReliabilityLayer.attemptFate]
        split
        · simp
        · unfold ReliabilityLayer.errorFate
          split
          · simp
          · split <;> simp

theorem counted_due_iff (s : Metered σ n) (a : Arrival δ) :
    (rl.deliver s a).2.counted = s.2.counted + rl.due s.1 a ↔ (rl.fate s.1 a).Once rl.onDlq := by
  rw [deliver_counted, Nat.add_left_cancel_iff, ← Fate.count_eq_iff, due]
  simp only [skips_iff]

theorem total_of_each {s : Metered σ n} (h : Machine.Runs rl.step
    (fun s a => (rl.deliver s a).2.counted = s.2.counted + rl.due s.1 a) s arrivals)
    (hrun : Machine.run rl.step s arrivals = some s') :
    s'.2.counted = s.2.counted + rl.messages s arrivals := by
  induction arrivals generalizing s with
  | nil =>
    cases hrun
    rfl
  | cons a rest ih =>
    have hrest := ih (h.2 _ rfl) hrun
    rw [hrest, h.1, messages, Nat.add_assoc]

theorem accounted (s : Metered σ n) (arrivals : List (Arrival δ)) : rl.Accounted s arrivals ↔
    Machine.Runs rl.step (fun s a => (rl.fate s.1 a).Once rl.onDlq) s arrivals := by
  simp only [← counted_due_iff]
  exact ⟨fun h => h.each, fun h => ⟨h, fun s' hrun => total_of_each h hrun⟩⟩

end

end MeteredLayer

-- ---------------------------------------------------------------------------
-- The builder
-- ---------------------------------------------------------------------------

/-- The components that are configured: an error handler comes with the
publisher of dead letters, which may have a callback. -/
structure StreamServiceBuilder where
  deduplicator : Option DeduplicationManager := none
  errorHandler : Option ErrorHandler := none
  metricsCollector : Bool := false
  onDlqCallback : Bool := false
  prometheus : Bool := false

namespace StreamServiceBuilder

def withRedis (b : StreamServiceBuilder) (d : DeduplicationManager) : StreamServiceBuilder :=
  { b with deduplicator := some d }

def withErrorHandling (b : StreamServiceBuilder) (h : ErrorHandler) : StreamServiceBuilder :=
  { b with errorHandler := some h }

def withMetrics (b : StreamServiceBuilder) : StreamServiceBuilder :=
  { b with
    metricsCollector := true
    onDlqCallback := b.onDlqCallback || b.errorHandler.isSome }

def withPrometheus (b : StreamServiceBuilder) (prometheus : Bool) : StreamServiceBuilder :=
  { b with
    prometheus := prometheus
    onDlqCallback := b.onDlqCallback || b.errorHandler.isSome }

/-- The callback counts only if there is a collector. -/
def addConsumerHandler (b : StreamServiceBuilder) (handlerFunc : Envelope δ → String → Layer σ ω δ Unit)
    (now : Record δ → ℤ) (duration : Record δ → ℚ) : MeteredLayer σ ω δ where
  handlerFunc := handlerFunc
  deduplicator := b.deduplicator
  errorHandler := b.errorHandler
  onDlq := b.onDlqCallback && b.metricsCollector
  now := now
  duration := duration

def service (prometheus : Bool) (d : DeduplicationManager) (h : ErrorHandler) : StreamServiceBuilder :=
  ((({} : StreamServiceBuilder).withPrometheus prometheus).withRedis d).withErrorHandling h |>.withMetrics

/-- The messages of a layer are each counted once if and only if no message is
refused or interrupted and the dead letters that are announced to the metrics,
and no others, are left uncommitted. -/
theorem accounted_iff (b : StreamServiceBuilder) (handlerFunc : Envelope δ → String → Layer σ ω δ Unit)
    (now : Record δ → ℤ) (duration : Record δ → ℚ) (s : Metered σ n) (arrivals : List (Arrival δ)) :
    (b.addConsumerHandler handlerFunc now duration).Accounted s arrivals ↔
      Machine.Runs (b.addConsumerHandler handlerFunc now duration).step
        (fun s a => ((b.addConsumerHandler handlerFunc now duration).fate s.1 a).Once
          (b.onDlqCallback && b.metricsCollector)) s arrivals :=
  MeteredLayer.accounted s arrivals

def invoking (b : StreamServiceBuilder) : MeteredLayer Unit (Invocation Unit) Unit :=
  b.addConsumerHandler (fun value topic => Prog.perform (.service (value, topic)))
    (fun _ => 0) fun _ => 0

def malformed : Arrival Unit := ⟨recordAt 0, [], [some ⟨"ValueError", "", .builtin⟩]⟩

theorem deadLetter_counted_twice : ¬∀ (b : StreamServiceBuilder) (s : Metered Unit 100) arrivals,
    b.metricsCollector → b.errorHandler.isSome → b.invoking.Accounted s arrivals := by
  intro hclaim
  have h := hclaim (service true popsFirst withoutJitter) (.start () [], {}) [malformed] rfl rfl
  have htwice : ((service true popsFirst withoutJitter).invoking.deliver
      ((.start () [], {}) : Metered Unit 100) malformed).2.counted = 2 := by decide +kernel
  have hdue : (service true popsFirst withoutJitter).invoking.due (.start () []) malformed = 1 := by
    decide +kernel
  have honce := htwice.symm.trans h.each.1
  rw [hdue] at honce
  cases honce

end StreamServiceBuilder

end AlphaPanda.Streaming
