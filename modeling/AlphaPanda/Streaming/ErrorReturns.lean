import AlphaPanda.Streaming.Reliability

/-!
# What handling an error returns

`handle_processing_error` returns `True` for a record that is reprocessed or
dead-lettered and committed, and otherwise counts one more retry, unless the
dead letter could not be sent or the commit after a successful retry failed.
-/

namespace AlphaPanda.Streaming

open Coroutine

def State.retryCount (s : State σ) (key : String) : ℕ := (s.messageRetryCount.get? key).getD 0

def State.counted (s : State σ) (m : Record δ) : State σ :=
  { s with messageRetryCount :=
      s.messageRetryCount.set (messageKey m) (s.retryCount (messageKey m) + 1) }

def State.uncounted (s : State σ) (m : Record δ) : State σ :=
  { s with messageRetryCount := s.messageRetryCount.pop (messageKey m) }

section
variable {m : Record δ}

theorem State.retryCount_counted (s : State σ) (m : Record δ) :
    (s.counted m).retryCount (messageKey m) = s.retryCount (messageKey m) + 1 := by
  rw [retryCount, counted, Dict.get?_set_self, Option.getD_some]

theorem State.retryCount_uncounted (s : State σ) (m : Record δ) :
    (s.uncounted m).retryCount (messageKey m) = 0 := by
  rw [retryCount, uncounted, Dict.get?_pop, if_pos rfl, Option.getD_none]

theorem State.retryCount_counted_of_ne (s : State σ) (h : key ≠ messageKey m) :
    (s.counted m).retryCount key = s.retryCount key := by
  rw [retryCount, counted, Dict.get?_set_of_ne _ h]
  rfl

theorem State.retryCount_uncounted_of_ne (s : State σ) (h : key ≠ messageKey m) :
    (s.uncounted m).retryCount key = s.retryCount key := by
  rw [retryCount, uncounted, Dict.get?_pop, if_neg h]
  rfl

end

-- ---------------------------------------------------------------------------
-- One call
-- ---------------------------------------------------------------------------

/-- A call of the error handler: what the record's processing invokes, the
error, and how the environment answers. -/
structure Failure (ω δ : Type) where
  record : Record δ
  op : ω
  error : Exc
  answers : List (Option Exc)

namespace Failure

def handle (c : Failure ω δ) (h : ErrorHandler) (s : State σ) : Outcome (State σ) (Op ω δ) Exc Bool :=
  (h.handleProcessingError (Prog.perform (.service c.op)) c.record c.error).exec c.answers
    (World.start s)

abbrev Trace (ω δ : Type) := List (Op ω δ × Option Exc)

def Reprocessed (c : Failure ω δ) (l : Trace ω δ) : Prop := (.service c.op, none) ∈ l

def Published (c : Failure ω δ) (l : Trace ω δ) : Prop :=
  ∃ key event, (.sendDlq (c.record.topic ++ ".dlq") key event, none) ∈ l

def Committed (c : Failure ω δ) (l : Trace ω δ) : Prop :=
  (.commit c.record.topic c.record.partition (c.record.offset + 1), none) ∈ l

/-- The result tells whether the record is done with, and a record that is not
has one more retry counted. -/
def Truthful (c : Failure ω δ) (s : State σ) (o : Outcome (State σ) (Op ω δ) Exc Bool) : Prop :=
  (o.result = .ok true ↔
    (c.Reprocessed o.world.log ∨ c.Published o.world.log) ∧ c.Committed o.world.log) ∧
  (o.result = .ok false →
    s.retryCount (messageKey c.record) < o.world.st.retryCount (messageKey c.record))

/-- The dead letter is sent, and the commit after a successful retry succeeds. -/
def Completes (c : Failure ω δ) (s : State σ) : Prop :=
  match plan c.error (s.retryCount (messageKey c.record)) with
  | .dlq _ => c.answers.headD none = none
  | .retry _ =>
    c.answers.headD none = none → c.answers.tail.headD none = none →
      c.answers.tail.tail.headD none = none

inductive Handles (c : Failure ω δ) (s : State σ) :
    Except Exc Bool → State σ → Trace ω δ → Prop
  | lost (hplan : plan c.error (s.retryCount (messageKey c.record)) = .dlq reason)
    (hsend : c.answers.headD none = some e) :
    Handles c s (.ok true) s [(.sendDlq (c.record.topic ++ ".dlq") key event, some e)]
  | deadLettered (hplan : plan c.error (s.retryCount (messageKey c.record)) = .dlq reason)
    (hsend : c.answers.headD none = none) :
    Handles c s (.ok true) (s.uncounted c.record)
      [(.sendDlq (c.record.topic ++ ".dlq") key event, none),
        (.commit c.record.topic c.record.partition (c.record.offset + 1), none)]
  | uncommitted (hplan : plan c.error (s.retryCount (messageKey c.record)) = .dlq reason)
    (hsend : c.answers.headD none = none) :
    Handles c s (.error e) (s.uncounted c.record)
      [(.sendDlq (c.record.topic ++ ".dlq") key event, none),
        (.commit c.record.topic c.record.partition (c.record.offset + 1), some e)]
  | cancelled (hplan : plan c.error (s.retryCount (messageKey c.record)) = .retry config)
    (hsleep : c.answers.headD none = some e) :
    Handles c s (.error e) (s.counted c.record) [(.sleep delay, some e)]
  | failed (hplan : plan c.error (s.retryCount (messageKey c.record)) = .retry config)
    (hprocessing : c.answers.tail.headD none = some e) :
    Handles c s (.ok false) (s.counted c.record) [(.sleep delay, none), (.service c.op, some e)]
  | reprocessed (hplan : plan c.error (s.retryCount (messageKey c.record)) = .retry config)
    (hcommit : c.answers.tail.tail.headD none = none) :
    Handles c s (.ok true) ((s.counted c.record).uncounted c.record)
      [(.sleep delay, none), (.service c.op, none),
        (.commit c.record.topic c.record.partition (c.record.offset + 1), none)]
  | forgotten (hplan : plan c.error (s.retryCount (messageKey c.record)) = .retry config)
    (hsleep : c.answers.headD none = none) (hprocessing : c.answers.tail.headD none = none)
    (hcommit : c.answers.tail.tail.headD none = some e) :
    Handles c s (.ok false) ((s.counted c.record).uncounted c.record)
      [(.sleep delay, none), (.service c.op, none),
        (.commit c.record.topic c.record.partition (c.record.offset + 1), some e)]

theorem handles (h : ErrorHandler) (c : Failure ω δ) (s : State σ) :
    Handles c s (c.handle h s).result (c.handle h s).world.st (c.handle h s).world.log := by
  have hhandle : c.handle h s = Prog.exec (match plan c.error (s.retryCount (messageKey c.record)) with
      | .dlq reason => do
        h.sendToDlqAndCommit c.record c.error reason (s.retryCount (messageKey c.record))
        pure true
      | .retry config => h.retryProcessing (Prog.perform (.service c.op)) c.record c.error config
          (s.retryCount (messageKey c.record))) c.answers (World.start s) := rfl
  rw [hhandle]
  cases hplan : plan c.error (s.retryCount (messageKey c.record)) with
  | dlq reason =>
    simp only [ErrorHandler.sendToDlqAndCommit, ErrorHandler.sendToDlq, commit, exec_bind, exec_tryCatch,
      exec_perform, World.start, World.record, List.nil_append]
    cases hsend : c.answers.headD none with
    | some err => exact .lost hplan hsend
    | none =>
      simp only [Outcome.andThen_ok, Outcome.orElse_ok, exec_pure, if_true, exec_bind, exec_modify,
        exec_perform, World.record]
      cases c.answers.tail.headD none with
      | some err => exact .uncommitted hplan hsend
      | none => exact .deadLettered hplan hsend
  | retry config =>
    simp only [ErrorHandler.retryProcessing, exec_bind, exec_modify, exec_perform, World.start,
      World.record, List.nil_append, Outcome.andThen_ok]
    cases hsleep : c.answers.headD none with
    | some err => exact .cancelled hplan hsleep
    | none =>
      simp only [Outcome.andThen_ok, exec_tryCatch, exec_bind, exec_perform, World.record]
      cases hprocessing : c.answers.tail.headD none with
      | some err => exact .failed hplan hprocessing
      | none =>
        simp only [Outcome.andThen_ok, ErrorHandler.delRetryCount, exec_bind, exec_get,
          Dict.get?_set_self, exec_set, commit, exec_perform, World.record]
        cases hcommit : c.answers.tail.tail.headD none with
        | some err => exact .forgotten hplan hsleep hprocessing hcommit
        | none => exact .reprocessed hplan hcommit

theorem truthful_iff (h : ErrorHandler) (c : Failure ω δ) (s : State σ) :
    Truthful c s (c.handle h s) ↔ Completes c s := by
  have hcall := handles h c s
  unfold Truthful Completes Reprocessed Published Committed
  generalize (c.handle h s).result = result, (c.handle h s).world.st = s', (c.handle h s).world.log = l
    at hcall ⊢
  cases hcall with
  | lost hplan hsend | deadLettered hplan hsend | uncommitted hplan hsend =>
    simp only [hplan, hsend]
    simp
  | cancelled hplan hsleep =>
    simp only [hplan, hsleep]
    simp
  | failed hplan hprocessing =>
    simp only [hplan, hprocessing, State.retryCount_counted]
    simp
  | reprocessed hplan hcommit =>
    simp only [hplan, hcommit]
    simp
  | forgotten hplan hsleep hprocessing hcommit =>
    simp only [hplan, hsleep, hprocessing, hcommit, State.retryCount_uncounted]
    simp

-- ---------------------------------------------------------------------------
-- Repeated calls
-- ---------------------------------------------------------------------------

def isService : Op ω δ × Option Exc → Bool
  | (.service _, _) => true
  | _ => false

def invocations (h : ErrorHandler) (key : String) : State σ → List (Failure ω δ) → ℕ
  | _, [] => 0
  | s, c :: calls =>
    (if messageKey c.record = key then (c.handle h s).world.log.countP isService else 0) +
      invocations h key (c.handle h s).world.st calls

/-- The record is done with: handled, or published on the dead letter topic. -/
def Done (c : Failure ω δ) (o : Outcome (State σ) (Op ω δ) Exc Bool) : Prop :=
  o.result = .ok true ∨ c.Published o.world.log

/-- Calls for a record, in the states that they meet: their errors are of one
type, they all complete, and only the last one may be done with the record. The
calls for other records between them are arbitrary. -/
def Repeated (h : ErrorHandler) (key : String) (errorType : ErrorType) :
    State σ → List (Failure ω δ) → Prop
  | _, [] => True
  | s, c :: calls =>
    (messageKey c.record = key → ErrorClassifier.classifyError c.error = errorType ∧ c.Completes s ∧
      (calls ≠ [] → ¬c.Done (c.handle h s))) ∧
    Repeated h key errorType (c.handle h s).world.st calls

theorem plan_retry_lt (h : plan e n = .retry config) :
    (n : ℤ) < (ErrorClassifier.getRetryConfig (ErrorClassifier.classifyError e)).maxAttempts := by
  have hle : (retryConfig e).maxAttempts ≤
      (ErrorClassifier.getRetryConfig (ErrorClassifier.classifyError e)).maxAttempts := by
    unfold retryConfig
    split
    · exact min_le_left _ _
    · exact le_rfl
  unfold plan at h
  split at h
  · cases h
  split at h
  · cases h
  split at h
  · cases h
  · rename_i hmax
    exact (not_le.mp hmax).trans_le hle

theorem retryCount_other (h : ErrorHandler) (c : Failure ω δ) (s : State σ)
    (hkey : messageKey c.record ≠ key) : (c.handle h s).world.st.retryCount key = s.retryCount key := by
  have hcounted := State.retryCount_counted_of_ne s hkey.symm
  have huncounted : ∀ s : State σ, (s.uncounted c.record).retryCount key = s.retryCount key :=
    fun s => State.retryCount_uncounted_of_ne s hkey.symm
  have hcall := handles h c s
  generalize (c.handle h s).result = result, (c.handle h s).world.st = s', (c.handle h s).world.log = l
    at hcall
  cases hcall with
  | lost _ _ => rfl
  | deadLettered _ _ | uncommitted _ _ => exact huncounted s
  | cancelled _ _ | failed _ _ => exact hcounted
  | reprocessed _ _ | forgotten _ _ _ _ => exact (huncounted _).trans hcounted

/-- One call invokes the processing at most once, and only while retries are
left; it counts the retry unless it is done with the record. -/
theorem handle_counts (h : ErrorHandler) (c : Failure ω δ) (s : State σ) (hcompletes : c.Completes s) :
    ((c.handle h s).world.log.countP isService : ℤ) ≤
        max 0 ((ErrorClassifier.getRetryConfig (ErrorClassifier.classifyError c.error)).maxAttempts -
          s.retryCount (messageKey c.record)) ∧
      (c.handle h s).world.log.countP isService ≤ 1 ∧
      (¬c.Done (c.handle h s) → (c.handle h s).world.st.retryCount (messageKey c.record) =
        s.retryCount (messageKey c.record) + 1) := by
  have hcall := handles h c s
  unfold Completes at hcompletes
  unfold Done Published
  generalize (c.handle h s).result = result, (c.handle h s).world.st = s', (c.handle h s).world.log = l
    at hcall ⊢
  cases hcall with
  | lost hplan hsend => simp [isService]
  | deadLettered hplan hsend => simp [isService]
  | uncommitted hplan hsend => simp [isService]
  | cancelled hplan hsleep => simp [isService, State.retryCount_counted]
  | failed hplan hprocessing =>
    have hlt := plan_retry_lt hplan
    simp [List.countP_cons, isService, State.retryCount_counted]
    omega
  | reprocessed hplan hcommit =>
    have hlt := plan_retry_lt hplan
    simp [List.countP_cons, isService]
    omega
  | forgotten hplan hsleep hprocessing hcommit =>
    simp only [hplan] at hcompletes
    rw [hcompletes hsleep hprocessing] at hcommit
    cases hcommit

theorem invocations_le (h : ErrorHandler) (calls : List (Failure ω δ)) (s : State σ)
    (hrun : Repeated h key errorType s calls) : (invocations h key s calls : ℤ) ≤
      max 0 ((ErrorClassifier.getRetryConfig errorType).maxAttempts - s.retryCount key) := by
  induction calls generalizing s with
  | nil => exact le_max_left _ _
  | cons c calls ih =>
    obtain ⟨hcall, hrest⟩ := hrun
    have hlater := ih _ hrest
    by_cases hkey : messageKey c.record = key
    · obtain ⟨htype, hcompletes, hopen⟩ := hcall hkey
      obtain ⟨hbudget, hone, hcount⟩ := handle_counts h c s hcompletes
      rw [htype, hkey] at hbudget
      rw [hkey] at hcount
      rw [invocations, if_pos hkey, Nat.cast_add]
      by_cases hlast : calls = []
      · subst hlast
        simpa [invocations] using hbudget
      · rw [hcount (hopen hlast)] at hlater
        omega
    · rw [retryCount_other h c s hkey] at hlater
      rw [invocations, if_neg hkey, Nat.zero_add]
      exact hlater

theorem maxAttempts_nonneg (t : ErrorType) : 0 ≤ (ErrorClassifier.getRetryConfig t).maxAttempts := by
  cases t <;> decide

/-- A call is truthful exactly if the dead letter is sent, or the commit after
a successful retry succeeds; and over repeated calls that are, a record is not
processed more often than its type of error allows. -/
theorem returns_truthfully (h : ErrorHandler) :
    (∀ (c : Failure ω δ) (s : State σ), c.Truthful s (c.handle h s) ↔ c.Completes s) ∧
    ∀ (calls : List (Failure ω δ)) (s : State σ) (key : String) (errorType : ErrorType),
      Repeated h key errorType s calls →
        (invocations h key s calls : ℤ) ≤ (ErrorClassifier.getRetryConfig errorType).maxAttempts := by
  refine ⟨truthful_iff h, fun calls s key errorType hrun => ?_⟩
  have hle := invocations_le h calls s hrun
  have hpos := maxAttempts_nonneg errorType
  omega

def failing (error : Exc) (answers : List (Option Exc)) : Failure Unit Unit where
  record := ⟨"paper.signals.validated", 0, 7, none, 0, .other .null⟩
  op := ()
  error := error
  answers := answers

def handler : ErrorHandler := ⟨"paper_trading", fun _ _ => 1⟩

def connectionLost : Exc := ⟨"ConnectionError", "", .builtin⟩

theorem twice_failing :
    (∀ (c : Failure Unit Unit) (s : State Unit), c.Truthful s (c.handle handler s) ↔ c.Completes s) ∧
    (invocations handler "paper.signals.validated:0:7" (State.start () [])
      [failing connectionLost [none, some connectionLost], failing connectionLost []] : ℤ) ≤ 5 := by
  obtain ⟨htruthful, hbound⟩ := returns_truthfully (ω := Unit) (δ := Unit) (σ := Unit) handler
  refine ⟨htruthful, hbound _ _ _ .transient ⟨fun _ => ⟨by decide +kernel, ?_, ?_⟩, ?_⟩⟩
  · intro _ h
    cases h
  · rintro - (hdone | ⟨key, event, hpublished⟩)
    · revert hdone
      decide +kernel
    · have hlog : ∀ x ∈ ((failing connectionLost [none, some connectionLost]).handle handler
          (State.start () [])).world.log, ∀ topic key event, x ≠ (.sendDlq topic key event, none) := by
        intro x hx topic key event heq
        subst heq
        rcases List.mem_cons.mp hx with heq | hx
        · cases heq
        · cases List.mem_singleton.mp hx
      exact hlog _ hpublished _ _ _ rfl
  · refine ⟨fun _ => ⟨by decide +kernel, ?_, fun h => absurd rfl h⟩, trivial⟩
    intro _ _
    rfl

/-- The dead letter of a malformed record is not sent, and the retry of another
record succeeds but not its commit. -/
theorem untruthful :
    ¬(failing ⟨"ValueError", "", .builtin⟩ [some connectionLost]).Truthful (State.start () [])
      ((failing ⟨"ValueError", "", .builtin⟩ [some connectionLost]).handle handler (State.start () [])) ∧
    ¬(failing connectionLost [none, none, some connectionLost]).Truthful (State.start () [])
      ((failing connectionLost [none, none, some connectionLost]).handle handler (State.start () [])) := by
  constructor
  · rw [truthful_iff]
    intro h
    cases h
  · rw [truthful_iff]
    intro h
    cases h rfl rfl

end Failure

end AlphaPanda.Streaming
