import AlphaPanda.Streaming.Reliability

/-!
# One delivery

What the processing of one record does, by whether the duplicate check lets
it through to the handler.
-/

namespace AlphaPanda.Streaming

open Coroutine DeduplicationManager

abbrev Log (δ : Type) := List (Op (Invocation δ) δ × Option Exc)

def DeduplicationManager.eventKey (d : DeduplicationManager) (m : Record δ) (value : Envelope δ) :
    String :=
  d.redisKey (cacheKey value.id.text (brokerOf m.topic))

/-- The duplicate check found the event in the local cache or in Redis. -/
structure Found (d : DeduplicationManager) (m : Record δ) (value : Envelope δ)
    (before : State Unit) (l : Log δ) : Prop where
  object : m.value = .object value
  id : value.id.truthy
  hit : cacheKey value.id.text m.broker ∈ before.localCache ∨
    (.exists (d.eventKey m value), none) ∈ l ∧ d.eventKey m value ∈ before.redis

/-- The answers left for the handler and what follows it, if the duplicate
check lets the message through. -/
def lookupAnswers (deduplicator : Option DeduplicationManager) (s : State Unit) (m : Record δ)
    (value : Envelope δ) (as : List (Option Exc)) : Option (List (Option Exc)) :=
  match deduplicator with
  | none => some as
  | some d =>
    if !value.id.truthy then some as
    else if cacheKey value.id.text m.broker ∈ s.localCache then none
    else if (as.headD none).isSome then none
    else if d.eventKey m value ∈ s.redis then none
    else some as.tail

def handlerAnswers (deduplicator : Option DeduplicationManager) (s : State Unit) (m : Record δ)
    (as : List (Option Exc)) : Option (List (Option Exc)) :=
  match m.value with
  | .other _ => none
  | .object value => lookupAnswers deduplicator s m value as

-- ---------------------------------------------------------------------------
-- The duplicate check
-- ---------------------------------------------------------------------------

def retries (s : State Unit) (m : Record δ) : ℕ := (s.messageRetryCount.get? (messageKey m)).getD 0

/-- Nothing but the duplicate check. -/
def Log.LooksUp (l : Log δ) : Prop := ∀ op r, (op, r) ∈ l → ∃ k, op = .exists k

inductive Looked (deduplicator : Option DeduplicationManager) (s : State Unit) (m : Record δ)
    (value : Envelope δ) (as : List (Option Exc)) :
    Outcome (State Unit) (Op (Invocation δ) δ) Exc Bool → Prop where
  | passes (hl : Log.LooksUp l) (h : lookupAnswers deduplicator s m value as = some as') :
    Looked deduplicator s m value as ⟨.ok false, ⟨s, l⟩, as'⟩
  | fails (hl : Log.LooksUp l) (h : lookupAnswers deduplicator s m value as = none) :
    Looked deduplicator s m value as ⟨.error e, ⟨s, l⟩, as'⟩
  | found (hl : Log.LooksUp l) (h : lookupAnswers deduplicator s m value as = none)
    (hd : deduplicator = some d) (hfound : Found d m value s l) :
    Looked deduplicator s m value as
      ⟨.ok true, ⟨{ s with localCache := cache }, l⟩, as'⟩

section
variable {deduplicator : Option DeduplicationManager} {errorHandler : Option ErrorHandler}
  {m : Record δ} {value : Envelope δ} {s : State Unit}

theorem isDuplicate_looked (d : DeduplicationManager) (hvalue : m.value = .object value)
    (hid : value.id.truthy) (as : List (Option Exc)) :
    Looked (some d) s m value as
      ((d.isDuplicate value.id.text m.broker).exec as (World.start s)) := by
  simp only [isDuplicate, exec_bind, exec_get, Outcome.andThen_ok, World.start]
  by_cases hcache : cacheKey value.id.text m.broker ∈ s.localCache
  · rw [if_pos hcache]
    refine Looked.found ?_ ?_ rfl ⟨hvalue, hid, .inl hcache⟩
    · intro op r h
      cases h
    · simp only [lookupAnswers, hid, hcache, Bool.not_true, Bool.false_eq_true, if_false, if_true]
  rw [if_neg hcache]
  simp only [exec_bind, exec_perform, World.record, List.nil_append]
  rw [show d.redisKey (cacheKey value.id.text m.broker) = d.eventKey m value from rfl]
  have hlookup : ∀ r, @Log.LooksUp δ [(.exists (d.eventKey m value), r)] := by
    intro r op r' h
    cases List.mem_singleton.mp h
    exact ⟨_, rfl⟩
  rcases hanswer : as.headD none with _ | e
  · simp only [Outcome.andThen_ok, exec_get]
    by_cases hredis : d.eventKey m value ∈ s.redis
    · rw [if_pos hredis]
      refine Looked.found (hlookup _) ?_ rfl ⟨hvalue, hid, .inr ⟨List.mem_singleton.mpr rfl, hredis⟩⟩
      simp only [lookupAnswers, hid, hcache, hanswer, hredis, Bool.not_true, Bool.false_eq_true,
        Option.isSome_none, if_false, if_true]
    · rw [if_neg hredis]
      refine Looked.passes (hlookup _) ?_
      simp only [lookupAnswers, hid, hcache, hanswer, hredis, Bool.not_true, Bool.false_eq_true,
        Option.isSome_none, if_false]
  · simp only [Outcome.andThen_error]
    refine Looked.fails (hlookup _) ?_
    simp only [lookupAnswers, hid, hcache, hanswer, Bool.not_true, Bool.false_eq_true,
      Option.isSome_some, if_false, if_true]

theorem alreadyProcessed_looked (deduplicator : Option DeduplicationManager)
    (errorHandler : Option ErrorHandler) (s : State Unit) (hvalue : m.value = .object value)
    (as : List (Option Exc)) :
    Looked deduplicator s m value as
      (((invoking deduplicator errorHandler).alreadyProcessed m value.id).exec as (World.start s)) := by
  have hpass : ∀ (h : lookupAnswers deduplicator s m value as = some as),
      Looked deduplicator s m value as ⟨.ok false, World.start s, as⟩ :=
    Looked.passes fun op r h => by cases h
  rcases deduplicator with _ | d
  · exact hpass rfl
  · by_cases hid : value.id.truthy
    · simp only [ReliabilityLayer.alreadyProcessed, invoking, hid, if_true]
      exact isDuplicate_looked d hvalue hid as
    · simp only [ReliabilityLayer.alreadyProcessed, invoking, hid]
      exact hpass (by simp [lookupAnswers, hid])

/-- A record that does not get to the handler: it ends the loop, or it was
found to be a duplicate. -/
theorem processMessage_unhandled (errorHandler : Option ErrorHandler)
    (hnone : handlerAnswers deduplicator s m as = none) :
    let out := ((invoking deduplicator errorHandler).processMessage m).exec as (World.start s)
    (∀ i r, (.service i, r) ∉ out.world.log) ∧ out.world.st.redis = s.redis ∧
      (out.result = .ok () → ∃ d value, deduplicator = some d ∧ Found d m value s out.world.log) := by
  rcases hvalue : m.value with value | v
  · have hlooked := alreadyProcessed_looked deduplicator errorHandler s hvalue as
    simp only [handlerAnswers, hvalue] at hnone
    simp only [ReliabilityLayer.processMessage, hvalue, exec_bind]
    generalize Prog.exec _ as (World.start s) = out at hlooked
    cases hlooked with
    | passes hl h =>
      rw [hnone] at h
      cases h
    | fails hl _ =>
      simp only [Outcome.andThen_error]
      refine ⟨fun i r hi => ?_, trivial, fun h => ?_⟩
      · obtain ⟨k, hk⟩ := hl _ _ hi
        cases hk
      · cases h
    | @found l d cache as' hl _ hd hfound =>
      obtain ⟨hobject, hid, hhit⟩ := hfound
      simp only [Outcome.andThen_ok, if_true, commit, exec_perform, World.record]
      refine ⟨fun i r hi => ?_, trivial, fun _ => ⟨d, value, hd, hobject, hid, ?_⟩⟩
      · rcases List.mem_append.mp hi with hi | hi
        · obtain ⟨k, hk⟩ := hl _ _ hi
          cases hk
        · cases List.mem_singleton.mp hi
      · exact hhit.imp_right fun h => ⟨List.mem_append_left _ h.1, h.2⟩
  · simp only [ReliabilityLayer.processMessage, hvalue, exec_throw]
    refine ⟨fun i r hi => ?_, rfl, fun h => ?_⟩
    · cases hi
    · cases h

theorem processMessage_handled (errorHandler : Option ErrorHandler)
    (hsome : handlerAnswers deduplicator s m as = some as') :
    ∃ value l, m.value = .object value ∧ Log.LooksUp l ∧
      ((invoking deduplicator errorHandler).processMessage m).exec as (World.start s) =
        (tryCatch ((invoking deduplicator errorHandler).attempt m value)
          ((invoking deduplicator errorHandler).onError m value)).exec as' ⟨s, l⟩ := by
  rcases hvalue : m.value with value | v
  · have hlooked := alreadyProcessed_looked deduplicator errorHandler s hvalue as
    simp only [handlerAnswers, hvalue] at hsome
    simp only [ReliabilityLayer.processMessage, hvalue, exec_bind]
    generalize Prog.exec _ as (World.start s) = out at hlooked
    cases hlooked with
    | @passes l _ hl h =>
      rw [hsome] at h
      cases h
      exact ⟨value, l, rfl, hl, rfl⟩
    | fails _ h =>
      rw [hsome] at h
      cases h
    | found _ h =>
      rw [hsome] at h
      cases h
  · simp only [handlerAnswers, hvalue] at hsome
    cases hsome

-- ---------------------------------------------------------------------------
-- The handler and what follows
-- ---------------------------------------------------------------------------

theorem attempt_completes (deduplicator : Option DeduplicationManager)
    (errorHandler : Option ErrorHandler) (w : World (State Unit) (Op (Invocation δ) δ) Exc)
    (h : as.headD none = none) :
    (tryCatch ((invoking deduplicator errorHandler).attempt m value)
      ((invoking deduplicator errorHandler).onError m value)).exec as w =
    (tryCatch ((invoking deduplicator errorHandler).commitAndMark m value)
      ((invoking deduplicator errorHandler).onError m value)).exec as.tail
        (w.record (.service (value, m.topic)) none) := by
  simp only [ReliabilityLayer.attempt, exec_tryCatch, exec_bind]
  rw [show (invoking deduplicator errorHandler).handlerFunc value m.topic =
    Prog.perform (.service (value, m.topic)) from rfl, exec_perform, h]
  rfl

theorem attempt_fails (deduplicator : Option DeduplicationManager)
    (errorHandler : Option ErrorHandler) (w : World (State Unit) (Op (Invocation δ) δ) Exc) :
    (tryCatch ((invoking deduplicator errorHandler).attempt m value)
      ((invoking deduplicator errorHandler).onError m value)).exec (some e :: as) w =
    ((invoking deduplicator errorHandler).onError m value e).exec as
      (w.record (.service (value, m.topic)) (some e)) := by
  simp only [ReliabilityLayer.attempt, exec_tryCatch, exec_bind]
  rw [show (invoking deduplicator errorHandler).handlerFunc value m.topic =
    Prog.perform (.service (value, m.topic)) from rfl, exec_perform_some]
  rfl

theorem mem_log_exec (p : Layer Unit (Invocation δ) δ α) (as : List (Option Exc))
    {w : World (State Unit) (Op (Invocation δ) δ) Exc} (h : x ∈ w.log) :
    x ∈ (p.exec as w).world.log := by
  rw [p.exec_log_eq as w]
  exact List.mem_append_left _ h

theorem onError_dlq (deduplicator : Option DeduplicationManager) (eh : ErrorHandler)
    (w : World (State Unit) (Op (Invocation δ) δ) Exc) (h : plan e (retries w.st m) = .dlq reason) :
    ((invoking deduplicator (some eh)).onError m value e).exec as w =
      (eh.sendToDlqAndCommit m e reason (retries w.st m)).exec as w := by
  simp only [ReliabilityLayer.onError, invoking, ErrorHandler.handleProcessingError, exec_bind, exec_get,
    Outcome.andThen_ok]
  rw [show (w.st.messageRetryCount.get? (messageKey m)).getD 0 = retries w.st m from rfl, h]
  simp only [exec_bind, exec_pure]
  rcases Prog.exec _ as w with ⟨_ | _, w', as'⟩ <;> rfl

theorem onError_retry (deduplicator : Option DeduplicationManager) (eh : ErrorHandler)
    (w : World (State Unit) (Op (Invocation δ) δ) Exc) (h : plan e (retries w.st m) = .retry config) :
    ((invoking deduplicator (some eh)).onError m value e).exec as w =
      ((eh.retryProcessing (Prog.perform (.service (value, m.topic))) m e config
        (retries w.st m)).exec as w).andThen fun _ as w => ⟨.ok (), w, as⟩ := by
  simp only [ReliabilityLayer.onError, invoking, ErrorHandler.handleProcessingError, exec_bind, exec_get,
    Outcome.andThen_ok]
  rw [show (w.st.messageRetryCount.get? (messageKey m)).getD 0 = retries w.st m from rfl, h]
  rfl

theorem sendToDlqAndCommit_exec (eh : ErrorHandler) (m : Record δ) (e : Exc) (reason : String)
    (n : ℕ) (as : List (Option Exc)) (w : World (State Unit) (Op (Invocation δ) δ) Exc) :
    ∃ event, (eh.sendToDlqAndCommit m e reason n).exec as w =
      match as.headD none with
      | none => (commit m).exec as.tail
        ⟨{ w.st with messageRetryCount := w.st.messageRetryCount.pop (messageKey m) },
          w.log ++ [(.sendDlq (m.topic ++ ".dlq") (m.key.getD "None") event, none)]⟩
      | some e' => ⟨.ok (), ⟨w.st,
          w.log ++ [(.sendDlq (m.topic ++ ".dlq") (m.key.getD "None") event, some e')]⟩, as.tail⟩ := by
  refine ⟨eh.dlqEvent m e reason n, ?_⟩
  simp only [ErrorHandler.sendToDlqAndCommit, ErrorHandler.sendToDlq, exec_bind, exec_tryCatch,
    exec_perform]
  rcases as.headD none with _ | e'
  · rfl
  · rfl

theorem retryProcessing_exec (eh : ErrorHandler) (m : Record δ) (value : Envelope δ) (e : Exc)
    (config : RetryConfig) (n : ℕ) (as : List (Option Exc))
    (w : World (State Unit) (Op (Invocation δ) δ) Exc) :
    ∃ counts seconds, (eh.retryProcessing (Prog.perform (.service (value, m.topic))) m e config
        n).exec as w =
      match as.headD none, as.tail.headD none with
      | some e', _ => ⟨.error e', ⟨{ w.st with messageRetryCount := counts },
          w.log ++ [(.sleep seconds, some e')]⟩, as.tail⟩
      | none, some e' => ⟨.ok false, ⟨{ w.st with messageRetryCount := counts },
          w.log ++ [(.sleep seconds, none), (.service (value, m.topic), some e')]⟩, as.tail.tail⟩
      | none, none => (tryCatch (do ErrorHandler.delRetryCount m; commit m; pure true)
          fun _ => pure false).exec as.tail.tail ⟨{ w.st with messageRetryCount := counts },
          w.log ++ [(Op.sleep seconds, none), (Op.service (value, m.topic), none)]⟩ := by
  refine ⟨w.st.messageRetryCount.set (messageKey m) (n + 1),
    retryDelay e config n (eh.random (messageKey m) n), ?_⟩
  simp only [ErrorHandler.retryProcessing, exec_bind, exec_modify, Outcome.andThen_ok, exec_perform]
  rcases as.headD none with _ | e'
  · simp only [Outcome.andThen_ok, exec_tryCatch, exec_bind, exec_perform]
    rcases as.tail.headD none with _ | e'
    · simp only [Outcome.andThen_ok, World.record, List.append_assoc, List.cons_append, List.nil_append]
    · simp only [Outcome.andThen_error, Outcome.orElse_error, exec_pure, World.record,
        List.append_assoc, List.cons_append, List.nil_append]
  · rfl

end

end AlphaPanda.Streaming
