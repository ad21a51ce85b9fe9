import AlphaPanda.Streaming.Delivery

/-!
# The consumption loop

`ServiceOrchestrator._consumption_loop` on the records as Kafka delivers them.
What `MessageConsumer.consume` or the reliability layer raises ends it, and
nothing starts it again.
-/

namespace AlphaPanda.Streaming

open Coroutine DeduplicationManager

structure KafkaRecord where
  topic : String
  partition : ℤ
  offset : ℕ
  key : Option ByteArray
  timestamp : ℤ
  value : Option ByteArray
  headers : List (String × ByteArray)

/-- `bytes.decode('utf-8')`; the text of the error is cut short. -/
def decodeUtf8 (bytes : ByteArray) : Except Exc String :=
  match String.fromUTF8? bytes with
  | some text => .ok text
  | none => .error ⟨"UnicodeDecodeError", "'utf-8' codec can't decode", .builtin⟩

def decodeKey : Option ByteArray → Except Exc (Option String)
  | none => .ok none
  | some bytes => if bytes.isEmpty then .ok none else (decodeUtf8 bytes).map some

/-- What `consume` yields for a record; `loads` is the deserializer of the
values. -/
def consume (loads : Option ByteArray → Except Exc (Body δ)) (r : KafkaRecord) :
    Except Exc (Record δ) := do
  let value ← loads r.value
  let key ← decodeKey r.key
  let _ ← r.headers.mapM fun h => decodeUtf8 h.2
  pure ⟨r.topic, r.partition, r.offset, key, r.timestamp, value⟩

/-- A record as it arrives: which Redis keys have expired by then, and how its
environment answers while it is processed. -/
structure KafkaArrival where
  record : KafkaRecord
  expired : List String
  answers : List (Option Exc)

section
variable (loads : Option ByteArray → Except Exc (Body δ)) (rl : ReliabilityLayer σ ω δ)

def consumeOne (s : State σ) (a : KafkaArrival) : Except Exc (State σ) := do
  let record ← consume loads a.record
  let out := rl.deliver s ⟨record, a.expired, a.answers⟩
  out.result.map fun _ => out.world.st

/-- `_consumption_loop`: the state after the records, or what ended the loop
before it got through them. -/
def consumptionTask : State σ → List KafkaArrival → Except Exc (State σ)
  | s, [] => .ok s
  | s, a :: rest => do
    let s' ← consumeOne loads rl s a
    consumptionTask s' rest

def reached : State σ → List KafkaArrival → List (State σ × KafkaArrival)
  | _, [] => []
  | s, a :: rest =>
    (s.expire a.expired, a) ::
      match consumeOne loads rl s a with
      | .ok s' => reached s' rest
      | .error _ => []

end

-- ---------------------------------------------------------------------------
-- What is contained
-- ---------------------------------------------------------------------------

section
variable (deduplicator : Option DeduplicationManager) (errorHandler : Option ErrorHandler)

/-- What the first of the handler, the commit and the mark to fail raises, and
the answers that are left. -/
def firstFailure (value : Envelope δ) (as : List (Option Exc)) : Option (Exc × List (Option Exc)) :=
  match as.headD none, as.tail.headD none with
  | some e, _ => some (e, as.tail)
  | none, some e => some (e, as.tail.tail)
  | none, none =>
    if deduplicator.isSome && value.id.truthy then
      (as.tail.tail.headD none).map fun e => (e, as.tail.tail.tail)
    else none

/-- The error handler gets through an error: an event in the dead letter queue
is committed, the wait before a retry is not interrupted. -/
def ErrorContained (s : State Unit) (m : Record δ) (e : Exc) (as : List (Option Exc)) : Prop :=
  match errorHandler with
  | none => as.headD none = none
  | some _ =>
    match plan e (retries s m) with
    | .dlq _ => as.headD none = none → as.tail.headD none = none
    | .retry _ => as.headD none = none

/-- A message does not end the loop: it is an object, Redis can be asked
whether it is a duplicate, a duplicate is committed, and the error handler
gets through what the handler, the commit or the mark raises. -/
def Contained (s : State Unit) (m : Record δ) (as : List (Option Exc)) : Prop :=
  match m.value with
  | .other _ => False
  | .object value =>
    match lookupAnswers deduplicator s m value as with
    | some as' => ∀ e as'', firstFailure deduplicator value as' = some (e, as'') →
      ErrorContained errorHandler s m e as''
    | none =>
      if cacheKey value.id.text m.broker ∈ s.localCache then as.headD none = none
      else as.headD none = none ∧ as.tail.headD none = none

variable {deduplicator errorHandler}

theorem perform_ok_iff (op : ω) (as : List (Option ε)) (w : World σ ω ε) :
    ((Prog.perform op).exec as w).result = .ok () ↔ as.headD none = none := by
  rw [exec_perform]
  rcases as.headD none with _ | e <;> simp

theorem caught_ok (p : Prog σ ω ε α) (a : α) (as : List (Option ε)) (w : World σ ω ε) :
    ∃ b, ((tryCatch p fun _ => pure a).exec as w).result = .ok b := by
  rw [exec_tryCatch]
  rcases p.exec as w with ⟨_ | b, w', as'⟩
  · exact ⟨a, rfl⟩
  · exact ⟨b, rfl⟩

theorem onError_ok_iff (m : Record δ) (value : Envelope δ) (e : Exc) (as : List (Option Exc))
    (w : World (State Unit) (Op (Invocation δ) δ) Exc) :
    (((invoking deduplicator errorHandler).onError m value e).exec as w).result = .ok () ↔
      ErrorContained errorHandler w.st m e as := by
  rcases errorHandler with _ | eh
  · exact perform_ok_iff _ as w
  · simp only [ErrorContained]
    rcases hplan : plan e (retries w.st m) with reason | config
    · obtain ⟨event, hexec⟩ := sendToDlqAndCommit_exec eh m e reason (retries w.st m) as w
      rw [onError_dlq deduplicator eh w hplan, hexec]
      rcases as.headD none with _ | e'
      · simp only [commit, perform_ok_iff, forall_const]
      · simp
    · obtain ⟨counts, seconds, hexec⟩ := retryProcessing_exec eh m value e config (retries w.st m) as w
      rw [onError_retry deduplicator eh w hplan, hexec]
      rcases as.headD none with _ | e'
      · rcases as.tail.headD none with _ | e'
        · obtain ⟨retried, hretried⟩ := caught_ok
            (do ErrorHandler.delRetryCount m; commit m; pure true) false as.tail.tail
            ⟨{ w.st with messageRetryCount := counts },
              w.log ++ [(Op.sleep seconds, none), (Op.service (value, m.topic), none)]⟩
          exact iff_of_true (Outcome.andThen_result.mpr ⟨retried, hretried, rfl⟩) rfl
        · simp
      · simp

theorem forall_failure {failure : Option (Exc × List (Option Exc))} {P : Exc → List (Option Exc) → Prop}
    (h : failure = some (e, as)) : (∀ e' as', failure = some (e', as') → P e' as') ↔ P e as := by
  subst h
  refine ⟨fun hall => hall e as rfl, fun hP e' as' heq => ?_⟩
  cases heq
  exact hP

theorem forall_no_failure {failure : Option (Exc × List (Option Exc))}
    {P : Exc → List (Option Exc) → Prop} (h : failure = none) :
    ∀ e' as', failure = some (e', as') → P e' as' := by
  intro e' as' heq
  cases h.symm.trans heq

theorem markProcessed_ok (d : DeduplicationManager) (eventId broker : String)
    (w : World (State Unit) (Op (Invocation δ) δ) Exc) (h : as.headD none = none) :
    ((d.markProcessed eventId broker).exec as w).result = .ok () := by
  rw [markProcessed, exec_bind, exec_perform, h]
  rfl

theorem markProcessed_error (d : DeduplicationManager) (eventId broker : String)
    (w : World (State Unit) (Op (Invocation δ) δ) Exc) (h : as.headD none = some e) :
    (d.markProcessed eventId broker).exec as w =
      ⟨.error e, w.record (.setex (d.redisKey (cacheKey eventId broker)) d.ttlSeconds) (some e),
        as.tail⟩ := by
  rw [markProcessed, exec_bind, exec_perform, h]
  rfl

theorem orElse_ok {o : Outcome σ ω ε α} (h : o.result = .ok a)
    (f : ε → List (Option ε) → World σ ω ε → Outcome σ ω ε α) : (o.orElse f).result = .ok a := by
  rw [Outcome.orElse, h]

theorem guarded_ok_iff (m : Record δ) (value : Envelope δ) (as : List (Option Exc))
    (w : World (State Unit) (Op (Invocation δ) δ) Exc) :
    ((tryCatch ((invoking deduplicator errorHandler).attempt m value)
        ((invoking deduplicator errorHandler).onError m value)).exec as w).result = .ok () ↔
      ∀ e as', firstFailure deduplicator value as = some (e, as') →
        ErrorContained errorHandler w.st m e as' := by
  rcases hhandler : as.headD none with _ | e
  · rw [attempt_completes deduplicator errorHandler w hhandler, exec_tryCatch,
      ReliabilityLayer.commitAndMark, exec_bind, commit, exec_perform]
    rcases hcommit : as.tail.headD none with _ | e
    · rw [Outcome.andThen_ok]
      have hfirst : firstFailure deduplicator value as =
          if deduplicator.isSome && value.id.truthy then
            (as.tail.tail.headD none).map fun e => (e, as.tail.tail.tail)
          else none := by
        simp only [firstFailure, hhandler, hcommit]
      rcases deduplicator with _ | d
      · exact iff_of_true rfl (forall_no_failure hfirst)
      · by_cases hid : value.id.truthy
        · simp only [Option.isSome_some, hid, Bool.and_self, if_true] at hfirst
          simp only [invoking, hid, if_true]
          rcases hmark : as.tail.tail.headD none with _ | e
          · rw [hmark] at hfirst
            exact iff_of_true (orElse_ok (markProcessed_ok d _ _ _ hmark) _) (forall_no_failure hfirst)
          · rw [hmark] at hfirst
            rw [markProcessed_error d _ _ _ hmark, Outcome.orElse_error, forall_failure hfirst]
            exact onError_ok_iff m value e _ _
        · refine iff_of_true ?_ (forall_no_failure ?_)
          · simp [invoking, hid]
          · simp [hfirst, hid]
    · have hfirst : firstFailure deduplicator value as = some (e, as.tail.tail) := by
        simp only [firstFailure, hhandler, hcommit]
      rw [Outcome.andThen_error, Outcome.orElse_error, onError_ok_iff, forall_failure hfirst]
      rfl
  · obtain ⟨answers, rfl⟩ : ∃ answers, as = some e :: answers := by
      cases as with
      | nil => cases hhandler
      | cons a answers => exact ⟨answers, congrArg (· :: answers) hhandler⟩
    have hfirst : firstFailure deduplicator value (some e :: answers) = some (e, answers) := rfl
    rw [attempt_fails, onError_ok_iff, forall_failure hfirst]
    rfl

/-- A message that does not get to the handler: its duplicate check raises, or
it is a duplicate to commit. -/
theorem unhandled_ok_iff {m : Record δ} (hvalue : m.value = .object value)
    (hnone : lookupAnswers deduplicator s m value as = none) :
    (((invoking deduplicator errorHandler).processMessage m).exec as (World.start s)).result = .ok () ↔
      if cacheKey value.id.text m.broker ∈ s.localCache then as.headD none = none
      else as.headD none = none ∧ as.tail.headD none = none := by
  rcases deduplicator with _ | d
  · cases hnone
  have hid : value.id.truthy := by
    by_contra hid
    rw [Bool.not_eq_true] at hid
    simp [lookupAnswers, hid] at hnone
  simp only [ReliabilityLayer.processMessage, hvalue, exec_bind, ReliabilityLayer.alreadyProcessed,
    invoking, hid, if_true, isDuplicate, exec_get, Outcome.andThen_ok]
  by_cases hcache : cacheKey value.id.text m.broker ∈ s.localCache
  · simp only [World.start, hcache, if_true, exec_pure, Outcome.andThen_ok]
    exact perform_ok_iff _ as _
  · simp only [World.start, hcache, if_false, exec_bind]
    rw [exec_perform]
    rcases hexists : as.headD none with _ | e
    · have hredis : d.redisKey (cacheKey value.id.text m.broker) ∈ s.redis := by
        by_contra hredis
        have hsome : lookupAnswers (some d) s m value as = some as.tail := by
          simp only [lookupAnswers, hid, Bool.not_true, Bool.false_eq_true, if_false, hcache, hexists,
            Option.isSome_none]
          exact if_neg hredis
        cases hnone.symm.trans hsome
      simp only [Outcome.andThen_ok, exec_get, World.record, if_pos hredis, exec_bind, exec_modify,
        exec_pure, if_true, true_and]
      exact perform_ok_iff _ as.tail _
    · simp

/-- The loop goes on after a message exactly if it is contained. -/
theorem processMessage_ok_iff (deduplicator : Option DeduplicationManager)
    (errorHandler : Option ErrorHandler) (s : State Unit) (m : Record δ) (as : List (Option Exc)) :
    (((invoking deduplicator errorHandler).processMessage m).exec as (World.start s)).result = .ok () ↔
      Contained deduplicator errorHandler s m as := by
  unfold Contained
  rcases hvalue : m.value with value | v
  · dsimp only
    rcases hlookup : lookupAnswers deduplicator s m value as with _ | as'
    · exact unhandled_ok_iff hvalue hlookup
    · have hanswers : handlerAnswers deduplicator s m as = some as' := by
        simp only [handlerAnswers, hvalue, hlookup]
      obtain ⟨value', l, hvalue', -, hexec⟩ := processMessage_handled errorHandler hanswers
      cases hvalue.symm.trans hvalue'
      rw [hexec]
      exact guarded_ok_iff m value as' ⟨s, l⟩
  · simp [ReliabilityLayer.processMessage, hvalue]

/-- A record decodes, and its message is contained. -/
def Harmless (loads : Option ByteArray → Except Exc (Body δ))
    (deduplicator : Option DeduplicationManager) (errorHandler : Option ErrorHandler)
    (s : State Unit) (a : KafkaArrival) : Prop :=
  ∃ m, consume loads a.record = .ok m ∧ Contained deduplicator errorHandler s m a.answers

theorem consumeOne_ok_iff (loads : Option ByteArray → Except Exc (Body δ))
    (deduplicator : Option DeduplicationManager) (errorHandler : Option ErrorHandler)
    (s : State Unit) (a : KafkaArrival) :
    (∃ s', consumeOne loads (invoking deduplicator errorHandler) s a = .ok s') ↔
      Harmless loads deduplicator errorHandler (s.expire a.expired) a := by
  unfold consumeOne Harmless
  rcases consume loads a.record with e | m
  · simp [bind, Except.bind]
  · have hprocessed :=
      processMessage_ok_iff deduplicator errorHandler (s.expire a.expired) m a.answers
    simp only [Except.ok.injEq, exists_eq_left', ← hprocessed]
    simp only [bind, Except.bind, ReliabilityLayer.deliver]
    rcases (Prog.exec _ a.answers (World.start (s.expire a.expired))).result with e | _
    · simp [Except.map]
    · simp [Except.map]

/-- The consumption loop gets through all its records exactly if each record
it gets to is harmless: it decodes, is an object and can be checked for
duplicates, and what its handler, commit or mark raises is handled without a
failure. -/
theorem consumptionTask_ok_iff (loads : Option ByteArray → Except Exc (Body δ))
    (deduplicator : Option DeduplicationManager) (errorHandler : Option ErrorHandler)
    (s : State Unit) (arrivals : List KafkaArrival) :
    (∃ s', consumptionTask loads (invoking deduplicator errorHandler) s arrivals = .ok s') ↔
      ∀ x ∈ reached loads (invoking deduplicator errorHandler) s arrivals,
        Harmless loads deduplicator errorHandler x.1 x.2 := by
  induction arrivals generalizing s with
  | nil => exact iff_of_true ⟨s, rfl⟩ (List.forall_mem_nil _)
  | cons a rest ih =>
    have hone := consumeOne_ok_iff loads deduplicator errorHandler s a
    simp only [consumptionTask, reached, List.forall_mem_cons, ← hone]
    rcases consumeOne loads (invoking deduplicator errorHandler) s a with e | s'
    · simp [bind, Except.bind]
    · simpa [bind, Except.bind] using ih s'

end

def loadsOne : Option ByteArray → Except Exc (Body Unit)
  | some bytes =>
    if bytes.data = #[49] then .ok (.other (.int 1))
    else .error ⟨"JSONDecodeError", "unexpected character", .builtin⟩
  | none => .error ⟨"JSONDecodeError", "Input must be bytes", .builtin⟩

/-- A record whose value is the number 1 ends the loop. -/
theorem non_object_ends_loop : ¬ ∀ (loads : Option ByteArray → Except Exc (Body Unit)) deduplicator
    errorHandler s arrivals,
    ∃ s', consumptionTask loads (invoking deduplicator errorHandler) s arrivals = .ok s' := by
  intro hclaim
  obtain ⟨s', hs'⟩ := hclaim loadsOne none none (.start () [])
    [⟨⟨"paper.signals.raw", 0, 0, none, 0, some ⟨#[49]⟩, []⟩, [], []⟩]
  cases hs'

end AlphaPanda.Streaming
