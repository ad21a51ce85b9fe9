import AlphaPanda.Streaming.Delivery

/-!
# Commit safety

A commit is a high-water mark: it speaks for every record before it. A record
that the loop has left behind is settled, unless its handler failed and what
should have rescued it, the retry or the dead letter queue, failed as well;
the loop goes on all the same.
-/

namespace AlphaPanda.Streaming

open Coroutine DeduplicationManager

-- ---------------------------------------------------------------------------
-- Settled records
-- ---------------------------------------------------------------------------

def Handled (m : Record δ) (l : Log δ) : Prop :=
  ∃ value, m.value = .object value ∧ (.service (value, m.topic), none) ∈ l

def DeadLettered (m : Record δ) (l : Log δ) : Prop :=
  ∃ k event, (.sendDlq (m.topic ++ ".dlq") k event, none) ∈ l

/-- It was found to be a duplicate of an event that was `marked`. -/
def Recognised (deduplicator : Option DeduplicationManager) (marked : String → Prop)
    (m : Record δ) (before : State Unit) (l : Log δ) : Prop :=
  ∃ d value, deduplicator = some d ∧ Found d m value before l ∧ marked (d.eventKey m value)

def Marked (s₀ : State Unit) (ds : List (Delivery Unit (Invocation δ) δ)) (key : String) : Prop :=
  key ∈ s₀.redis ∨ ∃ d ∈ ds, ∃ ttl, (.setex key ttl, none) ∈ d.log

def Settled (deduplicator : Option DeduplicationManager) (marked : String → Prop)
    (m : Record δ) (before : State Unit) (l : Log δ) : Prop :=
  Handled m l ∨ DeadLettered m l ∨ Recognised deduplicator marked m before l

def committedOffset (l : Log δ) : ℕ :=
  (l.filterMap fun
    | (.commit _ _ offset, none) => some offset
    | _ => none).getLastD 0

def CommitSafe (deduplicator : Option DeduplicationManager) (s₀ : State Unit)
    (records : List (Record δ)) (ds : List (Delivery Unit (Invocation δ) δ)) : Prop :=
  ∀ m ∈ records, m.offset < committedOffset (ds.flatMap (·.log)) →
    ∃ earlier d later, ds = earlier ++ d :: later ∧ d.record = m ∧
      Settled deduplicator (Marked s₀ earlier) m d.before d.log

/-- The deliveries up to some moment of a run: the last one has got somewhere. -/
def UpTo (run ds : List (Delivery σ ω δ)) : Prop :=
  ∃ earlier d later l, run = earlier ++ d :: later ∧ l <+: d.log ∧
    ds = earlier ++ [{ d with log := l }]

def InOrder (records : List (Record δ)) : Prop :=
  records.Pairwise fun m m' =>
    m.topic = m'.topic ∧ m.partition = m'.partition ∧ m.offset < m'.offset

/-- If the handler is invoked and fails, what its error is given to succeeds:
the retry, or the publish on the dead letter topic. -/
def Rescued (deduplicator : Option DeduplicationManager) (s : State Unit) (m : Record δ)
    (as : List (Option Exc)) : Prop :=
  match handlerAnswers deduplicator s m as with
  | some (some e :: rest) =>
    match plan e (retries s m) with
    | .dlq _ => rest.headD none = none
    -- The wait before the retry comes first.
    | .retry _ => rest.headD none = none → rest.tail.headD none = none
  | _ => True

-- ---------------------------------------------------------------------------
-- One delivery
-- ---------------------------------------------------------------------------

def SettledHere (deduplicator : Option DeduplicationManager) (m : Record δ) (before : State Unit)
    (l : Log δ) : Prop :=
  Handled m l ∨ DeadLettered m l ∨ ∃ d value, deduplicator = some d ∧ Found d m value before l

/-- What every moment of a delivery keeps to: it commits only its own record,
and only when that is settled, Redis keeps what it held, and Redis and the
local cache hold only what they held before and what it marked. -/
structure Sound (deduplicator : Option DeduplicationManager) (m : Record δ) (before : State Unit)
    (w : World (State Unit) (Op (Invocation δ) δ) Exc) : Prop where
  commits : ∀ topic partition offset, (.commit topic partition offset, none) ∈ w.log →
    offset = m.offset + 1 ∧ SettledHere deduplicator m before w.log
  keeps : ∀ k ∈ before.redis, k ∈ w.st.redis
  redis : ∀ k ∈ w.st.redis, k ∈ before.redis ∨ ∃ ttl, (.setex k ttl, none) ∈ w.log
  cache : ∀ d, deduplicator = some d → ∀ k ∈ w.st.localCache, k ∈ before.localCache ∨
    d.redisKey k ∈ before.redis ∨ ∃ ttl, (.setex (d.redisKey k) ttl, none) ∈ w.log

section
variable {deduplicator : Option DeduplicationManager} {m : Record δ} {before : State Unit}
  {w w₀ : World (State Unit) (Op (Invocation δ) δ) Exc}

theorem SettledHere.append (h : SettledHere deduplicator m before l) (l' : Log δ) :
    SettledHere deduplicator m before (l ++ l') := by
  rcases h with ⟨value, hvalue, hmem⟩ | ⟨k, event, hmem⟩ | ⟨d, value, hd, hobject, hid, hhit⟩
  · exact .inl ⟨value, hvalue, List.mem_append_left _ hmem⟩
  · exact .inr (.inl ⟨k, event, List.mem_append_left _ hmem⟩)
  · refine .inr (.inr ⟨d, value, hd, hobject, hid, ?_⟩)
    exact hhit.imp_right fun h => ⟨List.mem_append_left _ h.1, h.2⟩

theorem Sound.start : Sound deduplicator m before (World.start before) := by
  refine ⟨?_, fun k hk => hk, fun k hk => .inl hk, fun d _ k hk => .inl hk⟩
  intro topic partition offset h
  cases h

theorem Sound.record (h : Sound deduplicator m before w)
    (hop : (∀ topic partition offset, op ≠ .commit topic partition offset) ∨
      op = .commit m.topic m.partition (m.offset + 1) ∧ SettledHere deduplicator m before w.log) :
    Sound deduplicator m before (w.record op r) := by
  obtain ⟨hcommits, hkeeps, hredis, hcache⟩ := h
  refine ⟨?_, hkeeps, ?_, ?_⟩
  · intro topic partition offset hmem
    rcases List.mem_append.mp hmem with hmem | hmem
    · obtain ⟨hoffset, hsettled⟩ := hcommits _ _ _ hmem
      exact ⟨hoffset, hsettled.append _⟩
    · rcases hop with hother | ⟨rfl, hsettled⟩
      · cases List.mem_singleton.mp hmem
        exact absurd rfl (hother topic partition offset)
      · cases List.mem_singleton.mp hmem
        exact ⟨rfl, hsettled.append _⟩
  · intro k hk
    rcases hredis k hk with hk | ⟨ttl, hk⟩
    · exact .inl hk
    · exact .inr ⟨ttl, List.mem_append_left _ hk⟩
  · intro d hd k hk
    rcases hcache d hd k hk with hk | hk | ⟨ttl, hk⟩
    · exact .inl hk
    · exact .inr (.inl hk)
    · exact .inr (.inr ⟨ttl, List.mem_append_left _ hk⟩)

theorem mem_evict (d : DeduplicationManager) (h : k ∈ d.evict n cache) : k ∈ cache := by
  induction n generalizing cache with
  | zero => exact h
  | succ n ih =>
    cases cache with
    | nil => exact h
    | cons x cache => exact List.mem_of_mem_erase (ih h)

theorem mem_addToLocalCache (d : DeduplicationManager) (h : k ∈ d.addToLocalCache k' cache) :
    k = k' ∨ k ∈ cache := by
  simp only [addToLocalCache, List.mem_insert_iff] at h
  refine h.imp_right fun h => ?_
  split at h
  · exact mem_evict d h
  · exact h

theorem commit_meets (h : Sound deduplicator m before w)
    (hsettled : SettledHere deduplicator m before w.log) :
    (commit m).Meets (fun w w' => w' = w) (fun _ => Sound deduplicator m before)
      (fun _ _ => Sound deduplicator m before) w₀ w := by
  simp only [commit, meets_perform]
  refine ⟨h, ?_⟩
  rintro w rfl
  exact ⟨h.record (.inr ⟨rfl, hsettled⟩), fun e => h.record (.inr ⟨rfl, hsettled⟩)⟩

theorem alreadyProcessed_meets (errorHandler : Option ErrorHandler)
    (hvalue : m.value = .object value) :
    ((invoking deduplicator errorHandler).alreadyProcessed m value.id).Meets (fun w w' => w' = w)
      (fun _ => Sound deduplicator m before)
      (fun r _ w => Sound deduplicator m before w ∧
        (r = .ok true → SettledHere deduplicator m before w.log))
      (World.start before) (World.start before) := by
  rcases deduplicator with _ | d
  · simp only [ReliabilityLayer.alreadyProcessed, invoking, meets_pure]
    refine ⟨Sound.start, fun h => ?_⟩
    cases h
  simp only [ReliabilityLayer.alreadyProcessed, invoking]
  split
  swap
  · refine ⟨Sound.start, fun h => ?_⟩
    cases h
  rename_i hid
  simp only [isDuplicate, meets_bind, meets_get]
  split
  · rename_i hcache
    exact ⟨Sound.start, fun _ => .inr (.inr ⟨d, value, rfl, hvalue, hid, .inl hcache⟩)⟩
  simp only [meets_bind, meets_perform, meets_get]
  refine ⟨Sound.start, ?_⟩
  rintro w rfl
  have hsound : ∀ r, Sound (some d) m before ((World.start before).record
      (.exists (d.redisKey (cacheKey value.id.text m.broker))) r) := fun r =>
    Sound.start.record (.inl fun _ _ _ h => by cases h)
  refine ⟨?_, fun e => ⟨hsound _, fun h => by cases h⟩⟩
  split
  · rename_i hredis
    simp only [meets_bind, meets_modify, meets_pure]
    obtain ⟨hcommits, hkeeps, hkeys, hcache⟩ := hsound none
    refine ⟨⟨hcommits, hkeeps, hkeys, ?_⟩,
      fun _ => .inr (.inr ⟨d, value, rfl, hvalue, hid, .inr ⟨?_, hredis⟩⟩)⟩
    · intro d' hd k hk
      cases hd
      rcases mem_addToLocalCache d hk with rfl | hk
      · exact .inr (.inl hredis)
      · exact hcache d rfl k hk
    · exact List.mem_append_right _ (List.mem_singleton.mpr rfl)
  · refine ⟨hsound none, fun h => ?_⟩
    cases h

theorem Sound.retryCount (h : Sound deduplicator m before w) (counts : Dict String ℕ) :
    Sound deduplicator m before ⟨{ w.st with messageRetryCount := counts }, w.log⟩ :=
  ⟨h.commits, h.keeps, h.redis, h.cache⟩

theorem handlerFunc_meets (errorHandler : Option ErrorHandler) (hvalue : m.value = .object value)
    (h : Sound deduplicator m before w) :
    ((invoking deduplicator errorHandler).handlerFunc value m.topic).Meets (fun w w' => w' = w)
      (fun _ => Sound deduplicator m before)
      (fun r _ w => Sound deduplicator m before w ∧
        (r = .ok () → SettledHere deduplicator m before w.log)) w₀ w := by
  simp only [invoking, meets_perform]
  refine ⟨h, ?_⟩
  rintro w rfl
  have hsound : ∀ r, Sound deduplicator m before (w.record (.service (value, m.topic)) r) := fun r =>
    h.record (.inl fun _ _ _ h => by cases h)
  refine ⟨⟨hsound none, fun _ => .inl ⟨value, hvalue, ?_⟩⟩, fun e => ⟨hsound _, fun h => ?_⟩⟩
  · exact List.mem_append_right _ (List.mem_singleton.mpr rfl)
  · cases h

theorem markProcessed_meets (d : DeduplicationManager) (h : Sound (some d) m before w) :
    (d.markProcessed eventId broker).Meets (fun w w' => w' = w) (fun _ => Sound (some d) m before)
      (fun _ _ => Sound (some d) m before) w₀ w := by
  simp only [markProcessed, meets_bind, meets_perform, meets_modify]
  refine ⟨h, ?_⟩
  rintro w rfl
  refine ⟨?_, fun e => h.record (.inl fun _ _ _ h => by cases h)⟩
  have hrecord : Sound (some d) m before
      (w.record (.setex (d.redisKey (cacheKey eventId broker)) d.ttlSeconds) none) :=
    h.record (.inl fun _ _ _ h => by cases h)
  obtain ⟨hcommits, hkeeps, hredis, hcache⟩ := hrecord
  have hmarked : ∃ ttl, (Op.setex (d.redisKey (cacheKey eventId broker)) ttl, none) ∈
      (w.record (.setex (d.redisKey (cacheKey eventId broker)) d.ttlSeconds) none).log :=
    ⟨_, List.mem_append_right _ (List.mem_singleton.mpr rfl)⟩
  refine ⟨hcommits, fun k hk => List.mem_insert_of_mem (hkeeps k hk), ?_, ?_⟩
  · intro k hk
    rcases List.mem_insert_iff.mp hk with rfl | hk
    · exact .inr hmarked
    · exact hredis k hk
  · intro d' hd k hk
    cases hd
    rcases mem_addToLocalCache d hk with rfl | hk
    · exact .inr (.inr hmarked)
    · exact hcache d rfl k hk

theorem attempt_meets (errorHandler : Option ErrorHandler) (hvalue : m.value = .object value)
    (h : Sound deduplicator m before w) :
    ((invoking deduplicator errorHandler).attempt m value).Meets (fun w w' => w' = w)
      (fun _ => Sound deduplicator m before) (fun _ _ => Sound deduplicator m before) w₀ w := by
  unfold ReliabilityLayer.attempt
  rw [meets_bind]
  refine (handlerFunc_meets errorHandler hvalue h).mono ?_
  rintro (e | _) w₁ w₂ ⟨h, hsettled⟩
  · exact h
  simp only [ReliabilityLayer.commitAndMark, meets_bind]
  refine (commit_meets h (hsettled rfl)).mono ?_
  rintro (e | _) w₁ w₂ h
  · exact h
  dsimp only
  rcases deduplicator with _ | d
  · exact h
  · simp only [invoking]
    split
    · exact markProcessed_meets d h
    · exact h

theorem sendToDlqAndCommit_meets (eh : ErrorHandler) (h : Sound deduplicator m before w) :
    (eh.sendToDlqAndCommit m e reason retryCount).Meets (fun w w' => w' = w)
      (fun _ => Sound deduplicator m before) (fun _ _ => Sound deduplicator m before) w₀ w := by
  simp only [ErrorHandler.sendToDlqAndCommit, ErrorHandler.sendToDlq, meets_bind, meets_tryCatch,
    meets_perform, meets_pure, if_true, Bool.false_eq_true, if_false, meets_modify]
  refine ⟨h, ?_⟩
  rintro w rfl
  have hsound : ∀ r, Sound deduplicator m before (w.record (.sendDlq (m.topic ++ ".dlq")
      (m.key.getD "None") (eh.dlqEvent m e reason retryCount)) r) := fun r =>
    h.record (.inl fun _ _ _ h => by cases h)
  refine ⟨?_, fun e => hsound _⟩
  have hsent : DeadLettered m (w.record (.sendDlq (m.topic ++ ".dlq") (m.key.getD "None")
      (eh.dlqEvent m e reason retryCount)) none).log :=
    ⟨_, _, List.mem_append_right _ (List.mem_singleton.mpr rfl)⟩
  exact commit_meets ((hsound none).retryCount _) (.inr (.inl hsent))

theorem retryProcessing_meets (eh : ErrorHandler) (errorHandler : Option ErrorHandler)
    (hvalue : m.value = .object value) (h : Sound deduplicator m before w) :
    (eh.retryProcessing ((invoking deduplicator errorHandler).handlerFunc value m.topic) m e config
      retryCount).Meets (fun w w' => w' = w) (fun _ => Sound deduplicator m before)
      (fun _ _ => Sound deduplicator m before) w₀ w := by
  simp only [ErrorHandler.retryProcessing, meets_bind, meets_modify, meets_perform, meets_tryCatch]
  refine ⟨h.retryCount _, ?_⟩
  rintro w rfl
  have hsound : ∀ r, Sound deduplicator m before (World.record ⟨{ w.st with
      messageRetryCount := w.st.messageRetryCount.set (messageKey m) (retryCount + 1) }, w.log⟩
      (.sleep (retryDelay e config retryCount (eh.random (messageKey m) retryCount))) r) := fun r =>
    (h.retryCount _).record (.inl fun _ _ _ h => by cases h)
  refine ⟨?_, fun e => hsound _⟩
  refine (handlerFunc_meets errorHandler hvalue (hsound none)).mono ?_
  rintro (e | _) w₁ w₂ ⟨h, hsettled⟩
  · exact h
  simp only [ErrorHandler.delRetryCount, meets_bind, meets_get]
  split
  · exact h
  · simp only [meets_set]
    refine (commit_meets (h.retryCount (w₂.st.messageRetryCount.pop (messageKey m)))
      (hsettled rfl)).mono ?_
    rintro (e | _) w₁ w₂ h <;> exact h

theorem onError_meets (eh : ErrorHandler) (hvalue : m.value = .object value)
    (h : Sound deduplicator m before w) :
    ((invoking deduplicator (some eh)).onError m value e).Meets (fun w w' => w' = w)
      (fun _ => Sound deduplicator m before) (fun _ _ => Sound deduplicator m before) w₀ w := by
  simp only [ReliabilityLayer.onError, invoking, meets_bind, ErrorHandler.handleProcessingError,
    meets_get]
  split
  · simp only [meets_bind]
    refine (sendToDlqAndCommit_meets eh h).mono ?_
    rintro (e | _) w₁ w₂ h <;> exact h
  · refine (retryProcessing_meets eh (some eh) hvalue h).mono ?_
    rintro (e | _) w₁ w₂ h <;> exact h

theorem processMessage_meets (deduplicator : Option DeduplicationManager) (eh : ErrorHandler)
    (m : Record δ) (before : State Unit) :
    ((invoking deduplicator (some eh)).processMessage m).Meets (fun w w' => w' = w)
      (fun _ => Sound deduplicator m before) (fun _ _ => Sound deduplicator m before)
      (World.start before) (World.start before) := by
  unfold ReliabilityLayer.processMessage
  split
  · exact Sound.start
  rename_i value hvalue
  rw [meets_bind]
  refine (alreadyProcessed_meets (some eh) hvalue).mono ?_
  rintro (e | duplicate) w₁ w₂ ⟨h, hdup⟩
  · exact h
  dsimp only
  split
  · rename_i hyes
    subst hyes
    exact commit_meets h (hdup rfl)
  · rw [meets_tryCatch]
    refine (attempt_meets (some eh) hvalue h).mono ?_
    rintro (e | _) w₁ w₂ h
    · exact onError_meets eh hvalue h
    · exact h

theorem settled_of_rescued (eh : ErrorHandler) (hrescued : Rescued deduplicator before m as) :
    let out := ((invoking deduplicator (some eh)).processMessage m).exec as (World.start before)
    out.result = .ok () → SettledHere deduplicator m before out.world.log := by
  intro out hok
  rcases hanswers : handlerAnswers deduplicator before m as with _ | as'
  · exact .inr (.inr ((processMessage_unhandled (some eh) hanswers).2.2 hok))
  obtain ⟨value, l, hvalue, -, hexec⟩ := processMessage_handled (some eh) hanswers
  simp only [Rescued, hanswers] at hrescued
  have hout : out = _ := hexec
  rcases hfirst : as'.headD none with _ | e
  · -- The handler completes.
    rw [attempt_completes _ _ _ hfirst] at hout
    rw [hout]
    exact .inl ⟨value, hvalue, mem_log_exec _ _ (List.mem_append_right _ (List.mem_singleton.mpr rfl))⟩
  obtain ⟨rest, rfl⟩ : ∃ rest, as' = some e :: rest := by
    cases as' with
    | nil => cases hfirst
    | cons a rest => exact ⟨rest, congrArg (· :: rest) hfirst⟩
  rw [attempt_fails] at hout
  simp only at hrescued
  rcases hplan : plan e (retries before m) with reason | config
  · -- It is dead-lettered.
    rw [onError_dlq deduplicator eh (World.record ⟨before, l⟩ (.service (value, m.topic)) (some e))
      hplan] at hout
    simp only [hplan] at hrescued
    obtain ⟨event, hsend⟩ := sendToDlqAndCommit_exec eh m e reason
      (retries (World.record ⟨before, l⟩ (.service (value, m.topic)) (some e)).st m) rest
      (World.record ⟨before, l⟩ (.service (value, m.topic)) (some e))
    rw [hsend, hrescued] at hout
    rw [hout]
    exact .inr (.inl ⟨_, event, mem_log_exec _ _ (List.mem_append_right _ (List.mem_singleton.mpr rfl))⟩)
  · -- It is retried.
    rw [onError_retry deduplicator eh (World.record ⟨before, l⟩ (.service (value, m.topic)) (some e))
      hplan] at hout
    simp only [hplan] at hrescued
    obtain ⟨counts, seconds, hretry⟩ := retryProcessing_exec eh m value e config
      (retries (World.record ⟨before, l⟩ (.service (value, m.topic)) (some e)).st m) rest
      (World.record ⟨before, l⟩ (.service (value, m.topic)) (some e))
    rw [hretry] at hout
    rcases hwait : rest.headD none with _ | e'
    · rw [hwait, hrescued hwait] at hout
      rw [hout, Outcome.andThen_world]
      exact .inl ⟨value, hvalue, mem_log_exec _ _ (List.mem_append_right _ (by simp))⟩
    · rw [hwait, Outcome.andThen_error] at hout
      rw [hout] at hok
      cases hok

end

-- ---------------------------------------------------------------------------
-- Runs
-- ---------------------------------------------------------------------------

structure Backed (deduplicator : Option DeduplicationManager) (marked : String → Prop)
    (s : State Unit) : Prop where
  redis : ∀ k ∈ s.redis, marked k
  cache : ∀ d, deduplicator = some d → ∀ k ∈ s.localCache, marked (d.redisKey k)

section
variable {deduplicator : Option DeduplicationManager} {marked : String → Prop} {eh : ErrorHandler}

theorem Backed.expire (h : Backed deduplicator marked s) (expired : List String) :
    Backed deduplicator marked (s.expire expired) :=
  ⟨fun k hk => h.redis k (List.mem_filter.mp hk).1, h.cache⟩

theorem Backed.mono (h : Backed deduplicator marked s) (hm : ∀ k, marked k → marked' k) :
    Backed deduplicator marked' s :=
  ⟨fun k hk => hm k (h.redis k hk), fun d hd k hk => hm _ (h.cache d hd k hk)⟩

theorem Backed.deliver (h : Backed deduplicator marked s) (a : Arrival δ) :
    Backed deduplicator
      (fun k => marked k ∨
        ∃ ttl, (.setex k ttl, none) ∈ ((invoking deduplicator (some eh)).delivery s a).log)
      ((invoking deduplicator (some eh)).deliver s a).world.st := by
  have hmeets := processMessage_meets deduplicator eh a.record (s.expire a.expired)
  have hsound : Sound deduplicator a.record (s.expire a.expired)
      ((invoking deduplicator (some eh)).deliver s a).world := Prog.Meets.exec hmeets a.answers
  obtain ⟨hredis, hcache⟩ := h.expire a.expired
  refine ⟨fun k hk => ?_, fun d hd k hk => ?_⟩
  · exact (hsound.redis k hk).imp_left (hredis k)
  · rcases hsound.cache d hd k hk with hk | hk | hk
    · exact .inl (hcache d hd k hk)
    · exact .inl (hredis _ hk)
    · exact .inr hk

/-- What a delivery that the loop gets to was preceded by: deliveries that did
not raise, and marks for all that Redis and the local cache hold. -/
theorem consumptionLoop_split {arrivals : List (Arrival δ)} {s : State Unit}
    (hs : Backed deduplicator marked s)
    (h : (invoking deduplicator (some eh)).consumptionLoop s arrivals = earlier ++ d :: later) :
    (∃ s', d = (invoking deduplicator (some eh)).delivery s' d.arrival) ∧
      (∃ rest, arrivals = earlier.map (·.arrival) ++ d.arrival :: rest) ∧
      (∀ d' ∈ earlier, d'.result = .ok ()) ∧
      Backed deduplicator
        (fun k => marked k ∨ ∃ d' ∈ earlier, ∃ ttl, (.setex k ttl, none) ∈ d'.log) d.before := by
  induction earlier generalizing s arrivals marked with
  | nil =>
    cases arrivals with
    | nil => cases h
    | cons a rest =>
      simp only [ReliabilityLayer.consumptionLoop, List.nil_append, List.cons.injEq] at h
      obtain ⟨rfl, -⟩ := h
      refine ⟨⟨s, rfl⟩, ⟨rest, rfl⟩, ?_, (hs.expire _).mono fun k hk => .inl hk⟩
      intro d' hd'
      cases hd'
  | cons d₀ earlier ih =>
    cases arrivals with
    | nil => cases h
    | cons a rest =>
      simp only [ReliabilityLayer.consumptionLoop, List.cons_append, List.cons.injEq] at h
      obtain ⟨rfl, h⟩ := h
      rcases hresult : ((invoking deduplicator (some eh)).deliver s a).result with e | ⟨⟩
      · rw [hresult] at h
        cases earlier <;> cases h
      · rw [hresult] at h
        obtain ⟨hd, ⟨rest', hrest⟩, hok, hbacked⟩ := ih (hs.deliver a) h
        refine ⟨hd, ⟨rest', ?_⟩, ?_, hbacked.mono ?_⟩
        · rw [hrest]
          rfl
        · intro d' hd'
          rcases List.mem_cons.mp hd' with rfl | hd'
          · exact hresult
          · exact hok d' hd'
        · rintro k ((hk | ⟨ttl, hk⟩) | ⟨d', hd', hk⟩)
          · exact .inl hk
          · exact .inr ⟨_, List.mem_cons_self, ttl, hk⟩
          · exact .inr ⟨d', List.mem_cons_of_mem _ hd', hk⟩

theorem SettledHere.settled (h : SettledHere deduplicator m before l)
    (hb : Backed deduplicator marked before) : Settled deduplicator marked m before l := by
  rcases h with h | h | ⟨d, value, hd, hobject, hid, hhit⟩
  · exact .inl h
  · exact .inr (.inl h)
  · refine .inr (.inr ⟨d, value, hd, ⟨hobject, hid, hhit⟩, ?_⟩)
    rcases hhit with hhit | hhit
    · exact hb.cache d hd _ hhit
    · exact hb.redis _ hhit.2

theorem committedOffset_mem {l : Log δ} (h : 0 < committedOffset l) :
    ∃ topic partition, (.commit topic partition (committedOffset l), none) ∈ l := by
  unfold committedOffset at h ⊢
  generalize hoffsets : List.filterMap _ l = offsets at h ⊢
  rcases List.eq_nil_or_concat offsets with rfl | ⟨init, offset, rfl⟩
  · cases h
  have hmem : offset ∈ init.concat offset := by simp
  rw [← hoffsets, List.mem_filterMap] at hmem
  obtain ⟨⟨op, r⟩, hmem, hop⟩ := hmem
  split at hop
  · rename_i topic partition offset' heq
    cases heq
    cases hop
    exact ⟨topic, partition, by simpa using hmem⟩
  · cases hop

theorem commit_settled (s : State Unit) (a : Arrival δ) {l : Log δ}
    (hl : l <+: ((invoking deduplicator (some eh)).delivery s a).log)
    (hcommit : (.commit topic partition offset, none) ∈ l) :
    offset = a.record.offset + 1 ∧ SettledHere deduplicator a.record (s.expire a.expired) l := by
  have hmeets := processMessage_meets deduplicator eh a.record (s.expire a.expired)
  obtain ⟨st, hsound⟩ := hmeets.always a.answers List.nil_prefix hl
  exact hsound.commits _ _ _ hcommit

theorem start_backed (deduplicator : Option DeduplicationManager) (redis : List String) :
    Backed deduplicator (· ∈ redis) (.start () redis) := by
  refine ⟨fun k hk => hk, fun d _ k hk => ?_⟩
  cases hk

theorem passed_settled {redis : List String} {arrivals : List (Arrival δ)}
    (hrescued : ∀ d ∈ (invoking deduplicator (some eh)).consumptionLoop (.start () redis) arrivals,
      Rescued deduplicator d.before d.record d.arrival.answers)
    (hrun : (invoking deduplicator (some eh)).consumptionLoop (.start () redis) arrivals =
      earlier ++ d :: later) (hd : d' ∈ earlier) :
    ∃ before after, earlier = before ++ d' :: after ∧
      Settled deduplicator (Marked (.start () redis) before) d'.record d'.before d'.log := by
  obtain ⟨-, -, hok, -⟩ := consumptionLoop_split (start_backed deduplicator redis) hrun
  obtain ⟨before, after, rfl⟩ := List.append_of_mem hd
  refine ⟨before, after, rfl, ?_⟩
  have hmem : d' ∈ (invoking deduplicator (some eh)).consumptionLoop (.start () redis) arrivals := by
    rw [hrun]
    exact List.mem_append_left _ hd
  have hresult := hok d' hd
  rw [List.append_assoc, List.cons_append] at hrun
  obtain ⟨⟨s, hs⟩, -, -, hbacked⟩ := consumptionLoop_split (start_backed deduplicator redis) hrun
  have hsettled : SettledHere deduplicator d'.record d'.before d'.log := by
    have hres := hrescued d' hmem
    rw [hs] at hres hresult ⊢
    exact settled_of_rescued eh hres hresult
  exact hsettled.settled hbacked

/-- What is committed by some moment of a run is a delivery before the last one,
or the last one itself, whose record is settled then. -/
theorem committed_cases {redis : List String} {arrivals : List (Arrival δ)}
    {earlier later : List (Delivery Unit (Invocation δ) δ)} {d : Delivery Unit (Invocation δ) δ}
    (hrun : (invoking deduplicator (some eh)).consumptionLoop (.start () redis) arrivals =
      earlier ++ d :: later) (hl : l <+: d.log)
    (hearlier : ∀ d' ∈ earlier, d'.arrival.record.offset < d.arrival.record.offset)
    (hcommit : (Op.commit topic partition committed, none) ∈
      (earlier ++ [{ d with log := l }]).flatMap Delivery.log) :
    committed ≤ d.arrival.record.offset ∨
      committed = d.arrival.record.offset + 1 ∧ SettledHere deduplicator d.record d.before l := by
  obtain ⟨d', hd', hlog⟩ := List.mem_flatMap.mp hcommit
  rcases List.mem_append.mp hd' with hd' | hd'
  · obtain ⟨before, after, hsplit⟩ := List.append_of_mem hd'
    rw [hsplit, List.append_assoc, List.cons_append] at hrun
    obtain ⟨⟨s, hs⟩, -⟩ := consumptionLoop_split (start_backed deduplicator redis) hrun
    rw [hs] at hlog
    obtain ⟨hcommitted, -⟩ := commit_settled s d'.arrival List.prefix_rfl hlog
    have := hearlier d' hd'
    left
    omega
  · cases List.mem_singleton.mp hd'
    obtain ⟨⟨s, hs⟩, -⟩ := consumptionLoop_split (start_backed deduplicator redis) hrun
    rw [hs] at hl ⊢
    exact .inr (commit_settled s d.arrival hl hlog)

/-- The consumption loop is commit-safe at every moment of a run in which each
failed handler was rescued.

Premise: the records of one partition, in their order. -/
theorem commit_safe (deduplicator : Option DeduplicationManager) (eh : ErrorHandler)
    (redis : List String) {arrivals : List (Arrival δ)}
    (horder : InOrder (arrivals.map (·.record)))
    (hrescued : ∀ d ∈ (invoking deduplicator (some eh)).consumptionLoop (.start () redis) arrivals,
      Rescued deduplicator d.before d.record d.arrival.answers)
    (hds : UpTo ((invoking deduplicator (some eh)).consumptionLoop (.start () redis) arrivals) ds) :
    CommitSafe deduplicator (.start () redis) (arrivals.map (·.record)) ds := by
  obtain ⟨earlier, d, later, l, hrun, hl, rfl⟩ := hds
  obtain ⟨-, ⟨rest, harrivals⟩, -, hbacked⟩ :=
    consumptionLoop_split (start_backed deduplicator redis) hrun
  intro m hm hlt
  obtain ⟨topic, partition, hcommit⟩ := committedOffset_mem (Nat.zero_lt_of_lt hlt)
  generalize committedOffset _ = committed at hlt hcommit
  rw [harrivals, List.map_append, List.map_map, List.map_cons] at hm horder
  obtain ⟨-, hafter, hbefore⟩ := List.pairwise_append.mp horder
  rw [List.pairwise_cons] at hafter
  have hearlier : ∀ d' ∈ earlier, d'.arrival.record.offset < d.arrival.record.offset := by
    intro d' hd'
    have hmem : d'.record ∈ earlier.map (Arrival.record ∘ fun d => d.arrival) :=
      List.mem_map_of_mem hd'
    exact (hbefore _ hmem _ List.mem_cons_self).2.2
  have hwhich := committed_cases hrun hl hearlier hcommit
  rcases List.mem_append.mp hm with hm | hm
  · -- The loop went on from `m`.
    obtain ⟨d', hd', rfl⟩ := List.mem_map.mp hm
    obtain ⟨before, after, rfl, hsettled⟩ := passed_settled hrescued hrun hd'
    exact ⟨before, d', after ++ [{ d with log := l }], by simp, rfl, hsettled⟩
  · rcases List.mem_cons.mp hm with rfl | hm
    · rcases hwhich with hle | ⟨-, hsettled⟩
      · omega
      · exact ⟨earlier, _, [], rfl, rfl, hsettled.settled hbacked⟩
    · have := (hafter.1 m hm).2.2
      omega

end

def recordAt (offset : ℕ) : Record Unit :=
  ⟨"paper.signals.validated", 0, offset, none, 0, .object ⟨.null, .str "validated_signal", ()⟩⟩

def withoutJitter : ErrorHandler := ⟨"paper_trading", fun _ _ => 1⟩

/-- A malformed record goes to the dead letter queue, the next is handled. -/
def deadLettered : List (Arrival Unit) :=
  [⟨recordAt 0, [], [some ⟨"ValueError", "", .builtin⟩]⟩, ⟨recordAt 1, [], []⟩]

theorem deadLettered_safe : ∃ d ds,
    (invoking none (some withoutJitter)).consumptionLoop (.start () []) deadLettered = ds ++ [d] ∧
      committedOffset ((ds ++ [d]).flatMap (·.log)) = 2 ∧
      CommitSafe none (.start () []) (deadLettered.map (·.record)) (ds ++ [d]) := by
  refine ⟨_, [_], rfl, by decide +kernel, commit_safe none withoutJitter [] ?_ ?_ ?_⟩
  · simp [InOrder, deadLettered, recordAt]
  · intro d hd
    have hpoison : plan ⟨"ValueError", "", .builtin⟩ 0 = .dlq "processing_failed" := by decide +kernel
    rcases List.mem_cons.mp hd with rfl | hd
    · simp only [Rescued, ReliabilityLayer.delivery, handlerAnswers, recordAt,
        lookupAnswers]
      rw [show retries _ _ = 0 from rfl, hpoison]
      rfl
    · cases List.mem_singleton.mp hd
      trivial
  · exact ⟨[_], _, [], _, rfl, List.prefix_rfl, rfl⟩

/-- A handler that fails at the retry as well is left behind, and the next
record's commit passes it. -/
def leftBehind : List (Arrival Unit) :=
  [⟨recordAt 0, [], [some ⟨"RuntimeError", "", .builtin⟩, none, some ⟨"RuntimeError", "", .builtin⟩]⟩,
   ⟨recordAt 1, [], []⟩]

def settles : Op (Invocation Unit) Unit × Option Exc → Bool
  | (.service _, none) | (.sendDlq .., none) => true
  | _ => false

theorem commit_passes_failed : ¬ ∀ deduplicator eh redis (arrivals : List (Arrival Unit)) ds,
    InOrder (arrivals.map (·.record)) →
      UpTo ((invoking deduplicator (some eh)).consumptionLoop (.start () redis) arrivals) ds →
      CommitSafe deduplicator (.start () redis) (arrivals.map (·.record)) ds := by
  intro hclaim
  generalize hrun : (invoking none (some withoutJitter)).consumptionLoop (.start () []) leftBehind =
    run
  have hfacts : run.length = 2 ∧ committedOffset (run.flatMap (·.log)) = 2 ∧
      ∀ d ∈ run, d.record = recordAt 0 → d.log.all fun x => !settles x := by
    subst hrun
    decide +kernel
  obtain ⟨hlength, hcommitted, hfailed⟩ := hfacts
  obtain ⟨d₀, d₁, rfl⟩ := List.length_eq_two.mp hlength
  have hsafe := hclaim none withoutJitter [] leftBehind [d₀, d₁]
    (by simp [InOrder, leftBehind, recordAt])
    (by rw [hrun]; exact ⟨[d₀], d₁, [], d₁.log, rfl, List.prefix_rfl, rfl⟩)
  obtain ⟨earlier, d, later, hds, hd, hsettled⟩ := hsafe (recordAt 0) List.mem_cons_self
    (by rw [hcommitted]; decide)
  have hnone := hfailed d (by rw [hds]; simp) hd
  rw [List.all_eq_true] at hnone
  rcases hsettled with ⟨value, -, hmem⟩ | ⟨k, event, hmem⟩ | ⟨d', -, hnodedup, -⟩
  · cases hnone _ hmem
  · cases hnone _ hmem
  · cases hnodedup

end AlphaPanda.Streaming
