import AlphaPanda.Streaming.CommitSafety

/-!
# Effectively once

A handler that has completed for an event is not invoked for it again, as
long as each completion is marked: that of a first attempt whose commit and
mark succeed. A completion that is not marked is invoked again, by the retry
that a failed commit or mark leads to or by the next delivery.
-/

namespace AlphaPanda.Streaming

open Coroutine DeduplicationManager

/-- `x` is an invocation that completed, `y` one for the same event. -/
def reinvokes : Op (Invocation δ) δ × Option Exc → Op (Invocation δ) δ × Option Exc → Bool
  | (.service (value, topic), none), (.service (value', topic'), _) =>
    value.id = value'.id && topic = topic'
  | _, _ => false

/-- Once the handler has completed for an event, it is not invoked again. -/
def EffectivelyOnce (ds : List (Delivery Unit (Invocation δ) δ)) : Prop :=
  (ds.flatMap (·.log)).Pairwise fun x y => !reinvokes x y

/-- If an invocation of the handler completes, it is the first one, and the
commit and the mark after it succeed. -/
def MarksCompletion (d : DeduplicationManager) (s : State Unit) (m : Record δ)
    (as : List (Option Exc)) : Prop :=
  match handlerAnswers (some d) s m as with
  | none => True
  | some as' =>
    match as'.headD none with
    | none => ∀ r ∈ as'.tail.take 2, r = none
    | some e =>
      match plan e (retries s m) with
      | .dlq _ => True
      | .retry _ => as'.tail.headD none = none → as'.tail.tail.headD none ≠ none

-- ---------------------------------------------------------------------------
-- One delivery
-- ---------------------------------------------------------------------------

/-- What a delivery that marks its completion does: it stops before the
handler, or the handler fails throughout, or it completes once and the event
is marked. -/
inductive Effect (d : DeduplicationManager) (m : Record δ) (s : State Unit) :
    World (State Unit) (Op (Invocation δ) δ) Exc → Prop where
  | unhandled (hlog : ∀ i r, (.service i, r) ∉ w.log) (hredis : w.st.redis = s.redis) : Effect d m s w
  | failed (hvalue : m.value = .object value) (hnew : d.eventKey m value ∉ s.redis)
    (hlog : ∀ i r, (.service i, r) ∈ w.log → i = (value, m.topic) ∧ r ≠ none)
    (hredis : w.st.redis = s.redis) : Effect d m s w
  | completed (hvalue : m.value = .object value) (hnew : d.eventKey m value ∉ s.redis)
    (hl : Log.LooksUp l)
    (hlog : w.log = l ++ [(.service (value, m.topic), none),
      (.commit m.topic m.partition (m.offset + 1), none),
      (.setex (d.eventKey m value) d.ttlSeconds, none)])
    (hredis : w.st.redis = s.redis.insert (d.eventKey m value)) : Effect d m s w

section
variable {d : DeduplicationManager} {eh : ErrorHandler} {m : Record δ} {s : State Unit}

theorem handlerAnswers_new (hsome : handlerAnswers (some d) s m as = some as')
    (hvalue : m.value = .object value) (hid : value.id.truthy) : d.eventKey m value ∉ s.redis := by
  simp only [handlerAnswers, hvalue, lookupAnswers, hid, Bool.not_true, Bool.false_eq_true,
    if_false] at hsome
  split at hsome
  · cases hsome
  split at hsome
  · cases hsome
  split at hsome
  · cases hsome
  · rename_i hnew
    exact hnew

theorem headD_of_take {as : List (Option Exc)} (h : ∀ r ∈ as.take 2, r = none) :
    as.headD none = none ∧ as.tail.headD none = none := by
  rcases as with _ | ⟨a, _ | ⟨b, as⟩⟩
  · exact ⟨rfl, rfl⟩
  · exact ⟨h a (by simp), rfl⟩
  · exact ⟨h a (by simp), h b (by simp)⟩

theorem Log.LooksUp.mem_service {l l' : Log δ} (hl : l.LooksUp) (h : (.service i, r) ∈ l ++ l') :
    (.service i, r) ∈ l' := by
  rcases List.mem_append.mp h with h | h
  · obtain ⟨k, hk⟩ := hl _ _ h
    cases hk
  · exact h

theorem onError_effect (hvalue : m.value = .object value)
    (hnew : d.eventKey m value ∉ s.redis) (hl : Log.LooksUp l)
    (hretry : ∀ config, plan e (retries s m) = .retry config →
      rest.headD none = none → rest.tail.headD none ≠ none) :
    Effect d m s (((invoking (some d) (some eh)).onError m value e).exec rest
      (World.record ⟨s, l⟩ (.service (value, m.topic)) (some e))).world := by
  generalize hw : World.record ⟨s, l⟩ (.service (value, m.topic)) (some e) = w
  have hst : w.st = s := by rw [← hw]; rfl
  have hlog : w.log = l ++ [(.service (value, m.topic), some e)] := by rw [← hw]; rfl
  rcases hplan : plan e (retries w.st m) with reason | config
  · rw [onError_dlq (some d) eh w hplan]
    obtain ⟨event, hsend⟩ := sendToDlqAndCommit_exec eh m e reason (retries w.st m) rest w
    rw [hsend]
    rcases rest.headD none with _ | e'
    · refine .failed hvalue hnew (fun i r hmem => ?_) ?_
      · simp only [commit, exec_perform, World.record, hlog, List.append_assoc] at hmem
        have hin := hl.mem_service hmem
        grind
      · simp only [commit, exec_perform, World.record, hst]
    · refine .failed hvalue hnew (fun i r hmem => ?_) (congrArg State.redis hst :)
      simp only [hlog, List.append_assoc] at hmem
      have hin := hl.mem_service hmem
      grind
  · rw [onError_retry (some d) eh w hplan, Outcome.andThen_world]
    obtain ⟨counts, seconds, hexec⟩ := retryProcessing_exec eh m value e config (retries w.st m) rest w
    rw [hexec]
    have hfails := hretry config (by rw [← hst]; exact hplan)
    rcases hwait : rest.headD none with _ | e'
    · rcases hagain : rest.tail.headD none with _ | e'
      · exact absurd hagain (hfails hwait)
      · refine .failed hvalue hnew (fun i r hmem => ?_) (congrArg State.redis hst :)
        simp only [hlog, List.append_assoc] at hmem
        have hin := hl.mem_service hmem
        grind
    · refine .failed hvalue hnew (fun i r hmem => ?_) (congrArg State.redis hst :)
      simp only [hlog, List.append_assoc] at hmem
      have hin := hl.mem_service hmem
      grind

theorem delivery_effect (hid : ∀ value, m.value = .object value → value.id.truthy)
    (hmarks : MarksCompletion d s m as) :
    Effect d m s (((invoking (some d) (some eh)).processMessage m).exec as (World.start s)).world := by
  rcases hanswers : handlerAnswers (some d) s m as with _ | as'
  · obtain ⟨hlog, hredis, -⟩ := processMessage_unhandled (some eh) hanswers
    exact .unhandled hlog hredis
  obtain ⟨value, l, hvalue, hl, hexec⟩ := processMessage_handled (some eh) hanswers
  have hnew := handlerAnswers_new hanswers hvalue (hid value hvalue)
  simp only [MarksCompletion, hanswers] at hmarks
  rw [hexec]
  rcases hfirst : as'.headD none with _ | e
  · -- The handler completes, and so do the commit and the mark.
    simp only [hfirst] at hmarks
    obtain ⟨hcommit, hmark⟩ := headD_of_take hmarks
    rw [attempt_completes _ _ _ hfirst]
    simp only [ReliabilityLayer.commitAndMark, invoking, hid value hvalue, commit, markProcessed,
      exec_tryCatch, exec_bind, exec_perform, hcommit, hmark, if_true, Outcome.andThen_ok, exec_modify,
      Outcome.orElse_ok]
    refine .completed hvalue hnew hl ?_ rfl
    simp only [World.record, List.append_assoc, List.cons_append, List.nil_append]
    rfl
  obtain ⟨rest, rfl⟩ : ∃ rest, as' = some e :: rest := by
    cases as' with
    | nil => cases hfirst
    | cons a rest => exact ⟨rest, congrArg (· :: rest) hfirst⟩
  simp only [List.headD_cons, List.tail_cons] at hmarks
  rw [attempt_fails]
  refine onError_effect hvalue hnew hl fun config hplan => ?_
  simpa only [hplan] using hmarks

-- ---------------------------------------------------------------------------
-- Runs
-- ---------------------------------------------------------------------------

theorem of_reinvokes {x y : Op (Invocation δ) δ × Option Exc} (h : reinvokes x y) :
    ∃ value value' topic r, x = (.service (value, topic), none) ∧
      y = (.service (value', topic), r) ∧ value.id = value'.id := by
  unfold reinvokes at h
  split at h
  · rename_i value topic value' topic' r
    simp only [Bool.and_eq_true, decide_eq_true_eq] at h
    obtain ⟨hid, rfl⟩ := h
    exact ⟨value, value', topic, r, rfl, rfl, hid⟩
  · cases h

/-- Every event that a handler completed for is marked in Redis. -/
def CompletedMarked (d : DeduplicationManager) (past : Log δ) (s : State Unit) : Prop :=
  ∀ value topic, (.service (value, topic), none) ∈ past →
    d.redisKey (cacheKey value.id.text (brokerOf topic)) ∈ s.redis

theorem Effect.new {w : World (State Unit) (Op (Invocation δ) δ) Exc} (h : Effect d m s w)
    (hmem : (.service (value, topic), r) ∈ w.log) :
    topic = m.topic ∧ d.redisKey (cacheKey value.id.text (brokerOf topic)) ∉ s.redis := by
  cases h with
  | unhandled hlog => exact absurd hmem (hlog _ _)
  | failed hvalue hnew hlog =>
    obtain ⟨hi, -⟩ := hlog _ _ hmem
    cases hi
    exact ⟨rfl, hnew⟩
  | completed hvalue hnew hl hlog =>
    rw [hlog] at hmem
    have hin := hl.mem_service hmem
    simp only [List.mem_cons, Prod.mk.injEq, Op.service.injEq, reduceCtorEq, false_and,
      List.not_mem_nil, or_false] at hin
    obtain ⟨⟨rfl, rfl⟩, -⟩ := hin
    exact ⟨rfl, hnew⟩

theorem Effect.once {w : World (State Unit) (Op (Invocation δ) δ) Exc} (h : Effect d m s w) :
    w.log.Pairwise fun x y => !reinvokes x y := by
  have hnever : ∀ l : Log δ, (∀ i, (.service i, none) ∉ l) → ∀ x ∈ l, ∀ y, !reinvokes x y := by
    intro l hl x hx y
    by_contra hre
    simp only [Bool.not_eq_true', Bool.not_eq_false] at hre
    obtain ⟨value, value', topic, r, rfl, -, -⟩ := of_reinvokes hre
    exact hl _ hx
  cases h with
  | unhandled hlog =>
    exact List.pairwise_of_forall_mem_list fun x hx y _ => hnever _ (fun i => hlog i none) x hx y
  | failed hvalue hnew hlog =>
    refine List.pairwise_of_forall_mem_list fun x hx y _ => hnever _ (fun i hi => ?_) x hx y
    exact (hlog _ _ hi).2 rfl
  | @completed value l w hvalue hnew hl hlog =>
    have hlookup : ∀ i, ((.service i, none) : Op (Invocation δ) δ × Option Exc) ∉ l := by
      intro i hi
      obtain ⟨k, hk⟩ := hl _ _ hi
      cases hk
    rw [hlog, List.pairwise_append]
    refine ⟨?_, ?_, fun x hx y _ => hnever l hlookup x hx y⟩
    · exact List.pairwise_of_forall_mem_list fun x hx y _ => hnever l hlookup x hx y
    · simp [reinvokes]

theorem Effect.marked {w : World (State Unit) (Op (Invocation δ) δ) Exc} (h : Effect d m s w)
    (hpast : CompletedMarked d past s) : CompletedMarked d (past ++ w.log) w.st := by
  intro value topic hmem
  cases h with
  | unhandled hlog hredis =>
    rw [hredis]
    rcases List.mem_append.mp hmem with hmem | hmem
    · exact hpast _ _ hmem
    · exact absurd hmem (hlog _ _)
  | failed hvalue hnew hlog hredis =>
    rw [hredis]
    rcases List.mem_append.mp hmem with hmem | hmem
    · exact hpast _ _ hmem
    · exact absurd rfl (hlog _ _ hmem).2
  | completed hvalue hnew hl hlog hredis =>
    rw [hredis, List.mem_insert_iff]
    rcases List.mem_append.mp hmem with hmem | hmem
    · exact .inr (hpast _ _ hmem)
    · rw [hlog] at hmem
      have hin := hl.mem_service hmem
      simp only [List.mem_cons, Prod.mk.injEq, Op.service.injEq, reduceCtorEq,
        List.not_mem_nil, or_false, and_true] at hin
      obtain ⟨rfl, rfl⟩ := hin
      exact .inl rfl

theorem State.expire_nil (s : State Unit) : s.expire [] = s := by
  simp [State.expire]

theorem once_from {past : Log δ} (hpast : past.Pairwise fun x y => !reinvokes x y)
    (hdone : CompletedMarked d past s) {arrivals : List (Arrival δ)}
    (hid : ∀ a ∈ arrivals, ∀ value, a.record.value = .object value → value.id.truthy)
    (httl : ∀ a ∈ arrivals, a.expired = [])
    (hmarks : ∀ x ∈ (invoking (some d) (some eh)).deliveries s arrivals,
      MarksCompletion d x.before x.record x.arrival.answers) :
    (past ++ ((invoking (some d) (some eh)).deliveries s arrivals).flatMap (·.log)).Pairwise
      fun x y => !reinvokes x y := by
  induction arrivals generalizing past s with
  | nil => simpa [ReliabilityLayer.deliveries] using hpast
  | cons a rest ih =>
    have heffect : Effect d a.record s ((invoking (some d) (some eh)).deliver s a).world := by
      have hmark := hmarks _ List.mem_cons_self
      rw [ReliabilityLayer.deliver]
      simp only [ReliabilityLayer.delivery, httl a List.mem_cons_self, State.expire_nil] at hmark ⊢
      exact delivery_effect (hid a List.mem_cons_self) hmark
    rw [ReliabilityLayer.deliveries, List.flatMap_cons, ← List.append_assoc]
    refine ih ?_ (heffect.marked hdone) (fun a ha => hid a (List.mem_cons_of_mem _ ha))
      (fun a ha => httl a (List.mem_cons_of_mem _ ha)) fun x hx => hmarks x (List.mem_cons_of_mem _ hx)
    rw [List.pairwise_append]
    refine ⟨hpast, heffect.once, fun x hx y hy => ?_⟩
    by_contra hre
    simp only [Bool.not_eq_true', Bool.not_eq_false] at hre
    obtain ⟨value, value', topic, r, rfl, rfl, hsame⟩ := of_reinvokes hre
    obtain ⟨-, hnew⟩ := heffect.new hy
    rw [← hsame] at hnew
    exact hnew (hdone _ _ hx)

/-- No handler is invoked again for an event it has completed for, in every
run in which each completion is that of a first attempt whose commit and mark
succeed.

Premise: every message has an id, and nothing expires. -/
theorem effectively_once (d : DeduplicationManager) (eh : ErrorHandler) (s : State Unit)
    {arrivals : List (Arrival δ)}
    (hid : ∀ a ∈ arrivals, ∀ value, a.record.value = .object value → value.id.truthy)
    (httl : ∀ a ∈ arrivals, a.expired = [])
    (hmarks : ∀ x ∈ (invoking (some d) (some eh)).deliveries s arrivals,
      MarksCompletion d x.before x.record x.arrival.answers) :
    EffectivelyOnce ((invoking (some d) (some eh)).deliveries s arrivals) := by
  have hdone : CompletedMarked d ([] : Log δ) s := by
    intro value topic hmem
    cases hmem
  exact once_from List.Pairwise.nil hdone hid httl hmarks

end

def popsFirst : DeduplicationManager where
  serviceName := "paper_trading"
  pop l := l.headD ""
  pop_mem := by
    intro l hl
    cases l with
    | nil => exact absurd rfl hl
    | cons x l => exact List.mem_cons_self

def eventArrival (answers : List (Option Exc)) : Arrival Unit :=
  ⟨⟨"paper.signals.validated", 0, 0, none, 0, .object ⟨.str "e1", .str "validated_signal", ()⟩⟩, [],
    answers⟩

def redelivered : List (Delivery Unit (Invocation Unit) Unit) :=
  (invoking (some popsFirst) (some withoutJitter)).deliveries (.start () [])
    [eventArrival [], eventArrival []]

theorem redelivered_once : (∃ d ∈ redelivered, Handled d.record d.log) ∧
    EffectivelyOnce redelivered := by
  refine ⟨⟨_, List.mem_cons_self, _, rfl, by decide +kernel⟩,
    effectively_once popsFirst withoutJitter (.start () []) ?_ ?_ ?_⟩
  · intro a ha value hvalue
    simp only [List.mem_cons, List.not_mem_nil, or_false, or_self] at ha
    subst ha
    cases hvalue
    rfl
  · intro a ha
    simp only [List.mem_cons, List.not_mem_nil, or_false, or_self] at ha
    subst ha
    rfl
  · have hanswers : redelivered.map (fun x => handlerAnswers (some popsFirst) x.before x.record
        x.arrival.answers) = [some [], none] := by decide +kernel
    intro x hx
    have hx := List.mem_map_of_mem (f := fun x : Delivery Unit (Invocation Unit) Unit =>
      handlerAnswers (some popsFirst) x.before x.record x.arrival.answers) hx
    rw [show (invoking _ _).deliveries _ _ = redelivered from rfl, hanswers] at hx
    unfold MarksCompletion
    rcases List.mem_cons.mp hx with hx | hx
    · rw [hx]
      intro r hr
      cases hr
    · rw [List.mem_singleton.mp hx]
      trivial

/-- A commit that fails after the handler has completed has it invoked again. -/
theorem reinvoked_after_commit_failure : ¬ ∀ d eh (s : State Unit) (arrivals : List (Arrival Unit)),
    (∀ a ∈ arrivals, ∀ value, a.record.value = .object value → value.id.truthy) →
      (∀ a ∈ arrivals, a.expired = []) →
      EffectivelyOnce ((invoking (some d) (some eh)).deliveries s arrivals) := by
  intro hclaim
  have honce := hclaim popsFirst withoutJitter (.start () [])
    [eventArrival [none, none, some ⟨"CommitFailedError", "", .builtin⟩]] ?_ ?_
  · revert honce
    unfold EffectivelyOnce
    decide +kernel
  · intro a ha value hvalue
    cases List.mem_singleton.mp ha
    cases hvalue
    rfl
  · intro a ha
    cases List.mem_singleton.mp ha
    rfl

end AlphaPanda.Streaming
