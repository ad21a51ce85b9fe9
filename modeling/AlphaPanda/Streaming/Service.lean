import AlphaPanda.Lib.Implement
import AlphaPanda.Streaming.EffectivelyOnce

/-!
# A service behind the layer

The layer invokes a handler in one operation. Here the handler of a service
carries that operation out, on the state and with the operations of the
service; every delivery is then one of the layer, its invocations spelt out.
-/

namespace AlphaPanda.Streaming

open Coroutine DeduplicationManager

/-- The operations of the layer, with a handler in the place of its
invocation. -/
def carryOut (handler : Envelope δ → String → Prog σ ω Exc Unit) :
    Op (Invocation δ) δ → Prog σ (Op ω δ) Exc Unit
  | .service (value, topic) => (handler value topic).mapOp .service
  | .exists key => Prog.perform (.exists key)
  | .setex key ttlSeconds => Prog.perform (.setex key ttlSeconds)
  | .commit topic partition offset => Prog.perform (.commit topic partition offset)
  | .sleep seconds => Prog.perform (.sleep seconds)
  | .sendDlq topic key event => Prog.perform (.sendDlq topic key event)

/-- A consumer of a service, as `add_consumer_flow` registers it. `expire`
takes expired keys out of what the service holds in Redis. -/
structure ConsumerFlow (σ ω δ : Type) where
  handler : Envelope δ → String → Prog σ ω Exc Unit
  deduplicator : DeduplicationManager
  errorHandler : ErrorHandler
  expire : σ → List String → σ

structure Processed (ω δ : Type) where
  record : Record δ
  log : List (Op ω δ × Option Exc)

namespace ConsumerFlow

def processMessage (f : ConsumerFlow σ ω δ) (m : Record δ) :
    Prog (State Unit × σ) (Op ω δ) Exc Unit :=
  ((invoking (some f.deduplicator) (some f.errorHandler)).processMessage m).implement
    (carryOut f.handler)

def process (f : ConsumerFlow σ ω δ) (s : State Unit × σ) (a : Arrival δ) :
    Outcome (State Unit × σ) (Op ω δ) Exc Unit :=
  (f.processMessage a.record).exec a.answers
    (World.start (s.1.expire a.expired, f.expire s.2 a.expired))

def run (f : ConsumerFlow σ ω δ) : State Unit × σ → List (Arrival δ) → List (Processed ω δ)
  | _, [] => []
  | s, a :: rest => ⟨a.record, (f.process s a).world.log⟩ :: f.run (f.process s a).world.st rest

end ConsumerFlow

def serviceLog (l : List (Op ω δ × Option Exc)) : List (ω × Option Exc) :=
  l.filterMap fun
    | (.service op, r) => some (op, r)
    | _ => none

-- ---------------------------------------------------------------------------
-- The course of a delivery
-- ---------------------------------------------------------------------------

/-- What may become of a delivery: it does not get to the handler, or it is
handled and marked, or the commit or the mark fails, or the handler raises. -/
inductive Course (d : DeduplicationManager) (m : Record δ) (s : State Unit) :
    World (State Unit) (Op (Invocation δ) δ) Exc → Prop where
  | unhandled (hlog : ∀ i r, (.service i, r) ∉ w.log) : Course d m s w
  | marked (hvalue : m.value = .object value) (hnew : d.eventKey m value ∉ s.redis)
    (hl : Log.LooksUp l)
    (hlog : w.log = l ++ [(.service (value, m.topic), none),
      (.commit m.topic m.partition (m.offset + 1), none),
      (.setex (d.eventKey m value) d.ttlSeconds, none)])
    (hredis : w.st.redis = s.redis.insert (d.eventKey m value)) : Course d m s w
  | unmarked (hop : ∀ i, op ≠ .service i) (hmem : (op, some e) ∈ w.log) : Course d m s w
  | raised (hmem : (.service (value, m.topic), some e) ∈ w.log)
    (hall : ∀ i r, (.service i, r) ∈ w.log → i = (value, m.topic) ∧
      (r = some e ∨ ∃ config, plan e (retries s m) = .retry config)) : Course d m s w

section
variable {d : DeduplicationManager} {eh : ErrorHandler} {m : Record δ} {s : State Unit}

theorem completed_course (hvalue : m.value = .object value) (hid : value.id.truthy)
    (hnew : d.eventKey m value ∉ s.redis) (hl : Log.LooksUp l) (as : List (Option Exc)) :
    Course d m s ((tryCatch ((invoking (some d) (some eh)).commitAndMark m value)
      ((invoking (some d) (some eh)).onError m value)).exec as
        (World.record ⟨s, l⟩ (.service (value, m.topic)) none)).world := by
  simp only [ReliabilityLayer.commitAndMark, invoking, hid, commit, markProcessed, exec_tryCatch,
    exec_bind, exec_perform, if_true]
  rcases as.headD none with _ | e
  · simp only [Outcome.andThen_ok]
    rcases as.tail.headD none with _ | e
    · simp only [Outcome.andThen_ok, exec_modify, Outcome.orElse_ok]
      refine .marked hvalue hnew hl ?_ rfl
      simp only [World.record, List.append_assoc, List.cons_append, List.nil_append]
      rfl
    · refine .unmarked ?_ (mem_log_exec _ _ (List.mem_append_right _ (List.mem_singleton.mpr rfl)))
      intro i h
      cases h
  · refine .unmarked ?_ (mem_log_exec _ _ (List.mem_append_right _ (List.mem_singleton.mpr rfl)))
    intro i h
    cases h

theorem mem_service_afterRetry {w : World (State Unit) (Op (Invocation δ) δ) Exc}
    (hmem : (.service i, r) ∈ ((tryCatch (do ErrorHandler.delRetryCount m; commit m; pure true)
      fun _ => pure false : Layer Unit (Invocation δ) δ Bool).exec as w).world.log) :
    (.service i, r) ∈ w.log := by
  simp only [ErrorHandler.delRetryCount, exec_tryCatch, exec_bind, exec_get, Outcome.andThen_ok] at hmem
  generalize w.st.messageRetryCount.get? (messageKey m) = count at hmem
  cases count with
  | none => exact hmem
  | some n =>
    simp only [exec_set, Outcome.andThen_ok, commit, exec_perform, World.record] at hmem
    generalize as.headD none = answer at hmem
    cases answer with
    | none | some e =>
      rcases List.mem_append.mp hmem with hmem | hmem
      · exact hmem
      · cases List.mem_singleton.mp hmem

theorem raised_course (hl : Log.LooksUp l) (e : Exc) (rest : List (Option Exc)) :
    Course d m s (((invoking (some d) (some eh)).onError m value e).exec rest
      (World.record ⟨s, l⟩ (.service (value, m.topic)) (some e))).world := by
  generalize hw : World.record ⟨s, l⟩ (.service (value, m.topic)) (some e) = w
  have hst : w.st = s := by rw [← hw]; rfl
  have hlog : w.log = l ++ [(.service (value, m.topic), some e)] := by rw [← hw]; rfl
  have hmem : (.service (value, m.topic), some e) ∈ w.log := by
    rw [hlog]
    exact List.mem_append_right _ (List.mem_singleton.mpr rfl)
  refine .raised (mem_log_exec _ _ hmem) fun i r hi => ?_
  rcases hplan : plan e (retries w.st m) with reason | config
  · rw [onError_dlq (some d) eh w hplan] at hi
    obtain ⟨event, hsend⟩ := sendToDlqAndCommit_exec eh m e reason (retries w.st m) rest w
    rw [hsend] at hi
    revert hi
    rcases rest.headD none with _ | e'
    · intro hi
      simp only [commit, exec_perform, World.record, hlog, List.append_assoc] at hi
      have hin := hl.mem_service hi
      grind
    · intro hi
      simp only [hlog, List.append_assoc] at hi
      have hin := hl.mem_service hi
      grind
  · refine ⟨?_, .inr ⟨config, by rw [← hst]; exact hplan⟩⟩
    rw [onError_retry (some d) eh w hplan, Outcome.andThen_world] at hi
    obtain ⟨counts, seconds, hexec⟩ := retryProcessing_exec eh m value e config (retries w.st m) rest w
    rw [hexec] at hi
    have hretried : (.service i, r) ∈ w.log ++ [(.sleep seconds, rest.headD none),
        (.service (value, m.topic), rest.tail.headD none)] := by
      revert hi
      rcases rest.headD none with _ | e'
      · rcases rest.tail.headD none with _ | e'
        · exact mem_service_afterRetry
        · exact id
      · intro hi
        rcases List.mem_append.mp hi with hi | hi
        · exact List.mem_append_left _ hi
        · cases List.mem_singleton.mp hi
    rw [hlog, List.append_assoc] at hretried
    have hin := hl.mem_service hretried
    grind

theorem delivery_course (hid : ∀ value, m.value = .object value → value.id.truthy)
    (as : List (Option Exc)) :
    Course d m s (((invoking (some d) (some eh)).processMessage m).exec as (World.start s)).world := by
  rcases hanswers : handlerAnswers (some d) s m as with _ | as'
  · exact .unhandled (processMessage_unhandled (some eh) hanswers).1
  obtain ⟨value, l, hvalue, hl, hexec⟩ := processMessage_handled (some eh) hanswers
  have hnew := handlerAnswers_new hanswers hvalue (hid value hvalue)
  rw [hexec]
  rcases hfirst : as'.headD none with _ | e
  · rw [attempt_completes _ _ _ hfirst]
    exact completed_course hvalue (hid value hvalue) hnew hl as'.tail
  · obtain ⟨rest, rfl⟩ : ∃ rest, as' = some e :: rest := by
      cases as' with
      | nil => cases hfirst
      | cons a rest => exact ⟨rest, congrArg (· :: rest) hfirst⟩
    rw [attempt_fails]
    exact raised_course hl e rest

end

-- ---------------------------------------------------------------------------
-- Invocations spelt out
-- ---------------------------------------------------------------------------

abbrev invoke (handler : Envelope δ → String → Prog σ ω Exc Unit) (i : Invocation δ)
    (as : List (Option Exc)) (t : σ) : Outcome σ ω Exc Unit :=
  (handler i.1 i.2).exec as (World.start t)

section
variable {handler : Envelope δ → String → Prog σ ω Exc Unit} {l : List (Op (Invocation δ) δ × Option Exc)}
  {l' : List (Op ω δ × Option Exc)} {t t' : σ}

theorem carryOut_service (i : Invocation δ) (as : List (Option Exc)) (t : σ) :
    (carryOut handler (.service i)).exec as (World.start t) =
      ⟨(invoke handler i as t).result, ⟨(invoke handler i as t).world.st,
        (invoke handler i as t).world.log.map (Prod.map .service id)⟩,
        (invoke handler i as t).rest⟩ := by
  obtain ⟨value, topic⟩ := i
  exact mapOp_exec Op.service (handler value topic) as (World.start t)

theorem carryOut_other (handler : Envelope δ → String → Prog σ ω Exc Unit)
    {op : Op (Invocation δ) δ} (hop : ∀ i, op ≠ .service i) (as : List (Option Exc)) (t : σ) :
    ∃ op', (∀ o, op' ≠ .service o) ∧
      ((carryOut handler op).exec as (World.start t)).world.log = [(op', as.headD none)] ∧
      ((carryOut handler op).exec as (World.start t)).raised = as.headD none := by
  cases op with
  | service i => exact absurd rfl (hop i)
  | _ =>
    simp only [carryOut, exec_perform, World.record, World.start, List.nil_append]
    refine ⟨_, ?_, rfl, ?_⟩
    · intro o h
      cases h
    · generalize as.headD none = answer
      cases answer <;> rfl

theorem serviceLog_append (l₁ l₂ : List (Op ω δ × Option Exc)) :
    serviceLog (l₁ ++ l₂) = serviceLog l₁ ++ serviceLog l₂ :=
  List.filterMap_append

theorem serviceLog_map (l : List (ω × Option Exc)) :
    serviceLog (l.map (Prod.map Op.service id) : List (Op ω δ × Option Exc)) = l := by
  induction l with
  | nil => rfl
  | cons x l ih =>
    rw [List.map_cons, serviceLog, List.filterMap_cons]
    exact congrArg (x :: ·) ih

theorem serviceLog_unhandled (h : Implements (carryOut handler) l t l' t')
    (hl : ∀ i r, (.service i, r) ∉ l) : serviceLog l' = [] := by
  induction h with
  | nil => rfl
  | @cons l t l' t' op as h ih =>
    have hop : ∀ i, op ≠ .service i := by
      rintro i rfl
      exact hl i _ List.mem_cons_self
    obtain ⟨op', hop', hlog, -⟩ := carryOut_other handler hop as t
    rw [hlog, List.singleton_append, serviceLog, List.filterMap_cons]
    split
    · exact ih fun i r hmem => hl i r (List.mem_cons_of_mem _ hmem)
    · rename_i h
      split at h
      · rename_i heq
        cases heq
        exact absurd rfl (hop' _)
      · cases h

theorem serviceLog_handled (h : Implements (carryOut handler) (l ++ (.service i, r) :: rest) t l' t')
    (hl : ∀ i r, (.service i, r) ∉ l) (hrest : ∀ i r, (.service i, r) ∉ rest) :
    ∃ as t₀, serviceLog l' = (invoke handler i as t₀).world.log := by
  obtain ⟨t₀, l₁, l₂, h₁, h₂, rfl⟩ := Implements.append_iff.mp h
  cases h₂ with
  | cons op as h₂ =>
    refine ⟨as, t₀, ?_⟩
    rw [serviceLog_append, serviceLog_append, serviceLog_unhandled h₁ hl,
      serviceLog_unhandled h₂ hrest, carryOut_service, List.append_nil]
    exact serviceLog_map _

theorem mem_serviceLog (h : Implements (carryOut handler) l t l' t') (hmem : x ∈ serviceLog l') :
    ∃ i as t₀, (.service i, (invoke handler i as t₀).raised) ∈ l ∧
      x ∈ (invoke handler i as t₀).world.log ∧
      ∀ y ∈ (invoke handler i as t₀).world.log, (.service y.1, y.2) ∈ l' := by
  obtain ⟨⟨op', r'⟩, hin, hx⟩ := List.mem_filterMap.mp hmem
  obtain ⟨op, r, t₀, as, hop, hr, hlog, hinfix⟩ := h.mem hin
  split at hx
  · rename_i o r' heq
    cases heq
    cases hx
    by_cases hservice : ∃ i, op = .service i
    · obtain ⟨i, rfl⟩ := hservice
      rw [carryOut_service] at hr hlog hinfix
      refine ⟨i, as, t₀, hr ▸ hop, ?_, fun y hy => ?_⟩
      · obtain ⟨y, hy, heq⟩ := List.mem_map.mp hlog
        cases heq
        exact hy
      · exact hinfix.subset (List.mem_map.mpr ⟨y, hy, rfl⟩)
    · obtain ⟨op', hother, hsingle, -⟩ := carryOut_other handler
        (fun i hi => hservice ⟨i, hi⟩) as t₀
      rw [hsingle] at hlog
      cases List.mem_singleton.mp hlog
      exact absurd rfl (hother _)
  · cases hx

theorem failed_carryOut (h : Implements (carryOut handler) l t l' t') (hop : ∀ i, op ≠ .service i)
    (hmem : (op, some e) ∈ l) : ∃ op', (∀ o, op' ≠ .service o) ∧ (op', some e) ∈ l' := by
  obtain ⟨t₀, as, hraised, hinfix⟩ := h.of_mem hmem
  obtain ⟨op', hother, hlog, hanswer⟩ := carryOut_other handler hop as t₀
  rw [hlog] at hinfix
  rw [hanswer] at hraised
  rw [← hraised] at hinfix
  exact ⟨op', hother, hinfix.subset (List.mem_singleton.mpr rfl)⟩

/-- Processing is a delivery of the layer, carried out. -/
theorem ConsumerFlow.process_course (f : ConsumerFlow σ ω δ) (s : State Unit × σ) {a : Arrival δ}
    (hid : ∀ value, a.record.value = .object value → value.id.truthy) :
    ∃ w : World (State Unit) (Op (Invocation δ) δ) Exc,
      Course f.deduplicator a.record (s.1.expire a.expired) w ∧
      Implements (carryOut f.handler) w.log (f.expire s.2 a.expired) (f.process s a).world.log
        (f.process s a).world.st.2 ∧
      w.st = (f.process s a).world.st.1 ∧
      ∀ k ∈ (s.1.expire a.expired).redis, k ∈ w.st.redis := by
  obtain ⟨as', -, hst, himpl⟩ := implement_exec (carryOut f.handler)
    ((invoking (some f.deduplicator) (some f.errorHandler)).processMessage a.record) a.answers
    (s.1.expire a.expired) (f.expire s.2 a.expired)
  have hmeets := processMessage_meets (some f.deduplicator) f.errorHandler a.record
    (s.1.expire a.expired)
  exact ⟨_, delivery_course hid as', himpl, hst.symm, (hmeets.exec as').keeps⟩

end

end AlphaPanda.Streaming
