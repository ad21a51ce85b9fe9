import AlphaPanda.Paper.OneOrder
import AlphaPanda.Risk.Publishing
import AlphaPanda.Streaming.Service

/-!
# From raw signals to orders

The risk manager behind its reliability layer, and the paper trading service
on what it publishes. A raw event is validated again by every invocation of
the risk manager's handler, under a timestamp of its own, so the idempotence
key of the paper trading service does not tell that it is the same event.
-/

namespace AlphaPanda.Pipeline

open Coroutine Streaming

abbrev RawEvent := Value × String

def riskFlow (svc : Risk.Service) (d : DeduplicationManager) (eh : ErrorHandler) :
    ConsumerFlow Risk.State Risk.Op Risk.Data :=
  ⟨Risk.handleMessage svc, d, eh, Risk.State.expire⟩

def publications (x : Processed Risk.Op Risk.Data) : List (RawEvent × ValidatedSignal) :=
  match x.record.value with
  | .object value => (Risk.validated (serviceLog x.log)).map (Prod.mk (value.id, x.record.topic))
  | .other _ => []

/-- Nothing failed while it was processed, but perhaps the counting of a
verdict. -/
def Unfailing (x : Processed Risk.Op Risk.Data) : Prop :=
  ∀ op e, (op, some e) ∈ x.log → ∃ o, op = .service o ∧ o.isMetric

-- ---------------------------------------------------------------------------
-- The paper trading service
-- ---------------------------------------------------------------------------

/-- A step of the paper trading service. -/
inductive Step where
  /-- The `n`-th published signal is delivered; its handler is attempted once
  for each list of answers. -/
  | deliver (n : ℕ) (attempts : List (List (Option Exc)))
  | tick (m : Paper.TickMessage) (as : List (Option Exc))

/-- The state after some attempts at a signal, and the orders of the events
they published. -/
def attempts (svc : Paper.Service) (v : ValidatedSignal) :
    Paper.State → List (List (Option Exc)) → Paper.State × List OrderId
  | s, [] => (s, [])
  | s, as :: rest =>
    let out := Paper.attempt svc v as s
    let next := attempts svc v out.world.st rest
    (next.1, Paper.orderIds out.world.log ++ next.2)

structure Done where
  step : Step
  before : Paper.State
  orders : List (RawEvent × OrderId)

def paperRun (svc : Paper.Service) (signals : List (RawEvent × ValidatedSignal)) :
    Paper.State → List Step → List Done
  | _, [] => []
  | s, .tick m as :: rest =>
    ⟨.tick m as, s, []⟩ ::
      paperRun svc signals ((Paper.handleMarketTick svc m).exec as (World.start s)).world.st rest
  | s, .deliver n answers :: rest =>
    match signals[n]? with
    | none => paperRun svc signals s rest
    | some (e, v) =>
      ⟨.deliver n answers, s, (attempts svc v s answers).2.map (Prod.mk e)⟩ ::
        paperRun svc signals (attempts svc v s answers).1 rest

/-- A signal that is delivered again is still remembered. -/
def Remembers (signals : List (RawEvent × ValidatedSignal)) (run : List Done) : Prop :=
  run.Pairwise fun x y => ∀ n as as' e v, x.step = .deliver n as → y.step = .deliver n as' →
    signals[n]? = some (e, v) → Paper.idemKey v ∈ y.before.seen.keys

/-- At most one order for each raw event. -/
def OneOrderEach (orders : List (RawEvent × OrderId)) : Prop :=
  orders.Pairwise fun x y => x.1 = y.1 → x.2 = y.2

-- ---------------------------------------------------------------------------
-- What the risk manager publishes
-- ---------------------------------------------------------------------------

def markOf (d : DeduplicationManager) (e : RawEvent) : String :=
  d.redisKey (DeduplicationManager.cacheKey e.1.text (brokerOf e.2))

section
variable {risk : Risk.Service} {d : DeduplicationManager} {eh : ErrorHandler}
  {s : State Unit × Risk.State} {a : Arrival Risk.Data}

theorem validated_invocation {l : List (Streaming.Op (Invocation Risk.Data) Risk.Data × Option Exc)}
    (himpl : Implements (carryOut (Risk.handleMessage risk)) l t l' t')
    (hne : Risk.validated (serviceLog l') ≠ []) :
    ∃ i as t₀, (.service i, (invoke (Risk.handleMessage risk) i as t₀).raised) ∈ l ∧
      Risk.validated (invoke (Risk.handleMessage risk) i as t₀).world.log ≠ [] ∧
      ∀ y ∈ (invoke (Risk.handleMessage risk) i as t₀).world.log, (.service y.1, y.2) ∈ l' := by
  obtain ⟨v, hv⟩ := List.exists_mem_of_ne_nil _ hne
  obtain ⟨x, hx, hxv⟩ := List.mem_filterMap.mp hv
  obtain ⟨i, as, t₀, hi, hmem, hall⟩ := mem_serviceLog himpl hx
  refine ⟨i, as, t₀, hi, fun hnone => ?_, hall⟩
  have hin : v ∈ Risk.validated (invoke (Risk.handleMessage risk) i as t₀).world.log :=
    List.mem_filterMap.mpr ⟨x, hmem, hxv⟩
  rw [hnone] at hin
  cases hin

theorem plan_typeFault (h : Risk.IsTypeFault e) (n : ℕ) (config : RetryConfig) :
    plan e n ≠ .retry config := by
  obtain ⟨name, message, kind⟩ := e
  obtain ⟨rfl, hname⟩ := h
  have hpoison : ErrorClassifier.classifyError ⟨name, message, .builtin⟩ = .poison := by
    simp only [List.mem_cons, List.not_mem_nil, or_false] at hname
    rcases hname with rfl | rfl | rfl <;> rfl
  intro hplan
  rw [plan, if_pos hpoison] at hplan
  cases hplan

theorem invoke_other (i : Invocation Risk.Data) (as : List (Option Exc)) (t : Risk.State)
    (hdata : i.1.data = .other v) :
    Risk.validated (invoke (Risk.handleMessage risk) i as t).world.log = [] := by
  rw [invoke, Risk.handleMessage_other risk i.1 i.2 hdata]
  rfl

theorem invoke_length_le (i : Invocation Risk.Data) (as : List (Option Exc)) (t : Risk.State) :
    (Risk.validated (invoke (Risk.handleMessage risk) i as t).world.log).length ≤ 1 := by
  rcases hdata : i.1.data with ⟨fields, signal⟩ | v
  · exact (Risk.handleMessage_publishesOnce risk i.1 i.2 hdata as _ rfl).1
  · rw [invoke_other i as t hdata]
    exact Nat.zero_le 1

/-- An invocation that raises although nothing failed publishes nothing, and
its error is not retried, unless no invocation for the message publishes. -/
theorem invoke_faults (i : Invocation Risk.Data) (as : List (Option Exc)) (t : Risk.State)
    (hun : Risk.Undisturbed (invoke (Risk.handleMessage risk) i as t).world.log)
    (hraised : some e = (invoke (Risk.handleMessage risk) i as t).raised) :
    Risk.validated (invoke (Risk.handleMessage risk) i as t).world.log = [] ∧
      ((∃ v, i.1.data = .other v) ∨ ∀ n config, plan e n ≠ .retry config) := by
  rcases hdata : i.1.data with ⟨fields, signal⟩ | v
  · have hresult : (invoke (Risk.handleMessage risk) i as t).result = .error e := by
      unfold Outcome.raised at hraised
      split at hraised
      · cases hraised
      · rename_i e' he'
        cases hraised
        exact he'
    obtain ⟨hnone, hfault⟩ :=
      (Risk.handleMessage_publishesOnce risk i.1 i.2 hdata as _ rfl).2 e hresult hun
    exact ⟨hnone, .inr (plan_typeFault hfault)⟩
  · exact ⟨invoke_other i as t hdata, .inl ⟨v, rfl⟩⟩

/-- A record for which something is published, nothing failing, was not marked
before and is marked now. -/
theorem published_course (hid : ∀ value, a.record.value = .object value → value.id.truthy)
    (hne : publications ⟨a.record, ((riskFlow risk d eh).process s a).world.log⟩ ≠ [])
    (hun : Unfailing ⟨a.record, ((riskFlow risk d eh).process s a).world.log⟩) :
    ∃ e v, publications ⟨a.record, ((riskFlow risk d eh).process s a).world.log⟩ = [(e, v)] ∧
      markOf d e ∉ (s.1.expire a.expired).redis ∧
      markOf d e ∈ ((riskFlow risk d eh).process s a).world.st.1.redis := by
  obtain ⟨w, hcourse, himpl, hst, -⟩ := (riskFlow risk d eh).process_course s hid
  simp only [Unfailing] at hun
  rcases hvalue : a.record.value with value | v
  swap
  · simp [publications, hvalue] at hne
  simp only [publications, hvalue] at hne ⊢
  have hpub : Risk.validated (serviceLog ((riskFlow risk d eh).process s a).world.log) ≠ [] :=
    fun h => hne (by rw [h]; rfl)
  have hundisturbed : ∀ l : List (Risk.Op × Option Exc),
      (∀ y ∈ l, (.service y.1, y.2) ∈ ((riskFlow risk d eh).process s a).world.log) →
        Risk.Undisturbed l := by
    intro l hl op e hmem
    obtain ⟨o, ho, hmetric⟩ := hun _ e (hl _ hmem)
    cases ho
    exact hmetric
  cases hcourse with
  | unhandled hlog => exact absurd (by rw [serviceLog_unhandled himpl hlog]; rfl) hpub
  | @marked value' l w hvalue' hnew hl hlog hredis =>
    cases hvalue.symm.trans hvalue'
    rw [hlog] at himpl
    have hlookup : ∀ i r, (.service i, r) ∉ l := by
      intro i r hi
      obtain ⟨k, hk⟩ := hl _ _ hi
      cases hk
    obtain ⟨as, t₀, hservice⟩ := serviceLog_handled himpl hlookup (by simp)
    rw [hservice] at hpub ⊢
    have hlength : (Risk.validated (invoke (Risk.handleMessage risk) (value, a.record.topic) as
        t₀).world.log).length ≤ 1 := invoke_length_le _ as t₀
    obtain ⟨v, hv⟩ : ∃ v, Risk.validated (invoke (Risk.handleMessage risk) (value, a.record.topic)
        as t₀).world.log = [v] := by
      rw [← List.length_eq_one_iff]
      exact le_antisymm hlength (List.length_pos_iff.mpr hpub)
    refine ⟨(value.id, a.record.topic), v, ?_, hnew, ?_⟩
    · exact congrArg (List.map (Prod.mk (value.id, a.record.topic))) hv
    · rw [← hst, hredis]
      exact List.mem_insert_self
  | unmarked hop hmem =>
    obtain ⟨op', hother, hin⟩ := failed_carryOut himpl hop hmem
    obtain ⟨o, ho, -⟩ := hun _ _ hin
    exact absurd ho (hother o)
  | @raised value' e w hmem hall =>
    obtain ⟨t₀, as₀, hraised, hinfix⟩ := himpl.of_mem hmem
    rw [carryOut_service] at hraised hinfix
    obtain ⟨-, hfault⟩ := invoke_faults _ as₀ t₀ (hundisturbed _ fun y hy =>
      hinfix.subset (List.mem_map.mpr ⟨y, hy, rfl⟩)) hraised
    obtain ⟨i, as, t₁, hi, hpublishes, hin⟩ := validated_invocation himpl hpub
    obtain ⟨rfl, hr⟩ := hall _ _ hi
    rcases hfault with ⟨v, hdata⟩ | hplan
    · exact absurd (invoke_other _ as t₁ hdata) hpublishes
    · rcases hr with hr | ⟨config, hconfig⟩
      · exact absurd (invoke_faults _ as t₁ (hundisturbed _ hin) hr.symm).1 hpublishes
      · exact absurd hconfig (hplan _ config)

theorem mark_not_expired (httl : ∀ k, d.redisKey k ∉ a.expired) (hmark : markOf d e ∈ s.1.redis) :
    markOf d e ∈ (s.1.expire a.expired).redis :=
  List.mem_filter.mpr ⟨hmark, decide_eq_true (httl _)⟩

theorem mark_stays (hid : ∀ value, a.record.value = .object value → value.id.truthy)
    (httl : ∀ k, d.redisKey k ∉ a.expired) (hmark : markOf d e ∈ s.1.redis) :
    markOf d e ∈ ((riskFlow risk d eh).process s a).world.st.1.redis := by
  obtain ⟨w, -, -, hst, hkeeps⟩ := (riskFlow risk d eh).process_course s hid
  exact hst ▸ hkeeps _ (mark_not_expired httl hmark)

theorem publications_from {past : List RawEvent} (hpast : ∀ e ∈ past, markOf d e ∈ s.1.redis)
    {arrivals : List (Arrival Risk.Data)}
    (hid : ∀ a ∈ arrivals, ∀ value, a.record.value = .object value → value.id.truthy)
    (httl : ∀ a ∈ arrivals, ∀ k, d.redisKey k ∉ a.expired)
    (hun : ∀ x ∈ (riskFlow risk d eh).run s arrivals, publications x ≠ [] → Unfailing x) :
    (∀ x ∈ ((riskFlow risk d eh).run s arrivals).flatMap publications, x.1 ∉ past) ∧
      (((riskFlow risk d eh).run s arrivals).flatMap publications).Pairwise
        fun x y => x.1 ≠ y.1 := by
  induction arrivals generalizing s past with
  | nil =>
    refine ⟨fun x hx => ?_, List.Pairwise.nil⟩
    cases hx
  | cons a rest ih =>
    have hida := hid a List.mem_cons_self
    have httla := httl a List.mem_cons_self
    have hidr := fun a ha => hid a (List.mem_cons_of_mem _ ha)
    have httlr := fun a ha => httl a (List.mem_cons_of_mem _ ha)
    have hunr := fun x hx => hun x (List.mem_cons_of_mem _ hx)
    rw [ConsumerFlow.run, List.flatMap_cons]
    by_cases hnone : publications ⟨a.record, ((riskFlow risk d eh).process s a).world.log⟩ = []
    · rw [hnone, List.nil_append]
      exact ih (fun e he => mark_stays hida httla (hpast e he)) hidr httlr hunr
    obtain ⟨e, v, hpub, hnew, hmarked⟩ :=
      published_course hida hnone (hun _ List.mem_cons_self hnone)
    have hnow : ∀ e' ∈ e :: past, markOf d e' ∈ ((riskFlow risk d eh).process s a).world.st.1.redis := by
      intro e' he'
      rcases List.mem_cons.mp he' with rfl | he'
      · exact hmarked
      · exact mark_stays hida httla (hpast e' he')
    obtain ⟨hnot, hpairs⟩ := ih hnow hidr httlr hunr
    rw [hpub, List.singleton_append]
    refine ⟨fun x hx => ?_, List.pairwise_cons.mpr ⟨fun x hx heq => ?_, hpairs⟩⟩
    · rcases List.mem_cons.mp hx with rfl | hx
      · exact fun hin => hnew (mark_not_expired httla (hpast _ hin))
      · exact fun hin => hnot x hx (List.mem_cons_of_mem _ hin)
    · exact hnot x hx (heq ▸ List.mem_cons_self)

end

-- ---------------------------------------------------------------------------
-- What the paper trading service places
-- ---------------------------------------------------------------------------

section
variable {svc : Paper.Service} {signals : List (RawEvent × ValidatedSignal)}

theorem attempts_seen (hseen : Paper.idemKey v ∈ p.seen.keys)
    (answers : List (List (Option Exc))) : attempts svc v p answers = (p, []) := by
  induction answers with
  | nil => rfl
  | cons as rest ih =>
    simp only [attempts, Paper.attempt_seen hseen, World.start, ih]
    rfl

theorem attempts_one_order (svc : Paper.Service) (v : ValidatedSignal) (p : Paper.State)
    (answers : List (List (Option Exc))) :
    ∃ orderId, ∀ o ∈ (attempts svc v p answers).2, o = orderId := by
  cases answers with
  | nil =>
    refine ⟨0, fun o ho => ?_⟩
    cases ho
  | cons as rest =>
    obtain ⟨orderId, hone⟩ := Paper.attempt_one_order svc v as p
    refine ⟨orderId, ?_⟩
    simp only [attempts, attempts_seen (Paper.attempt_remembered svc v as p), List.append_nil]
    exact hone

theorem mem_paperRun {steps : List Step} (hx : x ∈ paperRun svc signals p steps) :
    x.orders = [] ∨ ∃ n answers e v, x.step = .deliver n answers ∧ signals[n]? = some (e, v) ∧
      x.orders = (attempts svc v x.before answers).2.map (Prod.mk e) := by
  induction steps generalizing p with
  | nil => cases hx
  | cons step rest ih =>
    cases step with
    | tick m as =>
      rcases List.mem_cons.mp hx with rfl | hx
      · exact .inl rfl
      · exact ih hx
    | deliver n answers =>
      rw [paperRun] at hx
      split at hx
      · exact ih hx
      · rename_i e v hn
        rcases List.mem_cons.mp hx with rfl | hx
        · exact .inr ⟨n, answers, e, v, rfl, hn, rfl⟩
        · exact ih hx

theorem paperRun_steps (steps : List Step) :
    ((paperRun svc signals p steps).map Done.step).Sublist steps := by
  induction steps generalizing p with
  | nil => exact List.Sublist.slnil
  | cons step rest ih =>
    cases step with
    | tick m as => exact ih.cons_cons _
    | deliver n answers =>
      rw [paperRun]
      split
      · exact ih.cons _
      · exact ih.cons_cons _

theorem remembers_of_once {steps : List Step} (h : steps.Pairwise fun x y =>
      ∀ n as as', x = .deliver n as → y ≠ .deliver n as') :
    Remembers signals (paperRun svc signals p steps) := by
  have hsub : ((paperRun svc signals p steps).map Done.step).Sublist steps := paperRun_steps steps
  have hrun := List.pairwise_map.mp (h.sublist hsub)
  exact hrun.imp fun hxy n as as' e v hx hy _ => absurd hy (hxy n as as' hx)

theorem one_order_each (hsignals : signals.Pairwise fun x y => x.1 ≠ y.1) {steps : List Step}
    (hremembers : Remembers signals (paperRun svc signals p steps)) :
    OneOrderEach ((paperRun svc signals p steps).flatMap (·.orders)) := by
  rw [OneOrderEach, List.pairwise_flatMap]
  constructor
  · intro x hx
    rcases mem_paperRun hx with hnone | ⟨n, answers, e, v, -, -, horders⟩
    · rw [hnone]
      exact List.Pairwise.nil
    · obtain ⟨orderId, hone⟩ := attempts_one_order svc v x.before answers
      rw [horders]
      refine List.pairwise_of_forall_mem_list fun y hy z hz _ => ?_
      obtain ⟨o, ho, rfl⟩ := List.mem_map.mp hy
      obtain ⟨o', ho', rfl⟩ := List.mem_map.mp hz
      exact (hone o ho).trans (hone o' ho').symm
  · refine List.Pairwise.imp_of_mem ?_ hremembers
    intro x y hx hy hxy o ho o' ho' heq
    rcases mem_paperRun hx with hnone | ⟨n, answers, e, v, hstep, hn, horders⟩
    · rw [hnone] at ho
      cases ho
    rcases mem_paperRun hy with hnone | ⟨n', answers', e', v', hstep', hn', horders'⟩
    · rw [hnone] at ho'
      cases ho'
    rw [horders] at ho
    rw [horders'] at ho'
    obtain ⟨_, -, rfl⟩ := List.mem_map.mp ho
    obtain ⟨_, hplaced, rfl⟩ := List.mem_map.mp ho'
    -- The two steps deliver the same signal, so the second is a duplicate.
    obtain rfl : e = e' := heq
    obtain ⟨hlt, hget⟩ := List.getElem?_eq_some_iff.mp hn
    obtain ⟨hlt', hget'⟩ := List.getElem?_eq_some_iff.mp hn'
    have hsame : n = n' := by
      rcases Nat.lt_trichotomy n n' with h | h | h
      · have hne := List.pairwise_iff_getElem.mp hsignals n n' hlt hlt' h
        rw [hget, hget'] at hne
        exact absurd rfl hne
      · exact h
      · have hne := List.pairwise_iff_getElem.mp hsignals n' n hlt' hlt h
        rw [hget, hget'] at hne
        exact absurd rfl hne
    subst hsame
    have hseen := hxy n answers answers' e v' hstep hstep' hn'
    rw [attempts_seen hseen] at hplaced
    cases hplaced

end

/-- The paper trading service places at most one order for each raw event, in
every run in which a delivery that publishes a validated signal meets no
failure.

Premise: every message has an id, no mark of the deduplicator expires, and a
validated signal that is delivered again is still remembered. -/
theorem one_order_per_event (risk : Risk.Service) (d : DeduplicationManager) (eh : ErrorHandler)
    (svc : Paper.Service) (s : State Unit × Risk.State) (p : Paper.State)
    {arrivals : List (Arrival Risk.Data)} {steps : List Step}
    (hid : ∀ a ∈ arrivals, ∀ value, a.record.value = .object value → value.id.truthy)
    (httl : ∀ a ∈ arrivals, ∀ k, d.redisKey k ∉ a.expired)
    (hun : ∀ x ∈ (riskFlow risk d eh).run s arrivals, publications x ≠ [] → Unfailing x)
    (hremembers : Remembers (((riskFlow risk d eh).run s arrivals).flatMap publications)
      (paperRun svc (((riskFlow risk d eh).run s arrivals).flatMap publications) p steps)) :
    OneOrderEach ((paperRun svc (((riskFlow risk d eh).run s arrivals).flatMap publications) p
      steps).flatMap (·.orders)) := by
  have hpast : ∀ e ∈ ([] : List RawEvent), markOf d e ∈ s.1.redis := by
    intro e he
    cases he
  exact one_order_each (publications_from hpast hid httl hun).2 hremembers

/-- A risk manager whose clock counts its readings. -/
def plainRisk : Risk.Service where
  activeBrokers := ["paper"]
  now n := ⟨"2024-01-02", toString n⟩
  today _ := "2024-01-02"
  format := ⟨fun _ => "", fun _ => ""⟩

def rawBuy (answers : List (Option Exc)) : Arrival Risk.Data :=
  let v := Paper.signalOf .buy 2 10 "09:30:00" .empty
  let fields := Dict.ofList [("strategy_id", .str "s1"), ("instrument_token", .int 1),
    ("signal_type", .str "BUY"), ("quantity", .int 2), ("price", .str "10")]
  ⟨⟨"paper.signals.raw", 0, 0, some "s1:1", 0,
    .object ⟨.str "e1", .str "trading_signal", .object fields (.ok v.originalSignal)⟩⟩, [], answers⟩

/-- A delivery during which the daily trades cannot be counted. -/
def uncounted : Arrival Risk.Data :=
  rawBuy [none, none, none, none, none, none, none, some ⟨"ConnectionError", "", .builtin⟩]

def buyRun (arrivals : List (Arrival Risk.Data)) : List (Processed Risk.Op Risk.Data) :=
  (riskFlow plainRisk popsFirst withoutJitter).run (.start () [], {}) arrivals

def buyOrders (arrivals : List (Arrival Risk.Data)) (steps : List Step) :
    List (RawEvent × OrderId) :=
  (paperRun .plain ((buyRun arrivals).flatMap publications) .init steps).flatMap (·.orders)

theorem rawBuy_premises {arrivals : List (Arrival Risk.Data)}
    (h : ∀ a ∈ arrivals, ∃ answers, a = rawBuy answers) :
    (∀ a ∈ arrivals, ∀ value, a.record.value = .object value → value.id.truthy) ∧
      ∀ a ∈ arrivals, ∀ k, popsFirst.redisKey k ∉ a.expired := by
  constructor
  · intro a ha value hvalue
    obtain ⟨answers, rfl⟩ := h a ha
    cases hvalue
    rfl
  · intro a ha k
    obtain ⟨answers, rfl⟩ := h a ha
    exact List.not_mem_nil

theorem rawBuy_redelivered :
    (buyOrders [rawBuy [], rawBuy []] [.deliver 0 [[]]]).length = 1 ∧
      OneOrderEach (buyOrders [rawBuy [], rawBuy []] [.deliver 0 [[]]]) := by
  have hunfailing : (buyRun [rawBuy [], rawBuy []]).all fun x => x.log.all fun y => y.2.isNone := by
    decide +kernel
  have hraw : ∀ a ∈ [rawBuy [], rawBuy []], ∃ answers, a = rawBuy answers := by
    intro a ha
    exact ⟨[], by simpa using ha⟩
  obtain ⟨hid, httl⟩ := rawBuy_premises hraw
  refine ⟨by decide +kernel, one_order_per_event plainRisk popsFirst withoutJitter .plain
    (.start () [], {}) .init hid httl ?_ (remembers_of_once (by simp))⟩
  intro x hx _ op e hmem
  have hnone := List.all_eq_true.mp (List.all_eq_true.mp hunfailing x hx) _ hmem
  cases hnone

/-- The daily trades cannot be counted after the signal was published: the
retry publishes it again, and two orders are placed. -/
theorem retried_after_publish : ¬ ∀ risk d eh svc (s : State Unit × Risk.State) p
    (arrivals : List (Arrival Risk.Data)) steps,
    (∀ a ∈ arrivals, ∀ value, a.record.value = .object value → value.id.truthy) →
      (∀ a ∈ arrivals, ∀ k, d.redisKey k ∉ a.expired) →
      Remembers (((riskFlow risk d eh).run s arrivals).flatMap publications)
        (paperRun svc (((riskFlow risk d eh).run s arrivals).flatMap publications) p steps) →
      OneOrderEach ((paperRun svc (((riskFlow risk d eh).run s arrivals).flatMap publications) p
        steps).flatMap (·.orders)) := by
  intro hclaim
  have hraw : ∀ a ∈ [uncounted], ∃ answers, a = rawBuy answers := by
    intro a ha
    exact ⟨_, List.mem_singleton.mp ha⟩
  obtain ⟨hid, httl⟩ := rawBuy_premises hraw
  have hdistinct : [Step.deliver 0 [[]], .deliver 1 [[]]].Pairwise fun x y =>
      ∀ n as as', x = .deliver n as → y ≠ .deliver n as' := by
    refine List.pairwise_pair.mpr fun n as as' hx hy => ?_
    cases hx
    cases hy
  have hone := hclaim plainRisk popsFirst withoutJitter .plain (.start () [], {}) .init [uncounted]
    [.deliver 0 [[]], .deliver 1 [[]]] hid httl (remembers_of_once hdistinct)
  revert hone
  unfold OneOrderEach
  decide +kernel

end AlphaPanda.Pipeline
