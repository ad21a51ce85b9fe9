import AlphaPanda.Streaming.Correlation

/-!
# What propagates

The producer never reads the context, so that an event carries the correlation
id of its message only if the handler names it, and a new trace keeps the id of
the context, which is that of the message before.
-/

namespace AlphaPanda.Streaming

open Coroutine

section
variable {π ω δ : Type}

def Record.object? (m : Record (Correlated δ)) : Option (Envelope (Correlated δ)) :=
  match m.value with
  | .object value => some value
  | .other _ => none

def Record.correlationId? (m : Record (Correlated δ)) : Option Value :=
  (m.object?.map (·.data.correlationId)).filter (·.truthy)

def Traced.under (h : Traced π ω δ) : Value := h.task.context.correlationId

/-- Every event that the handler published for a message with a correlation id
and an event id, and named no correlation id for, carries that of the message. -/
def Propagates (h : Traced π ω δ) : Prop :=
  ∀ value c, h.record.object? = some value → value.id.truthy → h.record.correlationId? = some c →
    ∀ r event, (.service (.publish r event), none) ∈ h.log → r.names = none →
      event.correlationId = c

/-- A message without a correlation id is not processed under that of an earlier
message. -/
def Separate (run : List (Traced π ω δ)) : Prop :=
  run.Pairwise fun earlier h => earlier.record.object?.isSome → h.record.object?.isSome →
    h.record.correlationId? = none → h.under ≠ earlier.under

def NamesEach (h : Traced π ω δ) : Prop :=
  ∀ value c, h.record.object? = some value → value.id.truthy → h.record.correlationId? = some c →
    ∀ r event, (.service (.publish r event), none) ∈ h.log → r.names ≠ none

def ComesFirst (records : List (Record (Correlated δ))) : Prop :=
  records.Pairwise fun earlier m => earlier.object?.isSome → m.object?.isSome →
    m.correlationId? ≠ none

/-- No id that is drawn from the handling of a message on is its correlation id. -/
def Unique (ids : IdSupply) (h : Traced π ω δ) : Prop :=
  ∀ n, h.task.generated ≤ n → h.record.correlationId? ≠ some (.str (ids.id n))

end

-- ---------------------------------------------------------------------------
-- The producer
-- ---------------------------------------------------------------------------

structure Task.Within (ctx : Context) (n : ℕ) (t : Task) : Prop where
  context : t.context = ctx
  drawn : n ≤ t.generated

section
variable {σ π ω δ : Type} {ctx : Context} {n : ℕ}

theorem generateEventId_exec (p : MessageProducer) (as : List (Option Exc)) (w : World Task ω Exc) :
    (p.generateEventId : Prog Task ω Exc String).exec as w =
      ⟨.ok (p.ids.id w.st.generated),
        { w with st := { w.st with generated := w.st.generated + 1 } }, as⟩ := rfl

def Says (ids : IdSupply) (n : ℕ) : Sent π ω × Option Exc → Prop
  | (.publish r event, _) => r.names = none →
      event.correlationId = .null ∨ ∃ k, n ≤ k ∧ event.correlationId = .str (ids.id k)
  | (.other _, _) => True

theorem correlationId_exec (p : MessageProducer) (r : SendRequest π) (as : List (Option Exc))
    (w : World Task ω Exc) (hw : w.st.Within ctx n) : ∃ id t,
      (p.correlationId r : Prog Task ω Exc String).exec as w = ⟨.ok id, { w with st := t }, as⟩ ∧
        t.Within ctx n ∧ (r.correlationId.filter (· ≠ "") = none → ∃ k, n ≤ k ∧ id = p.ids.id k) := by
  unfold MessageProducer.correlationId
  split
  · rename_i c hnamed
    refine ⟨c, w.st, rfl, hw, fun hnone => ?_⟩
    rw [hnamed] at hnone
    cases hnone
  · exact ⟨_, _, generateEventId_exec p as w, ⟨hw.context, hw.drawn.trans (Nat.le_succ _)⟩,
      fun _ => ⟨_, hw.drawn, rfl⟩⟩

theorem send_within (p : MessageProducer) (r : SendRequest π) (as : List (Option Exc)) (t : Task)
    (ht : t.Within ctx n) :
    ((p.send r : Prog Task (Sent π ω) Exc Unit).exec as (World.start t)).world.st.Within ctx n ∧
      ∀ x ∈ ((p.send r : Prog Task (Sent π ω) Exc Unit).exec as (World.start t)).world.log,
        Says p.ids n x := by
  unfold MessageProducer.send
  split
  · rename_i hwrapped
    rw [exec_perform]
    refine ⟨ht, fun x hx => ?_⟩
    cases List.mem_singleton.mp hx
    intro hnames
    left
    rw [SendRequest.names, if_pos hwrapped] at hnames
    rw [Event.correlationId, hnames, Option.getD_none]
  rename_i hplain
  have hdrawn : Task.Within ctx n { t with generated := t.generated + 1 } :=
    ⟨ht.context, ht.drawn.trans (Nat.le_succ _)⟩
  simp only [exec_bind, generateEventId_exec, Outcome.andThen_ok]
  split
  · exact ⟨hdrawn, fun x hx => by cases hx⟩
  · obtain ⟨id, t', hexec, ht', hid⟩ := correlationId_exec (ω := Sent π ω) p r as
      ⟨{ t with generated := t.generated + 1 }, []⟩ hdrawn
    simp only [exec_bind, World.start, hexec, Outcome.andThen_ok, exec_perform]
    refine ⟨ht', fun x hx => ?_⟩
    cases List.mem_singleton.mp hx
    intro hnames
    right
    rw [SendRequest.names, if_neg hplain, Option.map_eq_none_iff] at hnames
    obtain ⟨k, hk, rfl⟩ := hid hnames
    exact ⟨k, hk, rfl⟩

theorem carryOut_within (p : MessageProducer) (op : Request π ω) (as : List (Option Exc)) (t : Task)
    (ht : t.Within ctx n) : ((p.carryOut op).exec as (World.start t)).world.st.Within ctx n ∧
      ∀ x ∈ ((p.carryOut op).exec as (World.start t)).world.log, Says p.ids n x := by
  cases op with
  | send r => exact send_within p r as t ht
  | other op =>
    rw [MessageProducer.carryOut, exec_perform]
    refine ⟨ht, fun x hx => ?_⟩
    cases List.mem_singleton.mp hx
    trivial

theorem handle_within (f : TracedFlow σ π ω δ) (i : Invocation (Correlated δ))
    (as : List (Option Exc)) (s : σ × Task) (hs : s.2.Within ctx n) :
    (invoke f.handle i as s).world.st.2.Within ctx n ∧
      ∀ x ∈ (invoke f.handle i as s).world.log, Says f.producer.ids n x := by
  obtain ⟨_, _, _, himpl⟩ := implement_exec f.producer.carryOut (f.handler i.1 i.2) as s.1 s.2
  obtain ⟨hend, hall⟩ := himpl.keeps (fun op as t ht => (carryOut_within f.producer op as t ht).1) hs
  refine ⟨hend, fun x hx => ?_⟩
  obtain ⟨op, as₀, t, ht, hx⟩ := hall x hx
  exact (carryOut_within f.producer op as₀ t ht).2 x hx

theorem operation_within (f : TracedFlow σ π ω δ) (op : Op (Invocation (Correlated δ)) (Correlated δ))
    (as : List (Option Exc)) (s : σ × Task) (hs : s.2.Within ctx n) :
    ((Streaming.carryOut f.handle op).exec as (World.start s)).world.st.2.Within ctx n ∧
      ∀ x r, (.service x, r) ∈ ((Streaming.carryOut f.handle op).exec as (World.start s)).world.log →
        Says f.producer.ids n (x, r) := by
  cases op with
  | service i =>
    obtain ⟨hend, hall⟩ := handle_within f i as s hs
    rw [carryOut_service]
    refine ⟨hend, fun x r hx => ?_⟩
    obtain ⟨y, hy, heq⟩ := List.mem_map.mp hx
    cases heq
    exact hall _ hy
  | _ =>
    simp only [Streaming.carryOut, exec_perform]
    refine ⟨hs, fun x r hx => ?_⟩
    cases List.mem_singleton.mp hx

theorem process_within (f : TracedFlow σ π ω δ) (s : State Unit × σ × Task)
    (a : Arrival (Correlated δ)) {t : Task} (ht : t = f.setUp a.record s.2.2) :
    (f.process s a).world.st.2.2.Within t.context t.generated ∧
      ∀ x r, (.service x, r) ∈ (f.process s a).world.log → Says f.producer.ids t.generated (x, r) := by
  have hexec : f.process s a = (((invoking f.deduplicator f.errorHandler).processMessage
      a.record).implement (Streaming.carryOut f.handle)).exec a.answers
        (World.start (s.1.expire a.expired, s.2.1, t)) := ht ▸ rfl
  obtain ⟨_, _, _, himpl⟩ := implement_exec (Streaming.carryOut f.handle)
    ((invoking f.deduplicator f.errorHandler).processMessage a.record) a.answers
    (s.1.expire a.expired) (s.2.1, t)
  rw [← hexec] at himpl
  obtain ⟨hend, hall⟩ := himpl.keeps (I := fun s => s.2.Within t.context t.generated)
    (fun op as s hs => (operation_within f op as s hs).1) ⟨rfl, le_rfl⟩
  refine ⟨hend, fun x r hx => ?_⟩
  obtain ⟨op, as₀, s₀, hs₀, hx⟩ := hall _ hx
  exact (operation_within f op as₀ s₀ hs₀).2 x r hx

theorem setUp_of_not_object (f : TracedFlow σ π ω δ) {m : Record (Correlated δ)}
    (h : m.object? = none) (t : Task) : f.setUp m t = t := by
  unfold Record.object? at h
  unfold TracedFlow.setUp
  split at h
  · cases h
  · rename_i hvalue
    rw [hvalue]

theorem setUp_of_correlated (f : TracedFlow σ π ω δ) {m : Record (Correlated δ)}
    (h : m.correlationId? = some c) (t : Task) : (f.setUp m t).context.correlationId = c := by
  obtain ⟨hc, htruthy⟩ := Option.filter_eq_some_iff.mp h
  obtain ⟨value, hvalue, rfl⟩ := Option.map_eq_some_iff.mp hc
  unfold Record.object? at hvalue
  unfold TracedFlow.setUp
  split at hvalue
  · rename_i hobject
    cases hvalue
    rw [hobject]
    simp only [if_pos htruthy, CorrelationContext.continueTrace]
  · cases hvalue

theorem setUp_of_uncorrelated (f : TracedFlow σ π ω δ) {m : Record (Correlated δ)}
    (hobject : m.object? = some value) (h : m.correlationId? = none) (t : Task) :
    (f.setUp m t).context.correlationId.truthy ∧
      (t.context.correlationId.truthy →
        (f.setUp m t).context.correlationId = t.context.correlationId) := by
  have htruthy : ¬value.data.correlationId.truthy := by
    rw [Record.correlationId?, hobject, Option.map_some, Option.filter_eq_none_iff] at h
    exact h _ rfl
  unfold Record.object? at hobject
  unfold TracedFlow.setUp
  split at hobject
  · rename_i hvalue
    cases hobject
    rw [hvalue]
    simp only [if_neg htruthy, CorrelationContext.startNewTrace, CorrelationContext.ensureCorrelationId]
    split
    · rename_i hset
      exact ⟨hset, fun _ => rfl⟩
    · rename_i hunset
      exact ⟨decide_eq_true (f.producer.ids.nonempty), fun hset => absurd hset hunset⟩
  · cases hobject

theorem setUp_truthy (f : TracedFlow σ π ω δ) {m : Record (Correlated δ)}
    (hobject : m.object? = some value) (t : Task) : (f.setUp m t).context.correlationId.truthy := by
  cases h : m.correlationId? with
  | none => exact (setUp_of_uncorrelated f hobject h t).1
  | some c =>
    rw [setUp_of_correlated f h t]
    exact (Option.filter_eq_some_iff.mp h).2

-- ---------------------------------------------------------------------------
-- Runs
-- ---------------------------------------------------------------------------

variable (f : TracedFlow σ π ω δ)

theorem mem_run {s : State Unit × σ × Task} (h : x ∈ f.run s as) : ∃ s', ∃ a ∈ as,
    x = ⟨a.record, f.setUp a.record s'.2.2, (f.process s' a).world.log⟩ := by
  induction as generalizing s with
  | nil => cases h
  | cons a as ih =>
    obtain rfl | h := List.mem_cons.mp h
    · exact ⟨s, a, List.mem_cons_self, rfl⟩
    · obtain ⟨s', b, hb, hx⟩ := ih h
      exact ⟨s', b, List.mem_cons_of_mem _ hb, hx⟩

/-- Nothing propagates but what the handler names. -/
theorem propagates_iff {s : State Unit × σ × Task} (h : x ∈ f.run s as)
    (hunique : Unique f.producer.ids x) : Propagates x ↔ NamesEach x := by
  obtain ⟨s', a, -, rfl⟩ := mem_run f h
  constructor
  · intro hpropagates value c hobject hid hc r event hmem hnames
    have hcarries := hpropagates value c hobject hid hc r event hmem hnames
    obtain hnull | ⟨k, hk, hdrawn⟩ := (process_within f s' a rfl).2 _ _ hmem hnames
    · obtain ⟨_, htruthy⟩ := Option.filter_eq_some_iff.mp hc
      rw [← hcarries, hnull] at htruthy
      cases htruthy
    · exact hunique k hk (hc.trans (congrArg some (hcarries.symm.trans hdrawn)))
  · intro hnamed value c hobject hid hc r event hmem hnames
    exact absurd hnames (hnamed value c hobject hid hc r event hmem)

theorem all_correlated {s : State Unit × σ × Task} {x : Value}
    (hx : s.2.2.context.correlationId = x) (htruthy : x.truthy) (hseparate : Separate (f.run s as))
    (hother : ∀ h ∈ f.run s as, h.record.object?.isSome → h.record.correlationId? = none → h.under ≠ x) :
    ∀ a ∈ as, a.record.object?.isSome → a.record.correlationId? ≠ none := by
  induction as generalizing s x with
  | nil => exact fun a ha => by cases ha
  | cons a as ih =>
    obtain ⟨hhead, hseparate⟩ := List.pairwise_cons.mp hseparate
    have hctx := (process_within f s a rfl).1.context
    cases hobject : a.record.object? with
    | none =>
      rw [setUp_of_not_object f hobject] at hctx
      have htail := ih ((congrArg Context.correlationId hctx).trans hx) htruthy hseparate
        fun h hh => hother h (List.mem_cons_of_mem _ hh)
      intro b hb
      obtain rfl | hb := List.mem_cons.mp hb
      · rw [hobject]
        exact fun h => absurd h Bool.false_ne_true
      · exact htail b hb
    | some value =>
      have hcorrelated : a.record.correlationId? ≠ none := by
        intro hnone
        refine hother _ List.mem_cons_self (hobject ▸ rfl) hnone ?_
        exact ((setUp_of_uncorrelated f hobject hnone s.2.2).2 (hx ▸ htruthy)).trans hx
      have htail := ih (congrArg Context.correlationId hctx) (setUp_truthy f hobject s.2.2) hseparate
        fun h hh hsome hnone => hhead h hh (hobject ▸ rfl) hsome hnone
      intro b hb
      obtain rfl | hb := List.mem_cons.mp hb
      · exact fun _ => hcorrelated
      · exact htail b hb

/-- Only the first message of a task may do without a correlation id. -/
theorem separate_iff (s : State Unit × σ × Task) (as : List (Arrival (Correlated δ))) :
    Separate (f.run s as) ↔ ComesFirst (as.map (·.record)) := by
  induction as generalizing s with
  | nil => exact iff_of_true List.Pairwise.nil List.Pairwise.nil
  | cons a as ih =>
    have hctx := (process_within f s a rfl).1.context
    constructor
    · intro hseparate
      obtain ⟨hhead, hrest⟩ := List.pairwise_cons.mp hseparate
      refine List.pairwise_cons.mpr ⟨fun m hm hobject => ?_, (ih _).mp hrest⟩
      obtain ⟨b, hb, rfl⟩ := List.mem_map.mp hm
      obtain ⟨value, hobject⟩ := Option.isSome_iff_exists.mp hobject
      exact all_correlated f (congrArg Context.correlationId hctx) (setUp_truthy f hobject s.2.2) hrest
        (fun h hh hsome hnone => hhead h hh (hobject ▸ rfl) hsome hnone) b hb
    · intro hfirst
      obtain ⟨hhead, hrest⟩ := List.pairwise_cons.mp hfirst
      refine List.pairwise_cons.mpr ⟨fun h hh hobject hsome hnone => ?_, (ih _).mpr hrest⟩
      obtain ⟨_, b, hb, rfl⟩ := mem_run f hh
      exact absurd hnone (hhead _ (List.mem_map_of_mem hb) hobject hsome)

/-- Correlation ids propagate in a run exactly if the handler names them, and no
message without one comes after another message. -/
theorem propagation_iff (s : State Unit × σ × Task) (as : List (Arrival (Correlated δ)))
    (hunique : ∀ h ∈ f.run s as, Unique f.producer.ids h) :
    ((∀ h ∈ f.run s as, Propagates h) ∧ Separate (f.run s as)) ↔
      (∀ h ∈ f.run s as, NamesEach h) ∧ ComesFirst (as.map (·.record)) := by
  rw [separate_iff]
  exact and_congr_left fun _ => forall₂_congr fun h hh => propagates_iff f hh (hunique h hh)

end

def lengthening : IdSupply where
  id n := String.ofList ('g' :: List.replicate n '0')
  nonempty h := by
    have hlist := congrArg String.toList h
    rw [String.toList_ofList] at hlist
    cases hlist

def signalling (correlationId : Option String) : TracedFlow Unit Unit Unit Unit where
  serviceName := "strategy_runner"
  producer := ⟨"strategy_runner", lengthening⟩
  handler _ _ := Prog.perform (.send
    { topic := "paper.signals.raw", key := "s1:1", data := ⟨none, none, none, ()⟩,
      eventType := some .tradingSignal, correlationId := correlationId, broker := "paper" })
  deduplicator := none
  errorHandler := none

def tickArrival (offset : ℕ) (correlationId : Value) : Arrival (Correlated Unit) where
  record := ⟨"market.ticks", 0, offset, some "1", 0,
    .object ⟨.str s!"e{offset}", .str "market_tick", ⟨correlationId, ()⟩⟩⟩
  expired := []
  answers := []

def freshTask : State Unit × Unit × Task := (.start () [], (), {})

/-- A handler that names the id of its message. -/
theorem named_propagates :
    (∀ h ∈ (signalling (some "c1")).run freshTask [tickArrival 0 (.str "c1")], Propagates h) ∧
      Separate ((signalling (some "c1")).run freshTask [tickArrival 0 (.str "c1")]) := by
  refine (propagation_iff (signalling (some "c1")) freshTask [tickArrival 0 (.str "c1")] ?_).mpr
    ⟨?_, List.pairwise_singleton _ _⟩
  · intro h hh n _ heq
    cases List.mem_singleton.mp hh
    have hid : "c1" = lengthening.id n := by
      injection heq with heq
      injection heq
    have hhead := congrArg (fun s => s.toList.head?) hid
    simp only [lengthening, String.toList_ofList, List.head?_cons] at hhead
    exact absurd hhead (by decide)
  · intro h hh value c _ _ _ r event hmem
    cases List.mem_singleton.mp hh
    obtain hmem | hmem := List.mem_cons.mp hmem
    · cases hmem
      exact Option.some_ne_none _
    · cases List.mem_singleton.mp hmem

/-- A handler that leaves the correlation id to the producer, and a second
message without one. -/
theorem unnamed_does_not_propagate :
    (∃ h ∈ (signalling none).run freshTask [tickArrival 0 (.str "c1"), tickArrival 1 .null],
      ¬Propagates h) ∧
      ¬Separate ((signalling none).run freshTask [tickArrival 0 (.str "c1"), tickArrival 1 .null]) := by
  constructor
  · refine ⟨_, List.mem_cons_self, fun h => ?_⟩
    have hcarries := h _ (.str "c1") rfl rfl rfl _ _ List.mem_cons_self rfl
    exact absurd hcarries (by decide)
  · intro h
    obtain ⟨hhead, _⟩ := List.pairwise_cons.mp h
    exact hhead _ List.mem_cons_self rfl rfl rfl rfl

end AlphaPanda.Streaming
