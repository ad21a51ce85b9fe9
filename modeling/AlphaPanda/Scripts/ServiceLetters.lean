import AlphaPanda.Lib.Confined
import AlphaPanda.Scripts.DlqReplay
import AlphaPanda.Streaming.Correlation

/-!
# Dead letters of the services

What the replay tool makes of the dead letters that the services publish. It
reads the fields that `send_to_dlq` writes at the top of a record; the producer
has put them under the `data` of an envelope.
-/

namespace AlphaPanda.DlqReplay

open Coroutine Streaming

section
variable {F δ : Type}

-- ---------------------------------------------------------------------------
-- What is written
-- ---------------------------------------------------------------------------

/-- `dlq_event`. `encode` is the message value as JSON, `now` the time. -/
def dlqEventJson (encode : Body δ → Json F) (now : String) (e : DlqEvent δ) : Json F :=
  .object
    [("dlq_metadata", .object
      [("original_topic", .str e.originalTopic),
        ("original_partition", .int e.originalPartition),
        ("original_offset", .int e.originalOffset),
        ("original_timestamp", .int e.originalTimestamp),
        ("dlq_timestamp", .str now),
        ("service_name", .str e.serviceName)]),
      ("failure_info", .object
        [("error_type", .str e.errorType.value),
          ("error_class", .str e.errorClass),
          ("error_message", .str e.errorMessage),
          ("failure_reason", .str e.failureReason),
          ("retry_count", .int e.retryCount),
          ("stack_trace", .null)]),
      ("original_message", .object
        [("key", .str e.key),
          ("value", encode e.value),
          ("headers", .object (e.headers.map fun h => (h.1, .str h.2)))]),
      ("replay_metadata", .object
        [("can_replay", .bool e.canReplay),
          ("suggested_delay_minutes", .int e.suggestedDelayMinutes),
          ("consumer_group", .str e.consumerGroup),
          ("requires_manual_review", .bool e.requiresManualReview)])]

/-- The call of `send` in `send_to_dlq`; the event has no `id` and no `type`. -/
def dlqRequest (encode : Body δ → Json F) (now : String) (e : DlqEvent δ) : SendRequest (Json F) where
  topic := e.originalTopic ++ ".dlq"
  key := e.key
  data := { rest := dlqEventJson encode now e }
  eventType := some .systemError
  broker := "system"

/-- An event as it is published. What an envelope holds beside the modelled
fields is its time and its trace ids. -/
def eventJson (ts traceId : String) (parentTraceId : Option String) : Streaming.Event (Json F) → Json F
  | .wrapped data => data.rest
  | .envelope e => .object
    [("id", .str e.id),
      ("correlation_id", .str e.correlationId),
      ("causation_id", e.causationId.elim .null .str),
      ("trace_id", .str traceId),
      ("parent_trace_id", parentTraceId.elim .null .str),
      ("broker", .str e.broker),
      ("type", .str e.type.value),
      ("ts", .str ts),
      ("key", .str e.key),
      ("source", .str e.source),
      ("version", .int e.version),
      ("data", e.data.rest)]

def Published (encode : Body δ → Json F) (e : DlqEvent δ) (record : Json F) : Prop :=
  ∃ (p : MessageProducer) (now ts traceId : String) (parentTraceId : Option String)
    (as : List (Option Exc)) (t : Task) (event : Streaming.Event (Json F)),
    (.publish (dlqRequest encode now e) event, none) ∈
        ((p.send (dlqRequest encode now e) : Prog Task (Sent (Json F) Empty) Exc Unit).exec as
          (World.start t)).world.log ∧
      record = eventJson ts traceId parentTraceId event

/-- The layout of the event itself is the one that the tool reads. -/
theorem readLetter_dlqEvent (py : Builtins F) (encode : Body δ → Json F) (now : String)
    {e : DlqEvent δ} (htopic : e.originalTopic ≠ "") (hvalue : encode e.value ≠ .null) :
    readLetter py (dlqEventJson encode now e) =
      .ok (some ⟨.str e.originalTopic, .str e.key, encode e.value⟩) := by
  have htruthy : truthy py (.str e.originalTopic) = true := by simpa [truthy] using htopic
  calc readLetter py (dlqEventJson encode now e)
      = .ok (some ⟨_, _, _⟩) := readLetter_object py rfl rfl htruthy hvalue
    _ = .ok (some ⟨.str e.originalTopic, .str e.key, encode e.value⟩) := rfl

theorem readLetter_envelope (py : Builtins F) (ts traceId : String) (parentTraceId : Option String)
    (e : EventEnvelope (Json F)) :
    readLetter py (eventJson ts traceId parentTraceId (.envelope e)) = .ok none := rfl

/-- What the producer publishes of data without an `id` is an envelope. -/
theorem send_confined {p : MessageProducer} {r : SendRequest (Json F)} (hid : r.data.id = none) :
    (p.send r : Prog Task (Sent (Json F) Empty) Exc Unit).Confined fun op =>
      ∀ event, op = .publish r event → ∃ e, event = .envelope e := by
  have hgenerate : ∀ P : Sent (Json F) Empty → Prop,
      (p.generateEventId : Prog Task (Sent (Json F) Empty) Exc String).Confined P := fun P =>
    confined_bind confined_get fun _ => confined_bind confined_set fun _ => confined_pure
  unfold MessageProducer.send
  rw [hid, Option.isSome_none, if_neg Bool.false_ne_true]
  refine confined_bind (hgenerate _) fun id => ?_
  split
  · exact confined_throw
  refine confined_bind ?_ fun correlationId => confined_perform ?_
  · unfold MessageProducer.correlationId
    split
    · exact confined_pure
    · exact hgenerate _
  · rintro event ⟨rfl⟩
    exact ⟨_, rfl⟩

theorem published_malformed {encode : Body δ → Json F} (py : Builtins F)
    (h : Published encode e record) : readLetter py record = .ok none := by
  obtain ⟨p, now, ts, traceId, parentTraceId, as, t, event, hmem, rfl⟩ := h
  obtain ⟨l, hlog, hl⟩ := (send_confined (p := p) (r := dlqRequest encode now e) rfl).exec as
    (World.start t)
  rw [hlog, World.start, List.nil_append] at hmem
  obtain ⟨envelope, rfl⟩ := hl _ hmem event rfl
  exact readLetter_envelope py ts traceId parentTraceId envelope

-- ---------------------------------------------------------------------------
-- Replaying
-- ---------------------------------------------------------------------------

variable {π : Type} [DecidableEq π] {py : Builtins F} {topic : π → List (Except Exc (Json F))}

def Op.IsCommit (op : Op π F) : Prop := ∃ offsets, op = .commit offsets

theorem replay_confined (htopic : ∀ p, ∀ record ∈ topic p, ∃ val, record = .ok val ∧
    readLetter py val = .ok none) (args : Args) (ps : List π) :
    (replay py topic args ps).Confined Op.IsCommit := by
  induction ps with
  | nil => exact confined_pure
  | cons p ps ih =>
    refine confined_bind confined_get fun s => ?_
    split
    · exact ih
    · exact confined_throw
    rename_i val hval
    obtain ⟨val', heq, hread⟩ := htopic p _ (List.mem_of_getElem? hval)
    cases heq
    refine confined_bind confined_set fun _ => confined_bind ?_ fun reached => ?_
    · simp only [handle, hread]
      exact confined_bind (confined_bind confined_get fun s => confined_perform ⟨_, rfl⟩) fun _ =>
        confined_pure
    · split
      · exact confined_pure
      · exact ih

/-- The tool would republish the dead letters that the error handler writes.
On a topic of the ones that the services publish it only ever commits: none is
republished, none is printed in a dry run. -/
theorem service_letters_skipped (py : Builtins F) (encode : Body δ → Json F) :
    (∀ (now : String) (e : DlqEvent δ), e.originalTopic ≠ "" → encode e.value ≠ .null →
      readLetter py (dlqEventJson encode now e) =
        .ok (some ⟨.str e.originalTopic, .str e.key, encode e.value⟩)) ∧
    ∀ (topic : π → List (Except Exc (Json F))) committed ops,
      (∀ p, ∀ record ∈ topic p, ∃ e val, record = .ok val ∧ Published encode e val) →
      Replayed py topic committed ops → ∀ x ∈ ops, Op.IsCommit x.1 := by
  refine ⟨fun now e => readLetter_dlqEvent py encode now, fun topic committed ops htopic h => ?_⟩
  have hmalformed : ∀ p, ∀ record ∈ topic p, ∃ val, record = .ok val ∧
      readLetter py val = .ok none := by
    intro p record hrecord
    obtain ⟨e, val, hval, hpublished⟩ := htopic p record hrecord
    exact ⟨val, hval, published_malformed py hpublished⟩
  induction h with
  | new => exact List.forall_mem_nil _
  | use h args ps as hl _ ih =>
    obtain ⟨l', hlog, hcommits⟩ := (replay_confined hmalformed args ps).exec as
      (World.start ⟨_, 0⟩)
    rw [World.start, List.nil_append] at hlog
    refine List.forall_mem_append.mpr ⟨ih, fun x hx => hcommits x ?_⟩
    rw [← hlog]
    exact hl.subset hx

end

def oneIdSupply : IdSupply := ⟨fun _ => "e2", by simp⟩

def poisonLetter : DlqEvent Unit :=
  ErrorHandler.dlqEvent ⟨"paper_trading", fun _ _ => 0⟩
    ⟨"paper.signals.validated", 0, 0, some "s1:1", 0, .object ⟨.str "e1", .str "validated_signal", ()⟩⟩
    (.validation "Invalid validated signal payload") "Non-retryable error: poison" 0

def encodeId : Body Unit → Json Empty := fun _ => .object [("id", .str "e1")]

def poisonEnvelope : EventEnvelope (Json Empty) where
  id := "e2"
  correlationId := "e2"
  broker := "system"
  type := .systemError
  key := "s1:1"
  source := "paper_trading"
  data := { rest := dlqEventJson encodeId "2024-01-02T09:30:00+00:00" poisonLetter }

def serviceTopic : Unit → List (Except Exc (Json Empty)) := fun _ =>
  [.ok (eventJson "2024-01-02T09:30:00+00:00" "e2" none (.envelope poisonEnvelope))]

theorem poisonLetter_published : Published encodeId poisonLetter
    (eventJson "2024-01-02T09:30:00+00:00" "e2" none (.envelope poisonEnvelope)) :=
  ⟨⟨"paper_trading", oneIdSupply⟩, "2024-01-02T09:30:00+00:00", _, _, _, [], {}, .envelope poisonEnvelope,
    List.mem_singleton_self _, rfl⟩

theorem poisonLetter_skipped : ∃ committed ops, Replayed plainBuiltins serviceTopic committed ops ∧
    committed () = 1 ∧ ∀ x ∈ ops, Op.IsCommit x.1 := by
  have hnew : Replayed plainBuiltins serviceTopic (fun _ => 0) [] := .new
  have hused := hnew.use {} [()] [] (List.prefix_refl _) (.inr ⟨none, List.mem_cons_self⟩)
  refine ⟨_, _, hused, rfl, (service_letters_skipped plainBuiltins encodeId).2 serviceTopic _ _ ?_ hused⟩
  intro p record hrecord
  exact ⟨poisonLetter, _, List.mem_singleton.mp hrecord, poisonLetter_published⟩

end AlphaPanda.DlqReplay
