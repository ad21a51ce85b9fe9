import AlphaPanda.Streaming.CommitSafety
import AlphaPanda.Streaming.Consumption

/-!
# What a dead letter keeps

The dict that the consumer yields has the headers; the object that the error
handler makes of it for the publisher of dead letters has none.
-/

namespace AlphaPanda.Streaming

open Coroutine DeduplicationManager

-- ---------------------------------------------------------------------------
-- From the consumer to the publisher
-- ---------------------------------------------------------------------------

/-- The dict that `consume` yields. -/
structure Message (δ : Type) extends Record δ where
  headers : Dict String String

def decodeHeader (header : String × ByteArray) : Except Exc (String × String) :=
  (decodeUtf8 header.2).map (header.1, ·)

def consumeMessage (loads : Option ByteArray → Except Exc (Body δ)) (r : KafkaRecord) :
    Except Exc (Message δ) := do
  let record ← consume loads r
  let headers ← r.headers.mapM decodeHeader
  pure { record with headers := .ofList headers }

inductive HeaderValue where
  | bytes (b : ByteArray)
  | text (s : String)

inductive Headers where
  | dict (d : Dict String HeaderValue)
  | pairs (l : List (String × HeaderValue))

/-- `MessageObj`, its attributes; an attribute that it lacks is `none`. -/
structure MessageObj (δ : Type) where
  topic : String
  partition : ℤ
  offset : ℕ
  value : Body δ
  key : Option String
  timestamp : ℤ
  headers : Option Headers

def MessageObj.ofMessage (m : Message δ) : MessageObj δ where
  topic := m.topic
  partition := m.partition
  offset := m.offset
  value := m.value
  key := m.key
  timestamp := m.timestamp
  headers := none

structure OriginalMessage (δ : Type) where
  key : String
  value : Body δ
  headers : List (String × String)

def serializeHeaders (b64encode : ByteArray → String) (headers : Headers) : List (String × String) :=
  let serialize : HeaderValue → String
    | .bytes b => b64encode b
    | .text s => s
  let pairs := match headers with
    | .dict d => d.entries
    | .pairs l => l
  (pairs.foldl (fun d h => d.set h.1 (serialize h.2)) (.empty : Dict String String)).entries

def MessageObj.originalMessage (b64encode : ByteArray → String) (o : MessageObj δ) :
    OriginalMessage δ where
  key := o.key.getD "None"
  value := o.value
  headers := serializeHeaders b64encode (o.headers.getD (.dict .empty))

def DlqEvent.originalMessage (event : DlqEvent δ) : OriginalMessage δ :=
  ⟨event.key, event.value, event.headers⟩

theorem dlqEvent_originalMessage (b64encode : ByteArray → String) (eh : ErrorHandler)
    (m : Message δ) (e : Exc) (reason : String) (n : ℕ) :
    (eh.dlqEvent m.toRecord e reason n).originalMessage =
      (MessageObj.ofMessage m).originalMessage b64encode := rfl

-- ---------------------------------------------------------------------------
-- Dead letters
-- ---------------------------------------------------------------------------

section
variable (loads : Option ByteArray → Except Exc (Body δ)) (deduplicator : Option DeduplicationManager)
  (eh : ErrorHandler)

/-- The record was consumed, and its processing published the event. -/
def DeadLetter (r : KafkaRecord) (event : DlqEvent δ) : Prop :=
  ∃ m s expired answers topic key, consumeMessage loads r = .ok m ∧
    (.sendDlq topic key event, none) ∈
      ((invoking deduplicator (some eh)).deliver s ⟨m.toRecord, expired, answers⟩).world.log

/-- The original message of a dead letter determines the key, the value and the
headers of its record. -/
def Determined (r : KafkaRecord) (event : DlqEvent δ) : Prop :=
  ∀ r' event', DeadLetter loads deduplicator eh r' event' →
    event'.originalMessage = event.originalMessage →
    r'.key = r.key ∧ loads r'.value = loads r.value ∧ r'.headers = r.headers

end

section
variable {loads : Option ByteArray → Except Exc (Body δ)} {deduplicator : Option DeduplicationManager}
  {eh : ErrorHandler}

/-- An operation that publishes a dead letter publishes one of this record. -/
def KeepsOriginal (m : Record δ) : Op (Invocation δ) δ → Prop
  | .sendDlq _ _ event => event.originalMessage = ⟨m.key.getD "None", m.value, []⟩
  | _ => True

theorem commit_only (m : Record δ) : (commit m : Layer Unit (Invocation δ) δ Unit).Only (KeepsOriginal m) :=
  only_perform trivial

theorem service_only (m : Record δ) (i : Invocation δ) :
    (Prog.perform (.service i) : Layer Unit (Invocation δ) δ Unit).Only (KeepsOriginal m) :=
  only_perform trivial

theorem sendToDlqAndCommit_only (m : Record δ) (e : Exc) (reason : String) (n : ℕ) :
    (eh.sendToDlqAndCommit m e reason n : Layer Unit (Invocation δ) δ Unit).Only (KeepsOriginal m) := by
  refine leaves_bind (leaves_tryCatch (leaves_bind (only_perform rfl) fun _ => leaves_pure)
    fun _ => leaves_pure) fun sent => ?_
  split
  · exact leaves_bind (leaves_modify fun _ => rfl) fun _ => commit_only m
  · exact leaves_pure

theorem delRetryCount_only (m : Record δ) :
    (ErrorHandler.delRetryCount m : Layer Unit (Invocation δ) δ Unit).Only (KeepsOriginal m) := by
  refine leaves_bind leaves_get fun s => ?_
  split
  · exact leaves_throw
  · exact leaves_set fun _ => rfl

theorem retryProcessing_only {processing : Layer Unit (Invocation δ) δ Unit} (m : Record δ)
    (hprocessing : processing.Only (KeepsOriginal m)) (e : Exc) (config : RetryConfig) (n : ℕ) :
    (eh.retryProcessing processing m e config n).Only (KeepsOriginal m) := by
  refine leaves_bind (leaves_modify fun _ => rfl) fun _ => leaves_bind (only_perform trivial)
    fun _ => leaves_tryCatch ?_ fun _ => leaves_pure
  exact leaves_bind hprocessing fun _ => leaves_bind (delRetryCount_only m)
    fun _ => leaves_bind (commit_only m) fun _ => leaves_pure

theorem alreadyProcessed_only (m : Record δ) (eventId : Value) :
    ((invoking deduplicator (some eh)).alreadyProcessed m eventId).Only (KeepsOriginal m) := by
  unfold ReliabilityLayer.alreadyProcessed
  split
  · split
    · refine leaves_bind leaves_get fun s => ?_
      split
      · exact leaves_pure
      · refine leaves_bind (only_perform trivial) fun _ => leaves_bind leaves_get fun s => ?_
        split
        · exact leaves_bind (leaves_modify fun _ => rfl) fun _ => leaves_pure
        · exact leaves_pure
    · exact leaves_pure
  · exact leaves_pure

theorem commitAndMark_only (m : Record δ) (value : Envelope δ) :
    ((invoking deduplicator (some eh)).commitAndMark m value).Only (KeepsOriginal m) := by
  refine leaves_bind (commit_only m) fun _ => ?_
  split
  · split
    · exact leaves_bind (only_perform trivial) fun _ => leaves_modify fun _ => rfl
    · exact leaves_pure
  · exact leaves_pure

theorem onError_only (m : Record δ) (value : Envelope δ) (e : Exc) :
    ((invoking deduplicator (some eh)).onError m value e).Only (KeepsOriginal m) := by
  refine leaves_bind (leaves_bind leaves_get fun s => ?_) fun _ => leaves_pure
  simp only
  split
  · exact leaves_bind (sendToDlqAndCommit_only m e _ _) fun _ => leaves_pure
  · exact retryProcessing_only m (service_only m _) e _ _

theorem processMessage_only (m : Record δ) :
    ((invoking deduplicator (some eh)).processMessage m).Only (KeepsOriginal m) := by
  unfold ReliabilityLayer.processMessage
  split
  · exact leaves_throw
  · refine leaves_bind (alreadyProcessed_only m _) fun duplicate => ?_
    split
    · exact commit_only m
    · exact leaves_tryCatch (leaves_bind (service_only m _) fun _ => commitAndMark_only m _)
        fun e => onError_only m _ e

-- ---------------------------------------------------------------------------
-- What is determined
-- ---------------------------------------------------------------------------

def KafkaRecord.keyText (r : KafkaRecord) : Except Exc String := (decodeKey r.key).map (·.getD "None")

theorem consume_ok {r : KafkaRecord} : consume loads r = .ok m ↔
    ∃ value, loads r.value = .ok value ∧ ∃ key, decodeKey r.key = .ok key ∧
      (∃ headers, r.headers.mapM (fun h => decodeUtf8 h.2) = .ok headers) ∧
      ⟨r.topic, r.partition, r.offset, key, r.timestamp, value⟩ = m := by
  simp only [consume, bind_ok, pure_ok, exists_and_right]

theorem consumeMessage_ok {r : KafkaRecord} : consumeMessage loads r = .ok m ↔
    ∃ record, consume loads r = .ok record ∧ ∃ headers, r.headers.mapM decodeHeader = .ok headers ∧
      { record with headers := .ofList headers } = m := by
  simp only [consumeMessage, bind_ok, pure_ok]

/-- A header more is consumed, and changes nothing else. -/
theorem consumeMessage_header (h : consumeMessage loads r = .ok m) (name : String) : ∃ headers,
    consumeMessage loads { r with headers := (name, .empty) :: r.headers } =
      .ok { m with headers := headers } := by
  have hempty : decodeUtf8 .empty = .ok "" := by decide +kernel
  obtain ⟨record, hrecord, headers, hheaders, rfl⟩ := consumeMessage_ok.mp h
  obtain ⟨value, hvalue, key, hkey, ⟨texts, htexts⟩, rfl⟩ := consume_ok.mp hrecord
  refine ⟨_, consumeMessage_ok.mpr ⟨_, consume_ok.mpr ⟨value, hvalue, key, hkey, ⟨"" :: texts, ?_⟩, rfl⟩,
    (name, "") :: headers, ?_, rfl⟩⟩
  · rw [List.mapM_cons, hempty, htexts]
    rfl
  · rw [List.mapM_cons, decodeHeader, hempty, hheaders]
    rfl

theorem DeadLetter.originalMessage (h : DeadLetter loads deduplicator eh r event) :
    ∃ key value, decodeKey r.key = .ok key ∧ loads r.value = .ok value ∧
      event.originalMessage = ⟨key.getD "None", value, []⟩ := by
  obtain ⟨m, s, expired, answers, topic, key, hconsume, hmem⟩ := h
  obtain ⟨record, hrecord, headers, _, rfl⟩ := consumeMessage_ok.mp hconsume
  obtain ⟨value, hvalue, key, hkey, _, rfl⟩ := consume_ok.mp hrecord
  exact ⟨key, value, hkey, hvalue, (processMessage_only _).mem hmem⟩

/-- The original message of a dead letter has the text of the key and the value,
and no record is determined by it. -/
theorem dead_letter_undetermined (loads : Option ByteArray → Except Exc (Body δ))
    (deduplicator : Option DeduplicationManager) (eh : ErrorHandler) (r : KafkaRecord)
    (event : DlqEvent δ) (h : DeadLetter loads deduplicator eh r event) :
    (∀ r' event', DeadLetter loads deduplicator eh r' event' →
      (event'.originalMessage = event.originalMessage ↔
        r'.keyText = r.keyText ∧ loads r'.value = loads r.value)) ∧
      ¬Determined loads deduplicator eh r event := by
  constructor
  · intro r' event' h'
    obtain ⟨key, value, hkey, hvalue, horiginal⟩ := h.originalMessage
    obtain ⟨key', value', hkey', hvalue', horiginal'⟩ := h'.originalMessage
    rw [horiginal, horiginal', KafkaRecord.keyText, KafkaRecord.keyText, hkey, hkey', hvalue, hvalue']
    simp [Except.map]
  · intro hdetermined
    obtain ⟨m, s, expired, answers, topic, key, hconsume, hmem⟩ := h
    obtain ⟨headers, hconsume'⟩ := consumeMessage_header hconsume "trace_id"
    obtain ⟨_, _, hheaders⟩ := hdetermined { r with headers := ("trace_id", .empty) :: r.headers } event
      ⟨_, s, expired, answers, topic, key, hconsume', hmem⟩ rfl
    exact List.cons_ne_self _ _ hheaders

end

def loadsEmpty : Option ByteArray → Except Exc (Body Unit)
  | some bytes =>
    if bytes.data = #[123, 125] then .ok (.object ⟨.null, .null, ()⟩)
    else .error ⟨"JSONDecodeError", "unexpected character", .builtin⟩
  | none => .error ⟨"JSONDecodeError", "Input must be bytes", .builtin⟩

def emptyRecord (key : Option ByteArray) (headers : List (String × ByteArray)) : KafkaRecord :=
  ⟨"paper.signals.validated", 0, 0, key, 0, some ⟨#[123, 125]⟩, headers⟩

def emptyLetter (key : Option String) : DlqEvent Unit :=
  withoutJitter.dlqEvent
    ⟨"paper.signals.validated", 0, 0, key, 0, .object ⟨.null, .null, ()⟩⟩
    ⟨"ValueError", "", .builtin⟩ "processing_failed" 0

theorem traced_deadLetter : DeadLetter loadsEmpty none withoutJitter
    (emptyRecord none [("trace_id", ⟨#[116]⟩)]) (emptyLetter none) := by
  have htext : decodeUtf8 ⟨#[116]⟩ = .ok "t" := by decide +kernel
  have hheader : [("trace_id", ⟨#[116]⟩)].mapM decodeHeader = .ok [("trace_id", "t")] := by
    rw [List.mapM_cons, decodeHeader, htext]
    rfl
  have htexts : [("trace_id", (⟨#[116]⟩ : ByteArray))].mapM (fun h => decodeUtf8 h.2) = .ok ["t"] := by
    rw [List.mapM_cons, htext]
    rfl
  exact ⟨_, .start () [], [], [some ⟨"ValueError", "", .builtin⟩], "paper.signals.validated.dlq",
    "None", consumeMessage_ok.mpr ⟨_, consume_ok.mpr ⟨_, rfl, none, rfl, ⟨_, htexts⟩, rfl⟩, _,
      hheader, rfl⟩, by decide +kernel⟩

theorem none_deadLetter : DeadLetter loadsEmpty none withoutJitter
    (emptyRecord (some ⟨#[78, 111, 110, 101]⟩) []) (emptyLetter (some "None")) := by
  have hkey : decodeKey (some ⟨#[78, 111, 110, 101]⟩) = .ok (some "None") := by decide +kernel
  exact ⟨_, .start () [], [], [some ⟨"ValueError", "", .builtin⟩], "paper.signals.validated.dlq",
    "None", consumeMessage_ok.mpr ⟨_, consume_ok.mpr ⟨_, rfl, _, hkey, ⟨[], rfl⟩, rfl⟩, [], rfl, rfl⟩,
    by decide +kernel⟩

theorem traced_undetermined : ¬Determined loadsEmpty none withoutJitter
    (emptyRecord none [("trace_id", ⟨#[116]⟩)]) (emptyLetter none) :=
  (dead_letter_undetermined loadsEmpty none withoutJitter _ _ traced_deadLetter).2

/-- A record with a header and no key has the original message of one with the key `None`. -/
theorem key_and_headers_lost : ¬∀ (loads : Option ByteArray → Except Exc (Body Unit)) deduplicator eh
    r event, DeadLetter loads deduplicator eh r event → Determined loads deduplicator eh r event := by
  intro hclaim
  have hdetermined := hclaim loadsEmpty none withoutJitter _ _ traced_deadLetter
  obtain ⟨hkey, _⟩ := hdetermined _ _ none_deadLetter rfl
  cases hkey

end AlphaPanda.Streaming
