import AlphaPanda.Lib.Confined
import AlphaPanda.Streaming.Service

/-!
# What a flow does to its service

However often the reliability layer invokes the handler for a record, it is
for that record. So what the handler keeps for the message of a record is kept
while the record is processed, and what it does is all that the service does.
-/

namespace AlphaPanda.Streaming

open Coroutine

/-- An invocation of the handler is for the record. -/
def ForRecord (m : Record δ) (op : Op (Invocation δ) δ) : Prop :=
  ∀ i, op = .service i → m.value = .object i.1 ∧ m.topic = i.2

section
variable {m : Record δ} {d : DeduplicationManager}

theorem forRecord_of_other (h : ∀ i, op ≠ .service i) : ForRecord m op :=
  fun i hi => absurd hi (h i)

theorem commit_confined : (commit m : Layer Unit (Invocation δ) δ Unit).Confined (ForRecord m) :=
  confined_perform (forRecord_of_other fun _ h => nomatch h)

theorem isDuplicate_confined (eventId broker : String) :
    (d.isDuplicate eventId broker : Layer Unit (Invocation δ) δ Bool).Confined (ForRecord m) := by
  refine confined_bind confined_get fun s => ?_
  split
  · exact confined_pure
  refine confined_bind (confined_perform (forRecord_of_other fun _ h => nomatch h)) fun _ =>
    confined_bind confined_get fun s => ?_
  split
  · exact confined_bind confined_modify fun _ => confined_pure
  · exact confined_pure

theorem markProcessed_confined (eventId broker : String) :
    (d.markProcessed eventId broker : Layer Unit (Invocation δ) δ Unit).Confined (ForRecord m) :=
  confined_bind (confined_perform (forRecord_of_other fun _ h => nomatch h)) fun _ => confined_modify

theorem sendToDlqAndCommit_confined (eh : ErrorHandler) (e : Exc) (reason : String) (n : ℕ) :
    (eh.sendToDlqAndCommit m e reason n : Layer Unit (Invocation δ) δ Unit).Confined (ForRecord m) := by
  refine confined_bind (confined_tryCatch (confined_bind (confined_perform ?_) fun _ =>
    confined_pure) fun _ => confined_pure) fun sent => ?_
  · exact forRecord_of_other fun _ h => nomatch h
  · split
    · exact confined_bind confined_modify fun _ => commit_confined
    · exact confined_pure

theorem retryProcessing_confined (eh : ErrorHandler) {processing : Layer Unit (Invocation δ) δ Unit}
    (hp : processing.Confined (ForRecord m)) (e : Exc) (config : RetryConfig) (n : ℕ) :
    (eh.retryProcessing processing m e config n).Confined (ForRecord m) := by
  have hcount : (ErrorHandler.delRetryCount m : Layer Unit (Invocation δ) δ Unit).Confined
      (ForRecord m) := by
    refine confined_bind confined_get fun s => ?_
    split
    · exact confined_throw
    · exact confined_set
  refine confined_bind confined_modify fun _ => confined_bind (confined_perform ?_) fun _ =>
    confined_tryCatch (confined_bind hp fun _ => confined_bind hcount fun _ =>
      confined_bind commit_confined fun _ => confined_pure) fun _ => confined_pure
  exact forRecord_of_other fun _ h => nomatch h

theorem processMessage_confined (deduplicator : Option DeduplicationManager)
    (errorHandler : Option ErrorHandler) (m : Record δ) :
    ((invoking deduplicator errorHandler).processMessage m).Confined (ForRecord m) := by
  unfold ReliabilityLayer.processMessage
  split
  · exact confined_throw
  rename_i value hvalue
  have hhandler : (Prog.perform (.service (value, m.topic)) :
      Layer Unit (Invocation δ) δ Unit).Confined (ForRecord m) := by
    refine confined_perform fun i hi => ?_
    cases hi
    exact ⟨hvalue, rfl⟩
  refine confined_bind ?_ fun duplicate => ?_
  · unfold ReliabilityLayer.alreadyProcessed
    split
    · split
      · exact isDuplicate_confined _ _
      · exact confined_pure
    · exact confined_pure
  split
  · exact commit_confined
  refine confined_tryCatch (confined_bind hhandler fun _ => confined_bind commit_confined fun _ => ?_)
    fun e => ?_
  · split
    · split
      · exact markProcessed_confined _ _
      · exact confined_pure
    · exact confined_pure
  · unfold ReliabilityLayer.onError
    split
    · refine confined_bind (confined_bind confined_get fun s => ?_) fun _ => confined_pure
      dsimp only
      split
      · exact confined_bind (sendToDlqAndCommit_confined _ _ _ _) fun _ => confined_pure
      · exact retryProcessing_confined _ hhandler _ _ _
    · exact commit_confined

end

theorem ConsumerFlow.process_maintains (f : ConsumerFlow σ ω δ) (s : State Unit × σ) {a : Arrival δ}
    {I : σ → Prop} (h₀ : I (f.expire s.2 a.expired))
    (hI : ∀ value, a.record.value = .object value → ∀ as t, I t →
      I (invoke f.handler (value, a.record.topic) as t).world.st) :
    I (f.process s a).world.st.2 ∧ ∀ x ∈ serviceLog (f.process s a).world.log,
      ∃ value as t, a.record.value = .object value ∧ I t ∧
        x ∈ (invoke f.handler (value, a.record.topic) as t).world.log := by
  obtain ⟨as', -, -, himpl⟩ := implement_exec (carryOut f.handler)
    ((invoking (some f.deduplicator) (some f.errorHandler)).processMessage a.record) a.answers
    (s.1.expire a.expired) (f.expire s.2 a.expired)
  obtain ⟨l, hlog, hl⟩ := (processMessage_confined (some f.deduplicator) (some f.errorHandler)
    a.record).exec as' (World.start (s.1.expire a.expired))
  rw [hlog, World.start, List.nil_append] at himpl
  have hstep : ∀ x ∈ l, ∀ as t, I t →
      I ((carryOut f.handler x.1).exec as (World.start t)).world.st := by
    rintro ⟨op, r⟩ hx as t ht
    by_cases hservice : ∃ i, op = .service i
    · obtain ⟨⟨value, topic⟩, rfl⟩ := hservice
      obtain ⟨hvalue, htopic⟩ := hl _ hx _ rfl
      rw [carryOut_service]
      have hkept := hI value hvalue as t ht
      rw [htopic] at hkept
      exact hkept
    · cases op with
      | service i => exact absurd ⟨i, rfl⟩ hservice
      | _ => simpa only [carryOut, exec_perform, World.record, World.start] using ht
  obtain ⟨hend, hall⟩ := himpl.maintains hstep h₀
  refine ⟨hend, fun x hx => ?_⟩
  obtain ⟨⟨op', r'⟩, hin, hop'⟩ := List.mem_filterMap.mp hx
  split at hop'
  swap
  · cases hop'
  rename_i o r' heq
  cases heq
  cases hop'
  obtain ⟨⟨op, r⟩, hy, as, t₀, ht₀, hmem⟩ := hall _ hin
  by_cases hservice : ∃ i, op = .service i
  · obtain ⟨⟨value, topic⟩, rfl⟩ := hservice
    obtain ⟨hvalue, htopic⟩ := hl _ hy _ rfl
    rw [carryOut_service] at hmem
    obtain ⟨y, hy, heq⟩ := List.mem_map.mp hmem
    cases heq
    exact ⟨value, as, t₀, hvalue, ht₀, by rw [htopic]; exact hy⟩
  · obtain ⟨op', hother, hsingle, -⟩ := carryOut_other f.handler
      (fun i hi => hservice ⟨i, hi⟩) as t₀
    rw [hsingle] at hmem
    cases List.mem_singleton.mp hmem
    exact absurd rfl (hother _)

end AlphaPanda.Streaming
