import AlphaPanda.Lib.Confined
import AlphaPanda.Risk.Publishing

/-!
# What a validated signal is

Every validated signal that the handler publishes for a broker is the signal of
its message, at its own quantity and price, and it passed all the rules.
-/

namespace AlphaPanda.Risk

open Coroutine

/-- The verdicts of a result are those of the rules, in their order, and it
passed if they all are positive. -/
theorem evaluateSignal_results (h : evaluateSignal format today signal riskState = .ok result) :
    result.ruleResults.map Prod.fst = (rules format today).map Prod.fst ∧
      result.passed = result.ruleResults.all Prod.snd := by
  have hfold : ∀ (rules : List (String × (Fields → RiskState → Check))) (r : ValidationResult),
      r.passed = r.ruleResults.all Prod.snd →
      rules.foldlM (fun r rule => (rule.2 signal riskState).bind fun checked =>
        .ok (r.add rule.1 checked.1 checked.2)) r = Except.ok result →
      result.ruleResults.map Prod.fst = r.ruleResults.map Prod.fst ++ rules.map Prod.fst ∧
        result.passed = result.ruleResults.all Prod.snd := by
    intro rules
    induction rules with
    | nil =>
      intro r hr h
      cases h
      exact ⟨(List.append_nil _).symm, hr⟩
    | cons rule rest ih =>
      intro r hr h
      rw [List.foldlM_cons] at h
      obtain ⟨r', hadd, hrest⟩ := bind_ok.mp h
      obtain ⟨⟨passed, reason⟩, -, hr'⟩ := bind_ok.mp hadd
      cases hr'
      have hnext := ih (r.add rule.1 passed reason)
        (by simp [ValidationResult.add, hr]) hrest
      simpa [ValidationResult.add] using hnext
  exact hfold _ _ rfl h

def Op.validatedFor (broker : String) : Op × Option Exc → Option ValidatedSignal
  | (.send ⟨topic, _, .validated v, _, _⟩, none) =>
    if topic = (TopicMap.mk broker).signalsValidated then some v else none
  | _ => none

def validatedFor (broker : String) (log : List (Op × Option Exc)) : List ValidatedSignal :=
  log.filterMap (Op.validatedFor broker)

/-- The signal of a message, as the service of a broker is to trade it. -/
structure Approved (broker : String) (message : Streaming.Envelope Data) (topic : String)
    (v : ValidatedSignal) : Prop where
  broker : TopicMap.getBrokerFromTopic topic = broker
  type : isEventType message.type .tradingSignal
  parsed : ∃ fields, message.data = .object fields (.ok v.originalSignal)
  quantity : v.validatedQuantity = v.originalSignal.quantity
  price : v.validatedPrice = v.originalSignal.price
  rules : v.riskChecks.map Prod.fst = ["MaxPositionSize", "MaxDailyTrades", "PriceLimit"]
  passed : ∀ check ∈ v.riskChecks, check.2

def ApprovedOnly (message : Streaming.Envelope Data) (topic : String) (op : Op) : Prop :=
  ∀ r v broker, op = .send r → r.data = .validated v →
    r.topic = (TopicMap.mk broker).signalsValidated → Approved broker message topic v

section
variable {svc : Service} {message : Streaming.Envelope Data} {topic : String}

theorem approvedOnly_of_other (h : ∀ r v, op = .send r → r.data ≠ .validated v) :
    ApprovedOnly message topic op := fun r v _ hop hdata => absurd hdata (h r v hop)

theorem readClock_confined {P : Op → Prop} : readClock.Confined P :=
  confined_bind confined_get fun _ => confined_bind confined_set fun _ => confined_pure

theorem redis_confined (what : String) (hop : ∀ r, op ≠ .send r) :
    (redis what op).Confined (ApprovedOnly message topic) :=
  confined_tryCatch (confined_perform (approvedOnly_of_other fun r _ h => absurd h (hop r)))
    fun _ => confined_throw

theorem scan_confined (start : String) (entries : State → List (String × ν)) :
    (scan start entries).Confined (ApprovedOnly message topic) := by
  refine confined_bind (redis_confined _ (by simp)) fun _ => confined_bind confined_get fun s => ?_
  dsimp only
  split
  · exact confined_pure
  · exact confined_bind (redis_confined _ (by simp)) fun _ => confined_bind confined_get fun _ =>
      confined_pure

theorem getState_confined : (getState svc).Confined (ApprovedOnly message topic) :=
  confined_bind (scan_confined _ _) fun _ => confined_bind (scan_confined _ _) fun _ =>
    confined_bind (scan_confined _ _) fun _ => confined_pure

theorem emitVerdict_confined {signal : Except String TradingSignal} {passed : Bool} {broker : String}
    {record : TradingSignal → Timestamp → Record}
    (h : ∀ s t, signal = .ok s → ApprovedOnly message topic (.send (record s t))) :
    (emitVerdict svc signal passed broker record).Confined (ApprovedOnly message topic) := by
  unfold emitVerdict
  split
  · exact confined_throw
  rename_i s
  refine confined_bind readClock_confined fun n => confined_bind (confined_bind (confined_perform ?_)
    fun _ => confined_perform (h s _ rfl)) fun _ => confined_suppress (confined_perform ?_)
  · exact approvedOnly_of_other fun _ _ h => nomatch h
  · exact approvedOnly_of_other fun _ _ h => nomatch h

theorem updateRiskStateForSignal_confined (fields : Fields) (broker : String) :
    (updateRiskStateForSignal svc fields broker).Confined (ApprovedOnly message topic) := by
  unfold updateRiskStateForSignal
  dsimp only
  split
  · exact confined_bind readClock_confined fun n => confined_bind (redis_confined _ (by simp))
      fun _ => confined_bind confined_modify fun _ => redis_confined _ (by simp)
  · exact confined_pure

theorem broker_of_topic_eq (h : (TopicMap.mk broker).signalsValidated =
    (TopicMap.mk broker').signalsValidated) : broker = broker' := by
  have hlist := congrArg String.toList h
  simp only [TopicMap.signalsValidated, String.toList_append] at hlist
  exact String.toList_injective (List.append_cancel_right hlist)

theorem handleTradingSignal_confined {fields : Fields} {signal : Except String TradingSignal}
    (htype : isEventType message.type .tradingSignal) (hdata : message.data = .object fields signal)
    (key : String) : (handleTradingSignal svc key (TopicMap.getBrokerFromTopic topic) fields
      signal).Confined (ApprovedOnly message topic) := by
  refine confined_bind getState_confined fun riskState => confined_bind readClock_confined fun n => ?_
  split
  · exact confined_throw
  rename_i result hresult
  split
  · rename_i hpassed
    refine confined_bind (emitVerdict_confined ?_) fun _ => updateRiskStateForSignal_confined _ _
    rintro s t rfl r v broker ⟨rfl⟩ ⟨rfl⟩ htopic
    obtain ⟨hrules, hall⟩ := evaluateSignal_results hresult
    rw [hpassed] at hall
    exact ⟨broker_of_topic_eq htopic, htype, ⟨fields, hdata⟩, rfl, rfl, hrules,
      List.all_eq_true.mp hall.symm⟩
  · refine emitVerdict_confined fun s t _ => approvedOnly_of_other ?_
    rintro r v ⟨rfl⟩ h
    cases h

theorem handleMessage_confined (svc : Service) (message : Streaming.Envelope Data) (topic : String) :
    (handleMessage svc message topic).Confined (ApprovedOnly message topic) := by
  unfold handleMessage
  dsimp only
  split
  swap
  · exact confined_pure
  split
  · exact confined_throw
  rename_i fields signal hdata
  split
  · rename_i htype
    exact handleTradingSignal_confined htype hdata _
  unfold handleMarketTick
  dsimp only
  split
  · split
    · exact confined_throw
    · exact confined_bind (redis_confined _ (by simp)) fun _ => confined_bind confined_modify
        fun _ => redis_confined _ (by simp)
  · exact confined_pure

theorem mem_validatedFor (h : v ∈ validatedFor broker log) : ∃ r, (.send r, none) ∈ log ∧
    r.data = .validated v ∧ r.topic = (TopicMap.mk broker).signalsValidated := by
  obtain ⟨x, hx, hv⟩ := List.mem_filterMap.mp h
  unfold Op.validatedFor at hv
  split at hv
  · split at hv
    · rename_i htopic
      cases hv
      exact ⟨_, hx, rfl, htopic⟩
    · cases hv
  · cases hv

theorem sent_approved (svc : Service) (message : Streaming.Envelope Data) (topic : String)
    (as : List (Option Exc)) (s : State) {r : Record}
    (h : (.send r, none) ∈ ((handleMessage svc message topic).exec as (World.start s)).world.log)
    (hdata : r.data = .validated v) (htopic : r.topic = (TopicMap.mk broker).signalsValidated) :
    Approved broker message topic v := by
  obtain ⟨l, hlog, hl⟩ := (handleMessage_confined svc message topic).exec as (World.start s)
  rw [hlog, World.start, List.nil_append] at h
  exact hl _ h r v broker rfl hdata htopic

end

end AlphaPanda.Risk
