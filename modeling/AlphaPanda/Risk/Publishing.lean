import AlphaPanda.Risk.Service

/-!
# What an invocation publishes

An invocation of the risk manager's handler publishes at most one validated
signal. If it raises although no operation failed, that is about the fields of
the message, and it has published nothing.
-/

namespace AlphaPanda.Risk

open Coroutine

def validated (log : List (Op × Option Exc)) : List ValidatedSignal :=
  log.filterMap fun
    | (.send ⟨topic, _, .validated v, _, _⟩, none) =>
      if topic = (TopicMap.mk "paper").signalsValidated then some v else none
    | _ => none

/-- A failure to count a verdict changes nothing. -/
def Op.isMetric : Op → Bool
  | .recordSignalValidated .. => true
  | _ => false

def Undisturbed (log : List (Op × Option Exc)) : Prop :=
  ∀ op e, (op, some e) ∈ log → op.isMetric

abbrev RiskWorld := World State Op Exc

/-- `p` publishes no validated signal, and if no operation fails it raises
only what is in `F`. -/
structure Quiet (F : Exc → Prop) (p : Handler α) : Prop where
  silent : p.Leaves fun w => validated w.log
  faults : ∀ as (w : RiskWorld) e, (p.exec as w).result = .error e →
    Undisturbed (p.exec as w).world.log → F e

/-- It publishes at most one validated signal, and none if it raises although
no operation failed. -/
def PublishesOnce (p : Handler Unit) : Prop :=
  ∀ as (w : RiskWorld), validated w.log = [] →
    (validated (p.exec as w).world.log).length ≤ 1 ∧
      ∀ e, (p.exec as w).result = .error e → Undisturbed (p.exec as w).world.log →
        validated (p.exec as w).world.log = [] ∧ IsTypeFault e

section
variable {F : Exc → Prop}

theorem quiet_pure (a : α) : Quiet F (pure a : Handler α) := by
  refine ⟨leaves_pure, fun as w e h => ?_⟩
  cases h

theorem quiet_throw (h : F e) : Quiet F (throw e : Handler α) := by
  refine ⟨leaves_throw, fun as w e' he => ?_⟩
  cases he
  exact fun _ => h

theorem quiet_get : Quiet F (get : Handler State) := by
  refine ⟨leaves_get, fun as w e h => ?_⟩
  cases h

theorem quiet_modify (f : State → State) : Quiet F (modify f : Handler PUnit) := by
  refine ⟨leaves_modify fun _ => rfl, fun as w e h => ?_⟩
  cases h

theorem quiet_set (s : State) : Quiet F (set s : Handler PUnit) := by
  refine ⟨leaves_set fun _ => rfl, fun as w e h => ?_⟩
  cases h

theorem Quiet.bind {p : Handler α} {f : α → Handler β} (hp : Quiet F p)
    (hf : ∀ a, Quiet F (f a)) : Quiet F (p >>= f) := by
  refine ⟨leaves_bind hp.silent fun a => (hf a).silent, fun as w e he => ?_⟩
  have hfaults := hp.faults as w
  rw [exec_bind] at he ⊢
  generalize p.exec as w = o at he hfaults ⊢
  rcases o with ⟨e' | a, w', as'⟩
  · cases he
    exact hfaults _ rfl
  · exact (hf a).faults as' w' e he

theorem validated_record (w : RiskWorld) (hop : ∀ r, op ≠ .send r) (answer : Option Exc) :
    validated (w.record op answer).log = validated w.log := by
  simp only [World.record, validated, List.filterMap_append]
  cases op with
  | send r => exact absurd rfl (hop r)
  | _ => simp

theorem quiet_perform (op : Op) (hop : ∀ r, op ≠ .send r) (hmetric : ¬ op.isMetric) :
    Quiet F (Prog.perform op : Handler Unit) := by
  refine ⟨leaves_perform fun w r => validated_record w hop r, fun as w e he hundisturbed => ?_⟩
  rw [exec_perform] at he hundisturbed
  generalize as.headD none = answer at he hundisturbed
  cases answer with
  | none => cases he
  | some e' =>
    have hmem : (op, some e') ∈ (w.record op (some e')).log :=
      List.mem_append_right _ (List.mem_singleton.mpr rfl)
    exact absurd (hundisturbed op e' hmem) hmetric

theorem Quiet.mapError {p : Handler Unit} (hp : Quiet (fun _ => False) p) (f : Exc → Exc) :
    Quiet F (tryCatch p fun e => throw (f e)) := by
  refine ⟨leaves_tryCatch hp.silent fun _ => leaves_throw, fun as w e he => ?_⟩
  have hfaults := hp.faults as w
  rw [exec_tryCatch] at he ⊢
  generalize p.exec as w = o at he hfaults ⊢
  rcases o with ⟨e' | a, w', as'⟩
  · exact fun h => (hfaults e' rfl h).elim
  · cases he

theorem quiet_suppress {p : Handler Unit} (hp : p.Leaves fun w => validated w.log) :
    Quiet F (suppress p) := by
  refine ⟨leaves_suppress hp, fun as w e he => ?_⟩
  rw [exec_suppress] at he
  cases he

theorem redis_quiet (what : String) (op : Op) (hop : ∀ r, op ≠ .send r) (hmetric : ¬ op.isMetric) :
    Quiet F (redis what op) :=
  (quiet_perform op hop hmetric).mapError _

theorem readClock_quiet : Quiet F readClock :=
  quiet_get.bind fun _ => (quiet_set _).bind fun _ => quiet_pure _

theorem scan_quiet (start : String) (entries : State → List (String × ν)) :
    Quiet F (scan start entries) := by
  refine (redis_quiet _ _ (by simp) (by simp [Op.isMetric])).bind fun _ => quiet_get.bind fun s => ?_
  dsimp only
  split
  · exact quiet_pure _
  · exact (redis_quiet _ _ (by simp) (by simp [Op.isMetric])).bind fun _ =>
      quiet_get.bind fun _ => quiet_pure _

theorem getState_quiet (svc : Service) : Quiet F (getState svc) :=
  (scan_quiet _ _).bind fun _ => (scan_quiet _ _).bind fun _ => (scan_quiet _ _).bind fun _ =>
    quiet_pure _

theorem updateRiskStateForSignal_quiet (svc : Service) (fields : Fields) (broker : String) :
    Quiet F (updateRiskStateForSignal svc fields broker) := by
  unfold updateRiskStateForSignal
  dsimp only
  split
  · refine readClock_quiet.bind fun n => ?_
    exact (redis_quiet _ _ (by simp) (by simp [Op.isMetric])).bind fun _ =>
      (quiet_modify _).bind fun _ => redis_quiet _ _ (by simp) (by simp [Op.isMetric])
  · exact quiet_pure _

theorem handleMarketTick_quiet (svc : Service) (fields : Fields) :
    Quiet IsTypeFault (handleMarketTick svc fields) := by
  unfold handleMarketTick
  dsimp only
  split
  · split
    · rename_i e he
      exact quiet_throw (toFloat_onlyTypeFaults _ e he)
    · exact (redis_quiet _ _ (by simp) (by simp [Op.isMetric])).bind fun _ =>
        (quiet_modify _).bind fun _ => redis_quiet _ _ (by simp) (by simp [Op.isMetric])
  · exact quiet_pure _

end

-- ---------------------------------------------------------------------------
-- Publishing once
-- ---------------------------------------------------------------------------

theorem Quiet.publishesOnce {p : Handler Unit} (hp : Quiet IsTypeFault p) : PublishesOnce p := by
  intro as w hnone
  rw [show validated _ = validated w.log from hp.silent as w, hnone]
  exact ⟨Nat.zero_le 1, fun e he hun => ⟨rfl, hp.faults as w e he hun⟩⟩

theorem PublishesOnce.after {p : Handler α} {f : α → Handler Unit} (hp : Quiet IsTypeFault p)
    (hf : ∀ a, PublishesOnce (f a)) : PublishesOnce (p >>= f) := by
  intro as w hnone
  have hsilent : validated _ = validated w.log := hp.silent as w
  have hfaults := hp.faults as w
  rw [exec_bind]
  generalize p.exec as w = o at hsilent hfaults ⊢
  rcases o with ⟨e | a, w', as'⟩
  · simp only [Outcome.andThen_error] at hsilent ⊢
    rw [hsilent, hnone]
    refine ⟨Nat.zero_le 1, fun e' he hun => ?_⟩
    cases he
    exact ⟨rfl, hfaults e rfl hun⟩
  · exact hf a as' w' (hsilent.trans hnone)

theorem PublishesOnce.before {p q : Handler Unit} (hp : PublishesOnce p)
    (hq : Quiet (fun _ => False) q) : PublishesOnce (p >>= fun _ => q) := by
  intro as w hnone
  have hpublishes := hp as w hnone
  rw [exec_bind]
  generalize p.exec as w = o at hpublishes ⊢
  rcases o with ⟨e | a, w', as'⟩
  · exact hpublishes
  · refine ⟨?_, fun e he hun => (hq.faults as' w' e he hun).elim⟩
    rw [Outcome.andThen_ok, show validated _ = validated w'.log from hq.silent as' w']
    exact hpublishes.1

theorem send_publishesOnce (r : Record) : PublishesOnce (Prog.perform (.send r)) := by
  intro as w hnone
  rw [exec_perform]
  simp only [World.record, validated, List.filterMap_append] at hnone ⊢
  rw [hnone, List.nil_append]
  refine ⟨List.length_filterMap_le _ _, fun e he hun => ?_⟩
  generalize as.headD none = answer at he hun
  cases answer with
  | none => cases he
  | some e' => cases hun (.send r) e' (List.mem_append_right _ (List.mem_singleton.mpr rfl))

theorem emitVerdict_publishesOnce (svc : Service) (signal : Except String TradingSignal)
    (passed : Bool) (broker : String) (record : TradingSignal → Timestamp → Record) :
    PublishesOnce (emitVerdict svc signal passed broker record) := by
  unfold emitVerdict
  split
  · exact (quiet_throw ⟨rfl, by simp⟩).publishesOnce
  · refine .after readClock_quiet fun n => ?_
    refine .before (.after (quiet_perform _ (by simp) (by simp [Op.isMetric])) fun _ =>
      send_publishesOnce _) (quiet_suppress ?_)
    exact leaves_perform fun w r => validated_record w (by simp) r

theorem handleTradingSignal_publishesOnce (svc : Service) (key broker : String) (fields : Fields)
    (signal : Except String TradingSignal) :
    PublishesOnce (handleTradingSignal svc key broker fields signal) := by
  refine .after (getState_quiet svc) fun riskState => .after readClock_quiet fun n => ?_
  split
  · rename_i e he
    exact (quiet_throw (evaluateSignal_onlyTypeFaults _ _ _ _ e he)).publishesOnce
  · split
    · exact (emitVerdict_publishesOnce svc signal _ _ _).before
        (updateRiskStateForSignal_quiet svc fields broker)
    · exact emitVerdict_publishesOnce svc signal _ _ _

theorem handleMessage_other (svc : Service) (message : Streaming.Envelope Data) (topic : String)
    (hdata : message.data = .other v) (as : List (Option Exc)) (w : RiskWorld) :
    ((handleMessage svc message topic).exec as w).world = w := by
  unfold handleMessage
  dsimp only
  rw [hdata]
  split <;> rfl

theorem handleMessage_publishesOnce (svc : Service) (message : Streaming.Envelope Data)
    (topic : String) (hdata : message.data = .object fields signal) :
    PublishesOnce (handleMessage svc message topic) := by
  unfold handleMessage
  dsimp only
  rw [hdata]
  split
  · dsimp only
    split
    · exact handleTradingSignal_publishesOnce svc _ _ fields signal
    · exact (handleMarketTick_quiet svc fields).publishesOnce
  · exact (quiet_pure ()).publishesOnce

end AlphaPanda.Risk
