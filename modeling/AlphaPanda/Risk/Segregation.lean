import AlphaPanda.Risk.DailyLimit

/-!
# Broker segregation

`RiskManagerService.start` initializes its one state manager with each active
broker in turn, so what is stored for any of them goes under the last one.
-/

namespace AlphaPanda.Risk

open Coroutine

def Op.redisKeys : Op → List String
  | .keys pattern => [pattern]
  | .mget ks => ks
  | .incr key | .setValue key _ | .expire key _ => [key]
  | .getProducer | .send _ | .recordSignalValidated _ _ => []

def Under (broker key : String) : Prop := (broker ++ ":").toList <+: key.toList

instance : DecidablePred (Under broker) := fun key =>
  inferInstanceAs (Decidable ((broker ++ ":").toList <+: key.toList))

def Service.isPriceKey (svc : Service) (key : String) : Prop :=
  (svc.redisKey "value" "recent_price_").toList <+: key.toList

-- ---------------------------------------------------------------------------
-- Every key is under the last broker
-- ---------------------------------------------------------------------------

theorem under_append (h : Under broker start) (rest : String) : Under broker (start ++ rest) := by
  unfold Under at h ⊢
  rw [String.toList_append (s := start)]
  exact h.trans (List.prefix_append _ _)

theorem redisKey_under (svc : Service) (keyType identifier : String) (hns : svc.namespace ≠ "") :
    Under svc.namespace (svc.redisKey keyType identifier) := by
  unfold Under Service.redisKey
  dsimp only
  rw [if_neg hns]
  simp only [String.toList_append]
  exact List.prefix_append _ _

/-- Every Redis key of `p` is under the last broker. -/
abbrev StaysUnder (svc : Service) (p : Handler α) : Prop :=
  p.Performs fun op => ∀ key ∈ op.redisKeys, Under svc.namespace key

section
variable {svc : Service}

theorem redis_under (what : String) (h : ∀ key ∈ op.redisKeys, Under svc.namespace key) :
    StaysUnder svc (redis what op) :=
  performs_tryCatch (performs_perform h) fun _ => performs_throw

theorem readClock_under : StaysUnder svc readClock :=
  performs_bind performs_get fun _ => performs_bind performs_set fun _ => performs_pure

theorem scan_under (entries : State → List (String × ν)) (h : Under svc.namespace start) :
    StaysUnder svc (scan start entries) := by
  refine performs_bind (redis_under _ ?_) fun _ => performs_bind performs_get fun s => ?_
  · intro key hkey
    cases List.mem_singleton.mp hkey
    exact under_append h _
  · dsimp only
    split
    · exact performs_pure
    · refine performs_bind (redis_under _ fun key hkey => ?_) fun _ =>
        performs_bind performs_get fun _ => performs_pure
      have hstart := (List.mem_filter.mp hkey).2
      exact h.trans (of_decide_eq_true hstart)

theorem getState_under (hns : svc.namespace ≠ "") : StaysUnder svc (getState svc) :=
  performs_bind (scan_under _ (redisKey_under svc _ _ hns)) fun _ =>
    performs_bind (scan_under _ (redisKey_under svc _ _ hns)) fun _ =>
      performs_bind (scan_under _ (redisKey_under svc _ _ hns)) fun _ => performs_pure

theorem emitVerdict_under (signal : Except String TradingSignal) (passed : Bool) (broker : String)
    (record : TradingSignal → Timestamp → Record) :
    StaysUnder svc (emitVerdict svc signal passed broker record) := by
  have hnone : ∀ op : Op, op.redisKeys = [] →
      StaysUnder svc (Prog.perform op : Handler Unit) := by
    intro op hop
    refine performs_perform fun key hkey => ?_
    rw [hop] at hkey
    cases hkey
  unfold emitVerdict
  split
  · exact performs_throw
  · refine performs_bind readClock_under fun n => ?_
    exact performs_bind (performs_bind (hnone _ rfl) fun _ => hnone _ rfl) fun _ =>
      performs_suppress (hnone _ rfl)

theorem write_under (what : String) {op : Op} (hop : op.redisKeys = [key]) (f : State → State)
    (ttl : ℕ) (hkey : Under svc.namespace key) :
    StaysUnder svc (do redis what op; modify f; redis what (.expire key ttl)) := by
  have honly : ∀ k ∈ [key], Under svc.namespace k := by
    intro k hk
    cases List.mem_singleton.mp hk
    exact hkey
  exact performs_bind (redis_under _ (hop ▸ honly)) fun _ =>
    performs_bind performs_modify fun _ => redis_under _ honly

theorem handleTradingSignal_under (hns : svc.namespace ≠ "") (key broker : String)
    (fields : Fields) (signal : Except String TradingSignal) :
    StaysUnder svc (handleTradingSignal svc key broker fields signal) := by
  refine performs_bind (getState_under hns) fun riskState =>
    performs_bind readClock_under fun n => ?_
  split
  · exact performs_throw
  · split
    · refine performs_bind (emitVerdict_under _ _ _ _) fun _ => ?_
      unfold updateRiskStateForSignal
      dsimp only
      split
      · exact performs_bind readClock_under fun n =>
          write_under _ rfl _ _ (redisKey_under svc _ _ hns)
      · exact performs_pure
    · exact emitVerdict_under _ _ _ _

theorem handleMessage_under (hns : svc.namespace ≠ "") (message : Streaming.Envelope Data)
    (topic : String) : StaysUnder svc (handleMessage svc message topic) := by
  unfold handleMessage
  dsimp only
  split
  · split
    · exact performs_throw
    · split
      · exact handleTradingSignal_under hns _ _ _ _
      · unfold handleMarketTick
        dsimp only
        split
        · split
          · exact performs_throw
          · exact write_under _ rfl _ _ (redisKey_under svc _ _ hns)
        · exact performs_pure
  · exact performs_pure

end

-- ---------------------------------------------------------------------------
-- Segregation
-- ---------------------------------------------------------------------------

/-- The same is stored under the broker, and the same market prices. -/
structure AgreeOn (broker : String) (s₁ s₂ : State) : Prop where
  collections : s₁.collections.entries.filter (fun e => Under broker e.1) =
    s₂.collections.entries.filter (fun e => Under broker e.1)
  counters : s₁.counters.entries.filter (fun e => Under broker e.1) =
    s₂.counters.entries.filter (fun e => Under broker e.1)
  values : s₁.values = s₂.values

def Service.decision (svc : Service) (s : State) (d : Delivery) : Option EventType :=
  (svc.verdict s d).map (·.eventType)

def Delivery.isFor (d : Delivery) (broker : String) : Bool :=
  d.topic = (TopicMap.mk broker).signalsRaw

/-- The deliveries of a run that are no signal of another broker, each with
the day it is handled on. -/
def observed (svc : Service) (broker : String) (run : List Handled) : List (Delivery × String) :=
  (run.filter fun h => svc.activeBrokers.all fun b => b = broker ∨ ¬h.delivery.isFor b).map
    fun h => (h.delivery, svc.today h.before.clock)

def decisions (broker : String) (run : List Handled) : List (List EventType) :=
  (run.filter (·.delivery.isFor broker)).map fun h => (sent h.after.log).map (·.eventType)

/-- Each active broker has its own risk state. -/
structure Segregated (svc : Service) : Prop where
  /-- The keys of its signals are under its name, or those of market prices. -/
  keys : ∀ b ∈ svc.activeBrokers, ∀ s ds, ∀ h ∈ svc.run s ds, h.delivery.isFor b →
    ∀ x ∈ h.after.log, ∀ key ∈ x.1.redisKeys, Under b key ∨ svc.isPriceKey key
  /-- What is stored for others decides nothing. -/
  stored : ∀ b ∈ svc.activeBrokers, ∀ s₁ s₂, AgreeOn b s₁ s₂ →
    svc.today s₁.clock = svc.today s₂.clock → ∀ d, d.isFor b → svc.decision s₁ d = svc.decision s₂ d
  /-- Nor do the signals of others. -/
  signals : ∀ b ∈ svc.activeBrokers, ∀ s ds₁ ds₂,
    observed svc b (svc.run s ds₁) = observed svc b (svc.run s ds₂) →
    decisions b (svc.run s ds₁) = decisions b (svc.run s ds₂)

theorem matching_under (h : Under broker start) {l₁ l₂ : List (String × ν)}
    (hl : l₁.filter (fun e => Under broker e.1) = l₂.filter (fun e => Under broker e.1)) :
    matching start l₁ = matching start l₂ := by
  have hfilter : ∀ l : List (String × ν),
      matching start l = matching start (l.filter fun e => Under broker e.1) := by
    intro l
    rw [matching, matching, List.filter_filter]
    refine List.filter_congr fun e _ => ?_
    by_cases hstart : start.toList <+: e.1.toList
    · have hunder : Under broker e.1 := h.trans hstart
      simp [hstart, hunder]
    · simp [hstart]
  rw [hfilter l₁, hfilter l₂, hl]

theorem readState_agree {svc : Service} (hns : svc.namespace ≠ "") (h : AgreeOn svc.namespace s₁ s₂) :
    readState svc s₁ = readState svc s₂ := by
  unfold readState positionItems tradeCounters priceValues
  rw [matching_under (redisKey_under svc "collection" _ hns) h.collections,
    matching_under (redisKey_under svc "counter" _ hns) h.counters, h.values]

theorem decision_agree {svc : Service} (hns : svc.namespace ≠ "")
    (h : AgreeOn svc.namespace s₁ s₂) (hday : svc.today s₁.clock = svc.today s₂.clock)
    (d : Delivery) : svc.decision s₁ d = svc.decision s₂ d := by
  unfold Service.decision Service.verdict
  split
  · split
    · rename_i fields signal _
      unfold verdictOf
      rw [readState_agree hns h, hday]
      dsimp only
      split
      · rename_i result _ _ _
        cases result.passed <;> rfl
      · rfl
    · rfl
  · rfl

theorem observed_single {svc : Service} (h : ∀ b ∈ svc.activeBrokers, b = broker) (s : State)
    (ds : List Delivery) : (observed svc broker (svc.run s ds)).map Prod.fst = ds := by
  have hall : ∀ x ∈ svc.run s ds,
      svc.activeBrokers.all (fun b => b = broker ∨ ¬x.delivery.isFor b) := by
    intro x _
    refine List.all_eq_true.mpr fun b hb => ?_
    simp [h b hb]
  rw [observed, List.filter_eq_self.mpr hall, List.map_map]
  exact run_deliveries svc s ds

theorem segregated_of_single {svc : Service} (hnamed : ∀ b ∈ svc.activeBrokers, b ≠ "")
    (h : ∀ b ∈ svc.activeBrokers, b = svc.namespace) : Segregated svc where
  keys := by
    intro b hb s ds x hx _ op hop key hkey
    have hns : svc.namespace ≠ "" := h b hb ▸ hnamed b hb
    obtain ⟨s', d, -, rfl⟩ := mem_run hx
    have hunder := handleMessage_under hns d.message d.topic d.answers _ op hop
    rw [h b hb]
    exact .inl (hunder.resolve_left List.not_mem_nil key hkey)
  stored := by
    intro b hb s₁ s₂ hagree hday d _
    have hns : svc.namespace ≠ "" := h b hb ▸ hnamed b hb
    rw [h b hb] at hagree
    exact decision_agree hns hagree hday d
  signals := by
    intro b hb s ds₁ ds₂ hsame
    have hbrokers : ∀ b' ∈ svc.activeBrokers, b' = b := by
      intro b' hb'
      rw [h b hb, h b' hb']
    have hds := congrArg (List.map Prod.fst) hsame
    rw [observed_single hbrokers, observed_single hbrokers] at hds
    rw [hds]

def anySignal (broker : String) : Delivery where
  message :=
    { id := .null
      type := .str "trading_signal"
      data := .object .empty (.error "") }
  topic := (TopicMap.mk broker).signalsRaw

theorem reads_positions (svc : Service) (broker : String) :
    ∃ x ∈ (svc.handle {} (anySignal broker)).after.log,
      svc.redisKey "collection" "positions:" ++ "*" ∈ x.1.redisKeys := by
  have hread := (getState_awaits svc {}).returns [] [] rfl
  refine ⟨(.keys (svc.redisKey "collection" "positions:" ++ "*"), none), ?_,
    List.mem_singleton.mpr rfl⟩
  have htype : isEventType (.str "trading_signal") .tradingSignal = true := by decide +kernel
  have htype : isEventType (anySignal broker).message.type .tradingSignal = true := htype
  rw [Service.handle, handleMessage, htype, Bool.true_or, if_pos rfl]
  dsimp only [anySignal]
  rw [if_pos rfl]
  change _ ∈ ((handleTradingSignal svc _ _ _ _).exec [] ⟨{}, []⟩).world.log
  rw [handleTradingSignal, exec_bind, hread, Outcome.andThen_ok, Prog.exec_log_eq]
  exact List.mem_append_left _ List.mem_cons_self

/-- Brokers are segregated exactly where only one is active. The settings
accept no brokers but these two. -/
theorem segregated_iff (svc : Service)
    (hsupported : ∀ b ∈ svc.activeBrokers, b ∈ ["paper", "zerodha"]) :
    Segregated svc ↔ ∀ b ∈ svc.activeBrokers, b = svc.namespace := by
  have hlast : svc.activeBrokers ≠ [] → svc.namespace ∈ svc.activeBrokers := by
    intro hne
    rw [Service.namespace, List.getLastD_eq_getLast?, List.getLast?_eq_some_getLast hne]
    exact List.getLast_mem hne
  constructor
  · intro hseg b hb
    by_contra hother
    have hns := hsupported _ (hlast (List.ne_nil_of_mem hb))
    have hb' := hsupported b hb
    obtain ⟨x, hx, hkey⟩ := reads_positions svc b
    have hhandled : svc.handle {} (anySignal b) ∈ svc.run {} [anySignal b] := List.mem_cons_self
    have hkeys := hseg.keys b hb {} _ _ hhandled (by simp [Delivery.isFor, anySignal, Service.handle])
      x hx _ hkey
    unfold Service.isPriceKey Service.redisKey at hkeys
    simp only [List.mem_cons, List.not_mem_nil, or_false] at hns hb'
    rcases hns with hns | hns <;> rcases hb' with rfl | rfl <;> rw [hns] at hother hkeys
    · exact hother rfl
    · exact absurd hkeys (by decide +kernel)
    · exact absurd hkeys (by decide +kernel)
    · exact hother rfl
  · intro hsingle
    refine segregated_of_single ?_ hsingle
    rintro b hb rfl
    exact absurd (hsupported "" hb) (by decide)

def bothBrokers : Service := { paperOnly with activeBrokers := ["paper", "zerodha"] }

theorem both_segregated_iff :
    (Segregated bothBrokers ↔ ∀ b ∈ bothBrokers.activeBrokers, b = bothBrokers.namespace) ∧
      ∀ h ∈ paperOnly.run {} [buySignal "s1" "paper" 1, buySignal "s2" "paper" 2],
        h.delivery.isFor "paper" → ∀ x ∈ h.after.log, ∀ key ∈ x.1.redisKeys,
          Under "paper" key ∨ paperOnly.isPriceKey key := by
  refine ⟨segregated_iff bothBrokers (by decide), ?_⟩
  have hpaper : Segregated paperOnly := (segregated_iff paperOnly (by decide)).mpr (by decide)
  exact hpaper.keys "paper" (by decide) {} _

/-- Strategy `x` has 49 trades on Zerodha. -/
def nearLimit : State where
  counters := .ofList [("zerodha:risk:counter:daily_trades_zerodha_x_2026-01-05", 49)]

/-- One more trade of `x` on Zerodha, and `zerodha_x` may not trade on paper. -/
theorem other_broker_decides : ¬Segregated bothBrokers := by
  intro hseg
  have hother := hseg.signals "paper" (by decide) nearLimit
    [buySignal "x" "zerodha" 1, buySignal "zerodha_x" "paper" 1]
    [buySignal "zerodha_x" "paper" 1] rfl
  revert hother
  decide +kernel

end AlphaPanda.Risk
