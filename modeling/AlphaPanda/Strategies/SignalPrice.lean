import AlphaPanda.Strategies.Degradation
import AlphaPanda.Strategies.Features

/-!
# Signal price

A signal carries the price of its tick, unless the breakout processor reads
the number of ticks in its place: its features during the warm-up, and without
numpy, have the price at another index.
-/

namespace AlphaPanda.Strategies

-- ---------------------------------------------------------------------------
-- What an executor returns
-- ---------------------------------------------------------------------------

theorem validateSignal_true_iff {v : StandardStrategyValidator} {s : SignalResult} :
    v.validateSignal s tick = .ok true ↔
      (0 ≤ s.confidence ∧ s.confidence ≤ v.maxSignalConfidence) ∧ v.minQuantity ≤ s.quantity ∧
        s.signalType ∈ ["BUY", "SELL", "HOLD"] ∧ 0 < tick.lastPrice ∧
        ∃ price, s.price = .num price ∧ price.le (.fin 0) = false := by
  unfold StandardStrategyValidator.validateSignal
  rw [Rat.cast_id]
  split_ifs with hconfidence hquantity htype hprice
  · have hno : ¬(0 ≤ s.confidence ∧ s.confidence ≤ v.maxSignalConfidence) := by
      rintro ⟨hpos, hmax⟩
      exact absurd hconfidence (not_or.mpr ⟨not_lt.mpr hpos, not_lt.mpr hmax⟩)
    simp [hno]
  · simp [not_le.mpr hquantity]
  · simp [not_lt.mpr hprice]
  · push Not at hconfidence hquantity hprice
    simp only [hconfidence, hquantity, htype, hprice, true_and]
    cases s.price with
    | nan => simp
    | num price => simp
  · simp [htype]

namespace StrategyExecutor

variable (p : StrategyProcessor Unit) (v : StandardStrategyValidator) (c : StrategyConfig)

def window (ticks : List MarketTick) (tick : MarketTick) : List MarketTick :=
  (accepted p v c () (ticks ++ [tick])).rtake p.requiredHistoryLength

theorem returned_iff :
    (((init p v c ()).feed ticks).processTick tick).1 = .ok (some s) ↔
      (init p v c ()).canProcessTick tick ∧
        (p.processTick tick (window p v c ticks tick) ()).1 = .ok (some s) ∧
        v.validateSignal s tick = .ok true := by
  rw [processTick_accepted, ← window]
  generalize (p.processTick tick (window p v c ticks tick) ()).1 = x
  by_cases hcan : (init p v c ()).canProcessTick tick
  · rw [if_pos hcan]
    simp only [hcan, true_and]
    rcases x with e | _ | signal
    · simp [Bind.bind, Except.bind]
    · simp [Bind.bind, Except.bind, validated]
    · change (v.validateSignal signal tick).map _ = _ ↔ _
      cases hvalid : v.validateSignal signal tick with
      | error e =>
        simp only [Except.map, reduceCtorEq, Except.ok.injEq, Option.some.injEq, false_iff, not_and]
        rintro rfl
        simp [hvalid]
      | ok valid =>
        cases valid with
        | false =>
          simp only [Except.map, Bool.false_eq_true, if_false, Except.ok.injEq, reduceCtorEq,
            Option.some.injEq, false_iff, not_and]
          rintro rfl
          simp [hvalid]
        | true =>
          simp only [Except.map, if_true, Except.ok.injEq, Option.some.injEq]
          exact ⟨fun h => ⟨h, h ▸ hvalid⟩, And.left⟩
  · simp [hcan]

end StrategyExecutor

-- ---------------------------------------------------------------------------
-- The price of an ML signal
-- ---------------------------------------------------------------------------

theorem MLProcessor.predictSignal_some_iff {m : MLProcessor F} :
    m.predictSignal features = some s ↔
      ∃ model prediction maxProb price, m.model = some model ∧ model features = .ok (prediction, maxProb) ∧
        (prediction = 1 ∨ prediction = 0) ∧ m.confidenceThreshold < maxProb ∧
        m.price features = .ok price ∧
        s = ⟨if prediction = 1 then "BUY" else "SELL", maxProb, m.positionSize, price,
          some (m.metadata features prediction maxProb)⟩ := by
  unfold predictSignal
  cases hmodel : m.model with
  | none => simp
  | some model =>
    cases hanswer : model features with
    | error e => simp [hanswer]
    | ok answer =>
      obtain ⟨prediction, maxProb⟩ := answer
      simp only [hanswer, signal]
      cases hprice : m.price features with
      | error e => simp
      | ok price =>
        split_ifs with hbuy hsell
        · obtain ⟨rfl, hthreshold⟩ := hbuy
          have hthreshold : m.confidenceThreshold < maxProb := by simpa using hthreshold
          simp [hanswer, hthreshold, eq_comm]
        · obtain ⟨rfl, hthreshold⟩ := hsell
          have hthreshold : m.confidenceThreshold < maxProb := by simpa using hthreshold
          simp [hanswer, hthreshold, eq_comm]
        · simp only [Rat.cast_id] at hbuy hsell
          simp only [Option.some.injEq, false_iff, not_exists, not_and]
          rintro _ prediction' maxProb' price' rfl hanswer' hprediction hthreshold
          rw [hanswer] at hanswer'
          cases hanswer'
          rcases hprediction with rfl | rfl
          · exact absurd ⟨rfl, hthreshold⟩ hbuy
          · exact absurd ⟨rfl, hthreshold⟩ hsell

/-- The price of a signal is that of the tick, or one that no validator accepts. -/
def Priced (tick : MarketTick) (x : Except Exc (Option SignalResult)) : Prop :=
  ∀ s, x = .ok (some s) → s.price = .ofRat tick.lastPrice ∨ s.price = .ofRat 0

theorem momentum_features_price (h : MLMomentumProcessor.extractFeatures c tick history = .ok features) :
    features[3]? = some (.ofRat tick.lastPrice) ∨ features[3]? = some (.ofRat 0) := by
  unfold MLMomentumProcessor.extractFeatures at h
  dsimp only at h
  split_ifs at h
  · cases h
    exact .inl rfl
  · split at h
    · cases h
    · cases h
      exact .inl rfl
  · cases h
    exact .inr rfl
  all_goals
    split at h
    · cases h
    · cases h
      exact .inl rfl

theorem momentum_priced (c : MLParameters) (tick : MarketTick) (history : List MarketTick) :
    Priced tick ((MLMomentumProcessor c).processTick tick history) := by
  intro s h
  unfold MLProcessor.processTick at h
  cases hfeatures : (MLMomentumProcessor c).extractFeatures tick history with
  | error e => simp [hfeatures, Except.map] at h
  | ok features =>
    simp only [hfeatures, Except.map, Except.ok.injEq] at h
    obtain ⟨model, prediction, maxProb, price, -, -, -, -, hprice, rfl⟩ :=
      MLProcessor.predictSignal_some_iff.mp h
    change featurePrice features = .ok price at hprice
    unfold featurePrice at hprice
    rcases momentum_features_price hfeatures with hthree | hthree <;> rw [hthree] at hprice <;> cases hprice
    · exact .inl rfl
    · exact .inr rfl

/-- The hybrid's price is that of the rules' signal or of the model's. -/
theorem decide_price {policy : DecisionPolicy} {rules ml : Option SignalResult}
    (h : policy.decide rules ml = some s) :
    (∃ r, rules = some r ∧ s.price = r.price) ∨ (∃ m, ml = some m ∧ s.price = m.price) := by
  cases policy with
  | majorityVote minMlConfidence =>
    cases rules with
    | none =>
      cases ml with
      | none => cases h
      | some m =>
        right
        simp only [DecisionPolicy.decide] at h
        split_ifs at h <;> cases h <;> exact ⟨m, rfl, rfl⟩
    | some r =>
      cases ml with
      | none =>
        cases h
        exact .inl ⟨r, rfl, rfl⟩
      | some m =>
        simp only [DecisionPolicy.decide] at h
        split_ifs at h <;> cases h
        · exact .inr ⟨m, rfl, rfl⟩
        · exact .inr ⟨m, rfl, rfl⟩
        · exact .inl ⟨r, rfl, rfl⟩
  | conservative =>
    rcases rules with _ | r <;> rcases ml with _ | m <;> simp only [DecisionPolicy.decide] at h
    · cases h
    · cases h
    · cases h
    · split_ifs at h
      cases h
      exact .inl ⟨r, rfl, rfl⟩

theorem rules_priced (r : RulesProcessor) (tick : MarketTick) (history : List MarketTick) :
    Priced tick (r.processTick tick history) := by
  intro s h
  obtain ⟨signalType, confidence, quantity, rfl⟩ := r.plain tick history s h
  exact .inl rfl

theorem combine_price {h : HybridProcessor F} (hs : h.combine tick history x = some s) :
    (∃ r, x = .ok (some r) ∧ s.price = r.price) ∨
      ∃ m, h.mlProcessor.processTick tick history = .ok (some m) ∧ s.price = m.price := by
  cases x with
  | error e => cases hs
  | ok rulesSignal =>
    unfold HybridProcessor.combine at hs
    dsimp only at hs
    cases hml : h.mlProcessor.processTick tick history with
    | error e =>
      rw [hml] at hs
      rcases decide_price hs with ⟨r, rfl, hprice⟩ | ⟨_, hnone, -⟩
      · exact .inl ⟨r, rfl, hprice⟩
      · cases hnone
    | ok mlSignal =>
      rw [hml] at hs
      rcases decide_price hs with ⟨r, rfl, hprice⟩ | ⟨m, rfl, hprice⟩
      · exact .inl ⟨r, rfl, hprice⟩
      · exact .inr ⟨m, rfl, hprice⟩

theorem hybrid_priced {h : HybridProcessor F} (hml : Priced tick (h.mlProcessor.processTick tick history)) :
    Priced tick (h.processTick tick history) := by
  rintro s hs
  rcases combine_price (Except.ok.inj hs) with ⟨r, hr, hprice⟩ | ⟨m, hm, hprice⟩
  · exact hprice ▸ rules_priced h.rulesProcessor tick history r hr
  · exact hprice ▸ hml m hm

-- ---------------------------------------------------------------------------
-- Breakout
-- ---------------------------------------------------------------------------

section
variable {c : MLParameters} {history : List MarketTick}

/-- Its features are not those of a full window. -/
def WarmingUp (c : MLParameters) (history : List MarketTick) : Prop :=
  c.numerics.numpy = false ∨ (history.length : ℤ) < c.lookbackPeriods

def warmUpFeatures (tick : MarketTick) (history : List MarketTick) : List Decimal :=
  [.ofRat 0, .ofRat tick.lastPrice, .ofRat 0, .ofRat history.length]

theorem breakout_features_warmUp (h : WarmingUp c history) :
    MLBreakoutProcessor.extractFeatures c tick history = .ok (warmUpFeatures tick history) := by
  rw [MLBreakoutProcessor.extractFeatures, if_pos (by simpa [WarmingUp] using h), warmUpFeatures]

theorem breakout_features_price (h : ¬WarmingUp c history)
    (hfeatures : MLBreakoutProcessor.extractFeatures c tick history = .ok features) :
    features[3]? = some (.ofRat tick.lastPrice) := by
  rw [MLBreakoutProcessor.extractFeatures, if_neg (by simpa [WarmingUp] using h)] at hfeatures
  dsimp only at hfeatures
  split at hfeatures
  · cases hfeatures
    rfl
  · cases hfeatures

theorem breakout_some_iff :
    MLBreakoutProcessor.processTick c tick history = .ok (some s) ↔
      ∃ features model prediction maxProb price,
        MLBreakoutProcessor.extractFeatures c tick history = .ok features ∧
        c.model = some model ∧ model features = .ok (prediction, maxProb) ∧
        (prediction = 1 ∨ prediction = 0) ∧ c.confidenceThreshold < maxProb ∧
        featurePrice features = .ok price ∧
        s = { signalType := if prediction = 1 then "BUY" else "SELL", confidence := maxProb,
              quantity := c.positionSize, price := price } := by
  have hextract : (MLBreakoutProcessor.mlProcessor c).extractFeatures tick history =
    MLBreakoutProcessor.extractFeatures c tick history := rfl
  unfold MLBreakoutProcessor.processTick MLProcessor.processTick
  rw [hextract]
  cases MLBreakoutProcessor.extractFeatures c tick history with
  | error e => simp [Except.map]
  | ok features =>
    simp only [Except.map, Except.ok.injEq, Option.map_eq_some_iff]
    constructor
    · rintro ⟨_, hsignal, rfl⟩
      obtain ⟨model, prediction, maxProb, price, hmodel, hanswer, hprediction, hthreshold, hprice, rfl⟩ :=
        MLProcessor.predictSignal_some_iff.mp hsignal
      exact ⟨features, model, prediction, maxProb, price, rfl, hmodel, hanswer, hprediction, hthreshold,
        hprice, rfl⟩
    · rintro ⟨_, model, prediction, maxProb, price, rfl, hmodel, hanswer, hprediction, hthreshold, hprice,
        rfl⟩
      exact ⟨_, MLProcessor.predictSignal_some_iff.mpr
        ⟨model, prediction, maxProb, price, hmodel, hanswer, hprediction, hthreshold, hprice, rfl⟩, rfl⟩

/-- The model answers the warm-up features with a signal that passes. -/
def SignalsMeanwhile (c : MLParameters) (v : StandardStrategyValidator) (tick : MarketTick)
    (history : List MarketTick) : Prop :=
  ∃ model prediction maxProb, c.model = some model ∧
    model (warmUpFeatures tick history) = .ok (prediction, maxProb) ∧ (prediction = 1 ∨ prediction = 0) ∧
    c.confidenceThreshold < maxProb ∧ (0 ≤ maxProb ∧ maxProb ≤ v.maxSignalConfidence) ∧
    v.minQuantity ≤ c.positionSize

/-- The number of ticks is read as a price that it is not. -/
structure Misreads (c : MLParameters) (v : StandardStrategyValidator) (tick : MarketTick)
    (history : List MarketTick) : Prop where
  warmingUp : WarmingUp c history
  signals : SignalsMeanwhile c v tick history
  positive : 0 < tick.lastPrice
  ticks : history ≠ []
  differs : (history.length : ℚ) ≠ tick.lastPrice

theorem breakout_priced_iff :
    (∀ s, MLBreakoutProcessor.processTick c tick history = .ok (some s) →
        v.validateSignal s tick = .ok true → s.price = .ofRat tick.lastPrice) ↔
      ¬Misreads c v tick history := by
  constructor
  · rintro hpriced ⟨hwarm, ⟨model, prediction, maxProb, hmodel, hanswer, hprediction, hthreshold,
      hconfidence, hquantity⟩, hpositive, hticks, hdiffers⟩
    have hprice := hpriced _ (breakout_some_iff.mpr ⟨_, model, prediction, maxProb, _,
      breakout_features_warmUp hwarm, hmodel, hanswer, hprediction, hthreshold, rfl, rfl⟩)
      (validateSignal_true_iff.mpr ⟨hconfidence, hquantity, by dsimp only; split <;> simp, hpositive,
        _, rfl, by simpa [ExtRat.le] using hticks⟩)
    exact hdiffers (by simpa [Decimal.ofRat] using hprice)
  · intro hno s hs hvalid
    obtain ⟨features, model, prediction, maxProb, price, hfeatures, hmodel, hanswer, hprediction,
      hthreshold, hprice, rfl⟩ := breakout_some_iff.mp hs
    by_cases hwarm : WarmingUp c history
    · rw [breakout_features_warmUp hwarm] at hfeatures
      cases hfeatures
      cases hprice
      obtain ⟨hconfidence, hquantity, -, hpositive, p, hp, hpos⟩ := validateSignal_true_iff.mp hvalid
      cases hp
      by_contra hdiffers
      refine hno ⟨hwarm, ⟨model, prediction, maxProb, hmodel, hanswer, hprediction, hthreshold,
        hconfidence, hquantity⟩, hpositive, ?_, fun heq => hdiffers (congrArg Decimal.ofRat heq)⟩
      rintro rfl
      simp [ExtRat.le] at hpos
    · rw [featurePrice, breakout_features_price hwarm hfeatures] at hprice
      cases hprice
      rfl

end

def PricedAtTick (p : Processor) (v : StandardStrategyValidator) (config : StrategyConfig)
    (ticks : List MarketTick) (tick : MarketTick) : Prop :=
  ∀ s, (((p.executor v config).feed ticks).processTick tick).1 = .ok (some s) →
    s.price = .ofRat tick.lastPrice

/-- The ticks that a processor is given with the tick, itself included. -/
def Processor.window (p : Processor) (v : StandardStrategyValidator) (config : StrategyConfig)
    (ticks : List MarketTick) (tick : MarketTick) : List MarketTick :=
  StrategyExecutor.window p.toProcessor v config ticks tick

theorem Processor.priced_of_validated {p : Processor}
    (h : ∀ history, Priced tick (p.processTick tick history)) : PricedAtTick p v config ticks tick := by
  intro s hs
  obtain ⟨-, hsignal, hvalid⟩ := (StrategyExecutor.returned_iff _ _ _).mp hs
  rcases h _ s hsignal with hprice | hzero
  · exact hprice
  · obtain ⟨-, -, -, -, price, hprice, hpos⟩ := validateSignal_true_iff.mp hvalid
    rw [hzero] at hprice
    cases hprice
    simp [ExtRat.le] at hpos

/-- Every processor's signals carry the price of their tick, except those of a
breakout processor that misreads its features. -/
theorem signal_price_iff (p : Processor) (v : StandardStrategyValidator) (config : StrategyConfig)
    (ticks : List MarketTick) (tick : MarketTick) :
    PricedAtTick p v config ticks tick ↔
      ∀ c, p = .mlBreakout c → (p.executor v config).canProcessTick tick →
        ¬Misreads c v tick (p.window v config ticks tick) := by
  cases p with
  | rules r => exact iff_of_true (Processor.priced_of_validated fun _ => rules_priced r tick _) (by simp)
  | mlMomentum c =>
    exact iff_of_true (Processor.priced_of_validated fun _ => momentum_priced c tick _) (by simp)
  | hybridMomentum momentum c policy =>
    refine iff_of_true (Processor.priced_of_validated fun history => ?_) (by simp)
    exact hybrid_priced (momentum_priced c tick history)
  | mlBreakout c =>
    simp only [Processor.mlBreakout.injEq, forall_eq']
    rw [PricedAtTick, Processor.executor]
    simp only [StrategyExecutor.returned_iff, and_imp]
    constructor
    · intro h hcan
      exact breakout_priced_iff.mp fun s hs hvalid => h s hcan hs hvalid
    · intro h s hcan hs hvalid
      exact breakout_priced_iff.mpr (h hcan) s hs hvalid

def eagerBreakout : MLParameters where
  numerics := plainNumerics
  lookbackPeriods := 30
  model := some fun _ => .ok (1, 9 / 10)

/-- The first tick is bought at a price of one. -/
theorem first_tick_mispriced : ¬∀ (p : Processor) (v : StandardStrategyValidator) (config : StrategyConfig)
    (ticks : List MarketTick) (tick : MarketTick), 0 < tick.lastPrice →
      PricedAtTick p v config ticks tick := by
  intro h
  have hprice := h (.mlBreakout eagerBreakout) {} oneConfig [] (tickAt 1 10) (by decide)
    { signalType := "BUY", confidence := 9 / 10, quantity := 100, price := .ofRat 1 } (by decide +kernel)
  revert hprice
  decide +kernel

end AlphaPanda.Strategies
