import AlphaPanda.Strategies.ExactFeatures

/-!
# Confidences

The confidence of a signal lies between 0 and 1, and no divisor is zero: an
RSI stays between 0 and 100, the bands lie on either side of a positive mean,
and a price below a band makes the band positive.
-/

namespace AlphaPanda.Strategies

section
variable [Field K] [LinearOrder K]

def SignalResult.Confident (s : SignalResult K) : Prop := 0 ≤ s.confidence ∧ s.confidence ≤ 1

/-- It does not raise, and a signal is confident within bounds. -/
def Sound (x : Except Exc (Option (SignalResult K))) : Prop :=
  ∃ signal, x = .ok signal ∧ ∀ s ∈ signal, s.Confident

theorem sound_none : Sound (.ok none : Except Exc (Option (SignalResult K))) :=
  ⟨none, rfl, fun _ h => nomatch h⟩

theorem sound_some {s : SignalResult K} (h : s.Confident) : Sound (.ok (some s)) :=
  ⟨some s, rfl, fun _ hs => Option.some.inj hs ▸ h⟩

theorem Sound.not_divides {x : Except Exc (Option (SignalResult K))} (h : Sound x) : ¬DividesByZero x := by
  obtain ⟨signal, rfl, -⟩ := h
  rintro ⟨e, he, -⟩
  cases he

end

-- ---------------------------------------------------------------------------
-- The rules
-- ---------------------------------------------------------------------------

theorem signalAt_confident (tick : MarketTick) (signalType : String) (quantity : ℚ)
    (h : 0 ≤ confidence) : (signalAt tick signalType confidence quantity).Confident :=
  ⟨le_min zero_le_one h, min_le_left _ _⟩

theorem exactSignalAt_confident (tick : MarketTick) (signalType : String) (quantity : ℚ)
    (h : 0 ≤ confidence) : (exactSignalAt tick signalType confidence quantity).Confident :=
  ⟨le_min zero_le_one h, min_le_left _ _⟩

theorem exactResult_sound (h : Sound x) : Sound (exactResult x) := by
  obtain ⟨signal, rfl, hsignal⟩ := h
  cases signal with
  | none => exact sound_none
  | some s =>
    obtain ⟨hlow, hhigh⟩ := hsignal s rfl
    have hlow' : (0 : ℝ) ≤ s.confidence := by exact_mod_cast hlow
    have hhigh' : (s.confidence : ℝ) ≤ 1 := by exact_mod_cast hhigh
    exact sound_some ⟨hlow', hhigh'⟩

theorem momentum_sound (p : RulesMomentumProcessor) (tick : MarketTick) (history : List MarketTick) :
    Sound (p.processTick tick history) := by
  unfold RulesMomentumProcessor.processTick
  split
  · exact sound_none
  split
  · exact sound_none
  split
  · exact sound_none
  dsimp only
  split
  · exact sound_some (signalAt_confident _ _ _ (by positivity))
  split
  · exact sound_some (signalAt_confident _ _ _ (by positivity))
  · exact sound_none

theorem calculateRsi_bounds (period : ℕ) (priceData : List MarketTick) :
    ∃ rsi, calculateRsi period priceData = .ok rsi ∧ ∀ v ∈ rsi, 0 ≤ v ∧ v ≤ 100 := by
  by_cases hlength : 2 ≤ priceData.length
  · rw [calculateRsi_eq period priceData hlength]
    split
    · exact ⟨none, rfl, fun _ h => nomatch h⟩
    · exact ⟨_, rfl, fun _ h => Option.some.inj h ▸ rsiOf_bounds _⟩
  · exact ⟨none, if_pos (by omega), fun _ h => nomatch h⟩

theorem rsiAt_bounds (r : RulesProcessor) (tick : MarketTick) (history : List MarketTick) :
    ∃ rsi, r.rsiAt tick history = .ok rsi ∧ ∀ v ∈ rsi, 0 ≤ v ∧ v ≤ 100 := by
  have hnone : ∃ rsi, (.ok none : Except Exc (Option ℚ)) = .ok rsi ∧ ∀ v ∈ rsi, 0 ≤ v ∧ v ≤ 100 :=
    ⟨none, rfl, fun _ h => nomatch h⟩
  unfold RulesProcessor.rsiAt
  split
  · exact hnone
  split
  · exact hnone
  · exact calculateRsi_bounds _ _

theorem rsi_sound (p : RulesRSIProcessor) (tick : MarketTick) (history : List MarketTick) :
    Sound (p.processTick tick history) := by
  obtain ⟨rsi, hrsi, hbounds⟩ := rsiAt_bounds (.rsi p) tick history
  rw [p.processTick_eq, hrsi]
  cases rsi with
  | none => exact sound_none
  | some v =>
    obtain ⟨hlow, hhigh⟩ := hbounds v rfl
    change Sound (p.signalFor tick v)
    unfold RulesRSIProcessor.signalFor divide
    split
    · rename_i hoversold
      have hdivisor : 0 < p.rsiOversold := hlow.trans_lt hoversold
      rw [if_neg hdivisor.ne']
      exact sound_some (signalAt_confident _ _ _ (div_nonneg (sub_nonneg.mpr hoversold.le) hdivisor.le))
    split
    · rename_i hoverbought
      have hdivisor : 0 < 100 - p.rsiOverbought := sub_pos.mpr (hoverbought.trans_le hhigh)
      rw [if_neg hdivisor.ne']
      exact sound_some (signalAt_confident _ _ _ (div_nonneg (sub_nonneg.mpr hoverbought.le) hdivisor.le))
    · exact sound_none

theorem mean_pos (hpos : ∀ x ∈ xs, 0 < x) (h : mean xs = some m) : 0 < m := by
  unfold mean at h
  split at h
  · cases h
  · rename_i hxs
    cases h
    have hlength : 0 < xs.length := List.length_pos_of_ne_nil hxs
    have hsum : 0 < xs.sum := List.sum_pos _ hpos hxs
    positivity

theorem exactDivide_ok {b : ℝ} (hb : b ≠ 0) (a : ℝ) : exactDivide a b = .ok (a / b) := if_neg hb

theorem exactSignalFor_sound (p : RulesMeanReversionProcessor) (tick : MarketTick) (prices : List ℚ)
    (hbands : 0 ≤ p.bbStd) (htick : 0 < tick.lastPrice) (hsma : 0 < sma) :
    Sound (p.exactSignalFor tick prices rsi sma) := by
  have hdev : 0 ≤ (if 1 < prices.length then exactStdev prices else 0) := by
    split
    · exact exactStdev_nonneg prices
    · exact le_rfl
  unfold RulesMeanReversionProcessor.exactSignalFor
  generalize (if 1 < prices.length then exactStdev prices else 0) = dev at hdev ⊢
  have hprice : (0 : ℝ) < tick.lastPrice := by exact_mod_cast htick
  have hmean : (0 : ℝ) < sma := by exact_mod_cast hsma
  have hwidth : 0 ≤ (p.bbStd : ℝ) * dev := mul_nonneg (by exact_mod_cast hbands) hdev
  dsimp only
  split
  · rename_i h
    obtain ⟨hoversold, hbelow⟩ := h
    have hlower := hprice.trans hbelow
    have hrsi : 0 ≤ (((p.rsiOversold - rsi) / 20 : ℚ) : ℝ) := by
      have : 0 ≤ (p.rsiOversold - rsi) / 20 := div_nonneg (sub_nonneg.mpr hoversold.le) (by norm_num)
      exact_mod_cast this
    rw [exactDivide_ok hlower.ne']
    exact sound_some (exactSignalAt_confident _ _ _
      (add_nonneg hrsi (div_nonneg (sub_nonneg.mpr hbelow.le) hlower.le)))
  split
  · rename_i h
    obtain ⟨hoverbought, habove⟩ := h
    have hupper : (0 : ℝ) < sma + p.bbStd * dev := add_pos_of_pos_of_nonneg hmean hwidth
    have hrsi : 0 ≤ (((rsi - p.rsiOverbought) / 20 : ℚ) : ℝ) := by
      have : 0 ≤ (rsi - p.rsiOverbought) / 20 := div_nonneg (sub_nonneg.mpr hoverbought.le) (by norm_num)
      exact_mod_cast this
    rw [exactDivide_ok hupper.ne']
    exact sound_some (exactSignalAt_confident _ _ _
      (add_nonneg hrsi (div_nonneg (sub_nonneg.mpr habove.le) hupper.le)))
  · exact sound_none

def RulesProcessor.BandsApart : RulesProcessor → Prop
  | .meanReversion p => 0 ≤ p.bbStd
  | _ => True

theorem exactTick_sound {r : RulesProcessor} (hbands : r.BandsApart) (htick : 0 < tick.lastPrice)
    (hhistory : ∀ t ∈ history, 0 < t.lastPrice) : Sound (r.exactTick tick history) := by
  cases r with
  | momentum p => exact exactResult_sound (momentum_sound p tick history)
  | rsi p => exact exactResult_sound (rsi_sound p tick history)
  | meanReversion p =>
    have hprices : ∀ x ∈ p.prices history, 0 < x := by
      intro x hx
      obtain ⟨t, ht, rfl⟩ := List.mem_map.mp hx
      refine hhistory t ?_
      unfold lastItems at ht
      split at ht
      · exact ht
      · exact List.mem_of_mem_drop ht
    obtain ⟨rsi, hrsi, -⟩ := rsiAt_bounds (.meanReversion p) tick history
    change Sound (p.exactTick tick history)
    unfold RulesMeanReversionProcessor.exactTick
    rw [hrsi]
    cases rsi with
    | none => exact sound_none
    | some v =>
      cases hmean : mean (p.prices history) with
      | none => exact sound_none
      | some sma => exact exactSignalFor_sound p tick _ hbands htick (mean_pos hprices hmean)

-- ---------------------------------------------------------------------------
-- The policies
-- ---------------------------------------------------------------------------

section
variable [Field K] [LinearOrder K] [IsStrictOrderedRing K]

theorem agree_confident {rules ml : SignalResult K} (hrules : rules.Confident) (hml : ml.Confident)
    (hbonus : 0 ≤ bonus) : (DecisionPolicy.agree rules ml bonus quantity price).Confident := by
  obtain ⟨hrules, -⟩ := hrules
  obtain ⟨hml, -⟩ := hml
  refine ⟨le_min zero_le_one ?_, min_le_left _ _⟩
  exact add_nonneg (div_nonneg (add_nonneg hrules hml) zero_le_two) hbonus

theorem lowered_confident {s : SignalResult K} (h : s.Confident) :
    { s with confidence := s.confidence * (8 / 10) }.Confident := by
  obtain ⟨hlow, hhigh⟩ := h
  constructor
  · exact mul_nonneg hlow (by positivity)
  · change s.confidence * (8 / 10) ≤ 1
    linarith

theorem decide_confident (policy : DecisionPolicy) {rules ml : Option (SignalResult K)}
    (hrules : ∀ s ∈ rules, s.Confident) (hml : ∀ s ∈ ml, s.Confident) :
    ∀ s ∈ policy.decide rules ml, s.Confident := by
  cases policy with
  | majorityVote minMlConfidence =>
    cases ml with
    | none =>
      cases rules with
      | none => exact fun _ h => nomatch h
      | some r =>
        rintro s ⟨⟩
        exact hrules r rfl
    | some m =>
      have hm : m.Confident := hml m rfl
      cases rules with
      | none =>
        intro s hs
        simp only [DecisionPolicy.decide] at hs
        split at hs
        · cases hs
          exact hm
        · cases hs
          exact lowered_confident hm
      | some r =>
        have hr : r.Confident := hrules r rfl
        intro s hs
        simp only [DecisionPolicy.decide] at hs
        split at hs
        · cases hs
          exact agree_confident hr hm (by positivity)
        split at hs
        · cases hs
          exact hm
        · cases hs
          exact hr
  | conservative =>
    intro s hs
    simp only [DecisionPolicy.decide] at hs
    split at hs
    · rename_i r m
      split at hs
      · cases hs
        exact agree_confident (hrules r rfl) (hml m rfl) (by positivity)
      · cases hs
    · cases hs

/-- All signals that its model gives are confident within bounds. -/
def MLProcessor.Confident (m : MLProcessor F K) : Prop :=
  ∀ features, ∀ s ∈ m.predictSignal features, s.Confident

theorem combine_confident {h : HybridProcessor F K} (hml : h.mlProcessor.Confident)
    {x : Except Exc (Option (SignalResult K))} (hx : Sound x) :
    ∀ s ∈ h.combine tick history x, s.Confident := by
  obtain ⟨rules, rfl, hrules⟩ := hx
  simp only [HybridProcessor.combine, MLProcessor.processTick]
  cases h.mlProcessor.extractFeatures tick history with
  | error e => exact decide_confident _ hrules fun _ h => nomatch h
  | ok features => exact decide_confident _ hrules (hml features)

end

-- ---------------------------------------------------------------------------
-- Runs
-- ---------------------------------------------------------------------------

theorem validated_sound {e : StrategyExecutor Unit ℝ} {x : Except Exc (Option (SignalResult ℝ))}
    (h : Sound x) : ¬DividesByZero (x >>= e.validated tick) ∧
      ∀ s, x >>= e.validated tick = .ok (some s) → s.Confident := by
  obtain ⟨signal, rfl, hsignal⟩ := h
  cases signal with
  | none => exact ⟨sound_none.not_divides, fun _ h => nomatch h⟩
  | some s =>
    change ¬DividesByZero ((e.validator.validateSignal s tick).map _) ∧
      ∀ s', (e.validator.validateSignal s tick).map _ = _ → _
    cases hvalid : e.validator.validateSignal s tick with
    | error err =>
      refine ⟨?_, fun _ h => nomatch h⟩
      rintro ⟨e', he', hname⟩
      cases he'
      have : err = .invalidOperation := by
        unfold StandardStrategyValidator.validateSignal at hvalid
        repeat (split at hvalid; · cases hvalid)
        split at hvalid
        · exact (Except.error.inj hvalid).symm
        · cases hvalid
      rw [this] at hname
      simp [Exc.invalidOperation] at hname
    | ok valid =>
      refine ⟨fun ⟨_, he, _⟩ => (nomatch he), ?_⟩
      intro s' hs'
      cases valid with
      | false => cases hs'
      | true =>
        cases hs'
        exact hsignal s rfl

theorem window_pos {p : StrategyProcessor Unit ℝ} {validator : StandardStrategyValidator}
    {config : StrategyConfig} (hpos : ∀ t ∈ ticks, 0 < t.lastPrice) :
    ∀ t ∈ (StrategyExecutor.accepted p validator config () ticks).rtake n, 0 < t.lastPrice :=
  fun t ht => hpos t (List.mem_of_mem_filter (List.mem_of_mem_drop ht))

theorem results_sound {p : StrategyProcessor Unit ℝ} {validator : StandardStrategyValidator}
    {config : StrategyConfig}
    (hsound : ∀ tick history, 0 < tick.lastPrice → (∀ t ∈ history, 0 < t.lastPrice) →
      Sound (p.processTick tick history ()).1)
    (hpos : ∀ t ∈ ticks, 0 < t.lastPrice) :
    ∀ x ∈ (StrategyExecutor.init p validator config ()).results ticks,
      ¬DividesByZero x.2 ∧ ∀ s, x.2 = .ok (some s) → s.Confident := by
  intro x hx
  obtain ⟨before, tick, hbefore, rfl⟩ := StrategyExecutor.mem_results hx
  have hseen : ∀ t ∈ before ++ [tick], 0 < t.lastPrice := fun t ht => hpos t (hbefore.subset ht)
  rw [StrategyExecutor.processTick_accepted]
  split
  · exact validated_sound (hsound tick _ (hseen tick (by simp)) (window_pos hseen))
  · exact ⟨sound_none.not_divides, fun _ h => nomatch h⟩

/-- On positive prices, the rules and the hybrid never divide by zero, and
every signal has a confidence between 0 and 1. Nor does either extraction of
features from the history that the hybrid is given, with numpy or without. -/
theorem confidences_bounded {h : HybridProcessor F ℝ} (validator : StandardStrategyValidator)
    (config : StrategyConfig) (hpos : ∀ t ∈ ticks, 0 < t.lastPrice) (hbands : h.rulesProcessor.BandsApart)
    (hml : h.mlProcessor.Confident) :
    (∀ x ∈ (h.rulesProcessor.exactExecutor validator config).results ticks,
      ¬DividesByZero x.2 ∧ ∀ s, x.2 = .ok (some s) → s.Confident) ∧
    (∀ x ∈ (h.exactExecutor validator config).results ticks,
      ¬DividesByZero x.2 ∧ ∀ s, x.2 = .ok (some s) → s.Confident) ∧
    ∀ before tick, before ++ [tick] <+: ticks →
      let history := (((h.exactExecutor validator config).feed before).processTick tick).2.history.items
      ¬DividesByZero (h.rulesProcessor.exactTick tick history) ∧
        ∀ numpy lookbackPeriods,
          ¬DividesByZero (MLMomentumProcessor.exactFeatures numpy lookbackPeriods tick history) ∧
          ¬DividesByZero (MLMeanReversionProcessor.exactFeatures numpy lookbackPeriods tick history) := by
  refine ⟨results_sound (fun tick history => exactTick_sound hbands) hpos, results_sound ?_ hpos, ?_⟩
  · intro tick history htick hhistory
    exact ⟨_, rfl, combine_confident hml (exactTick_sound hbands htick hhistory)⟩
  · intro before tick hbefore
    have hseen : ∀ t ∈ before ++ [tick], 0 < t.lastPrice := fun t ht => hpos t (hbefore.subset ht)
    obtain ⟨history, state, hfeed, hitems⟩ :=
      StrategyExecutor.feed_init h.toExact validator config () (before ++ [tick])
    rw [StrategyExecutor.feed_concat] at hfeed
    have hwindow : ∀ t ∈ history.items, 0 < t.lastPrice := by
      rw [hitems]
      exact window_pos hseen
    rw [HybridProcessor.exactExecutor, hfeed]
    refine ⟨(exactTick_sound hbands (hseen tick (by simp)) hwindow).not_divides, fun numpy n => ?_⟩
    exact ⟨MLMomentumProcessor.exactFeatures_divides hwindow numpy n tick,
      MLMeanReversionProcessor.exactFeatures_divides hwindow numpy n tick⟩

noncomputable def certain : MLProcessor (List ℝ) ℝ where
  model := some fun _ => .ok (1, 1)
  extractFeatures := MLMeanReversionProcessor.exactFeatures true 20
  price features := (features[1]?).elim (.error (indexError "list index out of range")) fun price =>
    .ok (.ofRat ⌊price⌋)
  metadata _ _ _ := .empty

theorem certain_confident : certain.Confident := by
  intro features s hs
  simp only [MLProcessor.predictSignal, certain, MLProcessor.signal, true_and, one_ne_zero,
    false_and, if_false] at hs
  split at hs
  · cases hprice : features[1]? with
    | none =>
      simp only [hprice, Option.elim_none] at hs
      cases hs
    | some price =>
      simp only [hprice, Option.elim_some] at hs
      cases hs
      exact ⟨zero_le_one, le_rfl⟩
  · cases hs

noncomputable def certainHybrid : HybridProcessor (List ℝ) ℝ :=
  HybridMeanReversionProcessor { stdev := fun _ => 0 } certain .conservative

theorem certain_bounded :
    (∀ x ∈ (certainHybrid.rulesProcessor.exactExecutor {} oneConfig).results [tickAt 1 10, tickAt 1 11],
      ¬DividesByZero x.2 ∧ ∀ s, x.2 = .ok (some s) → s.Confident) ∧
    (∀ x ∈ (certainHybrid.exactExecutor {} oneConfig).results [tickAt 1 10, tickAt 1 11],
      ¬DividesByZero x.2 ∧ ∀ s, x.2 = .ok (some s) → s.Confident) ∧
    ∀ before tick, before ++ [tick] <+: [tickAt 1 10, tickAt 1 11] →
      let history :=
        (((certainHybrid.exactExecutor {} oneConfig).feed before).processTick tick).2.history.items
      ¬DividesByZero (certainHybrid.rulesProcessor.exactTick tick history) ∧
        ∀ numpy lookbackPeriods,
          ¬DividesByZero (MLMomentumProcessor.exactFeatures numpy lookbackPeriods tick history) ∧
          ¬DividesByZero (MLMeanReversionProcessor.exactFeatures numpy lookbackPeriods tick history) := by
  have hbands : certainHybrid.rulesProcessor.BandsApart := by
    change (0 : ℚ) ≤ 2
    exact zero_le_two
  refine confidences_bounded {} oneConfig ?_ hbands certain_confident
  simp [tickAt]

end AlphaPanda.Strategies
