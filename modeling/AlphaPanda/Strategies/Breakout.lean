import AlphaPanda.Strategies.Features
import AlphaPanda.Strategies.Isolation
import Mathlib.Algebra.Order.Field.Basic

/-!
# Breakout features

The window of the breakout processor holds the price that is compared with its
extremes. A price that breaks out of those before it is an extreme itself.
-/

namespace AlphaPanda.Strategies

-- ---------------------------------------------------------------------------
-- A price among others
-- ---------------------------------------------------------------------------

theorem relativeChange_nonpos (hbefore : 0 < before) (h : now ≤ before) : relativeChange before now ≤ 0 := by
  rw [relativeChange, if_neg hbefore.ne']
  exact div_nonpos_of_nonpos_of_nonneg (sub_nonpos.mpr h) hbefore.le

theorem relativeChange_nonneg (hbefore : 0 < before) (h : before ≤ now) : 0 ≤ relativeChange before now := by
  rw [relativeChange, if_neg hbefore.ne']
  exact div_nonneg (sub_nonneg.mpr h) hbefore.le

theorem lastSlice_rtake (hn : 0 < n) (xs : List α) : lastSlice n (xs.rtake n.toNat) = xs.rtake n.toNat := by
  rw [lastSlice, if_neg (not_lt.mpr hn.le), lastItems, if_neg (by omega), List.rtake_rtake_of_le xs le_rfl]

def preceding (n : ℕ) (before : List MarketTick) : List ℚ := (before.rtake (n - 1)).map (·.lastPrice)

theorem prices_window (hn : 0 < n) (before : List MarketTick) (tick : MarketTick) :
    ((before ++ [tick]).rtake n).map (·.lastPrice) = preceding n before ++ [tick.lastPrice] := by
  obtain ⟨k, rfl⟩ := Nat.exists_eq_add_of_lt hn
  rw [Nat.zero_add, List.rtake_concat_succ, List.map_append, preceding, Nat.add_sub_cancel,
    List.map_singleton]

/-- The first feature is positive, and the second negative, as they are named. -/
structure SignedAsNamed (features : List Decimal) (price : ℚ) (preceding : List ℚ) : Prop where
  up : (∃ up, features[0]? = some up ∧ up.gt (.ofRat 0)) ↔ ∀ p ∈ preceding, p < price
  down : (∃ down, features[1]? = some down ∧ (Decimal.ofRat 0).gt down) ↔ ∀ p ∈ preceding, price < p

theorem signedAsNamed_iff (hup : up ≤ 0) (hdown : 0 ≤ down) (rest : List Decimal) :
    SignedAsNamed (.ofRat up :: .ofRat down :: rest) price others ↔
      (¬∀ p ∈ others, p < price) ∧ ¬∀ p ∈ others, price < p := by
  have hnotUp : ¬∃ up', (Decimal.ofRat up :: .ofRat down :: rest)[0]? = some up' ∧ up'.gt (.ofRat 0) := by
    simpa [Decimal.gt, Decimal.ofRat, ExtRat.le] using hup
  have hnotDown :
      ¬∃ down', (Decimal.ofRat up :: .ofRat down :: rest)[1]? = some down' ∧ (Decimal.ofRat 0).gt down' := by
    simpa [Decimal.gt, Decimal.ofRat, ExtRat.le] using hdown
  constructor
  · rintro ⟨habove, hbelow⟩
    exact ⟨fun h => hnotUp (habove.mpr h), fun h => hnotDown (hbelow.mpr h)⟩
  · rintro ⟨habove, hbelow⟩
    exact ⟨iff_of_false hnotUp habove, iff_of_false hnotDown hbelow⟩

-- ---------------------------------------------------------------------------
-- The window of an executor
-- ---------------------------------------------------------------------------

section
variable {c : MLParameters}

theorem extractFeatures_signs (hprice : 0 < tick.lastPrice)
    (hprices : (lastSlice c.lookbackPeriods history).map (·.lastPrice) = others ++ [tick.lastPrice])
    (hpos : ∀ p ∈ others, 0 < p) :
    ∃ up down rest, MLBreakoutProcessor.extractFeatures c tick history =
        .ok (.ofRat up :: .ofRat down :: rest) ∧ up ≤ 0 ∧ 0 ≤ down := by
  rw [MLBreakoutProcessor.extractFeatures]
  split
  · exact ⟨0, tick.lastPrice, _, rfl, le_rfl, hprice.le⟩
  · dsimp only
    rw [hprices]
    have hnonempty : others ++ [tick.lastPrice] ≠ [] := by simp
    have hmem : tick.lastPrice ∈ others ++ [tick.lastPrice] := by simp
    have hall : ∀ p ∈ others ++ [tick.lastPrice], 0 < p := by
      simpa [or_imp, forall_and, hprice] using hpos
    cases hhigh : (others ++ [tick.lastPrice]).max? with
    | none => exact absurd (List.max?_eq_none_iff.mp hhigh) hnonempty
    | some high =>
      cases hlow : (others ++ [tick.lastPrice]).min? with
      | none => exact absurd (List.min?_eq_none_iff.mp hlow) hnonempty
      | some low =>
        obtain ⟨hhighMem, hhighest⟩ := List.max?_eq_some_iff.mp hhigh
        obtain ⟨hlowMem, hlowest⟩ := List.min?_eq_some_iff.mp hlow
        exact ⟨_, _, _, rfl, relativeChange_nonpos (hall high hhighMem) (hhighest _ hmem),
          relativeChange_nonneg (hall low hlowMem) (hlowest _ hmem)⟩

/-- On a stream of one instrument, the features have the right signs exactly if
the price does not break out of the prices before it. -/
theorem breakout_signs_iff (validator : StandardStrategyValidator) (config : StrategyConfig)
    (hlookback : 0 < c.lookbackPeriods)
    (hown : ∀ t ∈ before, t.instrumentToken = tick.instrumentToken)
    (hprices : ∀ t ∈ before ++ [tick], 0 < t.lastPrice)
    (hcan : (((Processor.mlBreakout c).executor validator config).feed before).canProcessTick tick) :
    (∃ features, MLBreakoutProcessor.extractFeatures c tick
        ((((Processor.mlBreakout c).executor validator config).feed before).processTick
          tick).2.history.items =
          .ok features ∧
        SignedAsNamed features tick.lastPrice (preceding c.lookbackPeriods.toNat before)) ↔
      (¬∀ p ∈ preceding c.lookbackPeriods.toNat before, p < tick.lastPrice) ∧
        ¬∀ p ∈ preceding c.lookbackPeriods.toNat before, tick.lastPrice < p := by
  rw [Processor.executor] at hcan ⊢
  have hitems :=
    StrategyExecutor.history_own (Processor.mlBreakout c).toProcessor validator config () hown hcan
  change _ = (before ++ [tick]).rtake c.lookbackPeriods.toNat at hitems
  rw [hitems]
  have hwindow : (lastSlice c.lookbackPeriods ((before ++ [tick]).rtake c.lookbackPeriods.toNat)).map
      (·.lastPrice) = preceding c.lookbackPeriods.toNat before ++ [tick.lastPrice] := by
    rw [lastSlice_rtake (by omega), prices_window (by omega)]
  have hpos : ∀ p ∈ preceding c.lookbackPeriods.toNat before, 0 < p := by
    intro p hp
    obtain ⟨t, ht, rfl⟩ := List.mem_map.mp hp
    exact hprices t (List.mem_append_left _ (List.mem_of_mem_drop ht))
  obtain ⟨up, down, rest, hfeatures, hup, hdown⟩ :=
    extractFeatures_signs (hprices tick (by simp)) hwindow hpos
  rw [hfeatures, ← signedAsNamed_iff hup hdown rest]
  constructor
  · rintro ⟨_, ⟨⟩, h⟩
    exact h
  · intro h
    exact ⟨_, rfl, h⟩

end

def briefBreakout (n : ℤ) : MLParameters where
  numerics := plainNumerics
  lookbackPeriods := n
  model := none

theorem inside_signs : ∃ features, MLBreakoutProcessor.extractFeatures (briefBreakout 3) (tickAt 1 11)
      ((((Processor.mlBreakout (briefBreakout 3)).executor {} oneConfig).feed
        [tickAt 1 10, tickAt 1 12]).processTick (tickAt 1 11)).2.history.items = .ok features ∧
    SignedAsNamed features 11 (preceding 3 [tickAt 1 10, tickAt 1 12]) := by
  have hcan : (((Processor.mlBreakout (briefBreakout 3)).executor {} oneConfig).feed
      [tickAt 1 10, tickAt 1 12]).canProcessTick (tickAt 1 11) := by decide +kernel
  exact (breakout_signs_iff {} oneConfig (by decide) (by decide) (by decide) hcan).mpr
    ⟨by decide +kernel, by decide +kernel⟩

/-- A price above the one before it has no upward breakout. -/
theorem rise_not_breakout : ¬∀ (c : MLParameters) (validator : StandardStrategyValidator)
    (config : StrategyConfig) (before : List MarketTick) (tick : MarketTick),
    c.numerics.numpy = true → 2 ≤ c.lookbackPeriods →
    (∀ t ∈ before, t.instrumentToken = tick.instrumentToken) →
    (∀ t ∈ before ++ [tick], 0 < t.lastPrice) →
    (((Processor.mlBreakout c).executor validator config).feed before).canProcessTick tick = true →
    c.lookbackPeriods ≤ (before ++ [tick]).length →
    ∃ features, MLBreakoutProcessor.extractFeatures c tick
        ((((Processor.mlBreakout c).executor validator config).feed before).processTick
          tick).2.history.items =
          .ok features ∧
      SignedAsNamed features tick.lastPrice (preceding c.lookbackPeriods.toNat before) := by
  intro h
  obtain ⟨features, hfeatures, hsigned⟩ := h (briefBreakout 2) {} oneConfig [tickAt 1 10] (tickAt 1 11)
    rfl (by decide) (by decide) (by decide) (by decide +kernel) (by decide)
  have hflat : MLBreakoutProcessor.extractFeatures (briefBreakout 2) (tickAt 1 11)
      ((((Processor.mlBreakout (briefBreakout 2)).executor {} oneConfig).feed
        [tickAt 1 10]).processTick (tickAt 1 11)).2.history.items =
      .ok [.ofRat 0, .ofRat (1 / 10), .ofRat (1 / 10), .ofRat 11] := by decide +kernel
  rw [hflat] at hfeatures
  cases hfeatures
  obtain ⟨up, hup, hpositive⟩ := hsigned.up.mpr (by decide +kernel)
  cases hup
  revert hpositive
  decide +kernel

end AlphaPanda.Strategies
