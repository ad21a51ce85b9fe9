import AlphaPanda.Strategies.Exact

/-!
# Scale invariance

The rule-based processors compare a price only with other prices. Multiplying
all prices by one positive factor leaves the RSI, the momentum and the place of
a price between the bands as they are, and changes nothing about a signal but
its price.
-/

namespace AlphaPanda.Strategies

-- ---------------------------------------------------------------------------
-- The indicators
-- ---------------------------------------------------------------------------

theorem changes_scale (q : ℚ) (prices : List ℚ) :
    changes (prices.map (q * ·)) = (changes prices).map (q * ·) := by
  unfold changes
  rw [← List.map_tail, List.zipWith_map, List.map_zipWith]
  congr 1
  funext before now
  ring

theorem gainSum_scale (hq : 0 < q) (cs : List ℚ) : gainSum (cs.map (q * ·)) = q * gainSum cs := by
  induction cs with
  | nil => exact (mul_zero q).symm
  | cons c cs ih =>
    have hgain : gain (q * c) = q * gain c := by
      simp only [gain, mul_pos_iff_of_pos_left hq, mul_ite, mul_zero]
    rw [List.map_cons, gainSum_cons, gainSum_cons, ih, hgain, mul_add]

theorem lossSum_scale (hq : 0 < q) (cs : List ℚ) : lossSum (cs.map (q * ·)) = q * lossSum cs := by
  have hneg : (cs.map (q * ·)).map Neg.neg = (cs.map Neg.neg).map (q * ·) := by
    simp [Function.comp_def]
  rw [← gainSum_neg, ← gainSum_neg, hneg, gainSum_scale hq]

theorem rsiOf_scale (hq : 0 < q) (cs : List ℚ) : rsiOf (cs.map (q * ·)) = rsiOf cs := by
  unfold rsiOf
  rw [gainSum_scale hq, lossSum_scale hq, mul_div_mul_left _ _ hq.ne']
  simp only [mul_eq_zero, hq.ne', false_or]

theorem mean_scale (q : ℚ) (xs : List ℚ) : mean (xs.map (q * ·)) = (mean xs).map (q * ·) := by
  unfold mean
  by_cases hxs : xs = []
  · rw [hxs]
    rfl
  · rw [if_neg hxs, if_neg (by simpa using hxs), Option.map_some, List.length_map,
      List.sum_map_mul_left, List.map_id', mul_div_assoc]

theorem exactStdev_scale (hq : 0 ≤ q) (xs : List ℚ) :
    exactStdev (xs.map (q * ·)) = q * exactStdev xs := by
  have hvariance : (((xs.map (q * ·)).map fun x =>
      (x - (xs.map (q * ·)).sum / (xs.map (q * ·)).length) ^ 2).sum / ((xs.map (q * ·)).length - 1)) =
      q ^ 2 * ((xs.map fun x => (x - xs.sum / xs.length) ^ 2).sum / (xs.length - 1)) := by
    rw [List.length_map, List.sum_map_mul_left, List.map_id', List.map_map, ← mul_div_assoc,
      ← List.sum_map_mul_left]
    congr 3
    funext x
    simp only [Function.comp_apply, mul_div_assoc]
    ring
  have hq' : (0 : ℝ) ≤ q := by exact_mod_cast hq
  rw [exactStdev, hvariance, Rat.cast_mul, Rat.cast_pow, Real.sqrt_mul (sq_nonneg _),
    Real.sqrt_sq hq', exactStdev]

theorem exactDivide_scale {q : ℝ} (hq : q ≠ 0) (a b : ℝ) :
    exactDivide (q * a) (q * b) = exactDivide a b := by
  unfold exactDivide
  rw [mul_div_mul_left _ _ hq]
  simp only [mul_eq_zero, hq, false_or]

def MarketTick.scale (q : ℚ) (t : MarketTick) : MarketTick := { t with lastPrice := q * t.lastPrice }

@[simp] theorem MarketTick.scale_one (t : MarketTick) : t.scale 1 = t := by
  simp [MarketTick.scale]

def SignalResult.atPrice (p : ℚ) (s : SignalResult K) : SignalResult K := { s with price := .ofRat p }

def repriced (p : ℚ) (r : Except Exc (Option (SignalResult K))) : Except Exc (Option (SignalResult K)) :=
  r.map (Option.map (·.atPrice p))

theorem prices_scale (q : ℚ) (ticks : List MarketTick) :
    (ticks.map (·.scale q)).map (·.lastPrice) = (ticks.map (·.lastPrice)).map (q * ·) := by
  simp [MarketTick.scale, Function.comp_def]

theorem calculateRsi_scale (hq : 0 < q) (period : ℕ) (priceData : List MarketTick) :
    calculateRsi period (priceData.map (·.scale q)) = calculateRsi period priceData := by
  by_cases hlength : 2 ≤ priceData.length
  · rw [calculateRsi_eq period priceData hlength,
      calculateRsi_eq period _ (by rwa [List.length_map]), List.length_map, prices_scale,
      changes_scale, lastItems_map, rsiOf_scale hq]
  · rw [calculateRsi, calculateRsi, List.length_map, if_pos (by omega), if_pos (by omega)]

theorem rsiAt_scale (hq : 0 < q) (r : RulesProcessor) (tick : MarketTick) (history : List MarketTick) :
    r.rsiAt (tick.scale q) (history.map (·.scale q)) = r.rsiAt tick history := by
  unfold RulesProcessor.rsiAt
  split
  · rfl
  · rename_i period _
    have hdata : (lastItems (period + 1) history).map (·.scale q) ++ [tick.scale q] =
        (lastItems (period + 1) history ++ [tick]).map (·.scale q) := by simp
    rw [List.length_map, lastItems_map, hdata, calculateRsi_scale hq]

-- ---------------------------------------------------------------------------
-- The processors
-- ---------------------------------------------------------------------------

theorem itemFromEnd_map (f : α → β) (n : ℕ) (xs : List α) :
    itemFromEnd n (xs.map f) = (itemFromEnd n xs).map f := by
  unfold itemFromEnd
  split
  · exact List.head?_map
  · rw [List.length_map, List.getElem?_map]
    split <;> rfl

theorem momentum_scale (hq : 0 < q) (p : RulesMomentumProcessor) (tick : MarketTick)
    (history : List MarketTick) : p.processTick (tick.scale q) (history.map (·.scale q)) =
      repriced (q * tick.lastPrice) (p.processTick tick history) := by
  unfold RulesMomentumProcessor.processTick
  rw [List.length_map, itemFromEnd_map]
  split
  · rfl
  cases itemFromEnd p.lookback history with
  | none => rfl
  | some start =>
    have hmomentum : (q * tick.lastPrice - q * start.lastPrice) / (q * start.lastPrice) =
        (tick.lastPrice - start.lastPrice) / start.lastPrice := by
      rw [← mul_sub, mul_div_mul_left _ _ hq.ne']
    simp only [Option.map_some, MarketTick.scale, mul_eq_zero, hq.ne', false_or, hmomentum]
    split
    · rfl
    split
    · rfl
    split <;> rfl

theorem map_repriced (x : Except Exc β) {f g : β → SignalResult K} (h : ∀ b, g b = (f b).atPrice p) :
    x.map (fun b => some (g b)) = repriced p (x.map fun b => some (f b)) := by
  cases x with
  | error e => rfl
  | ok b => exact congrArg (fun s => Except.ok (some s)) (h b)

theorem rsi_scale (hq : 0 < q) (p : RulesRSIProcessor) (tick : MarketTick) (history : List MarketTick) :
    p.processTick (tick.scale q) (history.map (·.scale q)) =
      repriced (q * tick.lastPrice) (p.processTick tick history) := by
  rw [p.processTick_eq, p.processTick_eq, rsiAt_scale hq]
  cases (RulesProcessor.rsi p).rsiAt tick history with
  | error e => rfl
  | ok rsi =>
    cases rsi with
    | none => rfl
    | some rsi =>
      change p.signalFor (tick.scale q) rsi = repriced (q * tick.lastPrice) (p.signalFor tick rsi)
      unfold RulesRSIProcessor.signalFor
      split
      · exact map_repriced _ fun _ => rfl
      split
      · exact map_repriced _ fun _ => rfl
      · rfl

theorem exactSignalFor_scale (hq : 0 < q) (p : RulesMeanReversionProcessor) (tick : MarketTick)
    (prices : List ℚ) (rsi sma : ℚ) :
    p.exactSignalFor (tick.scale q) (prices.map (q * ·)) rsi (q * sma) =
      repriced (q * tick.lastPrice) (p.exactSignalFor tick prices rsi sma) := by
  have hq' : (0 : ℝ) < q := by exact_mod_cast hq
  have hdev : (if 1 < (prices.map (q * ·)).length then exactStdev (prices.map (q * ·)) else 0) =
      q * (if 1 < prices.length then exactStdev prices else 0) := by
    rw [List.length_map, exactStdev_scale hq.le, mul_ite, mul_zero]
  unfold RulesMeanReversionProcessor.exactSignalFor
  rw [hdev]
  generalize (if 1 < prices.length then exactStdev prices else 0) = dev
  have hlower : ((q * sma : ℚ) : ℝ) - p.bbStd * (q * dev) = q * (sma - p.bbStd * dev) := by
    push_cast
    ring
  have hupper : ((q * sma : ℚ) : ℝ) + p.bbStd * (q * dev) = q * (sma + p.bbStd * dev) := by
    push_cast
    ring
  have hprice : (((tick.scale q).lastPrice : ℚ) : ℝ) = q * tick.lastPrice := Rat.cast_mul _ _
  dsimp only
  rw [hlower, hupper, hprice, ← mul_sub, ← mul_sub, exactDivide_scale hq'.ne', exactDivide_scale hq'.ne']
  simp only [mul_lt_mul_iff_right₀ hq']
  split
  · exact map_repriced _ fun _ => rfl
  split
  · exact map_repriced _ fun _ => rfl
  · rfl

theorem exactTick_scale (hq : 0 < q) (r : RulesProcessor) (tick : MarketTick) (history : List MarketTick) :
    r.exactTick (tick.scale q) (history.map (·.scale q)) =
      repriced (q * tick.lastPrice) (r.exactTick tick history) := by
  have hexact : ∀ x, exactResult (repriced (q * tick.lastPrice) x) =
      repriced (q * tick.lastPrice) (exactResult x) := by
    rintro (e | _ | s) <;> rfl
  cases r with
  | momentum p => exact (congrArg exactResult (momentum_scale hq p tick history)).trans (hexact _)
  | rsi p => exact (congrArg exactResult (rsi_scale hq p tick history)).trans (hexact _)
  | meanReversion p =>
    have hprices : p.prices (history.map (·.scale q)) = (p.prices history).map (q * ·) := by
      rw [RulesMeanReversionProcessor.prices, lastItems_map, prices_scale]
      rfl
    change p.exactTick _ _ = repriced _ (p.exactTick _ _)
    unfold RulesMeanReversionProcessor.exactTick
    rw [rsiAt_scale hq, hprices, mean_scale]
    cases (RulesProcessor.meanReversion p).rsiAt tick history with
    | error e => rfl
    | ok rsi =>
      cases rsi with
      | none => rfl
      | some rsi =>
        cases hmean : mean (p.prices history) with
        | none => rfl
        | some sma => exact exactSignalFor_scale hq p tick _ rsi sma

theorem exactTick_price (r : RulesProcessor) (tick : MarketTick) (history : List MarketTick) :
    repriced tick.lastPrice (r.exactTick tick history) = r.exactTick tick history := by
  have h := exactTick_scale one_pos r tick history
  simp only [MarketTick.scale_one, List.map_id', one_mul] at h
  exact h.symm

-- ---------------------------------------------------------------------------
-- Runs
-- ---------------------------------------------------------------------------

def Scaled (c : ℝ) (tick tick' : MarketTick) : Prop :=
  tick'.instrumentToken = tick.instrumentToken ∧ tick'.timestamp = tick.timestamp ∧
    (tick'.lastPrice : ℝ) = c * tick.lastPrice

def ScaledSignal (c : ℝ) (s s' : SignalResult ℝ) : Prop :=
  s'.signalType = s.signalType ∧ s'.quantity = s.quantity ∧ s'.confidence = s.confidence ∧
    s'.metadata = s.metadata ∧
      ∃ p p' : ℚ, s.price = .ofRat p ∧ s'.price = .ofRat p' ∧ (p' : ℝ) = c * p

inductive ScaledResult (c : ℝ) :
    Except Exc (Option (SignalResult ℝ)) → Except Exc (Option (SignalResult ℝ)) → Prop
  | error (e : Exc) : ScaledResult c (.error e) (.error e)
  | none : ScaledResult c (.ok none) (.ok none)
  | some (h : ScaledSignal c s s') : ScaledResult c (.ok (some s)) (.ok (some s'))

theorem Scaled.eq_scale {q : ℚ} (h : Scaled q tick tick') : tick' = tick.scale q := by
  obtain ⟨htoken, htime, hprice⟩ := h
  have hprice : tick'.lastPrice = q * tick.lastPrice := by exact_mod_cast hprice
  cases tick'
  simp_all [MarketTick.scale]

theorem Scaled.map_eq {q : ℚ} (h : List.Forall₂ (Scaled q) ticks ticks') :
    ticks' = ticks.map (·.scale q) := by
  induction h with
  | nil => rfl
  | cons htick _ ih => rw [List.map_cons, ih, htick.eq_scale]

/-- A factor between two streams of rational prices is rational, unless all
prices are zero. -/
theorem exists_factor (hc : 0 < c) (h : List.Forall₂ (Scaled c) ticks ticks') :
    ∃ q : ℚ, 0 < q ∧ List.Forall₂ (Scaled q) ticks ticks' := by
  by_cases hzero : ∀ t ∈ ticks, t.lastPrice = 0
  · refine ⟨1, one_pos, ?_⟩
    induction h with
    | nil => exact .nil
    | cons htick _ ih =>
      obtain ⟨htoken, htime, hprice⟩ := htick
      refine .cons ⟨htoken, htime, ?_⟩ (ih fun t ht => hzero t (.tail _ ht))
      rw [hprice, hzero _ (.head _)]
      simp
  · push Not at hzero
    obtain ⟨t, ht, hne⟩ := hzero
    obtain ⟨q, hq⟩ : ∃ q : ℚ, (q : ℝ) = c := by
      induction h with
      | nil => cases ht
      | @cons a b _ _ htick _ ih =>
        rcases List.mem_cons.mp ht with rfl | ht
        · refine ⟨b.lastPrice / t.lastPrice, ?_⟩
          rw [Rat.cast_div, htick.2.2, mul_div_cancel_right₀]
          exact_mod_cast hne
        · exact ih ht
    subst hq
    exact ⟨q, by exact_mod_cast hc, h⟩

section
variable (r : RulesProcessor) (validator : StandardStrategyValidator) (config : StrategyConfig)

theorem validated_scale (hq : 0 < q) (tick : MarketTick) (signal : Option (SignalResult ℝ)) :
    (r.exactExecutor validator config).validated (tick.scale q)
        (signal.map (·.atPrice (q * tick.lastPrice))) =
      repriced (q * tick.lastPrice)
        ((r.exactExecutor validator config).validated tick (signal.map (·.atPrice tick.lastPrice))) := by
  cases signal with
  | none => rfl
  | some s =>
    have hprice : q * tick.lastPrice ≤ 0 ↔ tick.lastPrice ≤ 0 := by
      rw [← not_lt, ← not_lt, mul_pos_iff_of_pos_left hq]
    have hle : ∀ x : ℚ, (ExtRat.fin x).le (.fin 0) = decide (x ≤ 0) := fun _ => rfl
    simp only [Option.map_some, StrategyExecutor.validated, StandardStrategyValidator.validateSignal,
      SignalResult.atPrice, MarketTick.scale, hprice, Decimal.ofRat, hle]
    split
    · rfl
    split
    · rfl
    split
    · rfl
    split
    · rfl
    · rename_i hpos
      simp [hpos, repriced, SignalResult.atPrice, Decimal.ofRat, Except.map]

theorem processTick_scale (hq : 0 < q) (ticks : List MarketTick) (tick : MarketTick) :
    (((r.exactExecutor validator config).feed (ticks.map (·.scale q))).processTick (tick.scale q)).1 =
      repriced (q * tick.lastPrice) (((r.exactExecutor validator config).feed ticks).processTick tick).1 := by
  have hticks : ticks.map (·.scale q) ++ [tick.scale q] = (ticks ++ [tick]).map (·.scale q) := by simp
  have haccepted : StrategyExecutor.accepted r.toExact validator config ()
      ((ticks ++ [tick]).map (·.scale q)) =
        (StrategyExecutor.accepted r.toExact validator config () (ticks ++ [tick])).map (·.scale q) :=
    List.filter_map
  rw [RulesProcessor.exactExecutor, StrategyExecutor.processTick_accepted,
    StrategyExecutor.processTick_accepted, hticks, haccepted]
  generalize StrategyExecutor.accepted r.toExact validator config () (ticks ++ [tick]) = accepted
  have hwindow : (accepted.map (·.scale q)).rtake r.toExact.requiredHistoryLength =
      (accepted.rtake r.toExact.requiredHistoryLength).map (·.scale q) := by
    simp [List.rtake]
  rw [hwindow]
  change (if (StrategyExecutor.init r.toExact validator config ()).canProcessTick tick then
    r.exactTick _ _ >>= _ else _) = repriced _ (if _ then r.exactTick _ _ >>= _ else _)
  rw [exactTick_scale hq]
  split
  · have hprice := exactTick_price r tick (accepted.rtake r.toExact.requiredHistoryLength)
    cases hsignal : r.exactTick tick (accepted.rtake r.toExact.requiredHistoryLength) with
    | error e => rfl
    | ok signal =>
      rw [hsignal] at hprice
      have hsame : signal.map (·.atPrice tick.lastPrice) = signal := Except.ok.inj hprice
      have hvalid := validated_scale r validator config hq tick signal
      rw [hsame] at hvalid
      exact hvalid
  · rfl

theorem processTick_price (ticks : List MarketTick) (tick : MarketTick) :
    repriced tick.lastPrice (((r.exactExecutor validator config).feed ticks).processTick tick).1 =
      (((r.exactExecutor validator config).feed ticks).processTick tick).1 := by
  have h := processTick_scale r validator config one_pos ticks tick
  simp only [MarketTick.scale_one, List.map_id', one_mul] at h
  exact h.symm

theorem scaledResult_repriced (hprice : repriced p x = x) (hc : ((q * p : ℚ) : ℝ) = c * p) :
    ScaledResult c x (repriced (q * p) x) := by
  rcases x with e | _ | s
  · exact .error e
  · exact .none
  · have hsignal : s.atPrice p = s := Option.some.inj (Except.ok.inj hprice)
    have hp : s.price = .ofRat p := congrArg SignalResult.price hsignal.symm
    exact .some ⟨rfl, rfl, rfl, rfl, p, q * p, hp, rfl, hc⟩

variable {r validator config}

/-- On ticks at prices multiplied by a positive factor, an executor gives the
same signals at the same ticks, with their prices multiplied by it. -/
theorem results_scaled (hc : 0 < c) (h : List.Forall₂ (Scaled c) ticks ticks') :
    List.Forall₂ (fun a b => Scaled c a.1 b.1 ∧ ScaledResult c a.2 b.2)
      ((r.exactExecutor validator config).results ticks)
      ((r.exactExecutor validator config).results ticks') := by
  refine StrategyExecutor.results_related h ?_
  intro before before' tick tick' hbefore htick
  refine ⟨htick, ?_⟩
  obtain ⟨q, hq, hscaled⟩ := exists_factor hc (.cons htick hbefore)
  obtain ⟨hnow, hearlier⟩ := List.forall₂_cons.mp hscaled
  have htick' := hnow.eq_scale
  rw [Scaled.map_eq hearlier, htick', processTick_scale r validator config hq]
  refine scaledResult_repriced (processTick_price r validator config before tick) ?_
  have hprice := htick.2.2
  rw [htick'] at hprice
  exact hprice

end

theorem doubled_results :
    List.Forall₂ (fun a b => Scaled 2 a.1 b.1 ∧ ScaledResult 2 a.2 b.2)
      (((RulesProcessor.rsi { rsiPeriod := 1 }).exactExecutor {} oneConfig).results
        [tickAt 1 10, tickAt 1 11])
      (((RulesProcessor.rsi { rsiPeriod := 1 }).exactExecutor {} oneConfig).results
        [tickAt 1 20, tickAt 1 22]) := by
  refine results_scaled two_pos (.cons ⟨rfl, rfl, ?_⟩ (.cons ⟨rfl, rfl, ?_⟩ .nil))
  · norm_num [tickAt]
  · norm_num [tickAt]

end AlphaPanda.Strategies
