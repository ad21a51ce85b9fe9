import AlphaPanda.Strategies.Features

/-!
# Exact features

What `MLMomentumProcessor` and `MLMeanReversionProcessor` compute for their
models, in exact real arithmetic. Any division by zero raises, also where numpy
would go on with an infinity.
-/

namespace AlphaPanda.Strategies

noncomputable def exactPrices (lookbackPeriods : ℤ) (history : List MarketTick) : List ℝ :=
  (lastSlice lookbackPeriods history).map fun t => (t.lastPrice : ℝ)

def exactFirst (message : String) (xs : List ℝ) : Except Exc ℝ :=
  match xs.head? with
  | some x => .ok x
  | none => .error (indexError message)

noncomputable def exactChange (before now : ℝ) : Except Exc ℝ := exactDivide (now - before) before

/-- It is zero where it would divide by zero. -/
noncomputable def guardedChange (before now : ℝ) : Except Exc ℝ :=
  if before ≠ 0 then exactChange before now else .ok 0

noncomputable def exactReturns (prices : List ℝ) : Except Exc (List ℝ) :=
  (prices.zip prices.tail).mapM fun x => exactChange x.1 x.2

noncomputable def guardedReturns (prices : List ℝ) : Except Exc (List ℝ) :=
  ((prices.zip prices.tail).filter (·.1 ≠ 0)).mapM fun x => exactChange x.1 x.2

noncomputable def exactMean (xs : List ℝ) : Except Exc ℝ := exactDivide xs.sum xs.length

/-- `(sum(x * x for x in xs) / len(xs)) ** 0.5 if xs else 0` -/
noncomputable def rootMeanSquare (xs : List ℝ) : Except Exc ℝ :=
  if xs = [] then .ok 0 else (exactMean (xs.map fun x => x * x)).map Real.sqrt

noncomputable def exactStd (ddof : ℕ) (xs : List ℝ) : Except Exc ℝ := do
  let mean ← exactMean xs
  let variance ← exactDivide (xs.map fun x => (x - mean) ^ 2).sum ((xs.length - ddof : ℕ) : ℝ)
  pure √variance

noncomputable def exactVolatility (xs : List ℝ) : Except Exc ℝ :=
  if xs = [] then .ok 0 else exactStd 0 xs

namespace MLMomentumProcessor

noncomputable def exactFeatures (numpy : Bool) (lookbackPeriods : ℤ) (tick : MarketTick)
    (history : List MarketTick) : Except Exc (List ℝ) :=
  let prices := exactPrices lookbackPeriods history
  let currentPrice : ℝ := tick.lastPrice
  if (history.length : ℤ) < lookbackPeriods then
    .ok (if numpy then List.replicate 5 0 else [0, 0, 0, currentPrice, history.length])
  else if numpy then do
    let returns ← exactReturns prices
    let first ← exactFirst "index 0 is out of bounds for axis 0 with size 0" prices
    let totalReturn ← exactChange first currentPrice
    let momentum5 ← (itemFromEnd 5 prices).elim (.ok 0) (exactChange · currentPrice)
    let volatility ← exactVolatility returns
    pure [totalReturn, momentum5, volatility, currentPrice, history.length]
  else do
    let first ← exactFirst "list index out of range" prices
    let totalReturn ← guardedChange first currentPrice
    let momentum5 ← (itemFromEnd 5 prices).elim (.ok 0) (guardedChange · currentPrice)
    let returns ← guardedReturns prices
    let volatility ← rootMeanSquare returns
    pure [totalReturn, momentum5, volatility, currentPrice, history.length]

end MLMomentumProcessor

namespace MLMeanReversionProcessor

noncomputable def zScore (currentPrice mean std : ℝ) : Except Exc ℝ :=
  if 0 < std then exactDivide (currentPrice - mean) std else .ok 0

noncomputable def exactFeatures (numpy : Bool) (lookbackPeriods : ℤ) (tick : MarketTick)
    (history : List MarketTick) : Except Exc (List ℝ) :=
  let prices := exactPrices lookbackPeriods history
  let currentPrice : ℝ := tick.lastPrice
  if history = [] then .ok [0, currentPrice, 0, 0]
  else if prices.length < 2 then .ok [0, currentPrice, 0, history.length]
  else if numpy then do
    let mean ← exactMean prices
    let std ← exactStd 1 prices
    let z ← zScore currentPrice mean std
    let returns ← exactReturns prices
    let vol ← exactVolatility returns
    pure [z, currentPrice, vol, history.length]
  else do
    let mean ← exactMean prices
    let variance ← exactDivide (prices.map fun p => (p - mean) ^ 2).sum
      ((max (prices.length - 1) 1 : ℕ) : ℝ)
    let z ← zScore currentPrice mean √variance
    let returns ← guardedReturns prices
    let vol ← rootMeanSquare returns
    pure [z, currentPrice, vol, history.length]

end MLMeanReversionProcessor

-- ---------------------------------------------------------------------------
-- Divisors
-- ---------------------------------------------------------------------------

def DividesByZero (x : Except Exc α) : Prop := ∃ e, x = .error e ∧ e.name = "ZeroDivisionError"

theorem not_divides_ok (a : α) : ¬DividesByZero (.ok a) := by
  rintro ⟨e, he, -⟩
  cases he

theorem not_divides_bind {x : Except Exc α} {f : α → Except Exc β} (hx : ¬DividesByZero x)
    (hf : ∀ a, x = .ok a → ¬DividesByZero (f a)) : ¬DividesByZero (x >>= f) := by
  cases x with
  | ok a => exact hf a rfl
  | error e =>
    rintro ⟨e', he, hname⟩
    cases he
    exact hx ⟨e, rfl, hname⟩

theorem not_divides_map {x : Except Exc α} (hx : ¬DividesByZero x) (f : α → β) :
    ¬DividesByZero (x.map f) := by
  cases x with
  | ok a => exact not_divides_ok _
  | error e =>
    rintro ⟨e', he, hname⟩
    cases he
    exact hx ⟨e, rfl, hname⟩

theorem not_divides_exactDivide {b : ℝ} (hb : b ≠ 0) (a : ℝ) : ¬DividesByZero (exactDivide a b) := by
  rw [exactDivide, if_neg hb]
  exact not_divides_ok _

theorem not_divides_mapM {f : α → Except Exc β} {xs : List α} (h : ∀ x ∈ xs, ¬DividesByZero (f x)) :
    ¬DividesByZero (xs.mapM f) := by
  induction xs with
  | nil => exact not_divides_ok _
  | cons x xs ih =>
    rw [List.mapM_cons]
    refine not_divides_bind (h x List.mem_cons_self) fun _ _ => ?_
    exact not_divides_bind (ih fun y hy => h y (List.mem_cons_of_mem _ hy)) fun _ _ => not_divides_ok _

theorem not_divides_first (message : String) (xs : List ℝ) : ¬DividesByZero (exactFirst message xs) := by
  unfold exactFirst
  split
  · exact not_divides_ok _
  · rintro ⟨e, he, hname⟩
    cases he
    simp [indexError] at hname

theorem not_divides_guardedChange (before now : ℝ) : ¬DividesByZero (guardedChange before now) := by
  unfold guardedChange
  split
  · rename_i h
    exact not_divides_exactDivide h _
  · exact not_divides_ok _

theorem not_divides_guardedReturns (prices : List ℝ) : ¬DividesByZero (guardedReturns prices) := by
  refine not_divides_mapM fun x hx => not_divides_exactDivide ?_ _
  simpa using (List.mem_filter.mp hx).2

theorem not_divides_exactReturns {prices : List ℝ} (h : ∀ p ∈ prices, 0 < p) :
    ¬DividesByZero (exactReturns prices) :=
  not_divides_mapM fun x hx => not_divides_exactDivide (h x.1 (List.of_mem_zip hx).1).ne' _

theorem not_divides_mean {xs : List ℝ} (h : xs ≠ []) : ¬DividesByZero (exactMean xs) :=
  not_divides_exactDivide (by simpa using h) _

theorem not_divides_rootMeanSquare (xs : List ℝ) : ¬DividesByZero (rootMeanSquare xs) := by
  unfold rootMeanSquare
  split
  · exact not_divides_ok _
  · rename_i h
    exact not_divides_map (not_divides_mean (by simpa using h)) _

theorem not_divides_std {xs : List ℝ} (h : ddof < xs.length) : ¬DividesByZero (exactStd ddof xs) := by
  have hne : xs ≠ [] := by
    rintro rfl
    exact absurd h (Nat.not_lt_zero _)
  refine not_divides_bind (not_divides_mean hne) fun _ _ => not_divides_bind
    (not_divides_exactDivide ?_ _) fun _ _ => not_divides_ok _
  exact_mod_cast (Nat.sub_pos_of_lt h).ne'

theorem not_divides_volatility (xs : List ℝ) : ¬DividesByZero (exactVolatility xs) := by
  unfold exactVolatility
  split
  · exact not_divides_ok _
  · rename_i h
    exact not_divides_std (List.length_pos_of_ne_nil h)

theorem not_divides_zScore (currentPrice mean std : ℝ) :
    ¬DividesByZero (MLMeanReversionProcessor.zScore currentPrice mean std) := by
  unfold MLMeanReversionProcessor.zScore
  split
  · rename_i h
    exact not_divides_exactDivide h.ne' _
  · exact not_divides_ok _

-- ---------------------------------------------------------------------------
-- Features of positive prices
-- ---------------------------------------------------------------------------

theorem exactPrices_pos {history : List MarketTick} (h : ∀ t ∈ history, 0 < t.lastPrice)
    (lookbackPeriods : ℤ) : ∀ p ∈ exactPrices lookbackPeriods history, 0 < p := by
  intro p hp
  obtain ⟨t, ht, rfl⟩ := List.mem_map.mp hp
  have hmem : t ∈ history := by
    unfold lastSlice lastItems at ht
    split at ht
    · exact List.mem_of_mem_drop ht
    split at ht
    · exact ht
    · exact List.mem_of_mem_drop ht
  exact_mod_cast h t hmem

theorem exactFirst_mem {xs : List ℝ} (h : exactFirst message xs = .ok x) : x ∈ xs := by
  unfold exactFirst at h
  split at h
  · rename_i hhead
    cases h
    exact List.mem_of_mem_head? hhead
  · cases h

theorem itemFromEnd_mem {xs : List α} (h : itemFromEnd n xs = some x) : x ∈ xs := by
  unfold itemFromEnd at h
  split at h
  · exact List.mem_of_mem_head? h
  split at h
  · exact List.mem_of_getElem? h
  · cases h

theorem not_divides_fromEnd {xs : List ℝ} {f : ℝ → Except Exc ℝ}
    (h : ∀ x ∈ xs, ¬DividesByZero (f x)) : ¬DividesByZero ((itemFromEnd n xs).elim (.ok 0) f) := by
  cases hitem : itemFromEnd n xs with
  | none => exact not_divides_ok _
  | some x => exact h x (itemFromEnd_mem hitem)

/-- On positive prices neither divides by zero, with numpy and without. -/
theorem MLMomentumProcessor.exactFeatures_divides {history : List MarketTick}
    (h : ∀ t ∈ history, 0 < t.lastPrice) (numpy : Bool) (lookbackPeriods : ℤ) (tick : MarketTick) :
    ¬DividesByZero (exactFeatures numpy lookbackPeriods tick history) := by
  have hprices := exactPrices_pos h lookbackPeriods
  have hchange : ∀ p ∈ exactPrices lookbackPeriods history, ∀ now, ¬DividesByZero (exactChange p now) :=
    fun p hp now => not_divides_exactDivide (hprices p hp).ne' _
  unfold exactFeatures
  dsimp only
  split
  · exact not_divides_ok _
  split
  · refine not_divides_bind (not_divides_exactReturns hprices) fun returns _ => ?_
    refine not_divides_bind (not_divides_first _ _) fun first hfirst => ?_
    refine not_divides_bind (hchange first (exactFirst_mem hfirst) _) fun _ _ => ?_
    refine not_divides_bind (not_divides_fromEnd fun p hp => hchange p hp _) fun _ _ => ?_
    exact not_divides_bind (not_divides_volatility returns) fun _ _ => not_divides_ok _
  · refine not_divides_bind (not_divides_first _ _) fun first _ => ?_
    refine not_divides_bind (not_divides_guardedChange _ _) fun _ _ => ?_
    refine not_divides_bind (not_divides_fromEnd fun _ _ => not_divides_guardedChange _ _) fun _ _ => ?_
    refine not_divides_bind (not_divides_guardedReturns _) fun _ _ => ?_
    exact not_divides_bind (not_divides_rootMeanSquare _) fun _ _ => not_divides_ok _

theorem MLMeanReversionProcessor.exactFeatures_divides {history : List MarketTick}
    (h : ∀ t ∈ history, 0 < t.lastPrice) (numpy : Bool) (lookbackPeriods : ℤ) (tick : MarketTick) :
    ¬DividesByZero (exactFeatures numpy lookbackPeriods tick history) := by
  have hprices := exactPrices_pos h lookbackPeriods
  unfold exactFeatures
  dsimp only
  split
  · exact not_divides_ok _
  split
  · exact not_divides_ok _
  rename_i hlength
  have hlength := not_lt.mp hlength
  have hmean : ¬DividesByZero (exactMean (exactPrices lookbackPeriods history)) := by
    refine not_divides_mean fun hnone => ?_
    rw [hnone] at hlength
    exact absurd hlength (by decide)
  split
  · refine not_divides_bind hmean fun _ _ => ?_
    refine not_divides_bind (not_divides_std hlength) fun _ _ => ?_
    refine not_divides_bind (not_divides_zScore _ _ _) fun _ _ => ?_
    refine not_divides_bind (not_divides_exactReturns hprices) fun returns _ => ?_
    exact not_divides_bind (not_divides_volatility returns) fun _ _ => not_divides_ok _
  · have hcount : ((max ((exactPrices lookbackPeriods history).length - 1) 1 : ℕ) : ℝ) ≠ 0 := by
      exact_mod_cast (Nat.lt_of_lt_of_le Nat.one_pos (le_max_right _ _)).ne'
    refine not_divides_bind hmean fun _ _ => ?_
    refine not_divides_bind (not_divides_exactDivide hcount _) fun _ _ => ?_
    refine not_divides_bind (not_divides_zScore _ _ _) fun _ _ => ?_
    refine not_divides_bind (not_divides_guardedReturns _) fun _ _ => ?_
    exact not_divides_bind (not_divides_rootMeanSquare _) fun _ _ => not_divides_ok _

end AlphaPanda.Strategies
