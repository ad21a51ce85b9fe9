import AlphaPanda.Paper.Handlers
import Mathlib.Tactic.Linarith
import Mathlib.Tactic.Positivity
import Mathlib.Tactic.Ring

/-!
# What routing, sizing and splitting leave

One lemma for each decision of the signal handler, stating what the rest of
the handler may rely on.
-/

namespace AlphaPanda.Paper

-- ---------------------------------------------------------------------------
-- Routing
-- ---------------------------------------------------------------------------

theorem guardrails_none (h : guardrails c s price = none) : 1 ≤ s.quantity := by
  unfold guardrails at h
  split at h <;> try contradiction
  split at h <;> try contradiction
  split at h <;> try contradiction
  split at h <;> try contradiction
  rename_i hq
  exact le_of_max_le_left (not_lt.mp hq)

/-- What holds of an order that `route` lets through. -/
structure Order.Routed (c : PaperTradingSettings) (v : ValidatedSignal) (o : Order) : Prop where
  validated : o.validated = v
  tif : o.tif = timeInForce v.originalSignal.md
  price : o.fillPrice = slipped c v.originalSignal.signalType (basePrice v)
  quantity : o.quantity = v.validatedQuantity ∨ o.quantity = 0

/-- The fraction is never taken: what is fillable is all or nothing. -/
theorem fillQuantity_eq : fillQuantity rng tif ty (fillableQuantity ty crossing n) n =
    fillableQuantity ty crossing n := by
  unfold fillQuantity fillableQuantity
  grind

theorem routePlain_fillable (h : routePlain c rng v ty crossing = .fillable o) :
    o.Routed c v := by
  simp only [routePlain, fillQuantity_eq] at h
  split at h
  · cases h
  split at h
  · cases h
  cases h
  refine ⟨rfl, rfl, rfl, ?_⟩
  simp only [fillableQuantity]
  split
  · exact .inr rfl
  · exact .inl rfl

theorem routeStop_fillable (h : routeStop c v ty = .ok (.fillable o)) : o.Routed c v := by
  simp only [routeStop] at h
  split at h
  · cases h
  · cases h
  split at h
  · split at h <;> cases h
  · split at h
    · cases h; exact ⟨rfl, rfl, rfl, .inl rfl⟩
    · obtain ⟨crossing, -, h⟩ := map_ok.mp h
      cases crossing
      · cases h
      · cases h; exact ⟨rfl, rfl, rfl, .inl rfl⟩

theorem route_fillable (h : route c rng v = .ok (.fillable o)) :
    o.Routed c v ∧ 1 ≤ v.originalSignal.quantity := by
  simp only [route] at h
  split at h
  · cases h
  rename_i hguard
  refine ⟨?_, guardrails_none hguard⟩
  split at h
  · exact routeStop_fillable h
  · split at h
    · obtain ⟨crossing, -, h⟩ := map_ok.mp h
      exact routePlain_fillable h
    · exact routePlain_fillable (Except.ok.inj h)

-- ---------------------------------------------------------------------------
-- Sizing
-- ---------------------------------------------------------------------------

theorem capQuantity_ok (h : capQuantity tif qty limit fok other = .ok q) :
    q ≤ limit ∧ q ≤ qty ∧ (0 ≤ qty → 0 ≤ q) := by
  unfold capQuantity at h
  split at h
  · cases h
  · split at h
    · split at h
      · cases h; omega
      · cases h
    · cases h; omega

theorem capCash_ok (h : capCash c cash o qty = .ok q) :
    q ≤ qty ∧ (0 ≤ qty → 0 ≤ q) ∧
      (o.signal.signalType = .buy → 0 < unitCost c o → 0 ≤ cash → q * unitCost c o ≤ cash) := by
  unfold capCash at h
  split at h
  · split at h
    · cases h
    rename_i maxAffordable hmax
    obtain ⟨hlimit, hle, hpos⟩ := capQuantity_ok h
    exact ⟨hle, hpos, fun _ hcost hcash => Decimal.floorDiv_mul_le hcash hcost hmax hlimit⟩
  · rename_i hskip
    cases h
    exact ⟨le_rfl, id, fun hbuy hcost => absurd ⟨hbuy, hcost⟩ hskip⟩

theorem capNotional_ok (h : capNotional c o qty = .ok q) : q ≤ qty ∧ (0 ≤ qty → 0 ≤ q) := by
  unfold capNotional at h
  split at h
  · cases h; exact ⟨le_rfl, id⟩
  · split at h
    · split at h
      · cases h
      · exact (capQuantity_ok h).2
    · cases h; exact ⟨le_rfl, id⟩

theorem capHeld_ok (h : capHeld held o qty = .ok q) :
    q ≤ qty ∧ (0 ≤ qty → 0 ≤ q) ∧ (o.signal.signalType ≠ .buy → q ≤ held) := by
  unfold capHeld at h
  split at h
  · obtain ⟨hlimit, hle, hpos⟩ := capQuantity_ok h
    exact ⟨hle, hpos, fun _ => hlimit⟩
  · rename_i hbuy
    cases h
    exact ⟨le_rfl, id, fun h => absurd h hbuy⟩

/-- A sized quantity is affordable if the order buys and held if it sells. -/
structure Sized (c : PaperTradingSettings) (cash : ℚ) (held : ℤ) (o : Order) (qty : ℤ) : Prop where
  nonneg : 0 ≤ o.quantity → 0 ≤ qty
  affordable : o.signal.signalType = .buy → 0 < unitCost c o → 0 ≤ cash →
    qty * unitCost c o ≤ cash
  held : o.signal.signalType ≠ .buy → qty ≤ held

theorem sizeOrder_ok (h : sizeOrder c cash held o = .ok qty) : Sized c cash held o qty := by
  simp only [sizeOrder, bind_ok] at h
  obtain ⟨q₁, h₁, q₂, h₂, h₃⟩ := h
  obtain ⟨hle₁, hpos₁, hcash⟩ := capCash_ok h₁
  obtain ⟨hle₂, hpos₂⟩ := capNotional_ok h₂
  obtain ⟨hle₃, hpos₃, hheld⟩ := capHeld_ok h₃
  refine ⟨fun h => hpos₃ (hpos₂ (hpos₁ h)), fun hbuy hcost h0 => ?_, hheld⟩
  have hle : (qty : ℚ) ≤ q₁ := by exact_mod_cast hle₃.trans hle₂
  exact (mul_le_mul_of_nonneg_right hle hcost.le).trans (hcash hbuy hcost h0)

theorem drawParts_spec (rng : Rng) {remaining : ℤ} {n : ℕ} (h : (n : ℤ) + 1 ≤ remaining) :
    (drawParts rng remaining n).sum = remaining ∧ ∀ p ∈ drawParts rng remaining n, 1 ≤ p := by
  induction n generalizing remaining with
  | zero => simp only [drawParts]; simpa using h
  | succ n ih =>
    have hdraw := rng.randint_mem (n := n + 1) (a := 1)
      (b := max 1 (remaining - (n + 1))) (le_max_left ..)
    have hmax : max 1 (remaining - (n + 1)) = remaining - (n + 1) := max_eq_right (by omega)
    rw [hmax] at hdraw
    obtain ⟨hsum, hpart⟩ := @ih (remaining - rng.randint (n + 1) 1 (remaining - (n + 1))) (by omega)
    simp only [drawParts, hmax, List.sum_cons, List.mem_cons, forall_eq_or_imp]
    exact ⟨by omega, hdraw.1, hpart⟩

/-- The parts add up to the quantity, and only a quantity of at least two is
split, into parts of at least one. -/
theorem splitParts_spec (c : PaperTradingSettings) (rng : Rng) (qty : ℤ) :
    (splitParts c rng qty).sum = qty ∧
      (splitParts c rng qty = [qty] ∨ ∀ p ∈ splitParts c rng qty, 1 ≤ p) := by
  unfold splitParts
  split
  · obtain ⟨hlo, hhi⟩ := rng.randint_mem (n := 0) (a := 2) (b := min (maxParts c) qty) (by omega)
    have hfit : (((rng.randint 0 2 (min (maxParts c) qty)).toNat - 1 : ℕ) : ℤ) + 1 ≤ qty := by omega
    obtain ⟨hsum, hparts⟩ := drawParts_spec rng hfit
    exact ⟨hsum, .inr hparts⟩
  · simp

theorem splitParts_ne_nil (c : PaperTradingSettings) (rng : Rng) (qty : ℤ) :
    splitParts c rng qty ≠ [] := by
  unfold splitParts
  split
  · cases (rng.randint 0 2 (min (maxParts c) qty)).toNat - 1 <;> simp [drawParts]
  · simp

theorem partsOf_spec (svc : Service) (o : Order) (qty : ℤ) : (partsOf svc o qty).sum = qty ∧
    (partsOf svc o qty = [qty] ∨ ∀ p ∈ partsOf svc o qty, 1 ≤ p) := splitParts_spec ..

-- ---------------------------------------------------------------------------
-- The portfolio
-- ---------------------------------------------------------------------------

theorem initCash_opened (c : PaperTradingSettings) (strategyId : String) (p : Portfolio) :
    ((initCash c strategyId p).cash.get? strategyId).isSome := by
  unfold initCash
  split
  · simp_all
  · simp

theorem initCash_eq_iff {p : Portfolio} :
    initCash c strategyId p = p ↔ p.cash.get? strategyId ≠ none := by
  unfold initCash
  split
  · rename_i h
    simp [h]
  · rename_i h
    refine iff_of_false (fun hsame => ?_) (not_not.mpr h)
    rw [← hsame, Dict.get?_set_self] at h
    cases h

theorem initCash_position (c : PaperTradingSettings) (strategyId : String) (p : Portfolio) :
    (initCash c strategyId p).positions = p.positions := by
  unfold initCash
  split <;> rfl

theorem initCash_realized (c : PaperTradingSettings) (strategyId : String) (p : Portfolio) :
    (initCash c strategyId p).realized = p.realized := by
  unfold initCash
  split <;> rfl

theorem fees_getD (c : PaperTradingSettings) (price : ℚ) (qty : ℤ) :
    (fees c price qty).getD 0 = price * qty * (c.commissionPercent / 100) := by
  unfold fees
  split
  · rename_i h; simp [h]
  · rfl

theorem Order.opened_apply (c : PaperTradingSettings) (o : Order) (qty : ℤ) (p : Portfolio) :
    ((o.apply c qty p).cash.get? o.signal.strategyId).isSome := by
  unfold Order.apply applyFillToPortfolio
  split <;> simp

theorem Order.cashOf_apply_buy (h : o.signal.signalType = .buy) :
    (Order.apply c o qty p).cashOf o.signal.strategyId =
      p.cashOf o.signal.strategyId - qty * unitCost c o := by
  simp only [Order.apply, applyFillToPortfolio, if_pos h, Portfolio.cashOf_set, fees_getD, unitCost]
  simp only [if_true]
  ring

theorem Order.cashOf_apply_sell (h : o.signal.signalType ≠ .buy) :
    (Order.apply c o qty p).cashOf o.signal.strategyId =
      p.cashOf o.signal.strategyId + o.fillPrice * qty * (1 - c.commissionPercent / 100) := by
  simp only [Order.apply, applyFillToPortfolio, if_neg h, Portfolio.cashOf_set, fees_getD]
  simp only [if_true]
  ring

theorem Order.cash_apply_of_ne (h : strategyId ≠ o.signal.strategyId) :
    (Order.apply c o qty p).cash.get? strategyId = p.cash.get? strategyId := by
  simp only [Order.apply, applyFillToPortfolio]
  split <;> exact Dict.get?_set_of_ne _ h

theorem Order.cashOf_apply_of_ne (h : strategyId ≠ o.signal.strategyId) :
    (Order.apply c o qty p).cashOf strategyId = p.cashOf strategyId := by
  rw [Portfolio.cashOf, Order.cash_apply_of_ne h, Portfolio.cashOf]

theorem Order.position_apply_buy (h : o.signal.signalType = .buy) :
    ((Order.apply c o qty p).position (key o.signal)).qty =
      (p.position (key o.signal)).qty + qty := by
  simp only [Order.apply, applyFillToPortfolio, if_pos h, Portfolio.position_set, key, if_true]

theorem Order.position_apply_sell (h : o.signal.signalType ≠ .buy) :
    ((Order.apply c o qty p).position (key o.signal)).qty =
      max 0 ((p.position (key o.signal)).qty - qty) := by
  simp only [Order.apply, applyFillToPortfolio, if_neg h, Portfolio.position_set, key, if_true]
  split
  · rename_i hflat; exact hflat.symm
  · rfl

theorem Order.position_apply_of_ne (h : k ≠ key o.signal) :
    (Order.apply c o qty p).position k = p.position k := by
  simp only [key] at h
  simp only [Order.apply, applyFillToPortfolio]
  split <;> simp only [Portfolio.position_set, if_neg h] <;> rfl

end AlphaPanda.Paper
