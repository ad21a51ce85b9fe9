import AlphaPanda.Paper.LimitProtection
import AlphaPanda.Paper.TimeInForce

/-!
# Guardrails

What an order that is filled has passed: the guardrails on the instrument, the
quantity and the price of its signal, and the cap on what its fills cost
together, however the order was cut down and split. A maximum price that is
not positive is none.
-/

namespace AlphaPanda.Paper

structure WithinBounds (c : PaperTradingSettings) (s : TradingSignal) (price : ℚ) : Prop where
  instrument : c.allowedInstruments ≠ [] → s.instrumentToken ∈ c.allowedInstruments
  minQuantity : c.minQuantity ≤ s.quantity
  maxQuantity : ∀ m ∈ c.maxQuantity, s.quantity ≤ m
  minPrice : ∀ m ∈ c.minPrice, m ≤ price
  maxPrice : ∀ m ∈ c.maxPrice, 0 < m → price ≤ m

theorem guardrails_within (h : guardrails c s price = none) : WithinBounds c s price := by
  unfold guardrails at h
  split at h
  · cases h
  rename_i hmin
  split at h
  · cases h
  rename_i hmax
  split at h
  · cases h
  rename_i hallowed
  split at h
  · cases h
  rename_i hleast
  split at h
  · cases h
  rename_i hmost
  refine ⟨fun hne => ?_, ?_, fun m hm => ?_, fun m hm => ?_, fun m hm hpos => ?_⟩
  · by_contra hmem
    exact hallowed ⟨hne, hmem⟩
  · exact (le_max_right _ _).trans (not_lt.mp hleast)
  · rw [Option.mem_def.mp hm] at hmost
    simpa using hmost
  · rw [Option.mem_def.mp hm] at hmin
    simpa using hmin
  · rw [Option.mem_def.mp hm] at hmax
    simpa [hpos] using hmax

theorem capNotional_le (h : capNotional c o qty = .ok q) (hlimit : l ∈ notionalLimit c o) : q ≤ l := by
  obtain ⟨-, h⟩ := capNotional_ok_iff.mp h
  rw [Option.mem_def.mp hlimit] at h
  exact (capQuantity_ok h).1

theorem sizeOrder_le (h : sizeOrder c cash held o = .ok qty) (hlimit : l ∈ notionalLimit c o) :
    qty ≤ l := by
  simp only [sizeOrder, bind_ok] at h
  obtain ⟨q₁, -, q₂, h₂, h₃⟩ := h
  exact (capHeld_ok h₃).1.trans (capNotional_le h₂ hlimit)

theorem cost_le (hsized : sizeOrder c cash held o = .ok qty) (hcap : c.maxPositionNotional = some notional)
    (hpos : 0 < notional) (hn : 0 ≤ n) (hle : n ≤ qty) : n * unitCost c o ≤ notional := by
  by_cases hcost : 0 < unitCost c o
  · have hlimit : ⌊notional / unitCost c o⌋ ∈ notionalLimit c o := by
      rw [notionalLimit, hcap]
      exact if_pos ⟨hpos, hcost⟩
    have hfloor : n ≤ ⌊notional / unitCost c o⌋ := hle.trans (sizeOrder_le hsized hlimit)
    rw [← le_div_iff₀ hcost]
    exact Int.le_floor.mp hfloor
  · have hn' : (0 : ℚ) ≤ n := by exact_mod_cast hn
    exact (mul_nonpos_of_nonneg_of_nonpos hn' (not_lt.mp hcost)).trans hpos.le

theorem sum_prefix_le (h : sent <+: parts) (hparts : ∀ p ∈ parts, (1 : ℤ) ≤ p) :
    0 ≤ sent.sum ∧ sent.sum ≤ parts.sum := by
  obtain ⟨rest, rfl⟩ := h
  have hnonneg : ∀ l : List ℤ, (∀ p ∈ l, p ∈ sent ++ rest) → 0 ≤ l.sum := fun l hl =>
    List.sum_nonneg fun p hp => (hparts p (hl p hp)).trans' zero_le_one
  have hsent := hnonneg sent fun p => List.mem_append_left _
  have hrest := hnonneg rest fun p => List.mem_append_right _
  rw [List.sum_append]
  omega

-- ---------------------------------------------------------------------------
-- What is filled
-- ---------------------------------------------------------------------------

/-- The signal is within bounds, and its fills cost no more than the cap. -/
structure Guarded (c : PaperTradingSettings) (v : ValidatedSignal) (fs : List OrderFilled) : Prop where
  bounds : WithinBounds c v.originalSignal (basePrice v)
  notional : ∀ n ∈ c.maxPositionNotional, totalQuantity fs *
    (slipped c v.originalSignal.signalType (basePrice v) * (1 + c.commissionPercent / 100)) ≤ n

/-- A signal that is filled is guarded, whichever of its parts are sent. -/
theorem fills_guarded (hcap : ∀ n ∈ svc.settings.maxPositionNotional, 0 < n)
    (hf : f ∈ fills (attempt svc v as s).world.log) (hpos : 1 ≤ f.quantity) :
    Guarded svc.settings v (fills (attempt svc v as s).world.log) := by
  obtain ⟨hexecuted, -, -⟩ := attempt_fill hf hpos
  refine ⟨guardrails_within hexecuted.guardrails, fun n hn => ?_⟩
  obtain ⟨-, -, o, qty, hending, orderId, sent, hsent, hfills⟩ :=
    attempt_fills svc v as s (List.ne_nil_of_mem hf)
  obtain ⟨hroute, hsized⟩ := ending_fills hending
  have hrouted := (route_fillable hroute).1
  have hqty : 1 ≤ qty := by
    obtain ⟨p, hp, rfl⟩ := List.mem_map.mp (hfills ▸ hf)
    obtain ⟨-, hone | hall⟩ := partsOf_spec svc o qty
    · have := hsent.subset hp
      rw [hone] at this
      exact List.mem_singleton.mp this ▸ hpos
    · exact (partsOf_pos_iff svc o qty).mp hall
  obtain ⟨hnonneg, hle⟩ := sum_prefix_le hsent ((partsOf_pos_iff svc o qty).mpr hqty)
  rw [(partsOf_spec svc o qty).1] at hle
  rw [hfills, totalQuantity_filled, ← hrouted.price]
  exact cost_le hsized (Option.mem_def.mp hn) (hcap n hn) hnonneg hle

def Service.guarded : Service :=
  let settings : PaperTradingSettings :=
    { maxQuantity := some 10
      maxPrice := some 100
      allowedInstruments := [1]
      maxPositionNotional := some 1000 }
  { Service.plain with settings := settings }

def cappedBuy : ValidatedSignal :=
  signalOf .buy 10 100 "09:30:00" (Dict.empty.set "tif" (.str "IOC"))

theorem cappedBuy_guarded : totalQuantity (fills (attempt .guarded cappedBuy [] .init).world.log) = 9 ∧
    Guarded Service.guarded.settings cappedBuy
      (fills (attempt .guarded cappedBuy [] .init).world.log) := by
  have hfill : ∃ f ∈ fills (attempt .guarded cappedBuy [] .init).world.log, 1 ≤ f.quantity := by
    decide +kernel
  obtain ⟨f, hf, hpos⟩ := hfill
  have hcap : ∀ n ∈ Service.guarded.settings.maxPositionNotional, 0 < n := by decide +kernel
  exact ⟨by decide +kernel, fills_guarded hcap hf hpos⟩

def Service.zeroMaximum : Service :=
  let settings : PaperTradingSettings := { maxPrice := some 0 }
  { Service.plain with settings := settings }

/-- A maximum price of zero lets a signal at 100 through. -/
theorem maximum_of_zero_ignored : ¬ ∀ svc v as s f, (∀ n ∈ svc.settings.maxPositionNotional, 0 < n) →
    FullQuantity v → f ∈ fills (attempt svc v as s).world.log → 1 ≤ f.quantity →
      ∀ m ∈ svc.settings.maxPrice, basePrice v ≤ m := by
  intro hclaim
  have hfill : ∃ f ∈ fills (attempt .zeroMaximum cappedBuy [] .init).world.log, 1 ≤ f.quantity := by
    decide +kernel
  obtain ⟨f, hf, hpos⟩ := hfill
  have hle : basePrice cappedBuy ≤ 0 :=
    hclaim .zeroMaximum cappedBuy [] .init f (fun n hn => nomatch hn) rfl hf hpos 0 rfl
  exact absurd hle (by decide +kernel)

end AlphaPanda.Paper
