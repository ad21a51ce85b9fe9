import AlphaPanda.Paper.Books

/-!
# Solvency

Every balance stays nonnegative, no position goes short, and no SELL fill is
larger than what was held when its order was sized: an invariant of the moves
of the books, for prices that are not negative and quantities the risk
manager left alone.
-/

namespace AlphaPanda.Paper

open Coroutine

structure PaperTradingSettings.InRange (c : PaperTradingSettings) : Prop where
  startingCash : 0 ≤ c.startingCash
  slippage : 0 ≤ c.slippagePercent ∧ c.slippagePercent < 100
  commission : 0 ≤ c.commissionPercent ∧ c.commissionPercent ≤ 100

/-- Validated for its own quantity: what the risk manager produces. -/
def FullQuantity (v : ValidatedSignal) : Prop :=
  v.validatedQuantity = v.originalSignal.quantity

structure Priced (v : ValidatedSignal) : Prop where
  price : ∀ p ∈ v.originalSignal.price, 0 ≤ p
  validatedPrice : ∀ p ∈ v.validatedPrice, 0 ≤ p
  quantity : FullQuantity v

structure Solvent (b : Books) : Prop where
  cash : ∀ s, 0 ≤ b.portfolio.cashOf s
  held : ∀ k, 0 ≤ b.held k
  sells : ∀ f ∈ b.fills, f.side ≠ .buy → ∃ held, (f.orderId, held) ∈ b.sized ∧ f.quantity ≤ held

theorem orPrice_nonneg (ha : ∀ q ∈ a, 0 ≤ q) (hb : 0 ≤ b) : 0 ≤ orPrice a b := by
  unfold orPrice
  split
  · split
    · exact hb
    · exact ha _ rfl
  · exact hb

theorem basePrice_nonneg (h : Priced v) : 0 ≤ basePrice v :=
  orPrice_nonneg h.validatedPrice (orPrice_nonneg h.price le_rfl)

theorem slipped_nonneg {c : PaperTradingSettings} (hc : c.InRange) (h : 0 ≤ price) :
    0 ≤ slipped c side price := by
  obtain ⟨hlo, hhi⟩ := hc.slippage
  refine mul_nonneg h ?_
  split <;> linarith

theorem Order.Routed.quantity_nonneg {o : Order} (h : o.Routed c o.validated)
    (hq : FullQuantity o.validated) (hordered : 1 ≤ o.signal.quantity) : 0 ≤ o.quantity := by
  rcases h.quantity with hv | h0
  · rw [hv, hq]; exact le_trans (by decide) hordered
  · exact h0.ge

theorem cashOf_initCash (hc : 0 ≤ c.startingCash) (h : ∀ s, 0 ≤ Portfolio.cashOf p s) :
    0 ≤ (initCash c strategyId p).cashOf s := by
  unfold initCash
  split
  · exact h s
  · rw [Portfolio.cashOf_set]
    split
    · exact hc
    · exact h s

theorem Fillable.qty_nonneg {svc : Service} (h : Fillable svc V b o orderId n qty)
    (hV : FullQuantity o.validated) : 0 ≤ qty :=
  h.nonneg (h.routed.quantity_nonneg hV h.ordered)

theorem Fillable.cash_nonneg {svc : Service} (h : Fillable svc Priced b o orderId n qty)
    (hc : svc.settings.InRange) (hb : Solvent b) :
    0 ≤ (b.post svc.settings o orderId qty).portfolio.cashOf s := by
  have hqty : (0 : ℚ) ≤ qty := by exact_mod_cast h.qty_nonneg h.valid.quantity
  have hprice : 0 ≤ o.fillPrice := by
    rw [h.routed.price]; exact slipped_nonneg hc (basePrice_nonneg h.valid)
  obtain ⟨hlo, hhi⟩ := hc.commission
  by_cases hs : s = o.signal.strategyId
  · subst hs
    have hcash := hb.cash o.signal.strategyId
    by_cases hbuy : o.signal.signalType = .buy
    · rw [Books.post, Order.cashOf_apply_buy hbuy]
      have hcost : 0 ≤ unitCost svc.settings o := mul_nonneg hprice (by linarith)
      rcases hcost.eq_or_lt with hfree | hcost
      · rw [← hfree, mul_zero, sub_zero]; exact hcash
      · linarith [h.affordable hbuy hcost hcash]
    · rw [Books.post, Order.cashOf_apply_sell hbuy]
      have : 0 ≤ o.fillPrice * qty * (1 - svc.settings.commissionPercent / 100) :=
        mul_nonneg (mul_nonneg hprice hqty) (by linarith)
      linarith
  · rw [Books.post, Order.cashOf_apply_of_ne hs]
    exact hb.cash s

theorem held_post_nonneg (hqty : 0 ≤ qty) (hb : ∀ k, 0 ≤ Books.held b k) :
    0 ≤ (b.post c o orderId qty).held k := by
  by_cases hk : k = key o.signal
  · subst hk
    have hheld := hb (key o.signal)
    by_cases hbuy : o.signal.signalType = .buy
    · rw [Books.held, Books.post, Order.position_apply_buy hbuy]
      exact add_nonneg hheld hqty
    · rw [Books.held, Books.post, Order.position_apply_sell hbuy]
      exact le_max_left ..
  · rw [Books.held, Books.post, Order.position_apply_of_ne hk]
    exact hb k

theorem held_initCash {b : Books} : Books.held { b with
    portfolio := initCash c strategyId b.portfolio } k = b.held k := by
  simp only [Books.held, Portfolio.position, initCash_position]

theorem sells_size {b : Books} (h : ∀ f ∈ b.fills, f.side ≠ .buy →
    ∃ held, (f.orderId, held) ∈ b.sized ∧ f.quantity ≤ held) :
    ∀ f ∈ b.fills, f.side ≠ .buy → ∃ held, (f.orderId, held) ∈ b.sized ++ l ∧ f.quantity ≤ held := by
  intro f hf hside
  obtain ⟨held, hmem, hle⟩ := h f hf hside
  exact ⟨held, List.mem_append_left _ hmem, hle⟩

theorem Solvent.move {svc : Service} (hc : svc.settings.InRange) (h : Solvent b)
    (hmove : Move svc Priced True b b') : Solvent b' := by
  rcases hmove with hmove | hmove
  · cases hmove with
    | openAccount strategyId =>
      exact ⟨fun s => cashOf_initCash hc.startingCash h.cash,
        fun k => held_initCash.symm ▸ h.held k, h.sells⟩
    | size => exact ⟨h.cash, h.held, sells_size h.sells⟩
    | @fill o orderId held qty hfill =>
      refine ⟨fun s => hfill.cash_nonneg hc h, fun k =>
        held_post_nonneg (hfill.qty_nonneg hfill.valid.quantity) h.held, fun f hf hside => ?_⟩
      rcases List.mem_append.mp hf with hf | hf
      · exact h.sells f hf hside
      · obtain rfl := List.mem_singleton.mp hf
        exact ⟨_, hfill.sized, (hfill.held hside).1⟩
  · cases hmove with
    | find => exact ⟨h.cash, h.held, h.sells⟩
    | size => exact ⟨h.cash, h.held, sells_size h.sells⟩
    | @exit held _ _ _ _ _ _ _ hid hle =>
      refine ⟨h.cash, h.held, fun f hf hside => ?_⟩
      rcases List.mem_append.mp hf with hf | hf
      · exact h.sells f hf hside
      · obtain rfl := List.mem_singleton.mp hf
        exact ⟨held, hid, hle⟩

theorem Solvent.init : Solvent .init :=
  ⟨fun _ => le_rfl, fun _ => le_rfl, fun _ hf => absurd hf List.not_mem_nil⟩

/-- Every balance and every position is nonnegative, and no SELL fill exceeds
what was held when its order was sized, in every configuration that any
interleaving of the two handlers reaches.

Premise: the settings are in range; each signal delivered has nonnegative
prices and is validated for its full quantity. Nothing is assumed of the
ticks or of what fails. -/
theorem balances_and_positions_nonneg {svc : Service} (hc : svc.settings.InRange)
    (h : svc.system.Reaches (Allowed Priced True) (Config.start .init) c) :
    (∀ s q, c.world.st.portfolio.cash.get? s = some q → 0 ≤ q) ∧
      (∀ k, 0 ≤ (c.world.st.portfolio.position k).qty) ∧
      ∀ f ∈ fills c.world.log, f.side ≠ .buy →
        ∃ held, (f.orderId, held) ∈ c.world.st.sized ∧ f.quantity ≤ held := by
  obtain ⟨hcash, hheld, hsells⟩ := books_invariant Solvent.init (fun _ _ => Solvent.move hc) h
  refine ⟨fun s q hq => ?_, hheld, hsells⟩
  have := hcash s
  simpa [books, Portfolio.cashOf, hq] using this

/-- A BUY with a take-profit, and a tick that triggers it while the PnL
snapshot is being sent. -/
def buyThenExit : List (Act Consumer Message Exc) :=
  [.deliver (.ofSignal (signalOf .buy 2 10 "09:30:00" (Dict.empty.set "take_profit_pct" (.int 10)))),
    .resume .signals none, .resume .signals none, .deliver (.ofPrice "12"), .resume .ticks none,
    .resume .ticks none, .resume .signals none, .resume .signals none, .resume .signals none]

theorem buyThenExit_nonneg : ∃ c, Service.plain.system.run (Config.start .init) buyThenExit = some c ∧
    (∀ s q, c.world.st.portfolio.cash.get? s = some q → 0 ≤ q) ∧
    (∀ k, 0 ≤ (c.world.st.portfolio.position k).qty) ∧
    ∀ f ∈ fills c.world.log, f.side ≠ .buy →
      ∃ held, (f.orderId, held) ∈ c.world.st.sized ∧ f.quantity ≤ held := by
  have hrun : (Service.plain.system.run (Config.start .init) buyThenExit).isSome := by
    decide +kernel
  obtain ⟨c, hc⟩ := Option.isSome_iff_exists.mp hrun
  refine ⟨c, hc, balances_and_positions_nonneg ⟨by decide +kernel, by decide +kernel,
    by decide +kernel⟩ (System.reaches_of_run hc (System.runs_of_forall fun a ha c => ?_))⟩
  simp only [buyThenExit, List.mem_cons, List.not_mem_nil, or_false] at ha
  rcases ha with rfl | rfl | rfl | rfl | rfl | rfl | rfl | rfl | rfl
  · rintro v ⟨⟩
    exact ⟨by rintro p ⟨⟩; decide +kernel, by rintro p ⟨⟩; decide +kernel, rfl⟩
  all_goals first | trivial | exact .inl trivial

end AlphaPanda.Paper
