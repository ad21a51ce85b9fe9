import AlphaPanda.Lib.Ledger
import AlphaPanda.Paper.Solvency

/-!
# The portfolio against its fills

The portfolio refines a ledger that posts the published ORDER_FILLED events:
whatever the signal handler does, its books and that ledger agree. A bracket
exit is the one fill that is published and never applied.

The equity of each strategy, at average cost, is its starting cash and its
realised gains less the fees it paid.
-/

namespace AlphaPanda.Paper

open Coroutine Relation

-- ---------------------------------------------------------------------------
-- The ledger of the fills
-- ---------------------------------------------------------------------------

/-- A fill of any side but BUY reduces the position, as in the portfolio. -/
def tradeOf (f : OrderFilled) : Trade String ℤ ℚ :=
  ⟨f.strategyId, f.instrumentToken, f.side = .buy, f.quantity, f.fillPrice, f.fees.getD 0⟩

/-- The cash and the holdings, where an account not yet opened has its
starting cash. -/
def Portfolio.ledger (c : PaperTradingSettings) (p : Portfolio) : Ledger String ℤ ℚ :=
  ⟨fun s => (p.cash.get? s).getD c.startingCash, fun k => (p.position k).qty⟩

def fillLedger (c : PaperTradingSettings) (fs : List OrderFilled) :
    Ledger String ℤ ℚ :=
  (Ledger.mk (fun _ => c.startingCash) fun _ => 0).postAll (fs.map tradeOf)

theorem ledger_initCash (c : PaperTradingSettings) (strategyId : String) (p : Portfolio) :
    (initCash c strategyId p).ledger c = p.ledger c := by
  unfold initCash
  split
  · rfl
  · rename_i hnone
    simp only [Portfolio.ledger, Ledger.mk.injEq]
    refine ⟨funext fun s => ?_, rfl⟩
    rw [Dict.get?_set]
    split
    · rename_i hs; simp [hs, hnone]
    · rfl

theorem ledger_cash (c : PaperTradingSettings) (h : (p.cash.get? s).isSome) :
    (Portfolio.ledger c p).cash s = p.cashOf s := by
  obtain ⟨q, hq⟩ := Option.isSome_iff_exists.mp h
  simp [Portfolio.ledger, Portfolio.cashOf, hq]

theorem ledger_apply (c : PaperTradingSettings) (orderId : OrderId)
    (hopen : (Portfolio.cash p |>.get? o.signal.strategyId).isSome)
    (hheld : o.signal.signalType ≠ .buy → qty ≤ (p.position (key o.signal)).qty) :
    (Order.apply c o qty p).ledger c =
      (p.ledger c).post (tradeOf (orderFilled c o orderId qty)) := by
  let t := tradeOf (orderFilled c o orderId qty)
  have hfees : t.fees = o.fillPrice * qty * (c.commissionPercent / 100) := fees_getD ..
  ext k
  · by_cases hk : k = o.signal.strategyId
    · subst hk
      rw [ledger_cash c (Order.opened_apply ..)]
      refine Eq.trans ?_ (Ledger.post_cash_self (p.ledger c) t).symm
      rw [show t.account = o.signal.strategyId from rfl, ledger_cash c hopen, hfees]
      by_cases hbuy : o.signal.signalType = .buy
      · have ht : t.buys = true := decide_eq_true hbuy
        rw [Order.cashOf_apply_buy hbuy, if_pos ht, unitCost]
        simp only [t, tradeOf, orderFilled]
        push_cast
        ring
      · have ht : ¬ t.buys = true := fun h => hbuy (of_decide_eq_true h)
        rw [Order.cashOf_apply_sell hbuy, if_neg ht]
        simp only [t, tradeOf, orderFilled]
        push_cast
        ring
    · refine Eq.trans ?_ (Ledger.post_cash_of_ne (p.ledger c) t hk).symm
      simp only [Portfolio.ledger, Order.cash_apply_of_ne hk]
  · by_cases hk : k = key o.signal
    · subst hk
      refine Eq.trans ?_ (Ledger.post_held_self (p.ledger c) t).symm
      by_cases hbuy : o.signal.signalType = .buy
      · have ht : t.buys = true := decide_eq_true hbuy
        rw [if_pos ht, one_mul]
        exact Order.position_apply_buy hbuy
      · have ht : ¬ t.buys = true := fun h => hbuy (of_decide_eq_true h)
        rw [if_neg ht]
        refine (Order.position_apply_sell hbuy).trans ?_
        rw [max_eq_right (sub_nonneg.mpr (hheld hbuy))]
        simp only [t, tradeOf, orderFilled, Portfolio.ledger, key]
        ring
    · refine Eq.trans ?_ (Ledger.post_held_of_ne (p.ledger c) t hk).symm
      simp only [Portfolio.ledger, Order.position_apply_of_ne hk]

/-- The portfolio is what its fills add up to. -/
def AgreesWithFills (c : PaperTradingSettings) (b : Books) : Prop :=
  b.portfolio.ledger c = fillLedger c b.fills

theorem AgreesWithFills.move {svc : Service} (h : AgreesWithFills svc.settings b)
    (hmove : Move svc V False b b') : AgreesWithFills svc.settings b' := by
  rcases hmove with hmove | hmove
  · cases hmove with
    | openAccount strategyId => exact (ledger_initCash ..).trans h
    | size => exact h
    | @fill o orderId held qty hfill =>
      have hpost := ledger_apply svc.settings orderId hfill.opened
        fun hsell => (hfill.held hsell).2
      refine hpost.trans ?_
      rw [show b.portfolio.ledger svc.settings = fillLedger svc.settings b.fills from h]
      simp only [fillLedger, Books.post, List.map_append, List.map_cons, List.map_nil,
        Ledger.postAll_concat]
  · cases hmove with
    | find _ _ hE => exact hE.elim
    | size _ _ hE => exact hE.elim
    | exit _ _ _ _ _ hE => exact hE.elim

/-- In every configuration that any interleaving reaches, the positions and
the cash are what folding the published ORDER_FILLED events over the initial
state gives.

Premise: no tick triggers a bracket. A send that fails publishes nothing and
is allowed for. -/
theorem portfolio_agrees_with_fills {svc : Service}
    (h : svc.system.Reaches (Allowed (fun _ => True) False) (Config.start .init) c) :
    c.world.st.portfolio.ledger svc.settings = fillLedger svc.settings (fills c.world.log) :=
  books_invariant (I := AgreesWithFills svc.settings) rfl (fun _ _ => AgreesWithFills.move) h

def plainBuy : List (Act Consumer Message Exc) :=
  [.deliver (.ofSignal (signalOf .buy 2 10 "09:30:00" .empty)), .resume .signals none,
    .resume .signals none]

theorem plainBuy_tick_agrees : ∃ c c',
    Service.plain.system.run (Config.start .init) plainBuy = some c ∧
      Service.plain.system.step c (.deliver (.ofPrice "12")) = some c' ∧
      c'.world.st.portfolio.ledger Service.plain.settings =
        fillLedger Service.plain.settings (fills c'.world.log) := by
  have hrun : (Service.plain.system.run (Config.start .init) plainBuy).any (fun c =>
      c.world.st.brackets.entries = [] &&
      (Service.plain.system.step c (.deliver (.ofPrice "12"))).isSome) := by
    decide +kernel
  obtain ⟨c, hc, hfacts⟩ := Option.any_eq_true _ _ |>.mp hrun
  simp only [Bool.and_eq_true, decide_eq_true_eq] at hfacts
  obtain ⟨c', hc'⟩ := Option.isSome_iff_exists.mp hfacts.2
  refine ⟨c, c', hc, hc', portfolio_agrees_with_fills (.tail (System.reaches_of_run hc
    (System.runs_of_forall fun a ha c => ?_)) ⟨.deliver (.ofPrice "12"), .inr ?_, hc'⟩)⟩
  · simp only [plainBuy, List.mem_cons, List.not_mem_nil, or_false] at ha
    rcases ha with rfl | rfl | rfl
    · exact fun _ _ => trivial
    · trivial
    · trivial
  · rw [hfacts.1]
    exact fun _ _ _ he => absurd he List.not_mem_nil

/-- A triggered bracket is sold on the topic and kept in the portfolio: not
every run without a failing send agrees with its fills. -/
theorem bracket_exit_not_applied : ¬ ∀ c,
    Service.plain.system.Reaches (fun _ _ => True) (Config.start .init) c → c.Quiescent →
      (∀ e ∈ c.world.log, e.2 = none) →
        c.world.st.portfolio.ledger Service.plain.settings =
          fillLedger Service.plain.settings (fills c.world.log) := by
  intro hclaim
  have hrun : (Service.plain.system.run (Config.start .init) buyThenExit).any (fun c =>
      (c.task .signals).isNone && (c.task .ticks).isNone && c.world.log.all (·.2 = none) &&
      (c.world.st.portfolio.position ("s1", 1)).qty = 2 &&
      (fillLedger Service.plain.settings (fills c.world.log)).held ("s1", 1) = 0) := by
    decide +kernel
  obtain ⟨c, hc, hfacts⟩ := Option.any_eq_true _ _ |>.mp hrun
  simp only [Bool.and_eq_true, Option.isNone_iff_eq_none, List.all_eq_true, decide_eq_true_eq]
    at hfacts
  obtain ⟨⟨⟨⟨hsig, htick⟩, hlog⟩, hheld⟩, hfold⟩ := hfacts
  have hquiet : c.Quiescent := by rintro (_ | _) <;> assumption
  have heq := hclaim c (System.reaches_of_run hc (System.runs_of_forall fun _ _ _ => trivial))
    hquiet hlog
  have : (2 : ℤ) = 0 := by rw [← hfold, ← heq, ← hheld]; rfl
  omega

-- ---------------------------------------------------------------------------
-- Equity
-- ---------------------------------------------------------------------------

/-- What the open positions of a strategy cost. -/
def Portfolio.inventory (p : Portfolio) (s : String) : ℚ :=
  p.positions.total fun k pos => if k.1 = s then pos.qty * pos.avgPrice else 0

def Portfolio.realizedTotal (p : Portfolio) (s : String) : ℚ :=
  p.realized.total fun k gain => if k.1 = s then gain else 0

def feesPaid (fs : List OrderFilled) (s : String) : ℚ :=
  (fs.map fun f => if f.strategyId = s then f.fees.getD 0 else 0).sum

def Position.lot (pos : Position) : Lot ℚ := ⟨pos.qty, pos.avgPrice⟩

theorem lot_apply_buy (h : o.signal.signalType = .buy) :
    ((Order.apply c o qty p).position (key o.signal)).lot =
      (p.position (key o.signal)).lot.buy qty o.fillPrice := by
  simp only [Order.apply, applyFillToPortfolio, if_pos h, Portfolio.position_set, key, if_true]
  rfl

theorem lot_apply_sell (h : o.signal.signalType ≠ .buy) :
    ((Order.apply c o qty p).position (key o.signal)).lot =
      (p.position (key o.signal)).lot.sell qty := by
  simp only [Order.apply, applyFillToPortfolio, if_neg h, Portfolio.position_set, key, if_true,
    Lot.sell, Position.lot]
  by_cases hflat : max 0 ((p.position (o.signal.strategyId, o.signal.instrumentToken)).qty - qty) = 0
  · simp only [if_pos hflat]
    exact (if_pos hflat).symm
  · simp only [if_neg hflat]
    exact (if_neg hflat).symm

theorem positions_apply : (Order.apply c o qty p).positions =
    p.positions.set (key o.signal) ((Order.apply c o qty p).position (key o.signal)) := by
  simp only [Order.apply, applyFillToPortfolio]
  split <;> simp only [Portfolio.position_set, key, if_true]

theorem inventory_apply : (Order.apply c o qty p).inventory s = p.inventory s +
    if o.signal.strategyId = s then
      ((Order.apply c o qty p).position (key o.signal)).lot.cost -
        (p.position (key o.signal)).lot.cost
    else 0 := by
  rw [Portfolio.inventory, positions_apply, Dict.total_set_getD _ {} (by simp)]
  rw [← Portfolio.inventory]
  by_cases hs : (key o.signal).1 = s
  · rw [if_pos hs, if_pos hs, if_pos (show o.signal.strategyId = s from hs)]
    simp only [Lot.cost, Position.lot, Portfolio.position]
    ring
  · rw [if_neg hs, if_neg hs, if_neg (show ¬ o.signal.strategyId = s from hs)]
    ring

/-- What a fill realises: nothing on a BUY. -/
def gain (o : Order) (qty : ℤ) (p : Portfolio) : ℚ :=
  if o.signal.signalType = .buy then 0
  else (o.fillPrice - (p.position (key o.signal)).avgPrice) * qty

theorem realizedTotal_apply : (Order.apply c o qty p).realizedTotal s = p.realizedTotal s +
    if o.signal.strategyId = s then gain o qty p else 0 := by
  by_cases hbuy : o.signal.signalType = .buy
  · simp only [Order.apply, applyFillToPortfolio, if_pos hbuy, Portfolio.realizedTotal, gain,
      ite_self, add_zero]
  · simp only [Order.apply, applyFillToPortfolio, if_neg hbuy, Portfolio.realizedTotal, gain]
    rw [Dict.total_set_getD _ 0 (by simp)]
    by_cases hs : o.signal.strategyId = s
    · simp only [if_pos hs, Portfolio.realizedOf, key]
      ring
    · simp only [if_neg hs]
      ring

/-- Cash and inventory of a strategy against its starting cash, its gains and
its fees. -/
def Balanced (c : PaperTradingSettings) (b : Books) : Prop :=
  (∀ k, 0 ≤ b.held k) ∧ ∀ s,
    (b.portfolio.ledger c).cash s + b.portfolio.inventory s =
      c.startingCash + b.portfolio.realizedTotal s - feesPaid b.fills s

theorem feesPaid_concat (fs : List OrderFilled) (f : OrderFilled) : feesPaid (fs ++ [f]) s =
    feesPaid fs s + if f.strategyId = s then f.fees.getD 0 else 0 := by
  simp [feesPaid]

theorem Balanced.post {b : Books} (h : Balanced c b) (hqty : 0 ≤ qty)
    (hopen : (b.portfolio.cash.get? o.signal.strategyId).isSome)
    (hheld : o.signal.signalType ≠ .buy → qty ≤ b.held (key o.signal)) :
    Balanced c (b.post c o orderId qty) := by
  refine ⟨fun k => held_post_nonneg hqty h.1, fun s => ?_⟩
  have hs := h.2 s
  simp only [Books.post, inventory_apply, realizedTotal_apply, feesPaid_concat]
  simp only [orderFilled, fees_getD]
  by_cases hacc : o.signal.strategyId = s
  · subst hacc
    simp only [if_true]
    rw [ledger_cash c (Order.opened_apply ..)]
    rw [ledger_cash c hopen] at hs
    by_cases hbuy : o.signal.signalType = .buy
    · rw [Order.cashOf_apply_buy hbuy, lot_apply_buy hbuy, gain, if_pos hbuy,
        Lot.cost_buy _ (h.1 (key o.signal)) hqty, unitCost]
      linarith
    · rw [Order.cashOf_apply_sell hbuy, lot_apply_sell hbuy, gain, if_neg hbuy,
        Lot.cost_sell _ (hheld hbuy), Position.lot]
      linarith
  · simp only [if_neg hacc, add_zero]
    simp only [Portfolio.ledger, Order.cash_apply_of_ne (Ne.symm hacc)] at hs ⊢
    exact hs

theorem Balanced.move {svc : Service} (h : Balanced svc.settings b)
    (hmove : Move svc FullQuantity E b b') : Balanced svc.settings b' := by
  rcases hmove with hmove | hmove
  · cases hmove with
    | openAccount strategyId =>
      refine ⟨fun k => held_initCash.symm ▸ h.1 k, fun s => ?_⟩
      rw [ledger_initCash, Portfolio.inventory, Portfolio.realizedTotal, initCash_position,
        initCash_realized]
      exact h.2 s
    | size => exact h
    | @fill o orderId held qty hfill =>
      exact h.post (hfill.qty_nonneg hfill.valid) hfill.opened fun hsell => (hfill.held hsell).2
  · cases hmove with
    | find | size => exact h
    | exit =>
      refine ⟨h.1, fun s => ?_⟩
      have hs := h.2 s
      simp only [feesPaid_concat, bracketExit, Option.getD_none, ite_self, add_zero]
      exact hs

/-- Equity is conserved: the cash of a strategy and its positions at average
cost are its starting cash and its realised gains, less the fees of its
fills.

Premise: each signal is validated for its own quantity. Its price, the ticks
in between and the sends that fail are not restricted. -/
theorem equity_conserved {svc : Service}
    (h : svc.system.Reaches (Allowed FullQuantity True) (Config.start .init) c)
    (hcash : c.world.st.portfolio.cash.get? s = some cash) :
    cash + c.world.st.portfolio.inventory s =
      svc.settings.startingCash + c.world.st.portfolio.realizedTotal s -
        feesPaid (fills c.world.log) s := by
  have hbal := books_invariant (I := Balanced svc.settings)
    ⟨fun _ => le_rfl, fun _ => by
      simp [Books.init, State.init, Portfolio.ledger, Portfolio.inventory,
        Portfolio.realizedTotal, feesPaid]⟩
    (fun _ _ => Balanced.move) h
  simpa [Portfolio.ledger, books, hcash] using hbal.2 s

theorem buyThenExit_conserved : ∃ c cash,
    Service.plain.system.run (Config.start .init) buyThenExit = some c ∧
      c.world.st.portfolio.cash.get? "s1" = some cash ∧
      cash + c.world.st.portfolio.inventory "s1" =
        Service.plain.settings.startingCash + c.world.st.portfolio.realizedTotal "s1" -
          feesPaid (fills c.world.log) "s1" := by
  have hrun : (Service.plain.system.run (Config.start .init) buyThenExit).any (fun c =>
      (c.world.st.portfolio.cash.get? "s1").isSome) := by
    decide +kernel
  obtain ⟨c, hc, hcash⟩ := Option.any_eq_true _ _ |>.mp hrun
  obtain ⟨cash, hcash⟩ := Option.isSome_iff_exists.mp hcash
  refine ⟨c, cash, hc, hcash, equity_conserved (System.reaches_of_run hc
    (System.runs_of_forall fun a ha c => ?_)) hcash⟩
  simp only [buyThenExit, List.mem_cons, List.not_mem_nil, or_false] at ha
  rcases ha with rfl | rfl | rfl | rfl | rfl | rfl | rfl | rfl | rfl
  · rintro v ⟨⟩; rfl
  all_goals first | trivial | exact .inl trivial

end AlphaPanda.Paper
