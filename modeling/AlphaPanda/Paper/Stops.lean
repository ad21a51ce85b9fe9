import AlphaPanda.Paper.Ledger

/-!
# Pending stops

A tick keeps the pending stops it does not trigger, in their order. The ones
it triggers it drops: executing them raises before anything is published.
-/

namespace AlphaPanda.Paper

open Coroutine

def stopHit (m : TickMessage) (od : PendingStop) : Bool :=
  m.type = .str EventType.marketTick.value && m.instrumentToken ≠ 0 &&
    od.instrumentToken = m.instrumentToken && 0 < od.quantity &&
    match m.lastPrice.toDecimal with
    | some (.num price) => stopTriggered od.side price od.stopPrice
    | _ => false

def stays (inst : ℤ) (price : ExtRat) (od : PendingStop) : Bool :=
  od.instrumentToken ≠ inst || (0 < od.quantity && !stopTriggered od.side price od.stopPrice)

/-- The stop loop at a price: a filter, and nothing is awaited. -/
theorem checkStops_exec (inst : ℤ) (price : ExtRat) (l : List PendingStop) (w : PaperWorld) :
    (checkStops inst (.num price) l).exec as w =
      ⟨.ok (l.filter (stays inst price)), w, as⟩ := by
  induction l with
  | nil => rfl
  | cons od rest ih =>
    simp only [checkStops]
    split
    · rename_i hinst
      simp [ih, stays, hinst]
    rename_i hinst
    split
    · rename_i hqty
      simp [ih, stays, not_not.mp hinst, not_lt.mpr hqty]
    rename_i hqty
    split
    · rename_i htrigger
      simp [suppress, executeStop, ih, stays, not_not.mp hinst, htrigger]
    · rename_i htrigger
      simp [ih, stays, not_not.mp hinst, not_le.mp hqty, htrigger]

/-- The stop loop at NaN: it raises, or keeps every order there is. -/
theorem checkStops_nan (inst : ℤ) (l : List PendingStop) (w : PaperWorld) :
    (∃ e, (checkStops inst .nan l).exec as w = ⟨.error e, w, as⟩) ∨
      ∃ kept, (checkStops inst .nan l).exec as w = ⟨.ok kept, w, as⟩ ∧
        kept.filter (0 < ·.quantity) = l.filter (0 < ·.quantity) := by
  induction l with
  | nil => exact .inr ⟨[], rfl, rfl⟩
  | cons od rest ih =>
    simp only [checkStops]
    split
    · rcases ih with ⟨e, he⟩ | ⟨kept, hk, hfilter⟩
      · exact .inl ⟨e, by simp [he]⟩
      · exact .inr ⟨od :: kept, by simp [hk], by simp [List.filter_cons, hfilter]⟩
    split
    · rename_i hqty
      rcases ih with ⟨e, he⟩ | ⟨kept, hk, hfilter⟩
      · exact .inl ⟨e, he⟩
      · refine .inr ⟨kept, hk, ?_⟩
        rw [List.filter_cons_of_neg (by simp; omega), hfilter]
    · exact .inl ⟨_, rfl⟩

-- ---------------------------------------------------------------------------
-- The brackets before them
-- ---------------------------------------------------------------------------

theorem generateEventId_keeps {f : State → φ} (h : ∀ s n, f { s with nextId := n } = f s) :
    generateEventId.Keeps f := fun _ w => h w.st (w.st.nextId + 1)

theorem emitBracketExitFill_keeps {f : State → φ} (hid : ∀ s n, f { s with nextId := n } = f s)
    (hsized : ∀ s l, f { s with sized := l } = f s) :
    (emitBracketExitFill svc k qty price).Keeps f := by
  refine leaves_suppress (leaves_bind keeps_perform fun _ =>
    leaves_bind (generateEventId_keeps hid) fun orderId => ?_)
  cases price with
  | fin p =>
    exact leaves_bind (keeps_modify fun s => hsized s _) fun _ =>
      leaves_bind keeps_perform fun _ => leaves_throw
  | negInf | posInf => exact leaves_throw

theorem checkBrackets_keeps {f : State → φ} {lp : Decimal} (hid : ∀ s n, f { s with nextId := n } = f s)
    (hfound : ∀ s n, f { s with found := n } = f s) (hsized : ∀ s l, f { s with sized := l } = f s)
    (l : List (Key × Bracket)) :
    (checkBrackets svc inst lp l).Keeps f := by
  induction l with
  | nil => exact leaves_pure
  | cons e rest ih =>
    have hcons : ∀ k : Key, (checkBrackets svc inst lp rest >>= fun ks => pure (k :: ks)).Keeps f :=
      fun k => leaves_bind ih fun _ => leaves_pure
    simp only [checkBrackets]
    split
    · exact ih
    refine leaves_bind leaves_get fun s => ?_
    split
    · exact hcons _
    split
    · exact leaves_throw
    · exact ih
    · exact leaves_bind (keeps_modify fun s => hfound s _) fun _ =>
        leaves_bind (emitBracketExitFill_keeps hid hsized) fun _ => hcons _

theorem checkBrackets_num (l : List (Key × Bracket)) (as : List (Option Exc)) (w : PaperWorld) :
    ∃ ks, ((checkBrackets svc inst (.num price) l).exec as w).result = .ok ks := by
  induction l generalizing as w with
  | nil => exact ⟨[], rfl⟩
  | cons e rest ih =>
    have hcons : ∀ (k : Key) as w, ∃ ks, ((checkBrackets svc inst (.num price) rest >>= fun ks =>
        pure (k :: ks)).exec as w).result = .ok ks := by
      intro k as w
      obtain ⟨ks, hks⟩ := ih as w
      exact ⟨k :: ks, by rw [exec_bind, Outcome.andThen_result]; exact ⟨ks, hks, rfl⟩⟩
    simp only [checkBrackets]
    split
    · exact ih as w
    rw [exec_bind, exec_get, Outcome.andThen_ok]
    split
    · exact hcons _ as w
    split
    · rename_i e herr; cases herr
    · exact ih as w
    · simp only [exec_bind, exec_modify, Outcome.andThen_ok, Outcome.andThen_result, emitBracketExitFill,
        exec_suppress]
      obtain ⟨ks, hks⟩ := ih _ _
      exact ⟨_, ks, hks, rfl⟩

def beforeStops (svc : Service) (m : TickMessage) (lp : Decimal) : Handler Unit := do
  modify fun s => { s with lastPrice := s.lastPrice.set m.instrumentToken lp }
  evaluateBrackets svc m.instrumentToken lp

theorem beforeStops_keeps (svc : Service) (m : TickMessage) (lp : Decimal) :
    (beforeStops svc m lp).Keeps State.pendingStops := by
  unfold beforeStops evaluateBrackets
  refine leaves_bind (keeps_modify fun _ => rfl) fun _ => leaves_bind leaves_get fun s => ?_
  exact leaves_bind (checkBrackets_keeps (fun _ _ => rfl) (fun _ _ => rfl) (fun _ _ => rfl) _) fun ks =>
    keeps_modify fun _ => rfl

theorem beforeStops_num (svc : Service) (m : TickMessage) (price : ExtRat) (as : List (Option Exc))
    (w : PaperWorld) : ((beforeStops svc m (.num price)).exec as w).result = .ok () := by
  simp only [beforeStops, evaluateBrackets, exec_bind, exec_modify, exec_get, Outcome.andThen_ok,
    Outcome.andThen_result]
  obtain ⟨ks, hks⟩ := checkBrackets_num _ _ _
  exact ⟨ks, hks, trivial⟩

-- ---------------------------------------------------------------------------
-- One tick
-- ---------------------------------------------------------------------------

def tick (svc : Service) (m : TickMessage) (as : List (Option Exc)) (w : PaperWorld) :
    Outcome State Op Exc Unit := (handleMarketTick svc m).exec as w

def stopEvents (svc : Service) (m : TickMessage) (as : List (Option Exc)) (w : PaperWorld) :
    List Record :=
  match m.lastPrice.toDecimal with
  | some lp => published ((tick svc m as w).world.log.drop
      ((beforeStops svc m lp).exec as w).world.log.length)
  | none => []

def ForStop (od : PendingStop) (r : Record) : Prop :=
  match r.data with
  | .filled f => f.strategyId = od.strategyId ∧ f.instrumentToken = od.instrumentToken ∧
      f.side = od.side
  | .failed f => f.strategyId = od.strategyId ∧ f.instrumentToken = od.instrumentToken ∧
      f.signalType = od.side
  | .pnl _ => False

/-- No stop order is lost in a tick: one that is not triggered stays, in its
place, and one that is leaves only with an event published for it. -/
structure StopsKept (svc : Service) (m : TickMessage) (as : List (Option Exc)) (w : PaperWorld) :
    Prop where
  others : (tick svc m as w).world.st.pendingStops.filter
      (fun od => 0 < od.quantity && !stopHit m od) =
    w.st.pendingStops.filter (fun od => 0 < od.quantity && !stopHit m od)
  hit : ∀ od ∈ w.st.pendingStops, stopHit m od →
    od ∈ (tick svc m as w).world.st.pendingStops ∨ ∃ r ∈ stopEvents svc m as w, ForStop od r

theorem tick_eq (svc : Service) (as : List (Option Exc)) (w : PaperWorld) {lp : Decimal}
    (hm : m.type = .str EventType.marketTick.value ∧ m.instrumentToken ≠ 0)
    (hlp : m.lastPrice.toDecimal = some lp) : tick svc m as w =
      ((beforeStops svc m lp).exec as w).andThen fun _ as w =>
        (evaluateStops m.instrumentToken lp).exec as w := by
  simp only [tick, handleMarketTick, if_neg (not_or.mpr ⟨not_not.mpr hm.1, hm.2⟩), hlp, beforeStops,
    exec_bind]
  rfl

theorem tick_num (svc : Service) (as : List (Option Exc)) (w : PaperWorld)
    (hm : m.type = .str EventType.marketTick.value ∧ m.instrumentToken ≠ 0)
    (hlp : m.lastPrice.toDecimal = some (.num price)) :
    (tick svc m as w).world.st.pendingStops =
      w.st.pendingStops.filter (stays m.instrumentToken price) ∧ stopEvents svc m as w = [] := by
  have hstops := (beforeStops_keeps svc m (.num price)).eq as w
  have hok := beforeStops_num svc m price as w
  have htick := tick_eq svc as w hm hlp
  rcases hmid : (beforeStops svc m (.num price)).exec as w with ⟨result, mid, rest⟩
  rw [hmid] at htick hstops hok
  obtain rfl : result = .ok () := hok
  simp only [evaluateStops, Outcome.andThen_ok, exec_bind, exec_get, checkStops_exec, exec_modify]
    at htick
  simp only [stopEvents, hlp, htick, hmid, List.drop_length]
  exact ⟨by rw [hstops], rfl⟩

theorem tick_nan (hm : m.type = .str EventType.marketTick.value ∧ m.instrumentToken ≠ 0)
    (hlp : m.lastPrice.toDecimal = some .nan) :
    (tick svc m as w).world.st.pendingStops.filter (0 < ·.quantity) =
      w.st.pendingStops.filter (0 < ·.quantity) := by
  have hstops := (beforeStops_keeps svc m .nan).eq as w
  have htick := tick_eq svc as w hm hlp
  rcases hmid : (beforeStops svc m .nan).exec as w with ⟨e | _, mid, rest⟩
  · rw [hmid] at htick hstops
    rw [htick]
    exact congrArg _ hstops
  · rw [hmid] at htick hstops
    rw [htick, ← hstops]
    simp only [evaluateStops, Outcome.andThen_ok, exec_bind, exec_get]
    rcases checkStops_nan m.instrumentToken mid.st.pendingStops mid with ⟨e, he⟩ | ⟨ks, hks, hfilter⟩
    · rw [he]; rfl
    · rw [hks]; exact hfilter

/-- No stop order is lost in a tick exactly if the tick triggers none.

The failures of the environment (`as`) play no part: a triggered order is
lost whatever succeeds. -/
theorem stops_kept_iff : StopsKept svc m as w ↔
    ∀ od ∈ w.st.pendingStops, stopHit m od = false := by
  by_cases hm : m.type = .str EventType.marketTick.value ∧ m.instrumentToken ≠ 0
  swap
  · -- Not a market tick: the handler returns at once.
    have hidle : tick svc m as w = ⟨.ok (), w, as⟩ := by
      simp only [tick, handleMarketTick, if_pos (not_and_or.mp hm |>.imp_right not_not.mp)]
      rfl
    have hnone : ∀ od, stopHit m od = false := by
      intro od
      simp only [stopHit]
      grind
    exact ⟨fun _ od _ => hnone od, fun h => ⟨by rw [hidle], fun od hod hhit =>
      .inl (by rw [hidle]; exact hod)⟩⟩
  rcases hlp : m.lastPrice.toDecimal with _ | lp
  · have hidle : tick svc m as w = ⟨.ok (), w, as⟩ := by
      simp only [tick, handleMarketTick, if_neg (not_or.mpr ⟨not_not.mpr hm.1, hm.2⟩), hlp]
      rfl
    exact ⟨fun _ od _ => by simp [stopHit, hlp], fun h => ⟨by rw [hidle], fun od hod hhit =>
      .inl (by rw [hidle]; exact hod)⟩⟩
  cases lp with
  | nan =>
    have hnone : ∀ od, stopHit m od = false := by intro od; simp [stopHit, hlp]
    refine ⟨fun _ od _ => hnone od, fun _ => ⟨?_, fun od _ hhit => ?_⟩⟩
    · simp only [hnone, Bool.not_false, Bool.and_true]
      exact tick_nan hm hlp
    · rw [hnone od] at hhit; cases hhit
  | num price =>
    obtain ⟨hafter, hevents⟩ := tick_num svc as w hm hlp
    have hstays : ∀ od : PendingStop, 0 < od.quantity →
        stays m.instrumentToken price od = !stopHit m od := by
      intro od hqty
      by_cases hinst : od.instrumentToken = m.instrumentToken <;>
        simp [stays, stopHit, hlp, hm.1, hm.2, hqty, hinst]
    refine ⟨fun h od hod => ?_, fun h => ⟨?_, fun od hod hhit => ?_⟩⟩
    · by_contra hhit
      rw [Bool.not_eq_false] at hhit
      have hqty : 0 < od.quantity := by
        simp only [stopHit, Bool.and_eq_true, decide_eq_true_eq] at hhit
        exact hhit.1.2
      rcases h.hit od hod hhit with hmem | ⟨r, hr, -⟩
      · rw [hafter, List.mem_filter, hstays od hqty, hhit] at hmem
        exact absurd hmem.2 (by simp)
      · rw [hevents] at hr; cases hr
    · rw [hafter, List.filter_filter]
      refine List.filter_congr fun od hod => ?_
      by_cases hqty : 0 < od.quantity
      · simp [hstays od hqty, h od hod]
      · simp [hqty]
    · rw [h od hod] at hhit; cases hhit

def stopBuy : List (Act Consumer Message Exc) :=
  [.deliver (.ofSignal (signalOf .buy 2 10 "09:30:00"
    ((Dict.empty.set "order_type" (.str "stop")).set "stop_price" (.int 12))))]

def tickAt (lastPrice : String) : TickMessage := ⟨.str "market_tick", 1, .str lastPrice⟩

/-- The tick that reaches it drops it and publishes nothing. -/
theorem triggered_stop_lost : ¬ ∀ c,
    Service.plain.system.Reaches (fun _ _ => True) (Config.start .init) c →
      ∀ m as, StopsKept Service.plain m as c.world := by
  intro hclaim
  have hrun : (Service.plain.system.run (Config.start .init) stopBuy).any (fun c =>
      c.world.st.pendingStops.any (stopHit (tickAt "13")) &&
      (tick Service.plain (tickAt "13") [] c.world).world.st.pendingStops = [] &&
      stopEvents Service.plain (tickAt "13") [] c.world = []) := by
    decide +kernel
  obtain ⟨c, hc, hfacts⟩ := Option.any_eq_true _ _ |>.mp hrun
  simp only [Bool.and_eq_true, List.any_eq_true, decide_eq_true_eq] at hfacts
  obtain ⟨⟨⟨od, hod, hhit⟩, hafter⟩, hevents⟩ := hfacts
  have hkept := hclaim c (System.reaches_of_run hc (System.runs_of_forall fun _ _ _ => trivial))
    (tickAt "13") []
  rcases hkept.hit od hod hhit with hmem | ⟨r, hr, -⟩
  · rw [hafter] at hmem; cases hmem
  · rw [hevents] at hr; cases hr

end AlphaPanda.Paper
