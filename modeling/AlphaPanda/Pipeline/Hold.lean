import AlphaPanda.Paper.Brackets
import AlphaPanda.Paper.Answers
import AlphaPanda.Risk.DailyLimit

/-!
# HOLD signals

Each decision between two sides takes anything but a BUY for a SELL, so a HOLD
sells what is held and counts as a smaller position. The paper trading service
leaves it alone only where it would not carry out a SELL either.
-/

namespace AlphaPanda

open Coroutine

-- ---------------------------------------------------------------------------
-- The paper trading service
-- ---------------------------------------------------------------------------

namespace Paper

/-- No position, cash, realized PnL, bracket or pending stop changed, and no
ORDER_FILLED was published. -/
structure Unchanged (w w' : PaperWorld) : Prop where
  portfolio : w'.st.portfolio = w.st.portfolio
  brackets : w'.st.brackets = w.st.brackets
  pendingStops : w'.st.pendingStops = w.st.pendingStops
  fills : fills w'.log = fills w.log

/-- What routing decides is neither to leave the order pending nor to fill it:
it fails, or gets no size, on an account that is open already. -/
def Refuses (svc : Service) (s : State) : Except Exc Routed → Prop
  | .error _ | .ok (.failed _) => True
  | .ok (.pending _) => False
  | .ok (.fillable o) => (s.portfolio.cash.get? o.signal.strategyId).isSome ∧
    ∃ reason, sizedNow svc s.portfolio o = .error reason

def Declined (svc : Service) (s : State) (v : ValidatedSignal) : Prop :=
  idemKey v ∈ s.seen.keys ∨ Refuses svc s (route svc.settings (svc.rng (idemKey v)) v)

instance decidableFails (x : Except ε α) : Decidable (∃ e, x = .error e) :=
  match x with
  | .error e => isTrue ⟨e, rfl⟩
  | .ok _ => isFalse fun ⟨_, h⟩ => by cases h

instance decidableRefuses (svc : Service) (s : State) : DecidablePred (Refuses svc s)
  | .error _ | .ok (.failed _) => isTrue trivial
  | .ok (.pending _) => isFalse id
  | .ok (.fillable _) => inferInstanceAs (Decidable (_ ∧ _))

instance decidableDeclined (svc : Service) (s : State) : DecidablePred (Declined svc s) :=
  fun _ => inferInstanceAs (Decidable (_ ∨ _))

theorem Idle.unchanged (h : Idle w w') : Unchanged w w' := by
  exact ⟨congrArg Books.portfolio h.books, h.brackets, h.pendingStops, congrArg Books.fills h.books⟩

theorem Idle.refl (w : PaperWorld) : Idle w w := ⟨rfl, rfl, rfl⟩

theorem executeOrder_idle {R : PaperWorld → PaperWorld → Prop} {w₀ w : PaperWorld}
    (hopen : (w.st.portfolio.cash.get? o.signal.strategyId).isSome)
    (hsize : sizedNow svc w.st.portfolio o = .error reason) (h : Idle w₀ w) :
    (executeOrder svc o).Meets R Idle (fun _ => Idle) w₀ w := by
  have hinit : initCash svc.settings o.signal.strategyId w.st.portfolio = w.st.portfolio :=
    initCash_eq_iff.mpr (Option.isSome_iff_ne_none.mp hopen)
  simp only [sizedNow, hinit] at hsize
  simp only [executeOrder, generateEventId, meets_bind, meets_get, meets_set, meets_modify,
    meets_pure, hinit, hsize]
  have hidle : Idle w₀ { w with st := { w.st with nextId := w.st.nextId + 1 } } :=
    ⟨h.books, h.brackets, h.pendingStops⟩
  cases reason with
  | raises e => exact hidle
  | fails reason => exact emitOrderFailed_meets (fun _ _ => id) hidle

theorem handleValidatedSignal_idle {R : PaperWorld → PaperWorld → Prop}
    (hR : ∀ w w', R w w' → w'.st.portfolio = w.st.portfolio)
    (h : ∀ v, (Message.signal m).signal? = some v → Declined svc w.st v) :
    (handleValidatedSignal svc m).Meets R Idle (fun _ => Idle) w w := by
  unfold handleValidatedSignal
  split
  · exact Idle.refl w
  rename_i htype
  split
  · exact Idle.refl w
  rename_i v hv
  have hdeclined : Declined svc w.st v := h v (by simp_all [Message.signal?, Except.toOption])
  simp only [meets_bind, meets_get]
  split
  · exact Idle.refl w
  rename_i hnew
  have hroute := hdeclined.resolve_left hnew
  simp only [meets_bind, meets_set, executeSignal]
  -- The latency is awaited before the decision.
  have hseen : Idle w { w with st := { w.st with seen := w.st.seen.record (idemKey v) hnew } } :=
    ⟨rfl, rfl, rfl⟩
  refine ((simulateLatency_meets (fun _ _ => id) hseen).stable
    (P := fun w' => w'.st.portfolio = w.st.portfolio)
    (fun _ _ hp hwait => (hR _ _ hwait).trans hp)
    (fun _ _ hp hidle => hidle.unchanged.portfolio.trans hp) rfl).mono ?_
  rintro _ w₁ w₂ ⟨⟨rfl, hidle⟩, hport⟩
  have hport : w₂.st.portfolio = w.st.portfolio := hidle.unchanged.portfolio.trans hport
  dsimp only
  split
  · exact hidle
  · exact emitOrderFailed_meets (fun _ _ => id) hidle
  · rename_i stop hstop
    rw [hstop] at hroute
    exact hroute.elim
  · rename_i order horder
    rw [horder] at hroute
    obtain ⟨hopen, reason, hsize⟩ := hroute
    exact executeOrder_idle (hport ▸ hopen) (hport ▸ hsize) hidle

theorem Unchanged.trans (h : Unchanged w w') (h' : Unchanged w' w'') : Unchanged w w'' :=
  ⟨h'.portfolio.trans h.portfolio, h'.brackets.trans h.brackets,
    h'.pendingStops.trans h.pendingStops, h'.fills.trans h.fills⟩

theorem executeOrder_refused (hsize : sizedNow svc w.st.portfolio o = .error reason)
    (as : List (Option Exc)) :
    (((executeOrder svc o).exec as w).world.st.portfolio.cash.get? o.signal.strategyId).isSome := by
  have hopened := initCash_opened svc.settings o.signal.strategyId w.st.portfolio
  cases reason with
  | raises e =>
    rw [executeOrder_raises as hsize]
    exact hopened
  | fails reason =>
    have hkeeps : (emitOrderFailed o.validated reason).Keeps State.portfolio :=
      emitOrderFailed_keeps fun _ _ => rfl
    rw [executeOrder_refuses as hsize, hkeeps.eq]
    exact hopened

/-- A signal handled alone changes nothing, whatever fails, exactly if it is
declined. -/
theorem declined_iff (svc : Service) (s : State) (v : ValidatedSignal) :
    Declined svc s v ↔ ∀ as, Unchanged (World.start s) (attempt svc v as s).world := by
  constructor
  · intro h as
    have hmeets : (handleValidatedSignal svc ⟨.str EventType.validatedSignal.value, .ok v⟩).Meets
        (fun w w' => w' = w) Idle (fun _ => Idle) (World.start s) (World.start s) :=
      handleValidatedSignal_idle (fun _ _ heq => heq ▸ rfl) (fun v' hv' => by cases hv'; exact h)
    have hstable := hmeets.stable (P := Unchanged (World.start s)) (fun _ _ hp heq => heq ▸ hp)
      (fun _ _ hp hidle => hp.trans hidle.unchanged) ⟨rfl, rfl, rfl, rfl⟩
    refine Prog.Meets.exec (Q := fun _ => Unchanged (World.start s)) (hstable.mono ?_) as
    rintro _ w₀ w ⟨hidle, hp⟩
    exact hp.trans hidle.unchanged
  · intro h
    by_contra hnot
    obtain ⟨hnew, hroute⟩ := not_or.mp hnot
    obtain ⟨w, hst, hw, hexec⟩ := attempt_routed svc [] hnew
    have hunchanged := h []
    rw [hexec, List.drop_nil] at hunchanged
    rcases hrouted : route svc.settings (svc.rng (idemKey v)) v with e | (reason | stop | o) <;>
      simp only [hrouted] at hroute hunchanged
    · exact hroute trivial
    · exact hroute trivial
    · have hstops := congrArg List.length hunchanged.pendingStops
      simp [World.start, hst] at hstops
    · have hanswers := executeOrder_answers svc o [] w hw
      rw [hst] at hanswers
      rcases hsize : sizedNow svc s.portfolio o with reason | qty <;> simp only [hsize] at hroute hanswers
      · have hrefused : sizedNow svc w.st.portfolio o = .error reason := hst ▸ hsize
        have hopen := executeOrder_refused hrefused []
        rw [hunchanged.portfolio] at hopen
        exact hroute ⟨hopen, reason, hsize⟩
      · obtain ⟨orderId, hsub⟩ := hanswers.1 (by simp)
        have hfills := hsub.filterMap Record.fill?
        change List.Sublist _ (fills _) at hfills
        rw [hunchanged.fills] at hfills
        obtain ⟨part, rest, hparts⟩ := List.exists_cons_of_ne_nil
          (splitParts_ne_nil svc.settings (svc.rng (idemKey o.validated)) qty)
        rw [partsOf, hparts] at hfills
        cases hfills

def HoldsDeclined (svc : Service) (c : Config Consumer State Op Exc) :
    Act Consumer Message Exc → Prop
  | .deliver m => ∀ v, m.signal? = some v → v.originalSignal.signalType = .hold →
      Declined svc c.world.st v
  | .resume .. => True

/-- What the handler of a message does between two awaits where HOLDs are
declined. -/
def messageG (svc : Service) (m : Message) (w w' : PaperWorld) : Prop :=
  guarantee svc (fun _ => True) True m.consumer w w' ∧
    ∀ v, m.signal? = some v → v.originalSignal.signalType = .hold → Idle w w'

theorem declined_guarantees (svc : Service) :
    svc.system.Guarantees (HoldsDeclined svc) (fun m => rely svc (fun _ => True) True m.consumer)
      (messageG svc) fun w => Relation.ReflTransGen (Move svc (fun _ => True) True) .init (books w) where
  rely m m' hne w w' hI hG := (system_guarantees svc _ True).rely m m' hne w w' hI hG.1
  trans m := (system_guarantees svc _ True).trans m
  keep m w w' hI hG := (system_guarantees svc _ True).keep m w w' hI hG.1
  refl m := (system_guarantees svc (fun _ => True) True).refl m
  meets := by
    rintro c m - - hP
    by_cases hhold : ∃ v, m.signal? = some v ∧ v.originalSignal.signalType = .hold
    · obtain ⟨v, hv, hhold⟩ := hhold
      cases m with
      | tick m => cases hv
      | signal m =>
        have hG : ∀ w w', Idle w w' → messageG svc (.signal m) w w' := fun w w' hidle =>
          ⟨signalG_of_idle w w' hidle, fun _ _ _ => hidle⟩
        refine (handleValidatedSignal_idle (fun _ _ hticks => (ticks_frame hticks).1)
          fun v' hv' => ?_).weaken hG fun _ => hG
        cases hv.symm.trans hv'
        exact hP v hv hhold
    · have hG : ∀ w w', guarantee svc (fun _ => True) True m.consumer w w' → messageG svc m w w' :=
        fun w w' h => ⟨h, fun v hv hv' => absurd ⟨v, hv, hv'⟩ hhold⟩
      cases m with
      | signal m => exact (handleValidatedSignal_meets fun _ _ => trivial).weaken hG fun _ => hG
      | tick m => exact (handleMarketTick_meets (.inl trivial)).weaken hG fun _ => hG

/-- The step `a` of a run, after `as`, changes nothing if it serves a HOLD. -/
def HoldNeutral (svc : Service) (as : List (Act Consumer Message Exc))
    (a : Act Consumer Message Exc) : Prop :=
  ∀ c c' m v, svc.system.run (Config.start .init) as = some c → svc.system.step c a = some c' →
    svc.system.serving as a = some m → m.signal? = some v →
    v.originalSignal.signalType = .hold → Unchanged c.world c'.world

theorem holdNeutral_of_declined {svc : Service}
    (h : svc.system.Runs (HoldsDeclined svc) (Config.start .init) (as ++ [a])) :
    HoldNeutral svc as a := by
  intro c c' m v hrun hstep hserving hv hhold
  obtain ⟨m', hm', hG⟩ := (declined_guarantees svc).step_within .refl (fun _ => rfl) h hrun hstep
  cases hserving.symm.trans hm'
  exact (hG.2 v hv hhold).unchanged

end Paper

-- ---------------------------------------------------------------------------
-- The risk manager
-- ---------------------------------------------------------------------------

namespace Risk

def currentPosition (signal : Fields) (riskState : RiskState) : Value :=
  (riskState.positions.get? (signal.get "instrument_token").text).getD (.int 0)

/-- `MaxPositionSizeRule` counts the signal as a reduction: the position it
checks is below the one held. -/
def Reduces (signal : Fields) (riskState : RiskState) : Prop :=
  ∃ current position, Number.ofValue (currentPosition signal riskState) = some current ∧
    newPosition signal riskState = .ok position ∧ current.toDecimal.gt position.toDecimal

def ReducesHolding (signal : Fields) (riskState : RiskState) : Prop :=
  ∃ current held quantity, Number.ofValue (currentPosition signal riskState) = some current ∧
    current.toDecimal = .ofRat held ∧
    Number.ofValue (signal.getD "quantity" (.int 0)) = some quantity ∧
      quantity.toDecimal.gt (.ofRat 0)

theorem Number.toDecimal_add_neg (a b : Number) :
    (a.add b.neg).toDecimal = a.toDecimal.add b.toDecimal.neg := by
  rcases a with m | x <;> rcases b with n | y <;>
    simp [Number.add, Number.neg, Number.toDecimal, Decimal.add, Decimal.neg, Decimal.ofRat]

theorem newPosition_eq_ok_iff {signal : Fields} (hbuy : signal.get "signal_type" ≠ .str "BUY")
    (riskState : RiskState) (position : Number) : newPosition signal riskState = .ok position ↔
      ∃ current quantity, Number.ofValue (currentPosition signal riskState) = some current ∧
        Number.ofValue (signal.getD "quantity" (.int 0)) = some quantity ∧
        current.add quantity.neg = position := by
  unfold newPosition
  simp only [if_neg hbuy]
  split
  · rename_i a b ha hb
    constructor
    · rintro ⟨⟩
      exact ⟨a, b, ha, hb, rfl⟩
    · rintro ⟨a', b', ha', hb', rfl⟩
      cases ha.symm.trans ha'
      cases hb.symm.trans hb'
      rfl
  · rename_i hnone
    constructor
    · rintro ⟨⟩
    · rintro ⟨a, b, ha, hb, _⟩
      exact absurd hb (hnone a b ha)

/-- Anything but a BUY counts as a reduction by its quantity. -/
theorem reduces_iff {signal : Fields} (hbuy : signal.get "signal_type" ≠ .str "BUY")
    (riskState : RiskState) : Reduces signal riskState ↔ ReducesHolding signal riskState := by
  unfold Reduces ReducesHolding
  simp only [newPosition_eq_ok_iff hbuy]
  constructor
  · rintro ⟨current, position, hcurrent, ⟨current', quantity, hcurrent', hquantity, rfl⟩, hgt⟩
    cases hcurrent.symm.trans hcurrent'
    rw [Number.toDecimal_add_neg, Decimal.gt_add_neg] at hgt
    obtain ⟨⟨held, hheld⟩, hpositive⟩ := hgt
    exact ⟨current, held, quantity, hcurrent, hheld, hquantity, hpositive⟩
  · rintro ⟨current, held, quantity, hcurrent, hheld, hquantity, hpositive⟩
    refine ⟨current, current.add quantity.neg, hcurrent,
      ⟨current, quantity, hcurrent, hquantity, rfl⟩, ?_⟩
    rw [Number.toDecimal_add_neg, Decimal.gt_add_neg]
    exact ⟨⟨held, hheld⟩, hpositive⟩

/-- The fields of a HOLD that the risk manager is given in a delivery. -/
def IsHold (d : Delivery) (fields : Fields) : Prop :=
  isEventType d.message.type .tradingSignal ∧ (∃ signal, d.message.data = .object fields signal) ∧
    fields.get "signal_type" = .str "HOLD"

end Risk

-- ---------------------------------------------------------------------------
-- Both services
-- ---------------------------------------------------------------------------

namespace Pipeline

/-- A HOLD is without effect on the paper trading service in every run that
starts on no HOLD but declined ones, and the risk manager counts one as a
reduction exactly if it asks for a positive quantity of a finite position. -/
theorem hold_neutral (svc : Paper.Service) (risk : Risk.Service) (s : Risk.State)
    (deliveries : List Risk.Delivery)
    (as : List (Act Paper.Consumer Paper.Message Exc)) (a : Act Paper.Consumer Paper.Message Exc)
    (hdeclined : svc.system.Runs (Paper.HoldsDeclined svc) (Config.start .init) (as ++ [a])) :
    Paper.HoldNeutral svc as a ∧
      ∀ h ∈ risk.run s deliveries, ∀ fields, Risk.IsHold h.delivery fields →
        (¬ Risk.Reduces fields (Risk.readState risk h.before) ↔
          ¬ Risk.ReducesHolding fields (Risk.readState risk h.before)) := by
  refine ⟨Paper.holdNeutral_of_declined hdeclined, ?_⟩
  intro h _ fields hhold
  have hbuy : fields.get "signal_type" ≠ .str "BUY" := by
    rw [hhold.2.2]
    decide
  exact not_congr (Risk.reduces_iff hbuy _)

def buyTen : List (Act Paper.Consumer Paper.Message Exc) :=
  .deliver (.ofSignal (Paper.signalOf .buy 10 100 "09:30:00" .empty)) ::
    List.replicate 5 (.resume .signals none)

def holdAt100 (quantity : ℤ) : ValidatedSignal :=
  Paper.signalOf .hold quantity 100 "09:31:00" .empty

def holdFields (quantity : ℤ) : Risk.Fields :=
  .ofList [("strategy_id", .str "s1"), ("instrument_token", .int 1), ("signal_type", .str "HOLD"),
    ("quantity", .int quantity)]

def holdSignal (quantity : ℤ) : Risk.Delivery where
  message :=
    { id := .str "e1"
      type := .str "trading_signal"
      data := .object (holdFields quantity)
        (.ok
          { strategyId := "s1"
            instrumentToken := 1
            signalType := .hold
            quantity := quantity
            timestamp := ⟨"2026-01-05", "09:30:00"⟩ }) }
  topic := (TopicMap.mk "paper").signalsRaw

/-- A HOLD of more than what is held is refused as a SELL of it would be. -/
theorem hold_twenty_neutral :
    Paper.HoldNeutral .plain buyTen (.deliver (.ofSignal (holdAt100 20))) ∧
      ∀ h ∈ Risk.paperOnly.run {} [holdSignal 20], ∀ fields, Risk.IsHold h.delivery fields →
        (¬Risk.Reduces fields (Risk.readState Risk.paperOnly h.before) ↔
          ¬Risk.ReducesHolding fields (Risk.readState Risk.paperOnly h.before)) := by
  refine hold_neutral .plain Risk.paperOnly {} [holdSignal 20] buyTen _ ?_
  refine System.runs_concat.mpr ⟨System.runs_of_forall fun a ha c => ?_, fun c hrun => ?_⟩
  · rcases List.mem_cons.mp ha with rfl | ha
    · intro v hv hhold
      cases hv
      cases hhold
    · cases (List.mem_replicate.mp ha).2
      trivial
  · have hdeclined : (Paper.Service.plain.system.run (Config.start .init) buyTen).all fun c =>
        decide (Paper.Declined .plain c.world.st (holdAt100 20)) := by
      decide +kernel
    intro v hv _
    cases hv
    rw [hrun] at hdeclined
    exact of_decide_eq_true hdeclined

/-- A HOLD of half of what is held sells it, and counts as a reduction. -/
theorem hold_five_sells : (¬∀ svc as a, Paper.HoldNeutral svc as a) ∧
    ¬∀ (risk : Risk.Service) s deliveries, ∀ h ∈ risk.run s deliveries, ∀ fields,
      Risk.IsHold h.delivery fields → ¬Risk.Reduces fields (Risk.readState risk h.before) := by
  constructor
  · intro hclaim
    have hsold : (Paper.Service.plain.system.run (Config.start .init)
        (buyTen ++ [.deliver (.ofSignal (holdAt100 5)), .resume .signals none])).any fun c =>
          (Paper.Service.plain.system.step c (.resume .signals none)).any fun c' =>
            (Paper.fills c.world.log).length = 1 && (Paper.fills c'.world.log).length = 2 := by
      decide +kernel
    obtain ⟨c, hrun, hsold⟩ := (Option.any_eq_true _ _).mp hsold
    obtain ⟨c', hstep, hsold⟩ := (Option.any_eq_true _ _).mp hsold
    simp only [Bool.and_eq_true, decide_eq_true_eq] at hsold
    have hunchanged := hclaim .plain _ _ c c' (.ofSignal (holdAt100 5)) (holdAt100 5) hrun hstep
      rfl rfl rfl
    have hfills := congrArg List.length hunchanged.fills
    omega
  · intro hclaim
    refine hclaim Risk.paperOnly {} [holdSignal 5] _ List.mem_cons_self (holdFields 5)
      ⟨by decide +kernel, ⟨_, rfl⟩, rfl⟩ ?_
    exact ⟨.int 0, .int (-5), rfl, rfl, by decide +kernel⟩

end Pipeline

end AlphaPanda
