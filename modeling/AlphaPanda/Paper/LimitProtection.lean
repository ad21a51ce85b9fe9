import AlphaPanda.Paper.Outcomes

/-!
# Limit protection

The crossing test looks at the price before slippage, so a fill may be beyond
the limit it was tested against.
-/

namespace AlphaPanda.Paper

open Coroutine

def limitOf (v : ValidatedSignal) : Option Decimal :=
  let ty := orderType v.originalSignal.md
  if ty = "limit" ∨ ty = "stop_limit" then limitPrice ty v.originalSignal.md (basePrice v) else none

structure WithinLimit (side : SignalType) (price : ℚ) (limit : ExtRat) : Prop where
  buy : side = .buy → (ExtRat.fin price).le limit
  sell : side = .sell → limit.le (.fin price)

/-- Every fill of one unit or more that is published for the signal is within
the limit. -/
def LimitProtected (svc : Service) (v : ValidatedSignal) (as : List (Option Exc)) (s : State) : Prop :=
  ∀ limit, limitOf v = some (.num limit) →
    ∀ f ∈ fills (attempt svc v as s).world.log, 1 ≤ f.quantity →
      WithinLimit f.side f.fillPrice limit

/-- The signal is filled: it is new and is to be filled, the account has room
for it, and its first event is sent. -/
structure IsExecuted (svc : Service) (v : ValidatedSignal) (as : List (Option Exc)) (s : State) :
    Prop where
  new : idemKey v ∉ s.seen.keys
  guardrails : guardrails svc.settings v.originalSignal (basePrice v) = none
  now : FillsNow v
  quantity : 1 ≤ v.validatedQuantity
  fits : Fits svc.settings s.portfolio v v.validatedQuantity
  sends : Sends (as.drop (latencyAwaits svc.settings))

-- ---------------------------------------------------------------------------
-- What is filled, whatever fails
-- ---------------------------------------------------------------------------

theorem emitOrderFailed_fills (v : ValidatedSignal) (reason : String) (as : List (Option Exc))
    (w : PaperWorld) : fills ((emitOrderFailed v reason).exec as w).world.log = fills w.log := by
  refine leaves_suppress (f := fun w : PaperWorld => fills w.log)
    (leaves_bind (leaves_perform fun w r => ?_) fun _ =>
      leaves_bind (fun _ _ => rfl) fun orderId => leaves_perform fun w r => ?_) as w
  · exact congrArg Books.fills (books_record_getProducer w)
  · exact congrArg Books.fills (books_record_send w rfl)

theorem PlacesNone.fills {p : Handler α} (h : PlacesNone p) (as : List (Option Exc)) (w : PaperWorld) :
    fills (p.exec as w).world.log = fills w.log := by
  rw [fills_eq, h.orderRecords, fills_eq]

theorem emitFills_fills (parts : List ℤ) (as : List (Option Exc)) (w : PaperWorld) :
    ∃ sent, sent <+: parts ∧ (sent ≠ [] → as.headD none = none) ∧
      fills ((emitFills c o orderId parts).exec as w).world.log =
        fills w.log ++ sent.map (orderFilled c o orderId) := by
  induction parts generalizing as w with
  | nil => exact ⟨[], List.prefix_refl _, fun h => absurd rfl h, (List.append_nil _).symm⟩
  | cons qty parts ih =>
    simp only [emitFills, exec_bind]
    rw [exec_perform]
    cases hanswer : as.headD none with
    | some e =>
      have hrecord : fills (w.record (.send (filledRecord c o orderId qty)) (some e)).log =
          fills w.log := congrArg Books.fills (books_record_some w)
      refine ⟨[], List.nil_prefix, fun h => absurd rfl h, ?_⟩
      simp only [Outcome.andThen_error, hrecord, List.map_nil, List.append_nil]
    | none =>
      have hrecord : fills (w.record (.send (filledRecord c o orderId qty)) none).log =
          fills w.log ++ [orderFilled c o orderId qty] :=
        congrArg Books.fills (books_record_fill w (r := filledRecord c o orderId qty) rfl)
      simp only [Outcome.andThen_ok, exec_modify]
      obtain ⟨sent, hsent, -, hfills⟩ := ih as.tail
        { (w.record (.send (filledRecord c o orderId qty)) none) with
          st := { w.st with portfolio := o.apply c qty w.st.portfolio } }
      refine ⟨qty :: sent, (List.prefix_cons_inj qty).mpr hsent, by simp, ?_⟩
      rw [List.map_cons, List.append_cons, ← hrecord]
      exact hfills

theorem fillOrder_fills (o : Order) (orderId : OrderId) (preQty qty : ℤ) (as : List (Option Exc))
    (w : PaperWorld) (hw : fills w.log = []) :
    ∃ sent, sent <+: partsOf svc o qty ∧ (sent ≠ [] → Sends as) ∧
      fills ((fillOrder svc o orderId preQty qty).exec as w).world.log =
        sent.map (orderFilled svc.settings o orderId) := by
  have hrecord : ∀ answer, fills (w.record .getProducer answer).log = [] := fun answer =>
    (congrArg Books.fills (books_record_getProducer w)).trans hw
  simp only [fillOrder, exec_bind]
  rw [exec_perform]
  cases hanswer : as.headD none with
  | some e => exact ⟨[], List.nil_prefix, fun h => absurd rfl h, hrecord _⟩
  | none =>
    simp only [Outcome.andThen_ok]
    obtain ⟨sent, hsent, hsends, hfills⟩ := @emitFills_fills svc.settings o orderId (partsOf svc o qty)
      as.tail (w.record .getProducer none)
    rw [hrecord, List.nil_append] at hfills
    refine ⟨sent, hsent, fun hne => ⟨hanswer, hsends hne⟩, ?_⟩
    generalize (emitFills svc.settings o orderId (partsOf svc o qty)).exec as.tail _ = out at hfills ⊢
    obtain ⟨e | _, w', as'⟩ := out
    · exact hfills
    · rw [Outcome.andThen_ok, (afterFills_placesNone svc o orderId preQty _).fills]
      exact hfills

theorem attempt_fills (svc : Service) (v : ValidatedSignal) (as : List (Option Exc)) (s : State)
    (hfilled : fills (attempt svc v as s).world.log ≠ []) : idemKey v ∉ s.seen.keys ∧
      Sends (as.drop (latencyAwaits svc.settings)) ∧
      ∃ o qty, ending svc v s.portfolio = .fills o qty ∧
        ∃ orderId sent, sent <+: partsOf svc o qty ∧
          fills (attempt svc v as s).world.log = sent.map (orderFilled svc.settings o orderId) := by
  by_cases hseen : idemKey v ∈ s.seen.keys
  · rw [attempt_seen hseen] at hfilled
    exact absurd rfl hfilled
  refine ⟨hseen, ?_⟩
  obtain ⟨w, hst, hw, hexec⟩ := attempt_routed svc as hseen
  have hfills : fills w.log = [] := by rw [fills, hw]; rfl
  unfold ending
  rcases hroute : route svc.settings (svc.rng (idemKey v)) v with e | (reason | stop | o) <;>
    simp only [hroute] at hexec ⊢ <;> rw [hexec] at hfilled ⊢
  · rw [exec_throw, hfills] at hfilled
    exact absurd rfl hfilled
  · rw [emitOrderFailed_fills v reason _ w, hfills] at hfilled
    exact absurd rfl hfilled
  · rw [exec_modify, hfills] at hfilled
    exact absurd rfl hfilled
  · have hports : w.st.portfolio = s.portfolio := by rw [hst]
    rcases hsize : sizedNow svc s.portfolio o with (e | reason) | qty
    · rw [executeOrder_raises _ (hports ▸ hsize), hfills] at hfilled
      exact absurd rfl hfilled
    · rw [executeOrder_refuses _ (hports ▸ hsize), emitOrderFailed_fills, hfills] at hfilled
      exact absurd rfl hfilled
    · rw [executeOrder_fills _ (hports ▸ hsize)] at hfilled ⊢
      obtain ⟨sent, hsent, hsends, hlog⟩ := fillOrder_fills o _ _ qty _ ⟨noted svc o w.st, w.log⟩ hfills
      have hne : sent ≠ [] := by
        rintro rfl
        exact hfilled hlog
      exact ⟨hsends hne, o, qty, by rw [sizedEnding, hsize], _, sent, hsent, hlog⟩

theorem mem_published_send {w : PaperWorld} (p : Handler α) (as : List (Option Exc)) (r : Record) :
    r ∈ published (p.exec as (w.record (.send r) none)).world.log := by
  refine (published_extends p as _).subset ?_
  rw [published_record]
  exact List.mem_append_right _ List.mem_cons_self

theorem fillOrder_first_fill (o : Order) (orderId : OrderId) (preQty qty : ℤ) (w : PaperWorld)
    (hsends : Sends as) : ∃ p ∈ partsOf svc o qty, orderFilled svc.settings o orderId p ∈
      fills ((fillOrder svc o orderId preQty qty).exec as w).world.log := by
  obtain ⟨part, rest, hparts⟩ := List.exists_cons_of_ne_nil
    (splitParts_ne_nil svc.settings (svc.rng (idemKey o.validated)) qty)
  change partsOf svc o qty = part :: rest at hparts
  refine ⟨part, by rw [hparts]; exact List.mem_cons_self, ?_⟩
  have hrest : fillOrder svc o orderId preQty qty = (do
      Prog.perform .getProducer
      Prog.perform (.send (filledRecord svc.settings o orderId part))
      (do
        modify fun s => { s with portfolio := o.apply svc.settings part s.portfolio }
        emitFills svc.settings o orderId rest
        afterFills svc o orderId preQty ((partsOf svc o qty).getLastD qty))) := by
    simp only [fillOrder, hparts, emitFills, bind_assoc]
  rw [hrest, exec_bind, exec_perform, hsends.1, Outcome.andThen_ok, exec_bind, exec_perform, hsends.2,
    Outcome.andThen_ok]
  exact List.mem_filterMap.mpr ⟨_, mem_published_send _ _ _, rfl⟩

theorem attempt_first_fill (hnew : idemKey v ∉ s.seen.keys)
    (hsends : Sends (as.drop (latencyAwaits svc.settings)))
    (hending : ending svc v s.portfolio = .fills o qty) :
    ∃ orderId, ∃ p ∈ partsOf svc o qty,
      orderFilled svc.settings o orderId p ∈ fills (attempt svc v as s).world.log := by
  obtain ⟨hroute, hsized⟩ := ending_fills hending
  obtain ⟨w, hst, -, hexec⟩ := attempt_routed svc as hnew
  have hports : w.st.portfolio = s.portfolio := by rw [hst]
  simp only [hroute] at hexec
  rw [hexec, executeOrder_fills _ (hports ▸ hsized)]
  exact ⟨_, fillOrder_first_fill o _ _ qty _ hsends⟩

-- ---------------------------------------------------------------------------
-- The limit
-- ---------------------------------------------------------------------------

theorem attempt_fill (hf : f ∈ fills (attempt svc v as s).world.log) (hpos : 1 ≤ f.quantity) :
    IsExecuted svc v as s ∧ f.side = v.originalSignal.signalType ∧
      f.fillPrice = slipped svc.settings v.originalSignal.signalType (basePrice v) := by
  obtain ⟨hnew, hsends, o, qty, hending, orderId, sent, hsent, hfills⟩ :=
    attempt_fills svc v as s (List.ne_nil_of_mem hf)
  rw [hfills] at hf
  obtain ⟨p, hsent_p, rfl⟩ := List.mem_map.mp hf
  have hp : p ∈ partsOf svc o qty := hsent.subset hsent_p
  obtain ⟨hroute, hsized⟩ := ending_fills hending
  have hrouted := (route_fillable hroute).1
  have hqty : 1 ≤ qty := by
    obtain ⟨-, hone | hall⟩ := partsOf_spec svc o qty
    · rw [hone] at hp
      exact List.mem_singleton.mp hp ▸ hpos
    · exact (partsOf_pos_iff svc o qty).mp hall
  have hquantity : 1 ≤ v.validatedQuantity := by
    have := (sizeOrder_cut hsized).1.pos_iff.mp hqty
    obtain h | h := hrouted.quantity <;> omega
  obtain ⟨hguard, hnow, hfits⟩ := (ending_full_iff hquantity).mp ⟨o, qty, hending, hqty⟩
  exact ⟨⟨hnew, hguard, hnow, hquantity, hfits, hsends⟩, congrArg (·.originalSignal.signalType)
    hrouted.validated, hrouted.price⟩

theorem IsExecuted.filled (h : IsExecuted svc v as s) :
    ∃ f ∈ fills (attempt svc v as s).world.log, 1 ≤ f.quantity := by
  obtain ⟨o, qty, hending, hqty⟩ := (ending_full_iff h.quantity).mpr ⟨h.guardrails, h.now, h.fits⟩
  obtain ⟨orderId, p, hp, hmem⟩ := attempt_first_fill h.new h.sends hending
  exact ⟨_, hmem, (partsOf_pos_iff svc o qty).mpr hqty p hp⟩

theorem FillsNow.withinLimit {limit : ExtRat} (h : FillsNow v)
    (hlimit : limitOf v = some (.num limit)) :
    WithinLimit v.originalSignal.signalType (basePrice v) limit := by
  obtain ⟨hty, hlimit⟩ := Option.ite_none_right_eq_some.mp hlimit
  have hcross := h.limit hty
  rw [crossing, hlimit] at hcross
  simp only [isCrossing, Except.ok.injEq] at hcross
  refine ⟨fun hbuy => ?_, fun hsell => ?_⟩
  · rwa [if_pos hbuy] at hcross
  · rwa [if_neg (by rw [hsell]; decide)] at hcross

theorem limit_protected_of_no_slippage (h : svc.settings.slippagePercent = 0) :
    LimitProtected svc v as s := by
  intro limit hlimit f hf hpos
  obtain ⟨hexecuted, hside, hprice⟩ := attempt_fill hf hpos
  have hslip : slipped svc.settings v.originalSignal.signalType (basePrice v) = basePrice v := by
    rw [slipped, h]
    simp
  rw [hside, hprice, hslip]
  exact hexecuted.now.withinLimit hlimit

end AlphaPanda.Paper
