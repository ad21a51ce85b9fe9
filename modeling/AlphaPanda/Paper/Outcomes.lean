import AlphaPanda.Paper.Answers
import AlphaPanda.Paper.Decisions

/-!
# What an order comes to

The end of a signal that is not a duplicate: `ending` reads it off the signal
and the portfolio, and the handler comes to it whenever its sends succeed
(`attempt_ends`).
-/

namespace AlphaPanda.Paper

open Coroutine

-- ---------------------------------------------------------------------------
-- The end of a signal
-- ---------------------------------------------------------------------------

/-- How the handler ends with a new signal. One that is refused for its size
has its strategy's balance started before. -/
inductive Ending where
  | raises (e : Exc)
  | refuses (reason : String) (opened : Bool)
  | waits (stop : PendingStop)
  | fills (o : Order) (qty : ℤ)

def sizedEnding (svc : Service) (p : Portfolio) (o : Order) : Ending :=
  match sizedNow svc p o with
  | .error (.raises e) => .raises e
  | .error (.fails reason) => .refuses reason true
  | .ok qty => .fills o qty

def ending (svc : Service) (v : ValidatedSignal) (p : Portfolio) : Ending :=
  match route svc.settings (svc.rng (idemKey v)) v with
  | .error e => .raises e
  | .ok (.failed reason) => .refuses reason false
  | .ok (.pending stop) => .waits stop
  | .ok (.fillable o) => sizedEnding svc p o

def CashDivides (c : PaperTradingSettings) (p : Portfolio) (v : ValidatedSignal) : Prop :=
  let s := v.originalSignal
  Divides c ((initCash c s.strategyId p).cashOf s.strategyId)
    (orderOf c v (orderType s.md) v.validatedQuantity)

/-- The account and the limits have room for `qty` units of the signal. -/
def Fits (c : PaperTradingSettings) (p : Portfolio) (v : ValidatedSignal) (qty : ℤ) : Prop :=
  let s := v.originalSignal
  Sizes c ((initCash c s.strategyId p).cashOf s.strategyId) (p.position (key s)).qty
    (orderOf c v (orderType s.md) qty)

theorem sizedNow_ok_iff (svc : Service) (p : Portfolio) (v : ValidatedSignal) (ty : String) (n : ℤ) :
    (∃ qty, sizedNow svc p (orderOf svc.settings v ty n) = .ok qty) ↔ Fits svc.settings p v n := by
  have hheld : (initCash svc.settings v.originalSignal.strategyId p).position (key v.originalSignal) =
      p.position (key v.originalSignal) := by
    rw [Portfolio.position, initCash_position]
    rfl
  simp only [sizedNow, Fits, ← hheld]
  exact sizeOrder_ok_iff.trans ⟨fun h => ⟨h.divides, h.cash, h.notional, h.held⟩,
    fun h => ⟨h.divides, h.cash, h.notional, h.held⟩⟩

theorem sizedEnding_fills (h : sizedEnding svc p o = .fills o' qty) :
    o' = o ∧ sizedNow svc p o = .ok qty := by
  unfold sizedEnding at h
  split at h
  · cases h
  · cases h
  · cases h
    exact ⟨rfl, ‹_›⟩

theorem ending_fills (h : ending svc v p = .fills o qty) :
    route svc.settings (svc.rng (idemKey v)) v = .ok (.fillable o) ∧
      sizedNow svc p o = .ok qty := by
  unfold ending at h
  split at h
  · cases h
  · cases h
  · cases h
  · obtain ⟨rfl, hsized⟩ := sizedEnding_fills h
    exact ⟨‹_›, hsized⟩

/-- What an order of `n` units comes to, by the conditions on the account. -/
inductive SizedSpec (c : PaperTradingSettings) (p : Portfolio) (v : ValidatedSignal) (n : ℤ) :
    Ending → Prop
  | undivided (h : ¬CashDivides c p v) (e : Exc) : SizedSpec c p v n (.raises e)
  | unfit (hdivides : CashDivides c p v) (h : ¬Fits c p v n) (reason : String) :
      SizedSpec c p v n (.refuses reason true)
  | fits (h : Fits c p v n) (o : Order) (qty : ℤ) (hpos : 1 ≤ qty ↔ 1 ≤ n) :
      SizedSpec c p v n (.fills o qty)

theorem sizedEnding_spec (svc : Service) (p : Portfolio) (v : ValidatedSignal) (ty : String) (n : ℤ) :
    SizedSpec svc.settings p v n (sizedEnding svc p (orderOf svc.settings v ty n)) := by
  have hraises : _ ↔ ¬CashDivides svc.settings p v :=
    @sizedNow_raises_iff svc p (orderOf svc.settings v ty n)
  have hok := sizedNow_ok_iff svc p v ty n
  unfold sizedEnding
  rcases hsize : sizedNow svc p (orderOf svc.settings v ty n) with (e | reason) | qty
  · exact .undivided (hraises.mp ⟨e, hsize⟩) e
  · refine .unfit (not_not.mp (mt hraises.mpr ?_)) (mt hok.mpr ?_) reason
    · simp [hsize]
    · simp [hsize]
  · exact .fits (hok.mp ⟨qty, hsize⟩) _ qty (sizeOrder_cut hsize).1.pos_iff

/-- What a new signal comes to, by the conditions on the signal and the account. -/
inductive EndingSpec (svc : Service) (v : ValidatedSignal) (p : Portfolio) : Ending → Prop
  | guarded (h : guardrails svc.settings v.originalSignal (basePrice v) ≠ none) (reason : String) :
      EndingSpec svc v p (.refuses reason false)
  | incomparable (hguard : guardrails svc.settings v.originalSignal (basePrice v) = none)
      (h : Incomparable v) (e : Exc) : EndingSpec svc v p (.raises e)
  | now (hguard : guardrails svc.settings v.originalSignal (basePrice v) = none) (h : FillsNow v)
      (hsized : SizedSpec svc.settings p v v.validatedQuantity e) : EndingSpec svc v p e
  | leftOpen (hguard : guardrails svc.settings v.originalSignal (basePrice v) = none) (h : LeftOpen v)
      (hsized : SizedSpec svc.settings p v 0 e) : EndingSpec svc v p e
  | other (hguard : guardrails svc.settings v.originalSignal (basePrice v) = none)
      (h : ¬Incomparable v ∧ ¬FillsNow v ∧ ¬LeftOpen v)
      (he : (∃ reason, e = .refuses reason false) ∨ ∃ stop, e = .waits stop) : EndingSpec svc v p e

theorem ending_spec (svc : Service) (p : Portfolio) (hq : 1 ≤ v.validatedQuantity) :
    EndingSpec svc v p (ending svc v p) := by
  rcases hguard : guardrails svc.settings v.originalSignal (basePrice v) with _ | reason
  swap
  · simp only [ending, route, hguard]
    exact .guarded (by simp [hguard]) reason
  have hspec := route_spec svc.settings (svc.rng (idemKey v)) hq hguard
  unfold ending
  generalize route svc.settings (svc.rng (idemKey v)) v = r at hspec ⊢
  cases hspec with
  | incomparable h e => exact .incomparable hguard h e
  | full h ty => exact .now hguard h (sizedEnding_spec svc p v ty _)
  | leftOpen h => exact .leftOpen hguard h (sizedEnding_spec svc p v "limit" 0)
  | other h r hr =>
    refine .other hguard h ?_
    cases r with
    | fillable o => exact absurd rfl (hr o)
    | failed reason => exact .inl ⟨reason, rfl⟩
    | pending stop => exact .inr ⟨stop, rfl⟩

theorem ending_full_iff {svc : Service} (hq : 1 ≤ v.validatedQuantity) :
    (∃ o qty, ending svc v p = .fills o qty ∧ 1 ≤ qty) ↔
      guardrails svc.settings v.originalSignal (basePrice v) = none ∧ FillsNow v ∧
        Fits svc.settings p v v.validatedQuantity := by
  have hspec := ending_spec svc p hq
  generalize ending svc v p = e at hspec ⊢
  cases hspec with
  | guarded h reason => simp [h]
  | incomparable hguard h e => simp [h.not_fillsNow]
  | now hguard h hsized =>
    simp only [hguard, h, true_and]
    cases hsized with
    | undivided hdivides e => simpa using fun hfits : Fits _ _ _ _ => hdivides hfits.divides
    | unfit _ hfits reason => simp [hfits]
    | fits hfits o qty hpos => simp [hfits, hpos, hq]
  | leftOpen hguard h hsized =>
    simp only [h.not_fillsNow, false_and, and_false, iff_false]
    cases hsized with
    | undivided | unfit => simp
    | fits hfits o qty hpos => simp [hpos]
  | other hguard h he =>
    obtain ⟨reason, rfl⟩ | ⟨stop, rfl⟩ := he <;> simp [h.2.1]

def Ending.records (svc : Service) (v : ValidatedSignal) (orderId : OrderId) : Ending → List Record
  | .raises _ | .waits _ => []
  | .refuses reason _ => [failedRecord v orderId reason]
  | .fills o qty => (partsOf svc o qty).map (filledRecord svc.settings o orderId)

def Ending.stops : Ending → List PendingStop
  | .waits stop => [stop]
  | _ => []

def Ending.Fills (e : Ending) : Prop := ∃ o qty, e = .fills o qty

def orderRecords (log : List (Op × Option Exc)) : List Record :=
  (published log).filter (·.orderId?.isSome)

def Op.publishes : Op → Bool
  | .getProducer | .send _ => true
  | _ => false

/-- The events of the log were all sent, through a producer there is. -/
def AllSent (log : List (Op × Option Exc)) : Prop := ∀ x ∈ log, x.1.publishes → x.2 = none

instance decidableAllSent (log : List (Op × Option Exc)) : Decidable (AllSent log) :=
  inferInstanceAs (Decidable (∀ x ∈ log, x.1.publishes → x.2 = none))

structure Ends (svc : Service) (v : ValidatedSignal) (s s' : State) (log : List (Op × Option Exc))
    (e : Ending) : Prop where
  records : ∃ orderId, orderRecords log = e.records svc v orderId
  stops : s'.pendingStops = s.pendingStops ++ e.stops
  portfolio : ∀ reason opened, e = .refuses reason opened → s'.portfolio =
    if opened then initCash svc.settings v.originalSignal.strategyId s.portfolio else s.portfolio
  brackets : ¬e.Fills → s'.brackets = s.brackets

theorem AllSent.before {p : Handler α} (h : AllSent (p.exec as w).world.log) : AllSent w.log := by
  rw [p.exec_log_eq as w] at h
  exact fun x hx => h x (List.mem_append_left _ hx)

theorem AllSent.last (h : AllSent (World.record w op answer).log)
    (hop : op.publishes) : answer = none :=
  h (op, answer) (List.mem_append_right _ (List.mem_singleton_self _)) hop

theorem AllSent.bind {p : Handler α} {f : α → Handler β}
    (h : AllSent ((p >>= f).exec as w).world.log) : AllSent (p.exec as w).world.log := by
  rw [exec_bind] at h
  generalize p.exec as w = out at h ⊢
  obtain ⟨e | a, w', as'⟩ := out
  · exact h
  · exact AllSent.before h

theorem AllSent.perform {f : Unit → Handler α} (hop : op.publishes)
    (h : AllSent ((Prog.perform op >>= f).exec as w).world.log) : as.headD none = none ∧
      (Prog.perform op >>= f).exec as w = (f ()).exec as.tail (w.record op none) := by
  have hfirst := h.bind
  rw [exec_perform] at hfirst
  have hanswer := AllSent.last hfirst hop
  refine ⟨hanswer, ?_⟩
  rw [exec_bind, exec_perform, hanswer]
  rfl

theorem emitOrderFailed_sent
    (h : AllSent ((emitOrderFailed v reason).exec as w).world.log) :
    published ((emitOrderFailed v reason).exec as w).world.log =
      published w.log ++ [failedRecord v w.st.nextId reason] := by
  rw [emitOrderFailed, exec_suppress] at h ⊢
  obtain ⟨-, hexec⟩ := AllSent.perform rfl h
  rw [hexec] at h ⊢
  simp only [generateEventId, exec_bind, exec_get, exec_set, exec_pure, Outcome.andThen_ok,
    exec_perform] at h ⊢
  have hanswer := AllSent.last h rfl
  rw [hanswer, published_record]
  change published (w.record .getProducer none).log ++ _ = _
  rw [published_record]
  simp [published, World.record]

theorem emitFills_sent (parts : List ℤ)
    (h : AllSent ((emitFills c o orderId parts).exec as w).world.log) :
    ∀ r ∈ as.take parts.length, r = none := by
  induction parts generalizing as w with
  | nil => simp
  | cons qty parts ih =>
    obtain ⟨hanswer, hexec⟩ := AllSent.perform rfl h
    rw [emitFills] at h
    rw [hexec] at h
    rw [List.length_cons, forall_take_succ]
    exact ⟨hanswer, ih (by simpa only [exec_bind, exec_modify, Outcome.andThen_ok] using h)⟩

theorem PlacesNone.orderRecords {p : Handler α} (h : PlacesNone p) (as : List (Option Exc))
    (w : PaperWorld) : orderRecords (p.exec as w).world.log = orderRecords w.log := by
  obtain ⟨later, hlater⟩ := published_extends p as w
  have hids : orderIds (p.exec as w).world.log = orderIds w.log := h as w
  simp only [orderIds, ← hlater, List.filterMap_append, List.append_right_eq_self] at hids
  simp only [Paper.orderRecords, ← hlater, List.filter_append, List.append_right_eq_self,
    List.filter_eq_nil_iff]
  intro r hr
  simp [List.filterMap_eq_nil_iff.mp hids r hr]

theorem fillOrder_sent (o : Order) (orderId : OrderId) (preQty qty : ℤ)
    (h : AllSent ((fillOrder svc o orderId preQty qty).exec as w).world.log) :
    orderRecords ((fillOrder svc o orderId preQty qty).exec as w).world.log =
      orderRecords w.log ++ (partsOf svc o qty).map (filledRecord svc.settings o orderId) := by
  obtain ⟨-, hexec⟩ := AllSent.perform rfl h
  rw [fillOrder] at h ⊢
  rw [hexec] at h ⊢
  have hsent := emitFills_sent _ h.bind
  have hpublished := (emitFills_publishes svc.settings o orderId (partsOf svc o qty) as.tail
    (w.record .getProducer none)).1 hsent
  have hok := (@emitFills_ok_iff svc.settings o orderId _ as.tail
    (w.record .getProducer none)).mpr hsent
  rw [exec_bind]
  generalize (emitFills svc.settings o orderId (partsOf svc o qty)).exec as.tail _ = out
    at hpublished hok ⊢
  obtain ⟨_ | _, w', as'⟩ := out
  · cases hok
  · rw [Outcome.andThen_ok, (afterFills_placesNone svc o orderId preQty _).orderRecords]
    simp only [orderRecords, hpublished, List.filter_append]
    rw [published_record, List.filter_append]
    simp [published, filledRecord, orderRecord, Record.orderId?, List.filter_map, Function.comp_def]

theorem orderRecords_eq_nil (h : published log = []) : orderRecords log = [] := by
  rw [orderRecords, h]
  rfl

theorem emitOrderFailed_ends (svc : Service) {w : PaperWorld} (hw : published w.log = [])
    (h : AllSent ((emitOrderFailed v reason).exec as w).world.log) :
    Ends svc v w.st ((emitOrderFailed v reason).exec as w).world.st
      ((emitOrderFailed v reason).exec as w).world.log (.refuses reason false) := by
  refine ⟨⟨w.st.nextId, ?_⟩, ?_, fun _ _ hrefuses => ?_, fun _ => ?_⟩
  · rw [orderRecords, emitOrderFailed_sent h, hw]
    rfl
  · rw [(emitOrderFailed_keeps (f := State.pendingStops) fun _ _ => rfl).eq]
    exact (List.append_nil _).symm
  · cases hrefuses
    exact (emitOrderFailed_keeps (f := State.portfolio) fun _ _ => rfl).eq as w
  · exact (emitOrderFailed_keeps (f := State.brackets) fun _ _ => rfl).eq as w

theorem fillOrder_keeps_stops (o : Order) (orderId : OrderId) (preQty qty : ℤ) :
    (fillOrder svc o orderId preQty qty).Keeps State.pendingStops := by
  unfold fillOrder
  exact leaves_bind keeps_perform fun _ =>
    leaves_bind (emitFills_keeps (fun _ _ => rfl) _) fun _ => afterFills_keeps fun _ _ => rfl

theorem executeOrder_ends (o : Order) (hw : published w.log = [])
    (h : AllSent ((executeOrder svc o).exec as w).world.log) :
    Ends svc o.validated w.st ((executeOrder svc o).exec as w).world.st
      ((executeOrder svc o).exec as w).world.log (sizedEnding svc w.st.portfolio o) := by
  rcases hsize : sizedNow svc w.st.portfolio o with (e | reason) | qty
  · rw [executeOrder_raises as hsize]
    simp only [sizedEnding, hsize]
    exact ⟨⟨0, orderRecords_eq_nil hw⟩, (List.append_nil _).symm, fun _ _ h => (by cases h), fun _ => rfl⟩
  · rw [executeOrder_refuses as hsize] at h ⊢
    have hends := emitOrderFailed_ends svc (w := ⟨opened svc o w.st, w.log⟩) hw h
    simp only [sizedEnding, hsize]
    refine ⟨hends.records, hends.stops, fun _ _ hrefuses => ?_, fun _ => ?_⟩
    · cases hrefuses
      exact (emitOrderFailed_keeps (f := State.portfolio) fun _ _ => rfl).eq as _
    · exact (emitOrderFailed_keeps (f := State.brackets) fun _ _ => rfl).eq as _
  · rw [executeOrder_fills as hsize] at h ⊢
    simp only [sizedEnding, hsize]
    refine ⟨⟨w.st.nextId, ?_⟩, ?_, fun _ _ h => (by cases h),
      fun hfills => absurd ⟨o, qty, rfl⟩ hfills⟩
    · rw [fillOrder_sent o _ _ qty h, orderRecords_eq_nil hw]
      rfl
    · rw [(fillOrder_keeps_stops o _ _ qty).eq]
      exact (List.append_nil _).symm

theorem Ends.congr (h : Ends svc v s₁ s' log e) (hportfolio : s₁.portfolio = s.portfolio)
    (hbrackets : s₁.brackets = s.brackets) (hstops : s₁.pendingStops = s.pendingStops) :
    Ends svc v s s' log e :=
  ⟨h.records, hstops ▸ h.stops, hportfolio ▸ h.portfolio, hbrackets ▸ h.brackets⟩

theorem attempt_ends (hnew : idemKey v ∉ s.seen.keys)
    (hsent : AllSent (attempt svc v as s).world.log) :
    Ends svc v s (attempt svc v as s).world.st (attempt svc v as s).world.log
      (ending svc v s.portfolio) := by
  obtain ⟨w, hst, hw, hexec⟩ := attempt_routed svc as hnew
  have hcame : Ends svc v w.st (attempt svc v as s).world.st (attempt svc v as s).world.log
      (ending svc v w.st.portfolio) := by
    unfold ending
    rcases hroute : route svc.settings (svc.rng (idemKey v)) v with e | (reason | stop | o) <;>
      simp only [hroute] at hexec ⊢ <;> rw [hexec] at hsent ⊢
    · exact ⟨⟨0, orderRecords_eq_nil hw⟩, (List.append_nil _).symm, fun _ _ h => (by cases h),
        fun _ => rfl⟩
    · exact emitOrderFailed_ends svc hw hsent
    · exact ⟨⟨0, orderRecords_eq_nil hw⟩, rfl, fun _ _ h => (by cases h), fun _ => rfl⟩
    · obtain rfl : o.validated = v := (route_fillable hroute).1.validated
      exact executeOrder_ends o hw hsent
  rw [hst] at hcame
  exact hcame.congr rfl rfl rfl

-- ---------------------------------------------------------------------------
-- The events of an ending
-- ---------------------------------------------------------------------------

def Record.failure? (r : Record) : Option OrderFailed :=
  match r.data with
  | .failed f => some f
  | _ => none

def failures (log : List (Op × Option Exc)) : List OrderFailed :=
  (published log).filterMap Record.failure?

theorem filterMap_orderRecords {f : Record → Option φ}
    (hf : ∀ r : Record, r.orderId? = none → f r = none) (log : List (Op × Option Exc)) :
    (orderRecords log).filterMap f = (published log).filterMap f := by
  rw [orderRecords, List.filterMap_filter]
  refine List.filterMap_congr fun r _ => ?_
  split
  · rfl
  · rename_i hnone
    exact (hf r (Option.not_isSome_iff_eq_none.mp hnone)).symm

theorem fill?_of_no_order (r : Record) (h : r.orderId? = none) : r.fill? = none := by
  unfold Record.orderId? at h
  unfold Record.fill?
  split at h <;> simp_all

theorem failure?_of_no_order (r : Record) (h : r.orderId? = none) : r.failure? = none := by
  unfold Record.orderId? at h
  unfold Record.failure?
  split at h <;> simp_all

theorem fills_eq (log : List (Op × Option Exc)) : fills log = (orderRecords log).filterMap Record.fill? :=
  (filterMap_orderRecords fill?_of_no_order log).symm

theorem failures_eq (log : List (Op × Option Exc)) :
    failures log = (orderRecords log).filterMap Record.failure? :=
  (filterMap_orderRecords failure?_of_no_order log).symm

theorem Ends.fills_filled (h : Ends svc v s s' log (.fills o qty)) :
    ∃ orderId, fills log = (partsOf svc o qty).map (orderFilled svc.settings o orderId) ∧
      failures log = [] := by
  obtain ⟨orderId, hrecords⟩ := h.records
  refine ⟨orderId, ?_, ?_⟩
  · rw [fills_eq, hrecords, Ending.records, List.filterMap_map]
    exact congrFun List.filterMap_eq_map _
  · rw [failures_eq, hrecords, Ending.records, List.filterMap_map]
    exact List.filterMap_eq_nil_iff.mpr fun _ _ => rfl

theorem Ends.fills_nil (h : Ends svc v s s' log e) (he : ¬e.Fills) : fills log = [] := by
  obtain ⟨orderId, hrecords⟩ := h.records
  rw [fills_eq, hrecords]
  cases e with
  | fills o qty => exact absurd ⟨o, qty, rfl⟩ he
  | raises _ | refuses _ _ | waits _ => rfl

theorem partsOf_pos_iff (svc : Service) (o : Order) (qty : ℤ) :
    (∀ p ∈ partsOf svc o qty, 1 ≤ p) ↔ 1 ≤ qty := by
  obtain ⟨hsum, hone | hall⟩ := partsOf_spec svc o qty
  · rw [hone, List.forall_mem_singleton]
  · refine ⟨fun h => ?_, fun _ => hall⟩
    obtain ⟨part, rest, hparts⟩ := List.exists_cons_of_ne_nil
      (splitParts_ne_nil svc.settings (svc.rng (idemKey o.validated)) qty)
    change partsOf svc o qty = part :: rest at hparts
    rw [hparts] at h hsum
    rw [List.sum_cons] at hsum
    have hrest : 0 ≤ rest.sum :=
      List.sum_nonneg fun p hp => by have := h p (List.mem_cons_of_mem _ hp); omega
    have hpart := h part List.mem_cons_self
    omega

end AlphaPanda.Paper
