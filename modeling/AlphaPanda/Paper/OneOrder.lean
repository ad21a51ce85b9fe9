import AlphaPanda.Paper.Retry

/-!
# One order per invocation

The events that an invocation of the signal handler publishes are those of a
single order, and an invocation for a signal seen before publishes none.
-/

namespace AlphaPanda.Paper

open Coroutine

def Record.orderId? (r : Record) : Option OrderId :=
  match r.data with
  | .filled f => some f.orderId
  | .failed f => some f.orderId
  | .pnl _ => none

/-- The orders that events were published for. -/
def orderIds (log : List (Op × Option Exc)) : List OrderId :=
  (published log).filterMap Record.orderId?

abbrev PlacesNone (p : Handler α) : Prop := p.Leaves fun w => orderIds w.log

def PlacesOne (p : Handler α) : Prop :=
  ∀ as (w : PaperWorld), orderIds w.log = [] →
    ∃ orderId, ∀ o ∈ orderIds (p.exec as w).world.log, o = orderId

def Places (orderId : OrderId) (p : Handler α) : Prop :=
  ∀ as (w : PaperWorld), (∀ o ∈ orderIds w.log, o = orderId) →
    ∀ o ∈ orderIds (p.exec as w).world.log, o = orderId

theorem orderIds_record (w : PaperWorld) (op : Op) (answer : Option Exc)
    (hop : ∀ r, op = .send r → r.orderId? = none) :
    orderIds (w.record op answer).log = orderIds w.log := by
  simp only [World.record, orderIds, published, List.filterMap_append]
  cases op with
  | send r =>
    cases answer with
    | none => simp [hop r rfl]
    | some e => simp
  | _ => simp

theorem placesNone_perform (hop : ∀ r, op = .send r → r.orderId? = none) :
    PlacesNone (Prog.perform op) := leaves_perform fun w answer => orderIds_record w op answer hop

theorem PlacesNone.places {p : Handler α} (h : PlacesNone p) (orderId : OrderId) :
    Places orderId p := by
  intro as w hw
  rw [show orderIds _ = orderIds w.log from h as w]
  exact hw

theorem Places.bind {p : Handler α} {f : α → Handler β} (hp : Places orderId p)
    (hf : ∀ a, Places orderId (f a)) : Places orderId (p >>= f) := by
  intro as w hw
  have hp := hp as w hw
  rw [exec_bind]
  generalize p.exec as w = out at hp ⊢
  rcases out with ⟨e | a, w', as'⟩
  · exact hp
  · exact hf a as' w' hp

theorem Places.placesOne {p : Handler α} (h : Places orderId p) : PlacesOne p := by
  intro as w hw
  refine ⟨orderId, h as w fun o ho => ?_⟩
  rw [hw] at ho
  cases ho

theorem PlacesOne.after {p : Handler α} {f : α → Handler β} (hp : PlacesNone p)
    (hf : ∀ a, PlacesOne (f a)) : PlacesOne (p >>= f) := by
  intro as w hw
  have hp : orderIds _ = orderIds w.log := hp as w
  rw [exec_bind]
  generalize p.exec as w = out at hp ⊢
  rcases out with ⟨e | a, w', as'⟩
  · rw [Outcome.andThen_error, hp, hw]
    refine ⟨0, fun o ho => ?_⟩
    cases ho
  · exact hf a as' w' (hp.trans hw)

theorem send_places (r : Record) (hr : r.orderId? = some orderId) :
    Places orderId (Prog.perform (.send r)) := by
  intro as w hw o ho
  rw [exec_perform] at ho
  generalize as.headD none = answer at ho
  simp only [World.record, orderIds, published, List.filterMap_append] at ho hw
  rcases List.mem_append.mp ho with ho | ho
  · exact hw o ho
  · cases answer with
    | none =>
      simp [hr] at ho
      exact ho
    | some e => simp at ho

-- ---------------------------------------------------------------------------
-- The handler
-- ---------------------------------------------------------------------------

theorem generateEventId_placesNone : PlacesNone generateEventId := fun _ _ => rfl

theorem emitOrderFailed_placesOne (v : ValidatedSignal) (reason : String) :
    PlacesOne (emitOrderFailed v reason) := by
  have hone : PlacesOne (do
      Prog.perform .getProducer
      let orderId ← generateEventId
      Prog.perform (.send (failedRecord v orderId reason))) :=
    .after (placesNone_perform (by simp)) fun _ => .after generateEventId_placesNone fun orderId =>
      (send_places _ rfl).placesOne
  intro as w hw
  rw [emitOrderFailed, exec_suppress]
  exact hone as w hw

theorem emitFills_places (c : PaperTradingSettings) (o : Order) (orderId : OrderId)
    (parts : List ℤ) : Places orderId (emitFills c o orderId parts) := by
  induction parts with
  | nil => exact PlacesNone.places leaves_pure orderId
  | cons qty parts ih =>
    refine (send_places _ rfl).bind fun _ => Places.bind ?_ fun _ => ih
    exact PlacesNone.places (leaves_modify fun _ => rfl) orderId

theorem emitPnlSnapshot_placesNone (v : ValidatedSignal) (last : OrderFilled) :
    PlacesNone (emitPnlSnapshot v last) := by
  refine leaves_suppress (leaves_bind leaves_get fun s => ?_)
  split
  · exact leaves_throw
  · refine leaves_bind (placesNone_perform ?_) fun _ => leaves_bind
      (leaves_suppress (placesNone_perform (by simp))) fun _ =>
        leaves_suppress (placesNone_perform (by simp))
    rintro r ⟨⟩
    rfl

theorem afterFills_placesNone (svc : Service) (o : Order) (orderId : OrderId) (preQty qty : ℤ) :
    PlacesNone (afterFills svc o orderId preQty qty) := by
  unfold afterFills
  split
  · exact leaves_bind (leaves_modify fun _ => rfl) fun _ => emitPnlSnapshot_placesNone _ _
  · exact emitPnlSnapshot_placesNone _ _

theorem executeOrder_placesOne (svc : Service) (o : Order) : PlacesOne (executeOrder svc o) := by
  refine .after generateEventId_placesNone fun orderId =>
    .after (leaves_modify fun _ => rfl) fun _ => .after leaves_get fun s => ?_
  dsimp only
  split
  · exact (PlacesNone.places leaves_throw 0).placesOne
  · exact emitOrderFailed_placesOne _ _
  · refine .after (leaves_modify fun _ => rfl) fun _ => .after (placesNone_perform (by simp)) fun _ => ?_
    exact ((emitFills_places _ o orderId _).bind fun _ =>
      PlacesNone.places (afterFills_placesNone svc o orderId _ _) orderId).placesOne

theorem simulateLatency_placesNone (c : PaperTradingSettings) (rng : Rng) :
    PlacesNone (simulateLatency c rng) := by
  unfold simulateLatency
  split
  · exact leaves_suppress (placesNone_perform (by simp))
  · exact leaves_pure

theorem executeSignal_placesOne (svc : Service) (v : ValidatedSignal) :
    PlacesOne (executeSignal svc v) := by
  refine .after (simulateLatency_placesNone _ _) fun _ => ?_
  split
  · exact (PlacesNone.places leaves_throw 0).placesOne
  · exact emitOrderFailed_placesOne _ _
  · exact (PlacesNone.places (leaves_modify fun _ => rfl) 0).placesOne
  · exact executeOrder_placesOne svc _

theorem attempt_one_order (svc : Service) (v : ValidatedSignal) (as : List (Option Exc)) (s : State) :
    ∃ orderId, ∀ o ∈ orderIds (attempt svc v as s).world.log, o = orderId := by
  by_cases hseen : idemKey v ∈ s.seen.keys
  · rw [attempt_seen hseen]
    refine ⟨0, fun o ho => ?_⟩
    cases ho
  · rw [attempt_new hseen]
    exact executeSignal_placesOne svc v as _ rfl

end AlphaPanda.Paper
