import AlphaPanda.Paper.Decisions
import AlphaPanda.Paper.Stops

/-!
# Retrying a signal

The signal handler records its idempotence key before anything can fail, so
a retry of an attempt that raised is dropped as a duplicate.
-/

namespace AlphaPanda.Paper

open Coroutine

/-- One attempt at a validated signal, alone, from a state. -/
def attempt (svc : Service) (v : ValidatedSignal) (as : List (Option Exc)) (s : State) :
    Outcome State Op Exc Unit :=
  (handleValidatedSignal svc ⟨.str EventType.validatedSignal.value, .ok v⟩).exec as (World.start s)

def latencyAwaits (c : PaperTradingSettings) : ℕ :=
  if 0 < c.latencyMsMean ∨ 0 < c.latencyMsStd then 1 else 0

/-- The balance an order that is filled now is sized against. -/
def cashNow (svc : Service) (p : Portfolio) (o : Order) : ℚ :=
  (initCash svc.settings o.signal.strategyId p).cashOf o.signal.strategyId

def sizedNow (svc : Service) (p : Portfolio) (o : Order) : Except Unsized ℤ :=
  let p := initCash svc.settings o.signal.strategyId p
  sizeOrder svc.settings (p.cashOf o.signal.strategyId) (p.position (key o.signal)).qty o

/-- Past the guardrails, neither the limit nor the stop price that has to be
compared is NaN, and where the order is to be filled, the cash can be divided
by its cost. If it is filled, there is a producer and it takes every part. -/
structure Undisturbed (svc : Service) (v : ValidatedSignal) (as : List (Option Exc)) (s : State) :
    Prop where
  comparable : guardrails svc.settings v.originalSignal (basePrice v) = none → ¬Incomparable v
  divides : ∀ o, route svc.settings (svc.rng (idemKey v)) v = .ok (.fillable o) →
    Divides svc.settings (cashNow svc s.portfolio o) o
  sent : ∀ o qty, route svc.settings (svc.rng (idemKey v)) v = .ok (.fillable o) →
    sizedNow svc s.portfolio o = .ok qty →
      ∀ r ∈ (as.drop (latencyAwaits svc.settings)).take ((partsOf svc o qty).length + 1), r = none

-- ---------------------------------------------------------------------------
-- Where an attempt raises
-- ---------------------------------------------------------------------------

theorem emitFills_ok_iff (parts : List ℤ) (as : List (Option Exc)) (w : PaperWorld) :
    ((emitFills c o orderId parts).exec as w).result = .ok () ↔
      ∀ r ∈ as.take parts.length, r = none := by
  induction parts generalizing as w with
  | nil => simp [emitFills]
  | cons qty parts ih =>
    simp only [emitFills, exec_bind]
    rcases as with _ | ⟨_ | e, as⟩ <;> simp [ih]

theorem fillOrder_ok_iff (o : Order) (orderId : OrderId) (preQty qty : ℤ)
    (as : List (Option Exc)) (w : PaperWorld) :
    ((fillOrder svc o orderId preQty qty).exec as w).result = .ok () ↔
      ∀ r ∈ as.take ((partsOf svc o qty).length + 1), r = none := by
  have hafter : ∀ qty as w, ((afterFills svc o orderId preQty qty).exec as w).result = .ok () := by
    intro qty as w
    unfold afterFills
    split <;> simp [emitPnlSnapshot]
  simp only [fillOrder, exec_bind]
  rcases as with _ | ⟨_ | e, as⟩
  · simp [Outcome.andThen_result, hafter, Unique.exists_iff, emitFills_ok_iff]
  · simp [Outcome.andThen_result, hafter, Unique.exists_iff, emitFills_ok_iff]
  · simp

def opened (svc : Service) (o : Order) (s : State) : State :=
  { s with
    nextId := s.nextId + 1
    portfolio := initCash svc.settings o.signal.strategyId s.portfolio }

/-- What was held is noted for an order that is sized. -/
def noted (svc : Service) (o : Order) (s : State) : State :=
  { opened svc o s with
    sized := s.sized ++ [(s.nextId, ((opened svc o s).portfolio.position (key o.signal)).qty)] }

theorem sizedNow_raises_iff : (∃ e, sizedNow svc p o = .error (.raises e)) ↔
    ¬Divides svc.settings (cashNow svc p o) o := sizeOrder_raises_iff

theorem executeOrder_raises (as : List (Option Exc)) {w : PaperWorld}
    (h : sizedNow svc w.st.portfolio o = .error (.raises e)) :
    (executeOrder svc o).exec as w = ⟨.error e, ⟨opened svc o w.st, w.log⟩, as⟩ := by
  simp only [sizedNow] at h
  simp only [executeOrder, generateEventId, exec_bind, exec_get, exec_set, exec_modify, exec_pure,
    Outcome.andThen_ok, h, opened, exec_throw]

theorem executeOrder_refuses (as : List (Option Exc)) {w : PaperWorld}
    (h : sizedNow svc w.st.portfolio o = .error (.fails reason)) : (executeOrder svc o).exec as w =
      (emitOrderFailed o.validated reason).exec as ⟨opened svc o w.st, w.log⟩ := by
  simp only [sizedNow] at h
  simp only [executeOrder, generateEventId, exec_bind, exec_get, exec_set, exec_modify, exec_pure,
    Outcome.andThen_ok, h, opened]

theorem executeOrder_fills (as : List (Option Exc)) {w : PaperWorld}
    (h : sizedNow svc w.st.portfolio o = .ok qty) : (executeOrder svc o).exec as w =
      (fillOrder svc o w.st.nextId ((opened svc o w.st).portfolio.position (key o.signal)).qty
        qty).exec as ⟨noted svc o w.st, w.log⟩ := by
  simp only [sizedNow] at h
  simp only [executeOrder, generateEventId, exec_bind, exec_get, exec_set, exec_modify, exec_pure,
    Outcome.andThen_ok, h, opened, noted]

theorem simulateLatency_exec (c : PaperTradingSettings) (rng : Rng) (as : List (Option Exc))
    (w : PaperWorld) : ∃ w' : PaperWorld,
      (simulateLatency c rng).exec as w = ⟨.ok (), w', as.drop (latencyAwaits c)⟩ ∧
        w'.st = w.st := by
  unfold simulateLatency latencyAwaits
  split
  · rcases as with _ | ⟨_ | e, as⟩ <;> simp only [suppress, exec_tryCatch, exec_perform_nil,
      exec_perform_none, exec_perform_some, Outcome.orElse_ok, Outcome.orElse_error, exec_pure]
    · exact ⟨_, rfl, rfl⟩
    · exact ⟨_, rfl, rfl⟩
    · exact ⟨_, rfl, rfl⟩
  · exact ⟨w, rfl, rfl⟩

theorem attempt_new (h : idemKey v ∉ s.seen.keys) : attempt svc v as s =
    (executeSignal svc v).exec as (World.start { s with seen := s.seen.record (idemKey v) h }) := by
  simp only [attempt, handleValidatedSignal, ne_eq, not_true_eq_false, if_false, exec_bind, exec_get,
    Outcome.andThen_ok, World.start, dif_neg h, exec_set]

theorem attempt_seen (h : idemKey v ∈ s.seen.keys) :
    attempt svc v as s = ⟨.ok (), World.start s, as⟩ := by
  simp only [attempt, handleValidatedSignal, ne_eq, not_true_eq_false, if_false, exec_bind, exec_get,
    Outcome.andThen_ok, World.start, dif_pos h, exec_pure]

theorem emitFills_keeps {f : State → φ} (h : ∀ s p, f { s with portfolio := p } = f s)
    (parts : List ℤ) : (emitFills c o orderId parts).Keeps f := by
  induction parts with
  | nil => exact leaves_pure
  | cons qty parts ih =>
    exact leaves_bind keeps_perform fun _ => leaves_bind (keeps_modify fun s => h s _) fun _ => ih

theorem emitOrderFailed_keeps {f : State → φ} (hid : ∀ s n, f { s with nextId := n } = f s) :
    (emitOrderFailed v reason).Keeps f :=
  leaves_suppress (leaves_bind keeps_perform fun _ =>
    leaves_bind (generateEventId_keeps hid) fun _ => keeps_perform)

theorem emitPnlSnapshot_keeps {f : State → φ} : (emitPnlSnapshot v last).Keeps f := by
  refine leaves_suppress (leaves_bind leaves_get fun s => ?_)
  split
  · exact leaves_throw
  · exact leaves_bind keeps_perform fun _ =>
      leaves_bind (leaves_suppress keeps_perform) fun _ => leaves_suppress keeps_perform

theorem simulateLatency_keeps {f : State → φ} : (simulateLatency c rng).Keeps f := by
  unfold simulateLatency
  split
  · exact leaves_suppress keeps_perform
  · exact leaves_pure

theorem afterFills_keeps {f : State → φ} (h : ∀ s b, f { s with brackets := b } = f s) :
    (afterFills svc o orderId preQty qty).Keeps f := by
  have hset : ∀ k price md s, f (setBracketIfConfigured k price md s) = f s := by
    intro k price md s
    unfold setBracketIfConfigured
    split
    · exact h s _
    · rfl
  unfold afterFills
  split
  · exact leaves_bind (keeps_modify fun s => hset _ _ _ s) fun _ => emitPnlSnapshot_keeps
  · exact emitPnlSnapshot_keeps

theorem executeSignal_keeps_seen : (executeSignal svc v).Keeps State.seen := by
  refine leaves_bind simulateLatency_keeps fun _ => ?_
  split
  · exact leaves_throw
  · exact emitOrderFailed_keeps fun _ _ => rfl
  · exact keeps_modify fun _ => rfl
  · refine leaves_bind (generateEventId_keeps fun _ _ => rfl) fun orderId =>
      leaves_bind (keeps_modify fun _ => rfl) fun _ => leaves_bind leaves_get fun s => ?_
    dsimp only
    split
    · exact leaves_throw
    · exact emitOrderFailed_keeps fun _ _ => rfl
    · exact leaves_bind (keeps_modify fun _ => rfl) fun _ => leaves_bind keeps_perform fun _ =>
        leaves_bind (emitFills_keeps (fun _ _ => rfl) _) fun _ => afterFills_keeps fun _ _ => rfl

theorem attempt_remembered (svc : Service) (v : ValidatedSignal) (as : List (Option Exc)) (s : State) :
    idemKey v ∈ (attempt svc v as s).world.st.seen.keys := by
  by_cases hseen : idemKey v ∈ s.seen.keys
  · rw [attempt_seen hseen]
    exact hseen
  · rw [attempt_new hseen, executeSignal_keeps_seen.eq]
    exact s.seen.mem_record hseen

end AlphaPanda.Paper
