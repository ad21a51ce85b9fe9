import AlphaPanda.Paper.OneOrder

/-!
# The answer to a signal

A validated signal that is not a duplicate asks for the fills of its order or
for the reason it fails, unless the order is to wait for its stop price.
-/

namespace AlphaPanda.Paper

open Coroutine

def Refused (v : ValidatedSignal) (reason : String) (records : List Record) : Prop :=
  ∃ orderId, failedRecord v orderId reason ∈ records

def Sends (as : List (Option Exc)) : Prop := as.headD none = none ∧ as.tail.headD none = none

theorem published_record (w : PaperWorld) (op : Op) (answer : Option Exc) :
    published (w.record op answer).log = published w.log ++ published [(op, answer)] :=
  List.filterMap_append

theorem emitOrderFailed_refuses_iff (v : ValidatedSignal) (reason : String) (as : List (Option Exc))
    (w : PaperWorld) (hw : published w.log = []) :
    Refused v reason (published ((emitOrderFailed v reason).exec as w).world.log) ↔ Sends as := by
  simp only [emitOrderFailed, exec_suppress, generateEventId, exec_bind]
  rw [exec_perform]
  rcases hproducer : as.headD none with _ | e
  · simp only [Outcome.andThen_ok, exec_get, exec_set, exec_pure]
    rw [exec_perform]
    rcases hsend : as.tail.headD none with _ | e
    · refine ⟨fun _ => ⟨hproducer, hsend⟩, fun _ => ⟨w.st.nextId, ?_⟩⟩
      rw [published_record]
      exact List.mem_append_right _ (List.mem_singleton_self _)
    · refine ⟨fun h => ?_, fun h => ?_⟩
      · obtain ⟨orderId, hmem⟩ := h
        rw [published_record, published_record, hw] at hmem
        cases hmem
      · cases hsend.symm.trans h.2
  · refine ⟨fun h => ?_, fun h => ?_⟩
    · obtain ⟨orderId, hmem⟩ := h
      rw [Outcome.andThen_error, published_record, hw] at hmem
      cases hmem
    · cases hproducer.symm.trans h.1

theorem forall_take_succ {as : List (Option Exc)} :
    (∀ r ∈ as.take (n + 1), r = none) ↔
      as.headD none = none ∧ ∀ r ∈ as.tail.take n, r = none := by
  cases as <;> simp

theorem emitFills_publishes (c : PaperTradingSettings) (o : Order) (orderId : OrderId)
    (parts : List ℤ) (as : List (Option Exc)) (w : PaperWorld) :
    ((∀ r ∈ as.take parts.length, r = none) →
      published ((emitFills c o orderId parts).exec as w).world.log =
        published w.log ++ parts.map (filledRecord c o orderId)) ∧
    ((¬∀ r ∈ as.take parts.length, r = none) →
      (published ((emitFills c o orderId parts).exec as w).world.log).length <
        (published w.log).length + parts.length) := by
  induction parts generalizing as w with
  | nil => simp [emitFills]
  | cons qty parts ih =>
    simp only [emitFills, exec_bind, exec_modify, List.length_cons]
    rw [forall_take_succ, exec_perform]
    have hlog : published (w.record (.send (filledRecord c o orderId qty)) none).log =
        published w.log ++ [filledRecord c o orderId qty] := published_record _ _ _
    rcases hsend : as.headD none with _ | e
    · simp only [Outcome.andThen_ok]
      refine ⟨fun h => ?_, fun h => ?_⟩
      · rw [(ih _ _).1 h.2, hlog, List.append_assoc]
        rfl
      · have hlt := (ih as.tail
          ⟨{ w.st with portfolio := o.apply c qty w.st.portfolio },
            (w.record (.send (filledRecord c o orderId qty)) none).log⟩).2 fun h' => h ⟨trivial, h'⟩
        simp only [hlog, List.length_append, List.length_singleton] at hlt
        exact hlt.trans_eq (by omega)
    · refine ⟨fun h => ?_, fun _ => ?_⟩
      · cases h.1
      · simp [World.record, published]

theorem published_extends (p : Handler α) (as : List (Option Exc)) (w : PaperWorld) :
    published w.log <+: published (p.exec as w).world.log := by
  rw [p.exec_log_eq as w]
  simp only [published, List.filterMap_append]
  exact List.prefix_append _ _

theorem fillOrder_publishes_parts (o : Order) (orderId : OrderId) (preQty qty : ℤ)
    (as : List (Option Exc)) (w : PaperWorld) (hw : published w.log = []) :
    ((∀ r ∈ as.take ((partsOf svc o qty).length + 1), r = none) →
      ((partsOf svc o qty).map (filledRecord svc.settings o orderId)).Sublist
        (published ((fillOrder svc o orderId preQty qty).exec as w).world.log)) ∧
    ((¬∀ r ∈ as.take ((partsOf svc o qty).length + 1), r = none) →
      (published ((fillOrder svc o orderId preQty qty).exec as w).world.log).length <
        (partsOf svc o qty).length) := by
  have hw' : published (w.record .getProducer none).log = [] := by
    rw [published_record, hw]
    rfl
  obtain ⟨hall, hfewer⟩ := emitFills_publishes svc.settings o orderId (partsOf svc o qty) as.tail
    (w.record .getProducer none)
  have hok := @emitFills_ok_iff svc.settings o orderId (partsOf svc o qty)
    as.tail (w.record .getProducer none)
  rw [hw'] at hall hfewer
  simp only [fillOrder, exec_bind]
  rw [forall_take_succ, exec_perform]
  rcases hproducer : as.headD none with _ | e
  · simp only [Outcome.andThen_ok]
    by_cases hsent : ∀ r ∈ as.tail.take (partsOf svc o qty).length, r = none
    · refine ⟨fun _ => ?_, fun h => absurd ⟨trivial, hsent⟩ h⟩
      have hall := hall hsent
      generalize (emitFills svc.settings o orderId (partsOf svc o qty)).exec as.tail _ = out at hall hok
      obtain ⟨_ | _, w', as'⟩ := out
      · cases hok.mpr hsent
      · rw [List.nil_append] at hall
        rw [Outcome.andThen_ok, ← hall]
        exact (published_extends _ as' w').sublist
    · refine ⟨fun h => absurd h.2 hsent, fun _ => ?_⟩
      have hfewer := hfewer hsent
      generalize (emitFills svc.settings o orderId (partsOf svc o qty)).exec as.tail _ = out at hfewer hok
      obtain ⟨e | _, w', as'⟩ := out
      · simpa using hfewer
      · exact absurd (hok.mp rfl) hsent
  · refine ⟨fun h => ?_, fun _ => ?_⟩
    · cases h.1
    · rw [Outcome.andThen_error, published_record, hw]
      exact List.length_pos_iff.mpr (splitParts_ne_nil _ _ _)

/-- An order that is not filled is refused, if the event is sent. One that is
filled has all its parts published, or raises. -/
theorem executeOrder_answers (svc : Service) (o : Order) (as : List (Option Exc)) (w : PaperWorld)
    (hw : published w.log = []) :
    match sizedNow svc w.st.portfolio o with
    | .error (.raises e) => (executeOrder svc o).exec as w = ⟨.error e, ⟨opened svc o w.st, w.log⟩, as⟩
    | .error (.fails reason) => ((executeOrder svc o).exec as w).result = .ok () ∧
      (Refused o.validated reason (published ((executeOrder svc o).exec as w).world.log) ↔ Sends as)
    | .ok qty =>
      ((∀ r ∈ as.take ((partsOf svc o qty).length + 1), r = none) →
        ∃ orderId, ((partsOf svc o qty).map (filledRecord svc.settings o orderId)).Sublist
          (published ((executeOrder svc o).exec as w).world.log)) ∧
      ((¬∀ r ∈ as.take ((partsOf svc o qty).length + 1), r = none) →
        (published ((executeOrder svc o).exec as w).world.log).length <
          (partsOf svc o qty).length) := by
  rcases hsize : sizedNow svc w.st.portfolio o with (e | reason) | qty
  · exact executeOrder_raises as hsize
  · simp only [executeOrder_refuses as hsize]
    exact ⟨by simp [emitOrderFailed], emitOrderFailed_refuses_iff _ reason as _ hw⟩
  · simp only [executeOrder_fills as hsize]
    obtain ⟨hall, hfewer⟩ := fillOrder_publishes_parts o w.st.nextId
      ((opened svc o w.st).portfolio.position (key o.signal)).qty qty as ⟨noted svc o w.st, w.log⟩ hw
    exact ⟨fun h => ⟨w.st.nextId, hall h⟩, hfewer⟩

/-- The event of a refusal is sent; a signal whose prices cannot be compared,
whose cash cannot be divided or that is to be filled is not attempted again
once it raised. -/
def AnswersSent (svc : Service) (s : State) (v : ValidatedSignal) (as : List (Option Exc))
    (rest : List (List (Option Exc))) : Prop :=
  match route svc.settings (svc.rng (idemKey v)) v with
  | .error _ => rest = []
  | .ok (.failed _) => Sends (as.drop (latencyAwaits svc.settings))
  | .ok (.pending _) => True
  | .ok (.fillable o) =>
    match sizedNow svc s.portfolio o with
    | .error (.raises _) => rest = []
    | .error (.fails _) => Sends (as.drop (latencyAwaits svc.settings))
    | .ok qty => rest = [] ∨
      ∀ r ∈ (as.drop (latencyAwaits svc.settings)).take ((partsOf svc o qty).length + 1), r = none

theorem simulateLatency_publishes_nothing (c : PaperTradingSettings) (rng : Rng) :
    (simulateLatency c rng).Leaves fun w => published w.log := by
  unfold simulateLatency
  split
  · refine leaves_suppress (leaves_perform fun w answer => ?_)
    rw [published_record]
    exact List.append_nil _
  · exact leaves_pure

theorem attempt_routed {s : State} (svc : Service) (as : List (Option Exc))
    (h : idemKey v ∉ s.seen.keys) :
    ∃ w : PaperWorld, w.st = { s with seen := s.seen.record (idemKey v) h } ∧
      published w.log = [] ∧
      attempt svc v as s = Prog.exec (match route svc.settings (svc.rng (idemKey v)) v with
        | .error e => throw e
        | .ok (.failed reason) => emitOrderFailed v reason
        | .ok (.pending stop) =>
          modify fun s : State => { s with pendingStops := s.pendingStops ++ [stop] }
        | .ok (.fillable order) => executeOrder svc order)
          (as.drop (latencyAwaits svc.settings)) w := by
  obtain ⟨w, hlat, hst⟩ := simulateLatency_exec svc.settings (svc.rng (idemKey v)) as
    (World.start { s with seen := s.seen.record (idemKey v) h })
  refine ⟨w, hst, ?_, ?_⟩
  · have hnothing := simulateLatency_publishes_nothing svc.settings (svc.rng (idemKey v)) as
      (World.start { s with seen := s.seen.record (idemKey v) h })
    rw [hlat] at hnothing
    exact hnothing
  · rw [attempt_new h, executeSignal, exec_bind, hlat]
    rfl

end AlphaPanda.Paper
