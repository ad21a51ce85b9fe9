import AlphaPanda.Strategies.Features

/-!
# Restarting a strategy

A runner that is restarted builds new executors, whose histories are empty. An
executor keeps nothing else between ticks: once it has accepted as many ticks
as its history holds, it returns what it would have returned without the
restart. Until then a rule-based strategy returns nothing.
-/

namespace AlphaPanda.Strategies

-- ---------------------------------------------------------------------------
-- What an executor remembers
-- ---------------------------------------------------------------------------

namespace StrategyExecutor

theorem feed_append [Field K] [LinearOrder K] (e : StrategyExecutor ρ K) (before after : List MarketTick) :
    e.feed (before ++ after) = (e.feed before).feed after :=
  List.foldl_append

section
variable [Field K] [LinearOrder K]
variable (p : StrategyProcessor Unit K) (v : StandardStrategyValidator) (c : StrategyConfig)

omit [Field K] [LinearOrder K] in
theorem accepted_append (before after : List MarketTick) :
    accepted p v c () (before ++ after) = accepted p v c () before ++ accepted p v c () after :=
  List.filter_append ..

/-- It remembers no more than the last ticks that it has accepted. -/
theorem processTick_forgets (before : List MarketTick) {after : List MarketTick} {tick : MarketTick}
    (h : p.requiredHistoryLength ≤ (accepted p v c () (after ++ [tick])).length) :
    (((init p v c ()).feed after).processTick tick).1 =
      (((init p v c ()).feed (before ++ after)).processTick tick).1 := by
  have hwindow : (accepted p v c () (before ++ (after ++ [tick]))).rtake p.requiredHistoryLength =
      (accepted p v c () (after ++ [tick])).rtake p.requiredHistoryLength := by
    rw [accepted_append, List.rtake_append_of_le _ h]
  rw [processTick_accepted, processTick_accepted, List.append_assoc, hwindow]

theorem processTick_declined {ticks : List MarketTick} {tick : MarketTick}
    (h : (init p v c ()).canProcessTick tick = false) :
    (((init p v c ()).feed ticks).processTick tick).1 = .ok none := by
  rw [processTick_accepted, h]
  rfl

theorem results_forget (before : List MarketTick) {warm : List MarketTick}
    (h : p.requiredHistoryLength ≤ (accepted p v c () warm).length + 1) (rest : List MarketTick) :
    ((init p v c ()).feed warm).results rest = ((init p v c ()).feed (before ++ warm)).results rest := by
  induction rest using List.reverseRecOn with
  | nil => rfl
  | append_singleton rest tick ih =>
    rw [results_concat, results_concat, ih, ← feed_append, ← feed_append, List.append_assoc]
    congr 3
    by_cases hcan : (init p v c ()).canProcessTick tick
    · refine processTick_forgets p v c before ?_
      rw [accepted_append, accepted_append, List.length_append, List.length_append]
      have hone : (accepted p v c () [tick]).length = 1 := by
        rw [accepted, List.filter_cons_of_pos hcan]
        rfl
      omega
    · rw [Bool.not_eq_true] at hcan
      rw [processTick_declined p v c hcan, processTick_declined p v c hcan]

end

end StrategyExecutor

/-- The same for the same tick, or nothing yet. -/
def Quieter (r u : MarketTick × Except Exc (Option SignalResult)) : Prop :=
  r.1 = u.1 ∧ (r.2 = u.2 ∨ r.2 = .ok none)

section
variable (v : StandardStrategyValidator) (c : StrategyConfig)

open StrategyExecutor

theorem rules_quieter (r : RulesProcessor) (before after : List MarketTick) :
    List.Forall₂ Quieter (((Processor.rules r).executor v c).results after)
      ((((Processor.rules r).executor v c).feed before).results after) := by
  refine results_related (List.forall₂_eq_eq_eq ▸ rfl) ?_
  rintro seen seen' tick _ hseen rfl
  obtain rfl : seen = seen' := List.forall₂_eq_eq_eq ▸ hseen
  rw [← feed_append]
  refine ⟨rfl, ?_⟩
  by_cases hlength : r.requiredHistoryLength ≤
      (accepted (Processor.rules r).toProcessor v c () (seen ++ [tick])).length
  · exact .inl (processTick_forgets _ v c before hlength)
  · refine .inr ?_
    rw [Processor.executor, processTick_accepted]
    split
    · have hshort : r.processTick tick ((accepted (Processor.rules r).toProcessor v c ()
          (seen ++ [tick])).rtake r.requiredHistoryLength) = .ok none := by
        refine r.processTick_short tick ?_
        rw [List.length_rtake]
        omega
      exact congrArg (· >>= _) hshort
    · rfl

/-- A strategy that is restarted after any ticks, and has since accepted enough
of them to fill its history with the next one, goes on as if it had not been
restarted. Before that a rule-based one returns for each tick what it would
have returned without the restart, or nothing. -/
theorem restart_recovers (p : Processor) (before : List MarketTick) :
    (∀ warm rest, p.requiredHistoryLength ≤ (accepted p.toProcessor v c () warm).length + 1 →
      ((p.executor v c).feed warm).results rest =
        ((p.executor v c).feed (before ++ warm)).results rest) ∧
    ∀ r, p = .rules r → ∀ after, List.Forall₂ Quieter ((p.executor v c).results after)
      (((p.executor v c).feed before).results after) := by
  refine ⟨fun warm rest h => results_forget p.toProcessor v c before h rest, ?_⟩
  rintro r rfl after
  exact rules_quieter v c r before after

end

def briefMomentum : Processor := .rules (.momentum { lookback := 2 })

/-- One tick is enough to fill a history of two with the next. -/
theorem briefMomentum_recovers :
    ((briefMomentum.executor {} oneConfig).feed [tickAt 1 11]).results [tickAt 1 12] =
      ((briefMomentum.executor {} oneConfig).feed ([tickAt 1 10] ++ [tickAt 1 11])).results
        [tickAt 1 12] :=
  (restart_recovers {} oneConfig briefMomentum [tickAt 1 10]).1 [tickAt 1 11] [tickAt 1 12] (by decide)

end AlphaPanda.Strategies
