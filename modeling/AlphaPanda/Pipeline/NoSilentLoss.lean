import AlphaPanda.Paper.Answers
import AlphaPanda.StrategyRunner.Publishing
import AlphaPanda.Zerodha.Service

/-!
# What is lost without an exception

A handler that returns has its message committed. Each of the three handlers
below swallows some failures to publish, so it may return although an event
that the message asks for was not published.
-/

namespace AlphaPanda

open Coroutine

-- ---------------------------------------------------------------------------
-- The strategy runner
-- ---------------------------------------------------------------------------

namespace StrategyRunner

end StrategyRunner

-- ---------------------------------------------------------------------------
-- Zerodha
-- ---------------------------------------------------------------------------

namespace Zerodha

def Sends (m : SignalMessage) (as : List (Option Exc)) : Prop :=
  m.type = .str EventType.validatedSignal.value →
    (∃ v, m.data = .ok v) ∧ as.headD none = none ∧ as.tail.headD none = none

theorem published_extends (p : Handler α) (as : List (Option Exc)) (w : World State Op Exc) :
    published w.log <+: published (p.exec as w).world.log := by
  rw [p.exec_log_eq as w]
  simp only [published, List.filterMap_append]
  exact List.prefix_append _ _

end Zerodha

namespace Paper

def Sent (svc : Service) (m : SignalMessage) (s : State) (as : List (Option Exc))
    (rest : List (List (Option Exc))) : Prop :=
  m.type = .str EventType.validatedSignal.value → ∀ v, m.data = .ok v → idemKey v ∉ s.seen.keys →
    AnswersSent svc s v as rest

end Paper

end AlphaPanda
