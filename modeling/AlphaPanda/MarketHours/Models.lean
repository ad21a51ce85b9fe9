import Mathlib.Data.Int.Order.Basic
import Mathlib.Order.Bounds.Basic
import Mathlib.Tactic.Linarith

/-!
# Market hours

`MarketHoursConfig` in the time zone of India. An instant is a number of
microseconds since 1970 in UTC, a day counts from the same date, and a time is
a number of microseconds within a day.
-/

namespace AlphaPanda.MarketHours

abbrev second : ℤ := 1000000

abbrev dayLength : ℤ := 86400 * second

structure Time where
  micros : ℤ
  nonneg : 0 ≤ micros := by decide
  lt : micros < dayLength := by decide
  deriving DecidableEq

/-- `+05:30`, which `localize` and `astimezone` attach. -/
abbrev offset : ℤ := 19800 * second

/-- `+05:53`, which a zone that is passed as `tzinfo` attaches. -/
abbrev firstOffset : ℤ := 21180 * second

def dateOf (t : ℤ) : ℤ := (t + offset) / dayLength

def timeOf (t : ℤ) : ℤ := (t + offset) % dayLength

def weekday (date : ℤ) : ℤ := (date + 3) % 7

def combine (date time tzinfo : ℤ) : ℤ := date * dayLength + time - tzinfo

-- ---------------------------------------------------------------------------
-- Sessions
-- ---------------------------------------------------------------------------

structure MarketSession where
  start : Time
  stop : Time

def MarketSession.contains (s : MarketSession) (checkTime : ℤ) : Bool :=
  s.start.micros ≤ checkTime && checkTime ≤ s.stop.micros

inductive MarketStatus where
  | open
  | closed
  | preOpen
  | lunchBreak
  | weekend
  | holiday
  deriving DecidableEq, Repr

structure MarketHoursConfig where
  preOpenSession : MarketSession :=
    ⟨⟨32400 * second, by decide, by decide⟩, ⟨33300 * second, by decide, by decide⟩⟩
  regularSession : MarketSession :=
    ⟨⟨33300 * second, by decide, by decide⟩, ⟨55800 * second, by decide, by decide⟩⟩
  lunchBreak : MarketSession :=
    ⟨⟨45000 * second, by decide, by decide⟩, ⟨48600 * second, by decide, by decide⟩⟩
  enforceLunchBreak : Bool := false
  enforceWeekends : Bool := true
  market24x7 : Bool := false

namespace MarketHoursConfig

variable (c : MarketHoursConfig)

def getMarketStatus (t : ℤ) : MarketStatus :=
  if c.market24x7 then .open
  else if c.enforceWeekends ∧ 5 ≤ weekday (dateOf t) then .weekend
  else if c.preOpenSession.contains (timeOf t) then .preOpen
  else if c.regularSession.contains (timeOf t) then
    if c.enforceLunchBreak ∧ c.lunchBreak.contains (timeOf t) then .lunchBreak else .open
  else .closed

def isMarketOpen (t : ℤ) : Bool := c.getMarketStatus t ∈ [.open, .preOpen]

def searchFrom (daysAhead : ℕ) (date : ℤ) : ℤ :=
  match daysAhead with
  | n + 1 => searchFrom n (date + 1)
  | 0 => if 5 ≤ weekday date then searchFrom 0 (date + 1) else date
termination_by (daysAhead, (if 5 ≤ weekday date then 7 - weekday date else 0).toNat)
decreasing_by
  · exact Prod.Lex.left _ _ (Nat.lt_succ_self n)
  · refine Prod.Lex.right _ ?_
    unfold weekday at *
    split_ifs <;> omega

def nextMarketOpen (t : ℤ) : ℤ :=
  let currentDate := dateOf t
  let opening := c.regularSession.start.micros
  if timeOf t < opening ∧ weekday currentDate < 5 then combine currentDate opening firstOffset
  else
    let daysAhead := if 4 ≤ weekday currentDate then 7 - weekday currentDate else 1
    combine (searchFrom daysAhead.toNat currentDate) opening firstOffset

/-- `none` while the market is open. -/
def timeUntilMarketOpen (t : ℤ) : Option ℤ :=
  if c.isMarketOpen t then none else some (c.nextMarketOpen t - t)

end MarketHoursConfig

end AlphaPanda.MarketHours
