import AlphaPanda.MarketHours.Models

/-!
# The next market open

The search for the next open finds the start of a regular session, twenty-three
minutes early. It is the first instant at which the market is open only where
a session happens to open at that time.
-/

namespace AlphaPanda.MarketHours

theorem timeOf_nonneg (t : ℤ) : 0 ≤ timeOf t := Int.emod_nonneg _ (by decide)

theorem timeOf_lt (t : ℤ) : timeOf t < dayLength := Int.emod_lt_of_pos _ (by decide)

theorem combine_dateOf_timeOf (t : ℤ) : combine (dateOf t) (timeOf t) offset = t := by
  unfold combine dateOf timeOf dayLength offset second
  omega

section
variable (h₀ : 0 ≤ time) (h₁ : time < dayLength)
include h₀ h₁

theorem dateOf_combine (date : ℤ) : dateOf (combine date time offset) = date := by
  unfold dateOf combine dayLength offset second at *
  omega

theorem timeOf_combine (date : ℤ) : timeOf (combine date time offset) = time := by
  unfold timeOf combine dayLength offset second at *
  omega

theorem lt_combine_iff (t date : ℤ) :
    t < combine date time offset ↔ dateOf t < date ∨ dateOf t = date ∧ timeOf t < time := by
  unfold dateOf timeOf combine dayLength offset second at *
  omega

theorem combine_lt_iff (t date : ℤ) :
    combine date time offset < t ↔ date < dateOf t ∨ date = dateOf t ∧ time < timeOf t := by
  unfold dateOf timeOf combine dayLength offset second at *
  omega

end

-- ---------------------------------------------------------------------------
-- Trading days and sessions
-- ---------------------------------------------------------------------------

namespace MarketHoursConfig

variable (c : MarketHoursConfig)

def Trades (date : ℤ) : Prop := ¬(c.enforceWeekends ∧ 5 ≤ weekday date)

def inSession (time : ℤ) : Bool :=
  c.preOpenSession.contains time ||
    c.regularSession.contains time && !(c.enforceLunchBreak && c.lunchBreak.contains time)

/-- No session ends before it starts. -/
structure NonEmpty : Prop where
  preOpen : c.preOpenSession.start.micros ≤ c.preOpenSession.stop.micros
  regular : c.regularSession.start.micros ≤ c.regularSession.stop.micros
  lunch : c.lunchBreak.start.micros ≤ c.lunchBreak.stop.micros

/-- No session is open strictly between two times: what is left of the
pre-open session there is empty, and what is left of the regular one is empty
or within the lunch break. -/
def Quiet (a b : ℤ) : Prop :=
  min c.preOpenSession.stop.micros (b - 1) < max c.preOpenSession.start.micros (a + 1) ∧
    (min c.regularSession.stop.micros (b - 1) < max c.regularSession.start.micros (a + 1) ∨
      c.enforceLunchBreak = true ∧
        c.lunchBreak.start.micros ≤ max c.regularSession.start.micros (a + 1) ∧
        min c.regularSession.stop.micros (b - 1) ≤ c.lunchBreak.stop.micros)

variable {c}

theorem isMarketOpen_iff (h24 : c.market24x7 = false) (t : ℤ) :
    c.isMarketOpen t ↔ c.Trades (dateOf t) ∧ c.inSession (timeOf t) := by
  unfold isMarketOpen getMarketStatus Trades inSession
  rw [h24]
  by_cases hweekend : c.enforceWeekends ∧ 5 ≤ weekday (dateOf t)
  · simp [hweekend]
  · rw [if_neg (by simp), if_neg hweekend]
    cases hpre : c.preOpenSession.contains (timeOf t) <;>
      cases hregular : c.regularSession.contains (timeOf t) <;>
      cases henforce : c.enforceLunchBreak <;> cases hlunch : c.lunchBreak.contains (timeOf t) <;>
      simp [hweekend]

theorem inSession_iff : c.inSession time ↔
    (c.preOpenSession.start.micros ≤ time ∧ time ≤ c.preOpenSession.stop.micros) ∨
      (c.regularSession.start.micros ≤ time ∧ time ≤ c.regularSession.stop.micros) ∧
        (c.enforceLunchBreak = true → c.lunchBreak.start.micros ≤ time →
          c.lunchBreak.stop.micros < time) := by
  cases henforce : c.enforceLunchBreak <;>
    simp [inSession, MarketSession.contains, henforce, or_iff_not_imp_left]

theorem inSession_range (h : c.inSession time) : 0 ≤ time ∧ time < dayLength := by
  have hpre := c.preOpenSession.start.nonneg
  have hpre' := c.preOpenSession.stop.lt
  have hregular := c.regularSession.start.nonneg
  have hregular' := c.regularSession.stop.lt
  rw [inSession_iff] at h
  omega

theorem quiet_iff : c.Quiet a b ↔ ∀ time, a < time → time < b → ¬c.inSession time := by
  constructor
  · rintro ⟨hpre, hregular⟩ time ha hb h
    rcases inSession_iff.mp h with hin | ⟨hin, hbreak⟩
    · omega
    · rcases hregular with hempty | ⟨henforce, hstart, hstop⟩
      · omega
      · have hafter := hbreak henforce
        omega
  · intro hall
    have hclosed : ∀ time, a < time → time < b → ¬_ :=
      fun time ha hb h => hall time ha hb (inSession_iff.mpr h)
    refine ⟨?_, ?_⟩
    · by_contra hpre
      exact hclosed (max c.preOpenSession.start.micros (a + 1)) (by omega) (by omega) (.inl (by omega))
    · by_contra hregular
      rw [not_or, not_lt] at hregular
      obtain ⟨hsome, hlunch⟩ := hregular
      -- either end of what is left of the regular session is outside the break
      by_cases hleft : c.enforceLunchBreak = true ∧
          c.lunchBreak.start.micros ≤ max c.regularSession.start.micros (a + 1)
      · have hafter : c.lunchBreak.stop.micros < min c.regularSession.stop.micros (b - 1) := by
          by_contra hle
          exact hlunch ⟨hleft.1, hleft.2, not_lt.mp hle⟩
        exact hclosed (min c.regularSession.stop.micros (b - 1)) (by omega) (by omega)
          (.inr ⟨by omega, fun _ _ => hafter⟩)
      · exact hclosed (max c.regularSession.start.micros (a + 1)) (by omega) (by omega)
          (.inr ⟨by omega, fun henforce hle => absurd ⟨henforce, hle⟩ hleft⟩)

theorem open_combine (h24 : c.market24x7 = false) (h : c.inSession time) :
    c.isMarketOpen (combine date time offset) ↔ c.Trades date := by
  obtain ⟨h₀, h₁⟩ := inSession_range h
  rw [isMarketOpen_iff h24, dateOf_combine h₀ h₁, timeOf_combine h₀ h₁]
  exact and_iff_left h

theorem preOpen_inSession (hne : c.NonEmpty) : c.inSession c.preOpenSession.start.micros :=
  inSession_iff.mpr (.inl ⟨le_rfl, hne.preOpen⟩)

-- ---------------------------------------------------------------------------
-- The first open instant
-- ---------------------------------------------------------------------------

theorem isLeast_open_iff : IsLeast {x | t < x ∧ c.isMarketOpen x} u ↔
    (t < u ∧ c.isMarketOpen u) ∧ ∀ x, t < x → x < u → ¬c.isMarketOpen x := by
  refine and_congr_right fun _ => ⟨fun h x ht hu hopen => ?_, fun h x hx => ?_⟩
  · exact absurd (h ⟨ht, hopen⟩) (not_le.mpr hu)
  · by_contra hlt
    exact h x hx.1 (not_le.mp hlt) hx.2

section
variable (h24 : c.market24x7 = false) (h₀ : 0 ≤ time) (h₁ : time < dayLength)
include h24 h₀ h₁

theorem isLeast_today_iff : IsLeast {x | t < x ∧ c.isMarketOpen x} (combine (dateOf t) time offset) ↔
    timeOf t < time ∧ c.Trades (dateOf t) ∧ c.inSession time ∧ c.Quiet (timeOf t) time := by
  rw [isLeast_open_iff, isMarketOpen_iff h24, dateOf_combine h₀ h₁, timeOf_combine h₀ h₁,
    lt_combine_iff h₀ h₁, quiet_iff]
  constructor
  · rintro ⟨⟨hlt, htrades, hin⟩, hnone⟩
    refine ⟨by omega, htrades, hin, fun σ hafter hbefore hσ => ?_⟩
    obtain ⟨hσ₀, hσ₁⟩ := inSession_range hσ
    exact hnone (combine (dateOf t) σ offset) ((lt_combine_iff hσ₀ hσ₁ _ _).mpr (.inr ⟨rfl, hafter⟩))
      ((combine_lt_iff hσ₀ hσ₁ _ _).mpr (by
        rw [dateOf_combine h₀ h₁, timeOf_combine h₀ h₁]
        exact .inr ⟨rfl, hbefore⟩)) ((open_combine h24 hσ).mpr htrades)
  · rintro ⟨hlt, htrades, hin, hquiet⟩
    refine ⟨⟨.inr ⟨rfl, hlt⟩, htrades, hin⟩, fun x ht hu hopen => ?_⟩
    obtain ⟨-, hx⟩ := (isMarketOpen_iff h24 x).mp hopen
    rw [lt_combine_iff h₀ h₁] at hu
    rw [← combine_dateOf_timeOf x, lt_combine_iff (timeOf_nonneg x) (timeOf_lt x)] at ht
    exact hquiet (timeOf x) (by omega) (by omega) hx

theorem isLeast_later_iff (hne : c.NonEmpty) (hdate : dateOf t < date) :
    IsLeast {x | t < x ∧ c.isMarketOpen x} (combine date time offset) ↔
      (c.Trades date ∧ c.inSession time ∧ c.Quiet (-1) time) ∧
        (c.Trades (dateOf t) → c.Quiet (timeOf t) dayLength) ∧
        ∀ d, dateOf t < d → d < date → ¬c.Trades d := by
  rw [isLeast_open_iff, isMarketOpen_iff h24, dateOf_combine h₀ h₁, timeOf_combine h₀ h₁,
    lt_combine_iff h₀ h₁, quiet_iff, quiet_iff]
  constructor
  · rintro ⟨⟨-, htrades, hin⟩, hnone⟩
    have hclosed : ∀ d σ, c.inSession σ → (dateOf t < d ∨ dateOf t = d ∧ timeOf t < σ) →
        (d < date ∨ d = date ∧ σ < time) → ¬c.Trades d := by
      intro d σ hσ hafter hbefore hd
      obtain ⟨hσ₀, hσ₁⟩ := inSession_range hσ
      refine hnone (combine d σ offset) ((lt_combine_iff hσ₀ hσ₁ _ _).mpr hafter)
        ((combine_lt_iff hσ₀ hσ₁ _ _).mpr ?_) ((open_combine h24 hσ).mpr hd)
      rwa [dateOf_combine h₀ h₁, timeOf_combine h₀ h₁]
    refine ⟨⟨htrades, hin, fun σ _ hσ hopen => ?_⟩, fun htoday σ hσ _ hopen => ?_,
      fun d hafter hbefore => ?_⟩
    · exact hclosed date σ hopen (.inl hdate) (.inr ⟨rfl, hσ⟩) htrades
    · exact hclosed (dateOf t) σ hopen (.inr ⟨rfl, hσ⟩) (.inl hdate) htoday
    · exact hclosed d _ (preOpen_inSession hne) (.inl hafter) (.inl hbefore)
  · rintro ⟨⟨htrades, hin, hquiet⟩, htoday, hbetween⟩
    refine ⟨⟨.inl hdate, htrades, hin⟩, fun x ht hu hopen => ?_⟩
    obtain ⟨hd, hx⟩ := (isMarketOpen_iff h24 x).mp hopen
    have hx₀ := timeOf_nonneg x
    have hx₁ := timeOf_lt x
    rw [lt_combine_iff h₀ h₁] at hu
    rw [← combine_dateOf_timeOf x, lt_combine_iff hx₀ hx₁] at ht
    rcases ht with hlater | ⟨hsame, hafter⟩
    · rcases hu with hearlier | ⟨hlast, hbefore⟩
      · exact hbetween _ hlater hearlier hd
      · exact hquiet (timeOf x) (by omega) hbefore hx
    · rw [← hsame] at hd
      exact htoday hd (timeOf x) hafter hx₁ hx

end

theorem searchFrom_eq (n : ℕ) (h : weekday (date + n) < 5) : searchFrom n date = date + n := by
  induction n generalizing date with
  | zero =>
    rw [Nat.cast_zero, add_zero] at h ⊢
    rw [searchFrom, if_neg (not_le.mpr h)]
  | succ n ih =>
    have hdate : date + ((n + 1 : ℕ) : ℤ) = date + 1 + n := by omega
    rw [hdate] at h ⊢
    rw [searchFrom, ih h]

def nextDate (date : ℤ) : ℤ := date + if 4 ≤ weekday date then 7 - weekday date else 1

theorem searchFrom_nextDate (date : ℤ) :
    searchFrom (if 4 ≤ weekday date then 7 - weekday date else 1).toNat date = nextDate date := by
  have hcast : (((if 4 ≤ weekday date then 7 - weekday date else 1).toNat : ℕ) : ℤ) =
      if 4 ≤ weekday date then 7 - weekday date else 1 := by
    unfold weekday
    omega
  rw [searchFrom_eq, hcast, nextDate]
  rw [hcast]
  unfold weekday
  omega

/-- How much earlier an instant is by the first offset. -/
abbrev slip : ℤ := firstOffset - offset

def BeforeSession (c : MarketHoursConfig) (t : ℤ) : Prop :=
  timeOf t < c.regularSession.start.micros ∧ weekday (dateOf t) < 5

theorem nextMarketOpen_today (h : c.BeforeSession t) :
    c.nextMarketOpen t = combine (dateOf t) (c.regularSession.start.micros - slip) offset := by
  unfold BeforeSession at h
  unfold nextMarketOpen
  dsimp only
  rw [if_pos h]
  unfold combine slip
  omega

theorem nextMarketOpen_later (h : ¬c.BeforeSession t) :
    c.nextMarketOpen t = combine (nextDate (dateOf t)) (c.regularSession.start.micros - slip) offset := by
  unfold BeforeSession at h
  unfold nextMarketOpen
  dsimp only
  rw [if_neg h, searchFrom_nextDate]
  unfold combine slip
  omega

-- ---------------------------------------------------------------------------
-- When the search is right
-- ---------------------------------------------------------------------------

theorem trades_of_weekday (h : weekday date < 5) : c.Trades date := fun hweekend => by omega

theorem trades_weekend_iff (h : 5 ≤ weekday date) : c.Trades date ↔ ¬c.enforceWeekends := by
  simp [Trades, h]

theorem not_inSession_of_closed (h24 : c.market24x7 = false) (hclosed : c.isMarketOpen t = false)
    (htrades : c.Trades (dateOf t)) : ¬c.inSession (timeOf t) := by
  intro hin
  rw [(isMarketOpen_iff h24 t).mpr ⟨htrades, hin⟩] at hclosed
  cases hclosed

theorem lt_nextDate (date : ℤ) : date < nextDate date := by
  unfold nextDate weekday
  omega

theorem weekday_nextDate (date : ℤ) : weekday (nextDate date) < 5 := by
  unfold nextDate weekday
  omega

/-- The days that the search skips are no trading days. -/
theorem skipped_iff (date : ℤ) : (∀ d, date < d → d < nextDate date → ¬c.Trades d) ↔
    (c.enforceWeekends ∨ weekday date ≠ 4 ∧ weekday date ≠ 5) := by
  by_cases henforce : c.enforceWeekends
  · refine iff_of_true (fun d hafter hbefore htrades => htrades ⟨henforce, ?_⟩) (.inl henforce)
    unfold nextDate weekday at *
    omega
  · have htrades : ∀ d, c.Trades d := fun d hweekend => henforce hweekend.1
    simp only [henforce, htrades, not_true, imp_false, false_or, Bool.false_eq_true]
    constructor
    · intro h
      have hnone := h (date + 1) (by omega)
      unfold nextDate weekday at *
      omega
    · intro hweekday d hafter hbefore
      unfold nextDate weekday at *
      omega

structure FindsNextOpen (c : MarketHoursConfig) (t : ℤ) : Prop where
  least : IsLeast {u | t < u ∧ c.isMarketOpen u} (c.nextMarketOpen t)
  positive : ∃ δ, c.timeUntilMarketOpen t = some δ ∧ 0 < δ

theorem findsNextOpen_iff (hclosed : c.isMarketOpen t = false) :
    c.FindsNextOpen t ↔ IsLeast {u | t < u ∧ c.isMarketOpen u} (c.nextMarketOpen t) := by
  refine ⟨FindsNextOpen.least, fun h => ⟨h, c.nextMarketOpen t - t, ?_, sub_pos.mpr h.1.1⟩⟩
  rw [timeUntilMarketOpen, if_neg (by simp [hclosed])]

/-- Where the regular session starts at 00:23 or later: the pre-open session
starts as much earlier as the search is, and nothing opens before. -/
def RightByDay (c : MarketHoursConfig) (t : ℤ) : Prop :=
  c.preOpenSession.start.micros = c.regularSession.start.micros - slip ∧
    (c.BeforeSession t → timeOf t < c.preOpenSession.start.micros) ∧
    (¬c.BeforeSession t → (c.enforceWeekends ∨ weekday (dateOf t) ≠ 4 ∧ weekday (dateOf t) ≠ 5) ∧
      (c.Trades (dateOf t) → c.Quiet (timeOf t) dayLength))

/-- Where it starts earlier, the search ends on the evening before, and a
session has to open there. -/
def RightByNight (c : MarketHoursConfig) (t : ℤ) : Prop :=
  let evening := c.regularSession.start.micros - slip + dayLength
  ¬c.BeforeSession t ∧ c.inSession evening ∧
    ((weekday (dateOf t) < 4 ∨ weekday (dateOf t) = 6 ∧ ¬c.enforceWeekends) ∧
        timeOf t < evening ∧ c.Quiet (timeOf t) evening ∨
      weekday (dateOf t) = 5 ∧ ¬c.enforceWeekends ∧ c.Quiet (timeOf t) dayLength ∧ c.Quiet (-1) evening)

/-- Before the regular session, only the start of the pre-open session is the
first time at which the market is open. -/
theorem opens_before_iff (hne : c.NonEmpty) (htime : time < c.regularSession.start.micros) (ha : a < time)
    (hnot : ¬c.inSession a) : c.inSession time ∧ c.Quiet a time ↔ c.preOpenSession.start.micros = time := by
  have hpre := hne.preOpen
  rw [inSession_iff] at hnot ⊢
  constructor
  · rintro ⟨hin, hquiet, -⟩
    omega
  · intro heq
    exact ⟨.inl (by omega), by omega, .inl (by omega)⟩

theorem not_inSession_midnight : ¬c.inSession (-1) := by
  intro h
  have hrange := (inSession_range h).1
  omega

section
variable (h24 : c.market24x7 = false) (hne : c.NonEmpty)
include h24 hne

theorem rightByDay_iff (hclosed : c.isMarketOpen t = false) (hstart : slip ≤ c.regularSession.start.micros) :
    IsLeast {u | t < u ∧ c.isMarketOpen u} (c.nextMarketOpen t) ↔ c.RightByDay t := by
  have hlast := c.regularSession.start.lt
  have hslip : (0 : ℤ) < slip := by decide
  have h₀ : 0 ≤ c.regularSession.start.micros - slip := by omega
  have h₁ : c.regularSession.start.micros - slip < dayLength := by omega
  have hearly : c.regularSession.start.micros - slip < c.regularSession.start.micros := by omega
  by_cases hbefore : c.BeforeSession t
  · have htrades := trades_of_weekday (c := c) hbefore.2
    have hnot := not_inSession_of_closed h24 hclosed htrades
    rw [nextMarketOpen_today hbefore, isLeast_today_iff h24 h₀ h₁, RightByDay]
    simp only [htrades, hbefore, true_and, not_true, false_implies, and_true, forall_const]
    constructor
    · rintro ⟨hlt, hopens⟩
      have heq := (opens_before_iff hne hearly hlt hnot).mp hopens
      exact ⟨heq, heq ▸ hlt⟩
    · rintro ⟨heq, hlt⟩
      rw [heq] at hlt
      exact ⟨hlt, (opens_before_iff hne hearly hlt hnot).mpr heq⟩
  · have htrades := trades_of_weekday (c := c) (weekday_nextDate (dateOf t))
    rw [nextMarketOpen_later hbefore, isLeast_later_iff h24 h₀ h₁ hne (lt_nextDate _), RightByDay,
      skipped_iff, opens_before_iff hne hearly (by omega) not_inSession_midnight]
    simp only [htrades, hbefore, true_and, false_implies, not_false_eq_true, forall_const]
    rw [and_comm (a := c.Trades (dateOf t) → _)]

section
variable (h₀ : 0 ≤ evening) (h₁ : evening < dayLength)
include h₀ h₁

omit hne in
theorem isLeast_evening_today (hfriday : weekday (dateOf t) ≠ 4) (hsaturday : weekday (dateOf t) ≠ 5) :
    IsLeast {u | t < u ∧ c.isMarketOpen u} (combine (nextDate (dateOf t) - 1) evening offset) ↔
      timeOf t < evening ∧ c.Trades (dateOf t) ∧ c.inSession evening ∧ c.Quiet (timeOf t) evening := by
  have hdate : nextDate (dateOf t) - 1 = dateOf t := by
    unfold nextDate weekday at *
    omega
  rw [hdate, isLeast_today_iff h24 h₀ h₁]

theorem not_isLeast_evening_friday (hfriday : weekday (dateOf t) = 4) :
    ¬IsLeast {u | t < u ∧ c.isMarketOpen u} (combine (nextDate (dateOf t) - 1) evening offset) := by
  have hsaturday : 5 ≤ weekday (dateOf t + 1) := by
    unfold weekday at *
    omega
  have hsunday : 5 ≤ weekday (nextDate (dateOf t) - 1) := by
    unfold nextDate weekday at *
    omega
  have hlater : dateOf t + 1 < nextDate (dateOf t) - 1 := by
    unfold nextDate weekday at *
    omega
  rw [isLeast_later_iff h24 h₀ h₁ hne (by omega), trades_weekend_iff hsunday]
  rintro ⟨⟨hnot, -⟩, -, hskipped⟩
  exact hskipped _ (by omega) hlater ((trades_weekend_iff hsaturday).mpr hnot)

theorem isLeast_evening_saturday (hsaturday : weekday (dateOf t) = 5) :
    IsLeast {u | t < u ∧ c.isMarketOpen u} (combine (nextDate (dateOf t) - 1) evening offset) ↔
      ¬c.enforceWeekends ∧ c.inSession evening ∧ c.Quiet (-1) evening ∧ c.Quiet (timeOf t) dayLength := by
  have hdate : nextDate (dateOf t) - 1 = dateOf t + 1 := by
    rw [nextDate, if_pos (by omega), hsaturday]
    omega
  have hsunday : 5 ≤ weekday (dateOf t + 1) := by
    unfold weekday at *
    omega
  rw [hdate, isLeast_later_iff h24 h₀ h₁ hne (by omega), trades_weekend_iff hsunday,
    trades_weekend_iff hsaturday.ge]
  constructor
  · rintro ⟨⟨hnot, hin, hquiet⟩, htoday, -⟩
    exact ⟨hnot, hin, hquiet, htoday hnot⟩
  · rintro ⟨hnot, hin, hquiet, htoday⟩
    exact ⟨⟨hnot, hin, hquiet⟩, fun _ => htoday, fun d hafter hlast => by omega⟩

end

theorem rightByNight_iff (hstart : c.regularSession.start.micros < slip) :
    IsLeast {u | t < u ∧ c.isMarketOpen u} (c.nextMarketOpen t) ↔ c.RightByNight t := by
  have hfirst := c.regularSession.start.nonneg
  have hslip : slip < dayLength := by decide
  have h₀ : 0 ≤ c.regularSession.start.micros - slip + dayLength := by omega
  have h₁ : c.regularSession.start.micros - slip + dayLength < dayLength := by omega
  have hevening : ∀ date, combine date (c.regularSession.start.micros - slip) offset =
      combine (date - 1) (c.regularSession.start.micros - slip + dayLength) offset := by
    intro date
    unfold combine dayLength second
    omega
  by_cases hbefore : c.BeforeSession t
  · rw [nextMarketOpen_today hbefore, hevening, RightByNight]
    refine iff_of_false (fun h => ?_) (fun h => h.1 hbefore)
    have hlt := (lt_combine_iff h₀ h₁ t (dateOf t - 1)).mp h.1.1
    omega
  · rw [nextMarketOpen_later hbefore, hevening, RightByNight]
    generalize c.regularSession.start.micros - slip + dayLength = evening at *
    have hrange : 0 ≤ weekday (dateOf t) ∧ weekday (dateOf t) < 7 := by
      unfold weekday
      omega
    rcases (by omega : weekday (dateOf t) < 4 ∨ weekday (dateOf t) = 4 ∨ weekday (dateOf t) = 5 ∨
      weekday (dateOf t) = 6) with hweek | hfriday | hsaturday | hsunday
    · rw [isLeast_evening_today h24 h₀ h₁ (by omega) (by omega)]
      constructor
      · rintro ⟨hlt, -, hin, hquiet⟩
        exact ⟨hbefore, hin, .inl ⟨.inl hweek, hlt, hquiet⟩⟩
      · rintro ⟨-, hin, ⟨-, hlt, hquiet⟩ | ⟨hsaturday, -⟩⟩
        · exact ⟨hlt, trades_of_weekday (by omega), hin, hquiet⟩
        · omega
    · refine iff_of_false (not_isLeast_evening_friday h24 hne h₀ h₁ hfriday) ?_
      rintro ⟨-, -, ⟨hweek | ⟨hsunday, -⟩, -⟩ | ⟨hsaturday, -⟩⟩ <;> omega
    · rw [isLeast_evening_saturday h24 hne h₀ h₁ hsaturday]
      constructor
      · rintro ⟨hnot, hin, hquiet, htoday⟩
        exact ⟨hbefore, hin, .inr ⟨hsaturday, hnot, htoday, hquiet⟩⟩
      · rintro ⟨-, hin, ⟨hweek | ⟨hsunday, -⟩, -⟩ | ⟨-, hnot, htoday, hquiet⟩⟩
        · omega
        · omega
        · exact ⟨hnot, hin, hquiet, htoday⟩
    · rw [isLeast_evening_today h24 h₀ h₁ (by omega) (by omega), trades_weekend_iff (by omega)]
      constructor
      · rintro ⟨hlt, hnot, hin, hquiet⟩
        exact ⟨hbefore, hin, .inl ⟨.inr ⟨hsunday, hnot⟩, hlt, hquiet⟩⟩
      · rintro ⟨-, hin, ⟨hweek | ⟨-, hnot⟩, hlt, hquiet⟩ | ⟨hsaturday, -⟩⟩
        · omega
        · exact ⟨hlt, hnot, hin, hquiet⟩
        · omega

/-- The next open is found exactly if the search's early answer happens to be
the start of a session, or the end of a break. -/
theorem next_open_iff (hclosed : c.isMarketOpen t = false) : c.FindsNextOpen t ↔
    if slip ≤ c.regularSession.start.micros then c.RightByDay t else c.RightByNight t := by
  rw [findsNextOpen_iff hclosed]
  split
  · rename_i hstart
    exact rightByDay_iff h24 hne hclosed hstart
  · rename_i hstart
    exact rightByNight_iff h24 hne (not_le.mp hstart)

end

def mondayAtEight : ℤ := combine 20458 (28800 * second) offset

def earlyPreOpen : MarketHoursConfig where
  preOpenSession := ⟨⟨31920 * second, by decide, by decide⟩, ⟨33300 * second, by decide, by decide⟩⟩

theorem early_preOpen_found : earlyPreOpen.FindsNextOpen mondayAtEight :=
  (next_open_iff rfl ⟨by decide, by decide, by decide⟩ (by decide +kernel)).mpr (by
    rw [if_pos (by decide)]
    exact ⟨by decide, fun _ => by decide, fun h => absurd ⟨by decide, by decide⟩ h⟩)

/-- By default, the next open is found at 08:52, when the market is closed. -/
theorem default_not_found : ¬∀ (c : MarketHoursConfig) (t : ℤ), c.market24x7 = false → c.NonEmpty →
    c.isMarketOpen t = false → c.FindsNextOpen t := by
  intro h
  have hopen := (h {} mondayAtEight rfl ⟨by decide, by decide, by decide⟩ (by decide +kernel)).least.1.2
  rw [nextMarketOpen_today ⟨by decide, by decide⟩] at hopen
  revert hopen
  decide +kernel

end MarketHoursConfig

end AlphaPanda.MarketHours
