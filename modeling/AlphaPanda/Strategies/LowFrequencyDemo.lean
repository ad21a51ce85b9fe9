import AlphaPanda.Strategies.Executor
import Mathlib.Data.List.Chain
import Mathlib.Data.List.Induction
import Mathlib.Data.Rat.Floor
import Mathlib.Tactic.Linarith

/-!
# The low-frequency demo

`LowFrequencyDemoProcessor` signals at most once in an interval, and at most a
number of times a day, for each instrument. The counters of all instruments
are cleared when a day begins.
-/

namespace AlphaPanda.Strategies

structure LowFrequencyDemoProcessor where
  minIntervalSeconds : ℤ := 900
  maxDailySignalsPerInstrument : Option ℤ := none
  side : String := "auto"
  quantity : ℤ := 1

structure DemoState where
  lastEmitTs : Dict ℤ ℚ := .empty
  dailyCounts : Dict ℤ ℕ := .empty
  dailyEpoch : Option ℤ := none

def dayEpoch (now : ℚ) : ℤ := ⌊now / 86400⌋

def DemoState.maybeResetDaily (s : DemoState) (now : ℚ) : DemoState :=
  if s.dailyEpoch = some (dayEpoch now) then s
  else { s with dailyEpoch := some (dayEpoch now), dailyCounts := .empty }

namespace LowFrequencyDemoProcessor

variable (p : LowFrequencyDemoProcessor)

def selectSide (instrumentToken : ℤ) : String :=
  if p.side.toUpper ∈ ["BUY", "SELL"] then p.side.toUpper
  else if instrumentToken % 2 = 0 then "BUY"
  else "SELL"

def processTick (now : ℚ) (tick : MarketTick) (s : DemoState) : Option SignalResult × DemoState :=
  let s := s.maybeResetDaily now
  let token := tick.instrumentToken
  let count := (s.dailyCounts.get? token).getD 0
  if now - (s.lastEmitTs.get? token).getD 0 < p.minIntervalSeconds then (none, s)
  else if p.maxDailySignalsPerInstrument.any (· ≤ (count : ℤ)) then (none, s)
  else
    (some {
      signalType := p.selectSide token
      confidence := 1 / 2
      quantity := p.quantity
      price := .ofRat tick.lastPrice },
    { s with
      lastEmitTs := s.lastEmitTs.set token now
      dailyCounts := s.dailyCounts.set token (count + 1) })

-- ---------------------------------------------------------------------------
-- Streams
-- ---------------------------------------------------------------------------

/-- A tick, and the time at which it is processed. -/
structure Arrival where
  now : ℚ
  tick : MarketTick

def after (s : DemoState) (arrivals : List Arrival) : DemoState :=
  arrivals.foldl (fun s a => (p.processTick a.now a.tick s).2) s

def signalTimes (i : ℤ) (s : DemoState) : List Arrival → List ℚ
  | [] => []
  | a :: rest =>
    let processed := p.processTick a.now a.tick s
    if a.tick.instrumentToken = i ∧ processed.1.isSome then a.now :: signalTimes i processed.2 rest
    else signalTimes i processed.2 rest

def InDay (k : ℤ) (t : ℚ) : Prop := 86400 * k ≤ t ∧ t < 86400 * (k + 1)

instance (k : ℤ) : DecidablePred (InDay k) := fun _ => inferInstanceAs (Decidable (_ ∧ _))

theorem inDay_iff {k : ℤ} {t : ℚ} : InDay k t ↔ dayEpoch t = k := by
  rw [dayEpoch, Int.floor_eq_iff, InDay, le_div_iff₀ (by norm_num), div_lt_iff₀ (by norm_num)]
  constructor
  · rintro ⟨hle, hlt⟩
    constructor <;> linarith
  · rintro ⟨hle, hlt⟩
    constructor <;> linarith

section
variable {p : LowFrequencyDemoProcessor} {s : DemoState} {tick : MarketTick}

/-- What a tick does after the day marker was seen to. -/
inductive Processed (p : LowFrequencyDemoProcessor) (now : ℚ) (tick : MarketTick) (s : DemoState) :
    Option SignalResult → DemoState → Prop
  | silent : Processed p now tick s none s
  | emitted
    (hinterval : (s.lastEmitTs.get? tick.instrumentToken).getD 0 + p.minIntervalSeconds ≤ now)
    (hcap : ∀ m ∈ p.maxDailySignalsPerInstrument,
      (((s.dailyCounts.get? tick.instrumentToken).getD 0 : ℕ) : ℤ) < m) :
    Processed p now tick s (some signal) { s with
      lastEmitTs := s.lastEmitTs.set tick.instrumentToken now
      dailyCounts := s.dailyCounts.set tick.instrumentToken
        ((s.dailyCounts.get? tick.instrumentToken).getD 0 + 1) }

theorem processed (p : LowFrequencyDemoProcessor) (now : ℚ) (tick : MarketTick) (s : DemoState) :
    Processed p now tick (s.maybeResetDaily now) (p.processTick now tick s).1
      (p.processTick now tick s).2 := by
  unfold processTick
  dsimp only
  split
  · exact .silent
  split
  · exact .silent
  · rename_i hinterval hcap
    refine .emitted (by linarith) fun m hm => ?_
    rw [Option.mem_def.mp hm, Option.any_some, decide_eq_true_iff] at hcap
    exact not_le.mp hcap

theorem signalTimes_concat (i : ℤ) (s : DemoState) (arrivals : List Arrival) (a : Arrival) :
    p.signalTimes i s (arrivals ++ [a]) = p.signalTimes i s arrivals ++
      if a.tick.instrumentToken = i ∧ (p.processTick a.now a.tick (p.after s arrivals)).1.isSome then
        [a.now]
      else [] := by
  induction arrivals generalizing s with
  | nil => rfl
  | cons b arrivals ih =>
    have hafter : p.after s (b :: arrivals) = p.after (p.processTick b.now b.tick s).2 arrivals := rfl
    rw [List.cons_append, signalTimes, signalTimes, ih, hafter]
    split
    · rw [List.cons_append]
    · rfl

-- ---------------------------------------------------------------------------
-- The tables
-- ---------------------------------------------------------------------------

/-- The tables are right about an instrument that had signals at some times. -/
structure Tracks (p : LowFrequencyDemoProcessor) (i : ℤ) (times : List ℚ) (s : DemoState) : Prop where
  last : ∀ t ∈ times.getLast?, s.lastEmitTs.get? i = some t
  earlier : ∀ t ∈ times, ∃ d, s.dailyEpoch = some d ∧ dayEpoch t ≤ d
  count : ∀ d, s.dailyEpoch = some d → (s.dailyCounts.get? i).getD 0 = times.countP (InDay d)
  apart : times.IsChain fun t u : ℚ => t + p.minIntervalSeconds ≤ u
  capped : ∀ m ∈ p.maxDailySignalsPerInstrument, ∀ k, (times.countP (InDay k) : ℤ) ≤ max m 0

theorem tracks_start (i : ℤ) : Tracks p i [] {} where
  last _ h := nomatch h
  earlier _ h := nomatch h
  count _ h := nomatch h
  apart := .nil
  capped _ _ _ := le_max_right _ _

theorem Tracks.maybeResetDaily (h : Tracks p i times s)
    (hclock : ∀ d, s.dailyEpoch = some d → d ≤ dayEpoch now) :
    Tracks p i times (s.maybeResetDaily now) := by
  unfold DemoState.maybeResetDaily
  split
  · exact h
  rename_i hday
  refine { h with earlier := fun t ht => ?_, count := ?_ }
  · obtain ⟨d, hd, hle⟩ := h.earlier t ht
    exact ⟨_, rfl, hle.trans (hclock d hd)⟩
  · rintro d hd
    obtain rfl := Option.some.inj hd
    -- The day is later than that of any signal so far.
    refine (List.countP_eq_zero.mpr fun t ht => ?_).symm
    obtain ⟨d, hd, hle⟩ := h.earlier t ht
    have hne : d ≠ dayEpoch now := fun heq => hday (heq ▸ hd)
    simp only [decide_eq_true_iff, inDay_iff]
    have := lt_of_le_of_ne (hclock d hd) hne
    omega

theorem Tracks.signal (h : Tracks p i times s) (hday : s.dailyEpoch = some (dayEpoch now))
    (hinterval : (s.lastEmitTs.get? i).getD 0 + p.minIntervalSeconds ≤ now)
    (hcap : ∀ m ∈ p.maxDailySignalsPerInstrument, (((s.dailyCounts.get? i).getD 0 : ℕ) : ℤ) < m) :
    Tracks p i (times ++ [now]) { s with
      lastEmitTs := s.lastEmitTs.set i now
      dailyCounts := s.dailyCounts.set i ((s.dailyCounts.get? i).getD 0 + 1) } := by
  have hcount : ∀ k, (times ++ [now]).countP (InDay k) =
      times.countP (InDay k) + if dayEpoch now = k then 1 else 0 := by
    intro k
    rw [List.countP_append, List.countP_singleton]
    simp only [decide_eq_true_iff, inDay_iff]
  constructor
  · intro t ht
    rw [List.getLast?_concat] at ht
    rw [Dict.get?_set_self, Option.mem_some_iff.mp ht]
  · intro t ht
    rcases List.mem_append.mp ht with ht | ht
    · exact h.earlier t ht
    · rw [List.mem_singleton.mp ht]
      exact ⟨_, hday, le_rfl⟩
  · intro d hd
    obtain rfl := Option.some.inj (hday.symm.trans hd)
    rw [Dict.get?_set_self, Option.getD_some, hcount, if_pos rfl, h.count _ hday]
  · refine List.IsChain.append h.apart (.singleton _) ?_
    rintro t ht u hu
    rw [List.head?_singleton, Option.mem_some_iff] at hu
    rw [h.last t ht, Option.getD_some, hu] at hinterval
    exact hinterval
  · intro m hm k
    rw [hcount]
    split
    · rename_i hk
      subst hk
      have hlt := hcap m hm
      rw [h.count _ hday] at hlt
      push_cast
      exact (Int.add_one_le_iff.mpr hlt).trans (le_max_left _ _)
    · exact h.capped m hm k

theorem Tracks.other (h : Tracks p i times s) (hne : i ≠ j) (now : ℚ) (n : ℕ) :
    Tracks p i times { s with
      lastEmitTs := s.lastEmitTs.set j now
      dailyCounts := s.dailyCounts.set j n } where
  last t ht := (Dict.get?_set_of_ne _ hne).trans (h.last t ht)
  earlier := h.earlier
  count d hd := by rw [Dict.get?_set_of_ne _ hne, h.count d hd]
  apart := h.apart
  capped := h.capped

theorem Processed.dailyEpoch (h : Processed p now tick s signal s') : s'.dailyEpoch = s.dailyEpoch := by
  cases h with
  | silent => rfl
  | emitted _ _ => rfl

theorem Processed.tracks (h : Processed p now tick s signal s') (htracks : Tracks p i times s)
    (hday : s.dailyEpoch = some (dayEpoch now)) :
    Tracks p i (times ++ if tick.instrumentToken = i ∧ signal.isSome then [now] else []) s' := by
  cases h with
  | silent => simpa using htracks
  | emitted hinterval hcap =>
    by_cases hi : tick.instrumentToken = i
    · subst hi
      simpa using htracks.signal hday hinterval hcap
    · simpa [hi] using htracks.other (Ne.symm hi) now _

theorem maybeResetDaily_dailyEpoch (s : DemoState) (now : ℚ) :
    (s.maybeResetDaily now).dailyEpoch = some (dayEpoch now) := by
  unfold DemoState.maybeResetDaily
  split
  · assumption
  · rfl

theorem processTick_dailyEpoch (p : LowFrequencyDemoProcessor) (now : ℚ) (tick : MarketTick)
    (s : DemoState) : (p.processTick now tick s).2.dailyEpoch = some (dayEpoch now) :=
  (processed p now tick s).dailyEpoch.trans (maybeResetDaily_dailyEpoch s now)

theorem dayEpoch_mono (h : t ≤ u) : dayEpoch t ≤ dayEpoch u :=
  Int.floor_le_floor (div_le_div_of_nonneg_right h (by norm_num))

theorem tracks_after (i : ℤ) {arrivals : List Arrival}
    (hclock : (arrivals.map Arrival.now).Pairwise (· ≤ ·)) :
    Tracks p i (p.signalTimes i {} arrivals) (p.after {} arrivals) ∧
      ∀ d, (p.after {} arrivals).dailyEpoch = some d → ∃ a ∈ arrivals, d = dayEpoch a.now := by
  induction arrivals using List.reverseRecOn with
  | nil => exact ⟨tracks_start i, fun _ h => nomatch h⟩
  | append_singleton arrivals a ih =>
    rw [List.map_append, List.pairwise_append] at hclock
    obtain ⟨htracks, hepoch⟩ := ih hclock.1
    have hlater : ∀ d, (p.after {} arrivals).dailyEpoch = some d → d ≤ dayEpoch a.now := by
      intro d hd
      obtain ⟨b, hb, rfl⟩ := hepoch d hd
      exact dayEpoch_mono (hclock.2.2 _ (List.mem_map_of_mem hb) _ (List.mem_singleton_self _))
    have hafter : p.after {} (arrivals ++ [a]) = (p.processTick a.now a.tick (p.after {} arrivals)).2 := by
      rw [after, List.foldl_append]
      rfl
    rw [signalTimes_concat, hafter]
    refine ⟨?_, fun d hd => ⟨a, by simp, ?_⟩⟩
    · exact (processed p a.now a.tick _).tracks (htracks.maybeResetDaily hlater)
        (maybeResetDaily_dailyEpoch _ _)
    · exact (Option.some.inj ((processTick_dailyEpoch p _ _ _).symm.trans hd)).symm

/-- The signals for an instrument are apart by the interval, and as few in each
day as there may be. -/
theorem demo_throttled (p : LowFrequencyDemoProcessor) (i : ℤ) (arrivals : List Arrival)
    (hclock : (arrivals.map Arrival.now).Pairwise (· ≤ ·)) :
    (p.signalTimes i {} arrivals).IsChain (fun t u : ℚ => t + p.minIntervalSeconds ≤ u) ∧
      ∀ m ∈ p.maxDailySignalsPerInstrument, ∀ k,
        ((p.signalTimes i {} arrivals).countP (InDay k) : ℤ) ≤ max m 0 :=
  have htracks := (tracks_after (p := p) i hclock).1
  ⟨htracks.apart, htracks.capped⟩

def daily : LowFrequencyDemoProcessor where
  maxDailySignalsPerInstrument := some 1

def quoteAt (now : ℚ) : Arrival := ⟨now, ⟨256265, 100, ⟨"1970-01-01", "00:15:00"⟩⟩⟩

example : daily.signalTimes 256265 {} ([900, 1000, 1800, 86400].map quoteAt) = [900, 86400] := by
  decide +kernel

theorem daily_throttled :
    (daily.signalTimes 256265 {} ([900, 1000, 1800, 86400].map quoteAt)).IsChain
        (fun t u : ℚ => t + daily.minIntervalSeconds ≤ u) ∧
      ∀ m ∈ daily.maxDailySignalsPerInstrument, ∀ k,
        ((daily.signalTimes 256265 {} ([900, 1000, 1800, 86400].map quoteAt)).countP (InDay k) : ℤ) ≤
          max m 0 :=
  demo_throttled daily 256265 _ (by decide +kernel)

end

end LowFrequencyDemoProcessor

end AlphaPanda.Strategies
