import AlphaPanda.Strategies.Rules

/-!
# Instrument isolation

An executor keeps one history for all of its instruments. Its signals for an
instrument are those of the instrument's own ticks as long as no full window
that they are computed from holds a tick of another one.
-/

namespace AlphaPanda.Strategies

-- ---------------------------------------------------------------------------
-- Runs of an executor
-- ---------------------------------------------------------------------------

namespace StrategyExecutor

variable [Field K] [LinearOrder K]

def feed (e : StrategyExecutor ρ K) (ticks : List MarketTick) : StrategyExecutor ρ K :=
  ticks.foldl (fun e tick => (e.processTick tick).2) e

def results (e : StrategyExecutor ρ K) :
    List MarketTick → List (MarketTick × Except Exc (Option (SignalResult K)))
  | [] => []
  | tick :: ticks => (tick, (e.processTick tick).1) :: (e.processTick tick).2.results ticks

def signalsFor (e : StrategyExecutor ρ K) (instrument : ℤ) (ticks : List MarketTick) :
    List (Except Exc (Option (SignalResult K))) :=
  ((e.results ticks).filter fun r => r.1.instrumentToken = instrument).map Prod.snd

@[simp] theorem feed_concat (e : StrategyExecutor ρ K) (ticks : List MarketTick) (tick : MarketTick) :
    e.feed (ticks ++ [tick]) = ((e.feed ticks).processTick tick).2 := by
  simp [feed]

theorem results_concat (e : StrategyExecutor ρ K) (ticks : List MarketTick) (tick : MarketTick) :
    e.results (ticks ++ [tick]) =
      e.results ticks ++ [(tick, ((e.feed ticks).processTick tick).1)] := by
  induction ticks generalizing e with
  | nil => rfl
  | cons first rest ih =>
    simp only [List.cons_append, results, ih]
    rfl

theorem signalsFor_concat (e : StrategyExecutor ρ K) (instrument : ℤ) (ticks : List MarketTick)
    (tick : MarketTick) :
    e.signalsFor instrument (ticks ++ [tick]) =
      e.signalsFor instrument ticks ++
        if tick.instrumentToken = instrument then [((e.feed ticks).processTick tick).1] else [] := by
  rw [signalsFor, results_concat, List.filter_append, List.map_append]
  by_cases h : tick.instrumentToken = instrument <;> simp [signalsFor, h]

section
variable (p : StrategyProcessor ρ K) (v : StandardStrategyValidator) (c : StrategyConfig) (s : ρ)

def accepted (ticks : List MarketTick) : List MarketTick := ticks.filter (init p v c s).canProcessTick

theorem feed_init (ticks : List MarketTick) :
    ∃ history state, (init p v c s).feed ticks = ⟨p, v, c, history, state⟩ ∧
      history.items = (accepted p v c s ticks).rtake p.requiredHistoryLength := by
  induction ticks using List.reverseRecOn with
  | nil => exact ⟨.empty, s, rfl, by simp [accepted, Deque.empty, List.rtake]⟩
  | append_singleton ticks tick ih =>
    obtain ⟨history, state, hfeed, hitems⟩ := ih
    rw [feed_concat, hfeed, accepted, List.filter_append]
    by_cases haccepted : (init p v c s).canProcessTick tick
    · refine ⟨history.append tick, (p.processTick tick (history.append tick).items state).2, ?_, ?_⟩
      · have hcan : (⟨p, v, c, history, state⟩ : StrategyExecutor ρ K).canProcessTick tick = true :=
          haccepted
        simp [processTick, hcan]
      · rw [List.filter_cons_of_pos haccepted, List.filter_nil]
        exact Deque.append_items hitems tick
    · refine ⟨history, state, ?_, ?_⟩
      · have hcan : (⟨p, v, c, history, state⟩ : StrategyExecutor ρ K).canProcessTick tick = false :=
          Bool.not_eq_true _ ▸ haccepted
        simp [processTick, hcan]
      · rw [List.filter_cons_of_neg haccepted, List.filter_nil, List.append_nil]
        exact hitems

/-- What it returns for a tick depends on the ticks accepted so far. -/
theorem processTick_accepted (p : StrategyProcessor Unit K) (ticks : List MarketTick) (tick : MarketTick) :
    (((init p v c ()).feed ticks).processTick tick).1 =
      if (init p v c ()).canProcessTick tick then
        (p.processTick tick ((accepted p v c () (ticks ++ [tick])).rtake p.requiredHistoryLength) ()).1 >>=
          (init p v c ()).validated tick
      else .ok none := by
  obtain ⟨history, state, hfeed, hitems⟩ := feed_init p v c () ticks
  rw [hfeed, accepted, List.filter_append]
  by_cases haccepted : (init p v c ()).canProcessTick tick
  · have hcan : (⟨p, v, c, history, state⟩ : StrategyExecutor Unit K).canProcessTick tick = true :=
      haccepted
    have happend := Deque.append_items hitems tick
    rw [if_pos haccepted, List.filter_cons_of_pos haccepted, List.filter_nil]
    simp only [processTick, hcan, Bool.not_true, Bool.false_eq_true, if_false]
    rw [happend]
    rfl
  · have hcan : (⟨p, v, c, history, state⟩ : StrategyExecutor Unit K).canProcessTick tick = false :=
      Bool.not_eq_true _ ▸ haccepted
    rw [if_neg haccepted]
    simp [processTick, hcan]

theorem history_own (hown : ∀ t ∈ before, t.instrumentToken = tick.instrumentToken)
    (hcan : ((init p v c s).feed before).canProcessTick tick) :
    (((init p v c s).feed before).processTick tick).2.history.items =
      (before ++ [tick]).rtake p.requiredHistoryLength := by
  obtain ⟨history, state, hfeed, hitems⟩ := feed_init p v c s (before ++ [tick])
  obtain ⟨history', state', hfeed', -⟩ := feed_init p v c s before
  rw [feed_concat] at hfeed
  have haccepted : ∀ t ∈ before ++ [tick], (init p v c s).canProcessTick t := by
    intro t ht
    rw [hfeed'] at hcan
    have htoken : t.instrumentToken = tick.instrumentToken := by
      rcases List.mem_append.mp ht with h | h
      · exact hown t h
      · exact congrArg _ (List.mem_singleton.mp h)
    simp only [canProcessTick] at hcan ⊢
    rw [htoken]
    exact hcan
  rw [hfeed]
  rw [accepted, List.filter_eq_self.mpr haccepted] at hitems
  exact hitems

end

theorem mem_results {e : StrategyExecutor ρ K} (h : r ∈ e.results ticks) :
    ∃ before tick, before ++ [tick] <+: ticks ∧ r = (tick, ((e.feed before).processTick tick).1) := by
  induction ticks using List.reverseRecOn with
  | nil => cases h
  | append_singleton ticks tick ih =>
    rw [results_concat, List.mem_append, List.mem_singleton] at h
    rcases h with h | h
    · obtain ⟨before, now, hbefore, hr⟩ := ih h
      exact ⟨before, now, hbefore.trans (List.prefix_append _ _), hr⟩
    · exact ⟨ticks, tick, List.prefix_refl _, h⟩

theorem results_related {e : StrategyExecutor ρ K} {e' : StrategyExecutor ρ' K'} [Field K']
    [LinearOrder K'] {R : MarketTick → MarketTick → Prop}
    {S : MarketTick × Except Exc (Option (SignalResult K)) →
      MarketTick × Except Exc (Option (SignalResult K')) → Prop}
    (hticks : List.Forall₂ R ticks ticks')
    (hstep : ∀ before before' tick tick', List.Forall₂ R before before' → R tick tick' →
      S (tick, ((e.feed before).processTick tick).1) (tick', ((e'.feed before').processTick tick').1)) :
    List.Forall₂ S (e.results ticks) (e'.results ticks') := by
  induction ticks using List.reverseRecOn generalizing ticks' with
  | nil =>
    cases hticks
    exact .nil
  | append_singleton before tick ih =>
    have hreverse := List.rel_reverse hticks
    rw [List.reverse_concat] at hreverse
    obtain ⟨tick', before', htick, hbefore, hticks'⟩ := List.forall₂_cons_left_iff.mp hreverse
    obtain rfl : ticks' = before'.reverse ++ [tick'] := by
      rw [← List.reverse_reverse ticks', hticks', List.reverse_cons]
    rw [results_concat, results_concat]
    have hbefore := List.rel_reverse hbefore
    rw [List.reverse_reverse] at hbefore
    exact List.rel_append (ih hbefore) (.cons (hstep _ _ _ _ hbefore htick) .nil)

end StrategyExecutor

-- ---------------------------------------------------------------------------
-- Isolation
-- ---------------------------------------------------------------------------

def RulesProcessor.executor (r : RulesProcessor) (validator : StandardStrategyValidator)
    (config : StrategyConfig) : StrategyExecutor Unit :=
  .init r.toProcessor validator config ()

/-- At each tick of the instrument that is accepted, a full history holds only
ticks of the instrument. -/
def OwnWindows (e : StrategyExecutor ρ) (instrument : ℤ) (ticks : List MarketTick) : Prop :=
  ∀ before tick, before ++ [tick] <+: ticks → tick.instrumentToken = instrument →
    e.canProcessTick tick → ∀ history, ((e.feed before).processTick tick).2.history.items = history →
      e.processor.requiredHistoryLength ≤ history.length →
        ∀ t ∈ history, t.instrumentToken = instrument

section
variable {r : RulesProcessor} {validator : StandardStrategyValidator} {config : StrategyConfig}

def returned (r : RulesProcessor) (validator : StandardStrategyValidator) (config : StrategyConfig)
    (ticks : List MarketTick) (tick : MarketTick) : Except Exc (Option SignalResult) :=
  if (r.executor validator config).canProcessTick tick then
    r.processTick tick ((ticks.filter (r.executor validator config).canProcessTick).rtake
      r.requiredHistoryLength) >>= (r.executor validator config).validated tick
  else .ok none

theorem processTick_feed (ticks : List MarketTick) (tick : MarketTick) :
    (((r.executor validator config).feed ticks).processTick tick).1 =
      returned r validator config (ticks ++ [tick]) tick :=
  StrategyExecutor.processTick_accepted validator config r.toProcessor ticks tick

theorem returned_own (r : RulesProcessor) (validator : StandardStrategyValidator)
    (config : StrategyConfig) (instrument : ℤ) (ticks : List MarketTick) (tick : MarketTick)
    (hown : (r.executor validator config).canProcessTick tick → ∀ history,
      (ticks.filter (r.executor validator config).canProcessTick).rtake
        r.requiredHistoryLength = history →
      r.requiredHistoryLength ≤ history.length → ∀ t ∈ history, t.instrumentToken = instrument) :
    returned r validator config (ticks.filter fun t => t.instrumentToken = instrument) tick =
      returned r validator config ticks tick := by
  unfold returned
  split
  · rename_i haccepted
    rw [List.filter_comm]
    have hshort : ∀ xs : List MarketTick, xs.length < r.requiredHistoryLength →
        r.processTick tick (xs.rtake r.requiredHistoryLength) = .ok none := by
      intro xs hxs
      refine r.processTick_short tick ?_
      rw [List.length_rtake]
      exact (Nat.min_le_right _ _).trans_lt hxs
    by_cases hfull : r.requiredHistoryLength ≤
      (ticks.filter (r.executor validator config).canProcessTick).length
    · have hwindow := hown haccepted _ rfl (by rw [List.length_rtake, Nat.min_eq_left hfull])
      rw [List.rtake_filter hfull (by simpa using hwindow)]
    · have hfewer := List.length_filter_le (fun t : MarketTick => t.instrumentToken = instrument)
        (ticks.filter (r.executor validator config).canProcessTick)
      rw [hshort _ (hfewer.trans_lt (not_le.mp hfull)), hshort _ (not_le.mp hfull)]
  · rfl

theorem signalsFor_own (instrument : ℤ) {ticks : List MarketTick}
    (hown : OwnWindows (r.executor validator config) instrument ticks) :
    (r.executor validator config).signalsFor instrument
        (ticks.filter fun t => t.instrumentToken = instrument) =
      (r.executor validator config).signalsFor instrument ticks := by
  induction ticks using List.reverseRecOn with
  | nil => rfl
  | append_singleton ticks tick ih =>
    have hbefore : OwnWindows (r.executor validator config) instrument ticks := by
      intro before t hinit
      exact hown before t (hinit.trans (List.prefix_append _ _))
    rw [List.filter_append, StrategyExecutor.signalsFor_concat, ← ih hbefore]
    by_cases hinstrument : tick.instrumentToken = instrument
    · have hfilter : [tick].filter (fun t => decide (t.instrumentToken = instrument)) = [tick] := by
        simp [hinstrument]
      rw [if_pos hinstrument, hfilter, StrategyExecutor.signalsFor_concat, if_pos hinstrument,
        processTick_feed, processTick_feed]
      have hreturned := returned_own r validator config instrument (ticks ++ [tick]) tick ?_
      · rw [List.filter_append, hfilter] at hreturned
        rw [hreturned]
      · intro haccepted history hhistory
        refine hown ticks tick (List.prefix_refl _) hinstrument haccepted history ?_
        obtain ⟨history', state, hfeed, hitems⟩ :=
          StrategyExecutor.feed_init r.toProcessor validator config () (ticks ++ [tick])
        rw [StrategyExecutor.feed_concat] at hfeed
        rw [← hhistory, RulesProcessor.executor, hfeed]
        exact hitems
    · rw [if_neg hinstrument, List.append_nil]
      simp [hinstrument]

end

/-- Two streams with the same ticks of an instrument give the same signals for
it, as long as no full window holds a tick of another. -/
theorem instrument_isolated (r : RulesProcessor) (validator : StandardStrategyValidator)
    (config : StrategyConfig) (instrument : ℤ) {ticks₁ ticks₂ : List MarketTick}
    (hsame : ticks₁.filter (fun t => t.instrumentToken = instrument) =
      ticks₂.filter (fun t => t.instrumentToken = instrument))
    (h₁ : OwnWindows (r.executor validator config) instrument ticks₁)
    (h₂ : OwnWindows (r.executor validator config) instrument ticks₂) :
    (r.executor validator config).signalsFor instrument ticks₁ =
      (r.executor validator config).signalsFor instrument ticks₂ := by
  rw [← signalsFor_own instrument h₁, hsame, signalsFor_own instrument h₂]

theorem ownWindows_of_all (r : RulesProcessor) (validator : StandardStrategyValidator)
    (config : StrategyConfig) (h : ∀ t ∈ ticks, t.instrumentToken = instrument) :
    OwnWindows (r.executor validator config) instrument ticks := by
  intro before tick hinit _ _ history hhistory _ t ht
  obtain ⟨history', state, hfeed, hitems⟩ :=
    StrategyExecutor.feed_init r.toProcessor validator config () (before ++ [tick])
  rw [StrategyExecutor.feed_concat] at hfeed
  rw [← hhistory, RulesProcessor.executor, hfeed] at ht
  have hmem : t ∈ history'.items := ht
  rw [hitems] at hmem
  have haccepted := List.mem_of_mem_drop hmem
  exact h t (hinit.subset (List.mem_of_mem_filter haccepted))

theorem OwnWindows.concat {e : StrategyExecutor ρ} (h : OwnWindows e instrument ticks)
    (htick : tick.instrumentToken ≠ instrument) : OwnWindows e instrument (ticks ++ [tick]) := by
  intro before t hinit ht
  rcases List.prefix_concat_iff.mp hinit with heq | hinit
  · have hlast := (List.append_inj' heq rfl).2
    cases hlast
    exact absurd ht htick
  · exact h before t hinit ht

-- ---------------------------------------------------------------------------
-- Mixed windows
-- ---------------------------------------------------------------------------

def tickAt (instrument : ℤ) (price : ℚ) : MarketTick :=
  ⟨instrument, price, ⟨"2026-01-05", "09:30:00"⟩⟩

theorem RulesMomentumProcessor.processTick_full (p : RulesMomentumProcessor) (tick first : MarketTick)
    (rest : List MarketTick) (hfull : rest.length + 1 = p.lookback) (hprice : first.lastPrice ≠ 0) :
    p.processTick tick (first :: rest) =
      let momentum := (tick.lastPrice - first.lastPrice) / first.lastPrice
      if p.threshold < momentum then .ok (some (signalAt tick "BUY" (|momentum| * 5) p.qty))
      else if momentum < -p.threshold then
        .ok (some (signalAt tick "SELL" (|momentum| * 5) p.qty))
      else .ok none := by
  have hitem : itemFromEnd p.lookback (first :: rest) = some first := by
    simp [itemFromEnd, ← hfull]
  rw [processTick, if_neg (by simp [hfull]), hitem]
  dsimp only
  rw [if_neg hprice]

section
variable {p : RulesMomentumProcessor} {validator : StandardStrategyValidator}
  {config : StrategyConfig}

theorem returned_full (haccepted : ∀ t ∈ earlier ++ window ++ [tick],
    ((RulesProcessor.momentum p).executor validator config).canProcessTick t)
    (hfull : (window ++ [tick]).length = p.lookback) :
    returned (.momentum p) validator config (earlier ++ window ++ [tick]) tick =
      p.processTick tick (window ++ [tick]) >>=
        ((RulesProcessor.momentum p).executor validator config).validated tick := by
  have htick := haccepted tick (List.mem_append_right _ List.mem_cons_self)
  have hwindow := List.rtake_append_of_length earlier hfull
  rw [returned, if_pos htick, List.filter_eq_self.mpr haccepted, List.append_assoc,
    RulesProcessor.requiredHistoryLength, hwindow]
  rfl

theorem momentum_flat (hthreshold : 0 ≤ p.threshold) (hn : p.lookback = n + 2) :
    p.processTick (tickAt i 1) (tickAt i 1 :: List.replicate n (tickAt i 1) ++ [tickAt i 1]) =
      .ok none := by
  rw [List.cons_append, RulesMomentumProcessor.processTick_full _ _ _ _ (by simp [hn])
    (by simp [tickAt])]
  simp [tickAt, hthreshold.not_gt]

theorem momentum_rise (hthreshold : 0 ≤ p.threshold) (hn : p.lookback = n + 2) :
    p.processTick (tickAt i 1)
      (tickAt j (1 / (p.threshold + 2)) :: List.replicate n (tickAt i 1) ++ [tickAt i 1]) =
      .ok (some (signalAt (tickAt i 1) "BUY" (|p.threshold + 1| * 5) p.qty)) := by
  have hpos : 0 < p.threshold + 2 := by linarith
  have hmomentum : (1 - 1 / (p.threshold + 2)) / (1 / (p.threshold + 2)) = p.threshold + 1 := by
    field_simp
    ring
  rw [List.cons_append, RulesMomentumProcessor.processTick_full _ _ _ _ (by simp [hn])
    (by simp [tickAt, hpos.ne'])]
  simp only [tickAt, hmomentum]
  exact if_pos (by linarith)

theorem validated_rise (hthreshold : 0 ≤ p.threshold)
    (hconfidence : 1 ≤ validator.maxSignalConfidence) (hquantity : validator.minQuantity ≤ p.qty) :
    ((RulesProcessor.momentum p).executor validator config).validated (tickAt i 1)
        (some (signalAt (tickAt i 1) "BUY" (|p.threshold + 1| * 5) p.qty)) =
      .ok (some (signalAt (tickAt i 1) "BUY" (|p.threshold + 1| * 5) p.qty)) := by
  have hcertain : min 1 (|p.threshold + 1| * 5) = 1 := by
    rw [abs_of_nonneg (by linarith)]
    exact min_eq_left (by linarith)
  have hvalid : validator.validateSignal
      (signalAt (tickAt i 1) "BUY" (|p.threshold + 1| * 5) p.qty) (tickAt i 1) = .ok true := by
    unfold StandardStrategyValidator.validateSignal signalAt
    rw [hcertain, if_neg (by simp [hconfidence]), if_neg (not_lt.mpr hquantity), if_neg (by simp),
      if_neg (by simp [tickAt])]
    rfl
  unfold StrategyExecutor.validated
  rw [show ((RulesProcessor.momentum p).executor validator config).validator = validator from rfl]
  dsimp only
  rw [hvalid]
  rfl

/-- No momentum executor isolates two instruments, if its signals are valid. -/
theorem momentum_not_isolated (hlookback : 2 ≤ p.lookback) (hthreshold : 0 ≤ p.threshold)
    (hconfidence : 1 ≤ validator.maxSignalConfidence) (hquantity : validator.minQuantity ≤ p.qty)
    (henabled : config.enabled) (hi : i ∈ config.instrumentTokens)
    (hj : j ∈ config.instrumentTokens) (hne : j ≠ i) :
    ∃ ticks₁ ticks₂ : List MarketTick,
      ticks₁.filter (fun t => t.instrumentToken = i) = ticks₂.filter (fun t => t.instrumentToken = i) ∧
      ((RulesProcessor.momentum p).executor validator config).signalsFor i ticks₁ ≠
        ((RulesProcessor.momentum p).executor validator config).signalsFor i ticks₂ := by
  obtain ⟨n, hn⟩ := Nat.exists_eq_add_of_le' hlookback
  have hcan : ∀ t : MarketTick, t = tickAt i 1 ∨ t = tickAt j (1 / (p.threshold + 2)) →
      ((RulesProcessor.momentum p).executor validator config).canProcessTick t := by
    rintro t (rfl | rfl) <;>
      simp [StrategyExecutor.canProcessTick, RulesProcessor.executor, StrategyExecutor.init,
        RulesProcessor.toProcessor, tickAt, hi, hj, henabled]
  refine ⟨[] ++ (tickAt i 1 :: List.replicate n (tickAt i 1)) ++ [tickAt i 1],
    [tickAt i 1] ++ (tickAt j (1 / (p.threshold + 2)) :: List.replicate n (tickAt i 1)) ++
      [tickAt i 1], by simp [tickAt, hne], fun hequal => ?_⟩
  have hinstrument : (tickAt i 1).instrumentToken = i := rfl
  rw [StrategyExecutor.signalsFor_concat, StrategyExecutor.signalsFor_concat, if_pos hinstrument,
    if_pos hinstrument] at hequal
  have hlast := List.singleton_inj.mp (List.append_inj' hequal rfl).2
  rw [processTick_feed, processTick_feed, returned_full _ (by simp [hn]),
    returned_full _ (by simp [hn]), momentum_flat hthreshold hn, momentum_rise hthreshold hn] at hlast
  · cases hlast.trans (validated_rise hthreshold hconfidence hquantity)
  · intro t ht
    refine hcan t ?_
    simp only [List.mem_append, List.mem_cons, List.mem_replicate, List.not_mem_nil] at ht
    tauto
  · intro t ht
    refine hcan t ?_
    simp only [List.mem_append, List.mem_cons, List.mem_replicate, List.not_mem_nil] at ht
    tauto

end

def pairConfig : StrategyConfig where
  strategyId := "s1"
  activeBrokers := ["paper"]
  instrumentTokens := [1, 2]

theorem own_then_other :
    ((RulesProcessor.momentum { lookback := 2 }).executor {} pairConfig).signalsFor 1
        ([tickAt 1 10, tickAt 1 20] ++ [tickAt 2 5]) =
      ((RulesProcessor.momentum { lookback := 2 }).executor {} pairConfig).signalsFor 1
        [tickAt 1 10, tickAt 1 20] := by
  have hown : OwnWindows ((RulesProcessor.momentum { lookback := 2 }).executor {} pairConfig) 1
      [tickAt 1 10, tickAt 1 20] := ownWindows_of_all _ _ _ (by decide)
  exact instrument_isolated _ {} pairConfig 1 (by decide +kernel) (hown.concat (by decide)) hown

/-- A tick of the other instrument between two at one price gives a SELL. -/
theorem other_price_sells :
    ¬(((RulesProcessor.momentum { lookback := 2 }).executor {} pairConfig).signalsFor 1
        [tickAt 1 10, tickAt 2 20, tickAt 1 10] =
      ((RulesProcessor.momentum { lookback := 2 }).executor {} pairConfig).signalsFor 1
        [tickAt 1 10, tickAt 1 10]) := by
  decide +kernel

end AlphaPanda.Strategies
