import AlphaPanda.Risk.Frame
import Mathlib.Tactic.MkIffOfInductiveProp

/-!
# The daily trade limit

The counter of a validated signal is incremented under the name of its broker
and strategy, and the rule looks it up under the name of the strategy alone.
-/

namespace AlphaPanda.Risk

open Coroutine

def trades (svc : Service) (broker strategy day : String) (run : List Handled) :
    List ValidatedSignal :=
  run.flatMap fun h =>
    if svc.today h.before.clock = day then
      (h.validatedOn broker).filter fun v => v.originalSignal.strategyId = strategy
    else []

def WithinDailyLimit (svc : Service) (broker strategy day : String) (run : List Handled) : Prop :=
  (trades svc broker strategy day run).length ≤ ({} : MaxDailyTradesRule).maxDailyTrades

/-- A signal of the strategy that is validated that day unless the daily trade
rule refuses it. -/
@[mk_iff]
structure Due (svc : Service) (broker strategy day : String) (h : Handled) (fields : Fields)
    (signal : TradingSignal) : Prop where
  type : isEventType h.delivery.message.type .tradingSignal
  strategy : signal.strategyId = strategy
  topic : TopicMap.getBrokerFromTopic h.delivery.topic = broker
  day : svc.today h.before.clock = day
  position : Passes (({} : MaxPositionSizeRule).check svc.format fields (readState svc h.before))
  price : Passes (({} : PriceLimitRule).check svc.format fields (readState svc h.before))
  publishes : svc.publishes h.before h.delivery

def BelowLimit (svc : Service) (h : Handled) (fields : Fields) : Prop :=
  Passes (({} : MaxDailyTradesRule).check (svc.today h.before.clock) fields (readState svc h.before))

instance : Decidable (Due svc broker strategy day h fields signal) :=
  decidable_of_iff' _ (due_iff ..)

instance : Decidable (BelowLimit svc h fields) := inferInstanceAs (Decidable (Passes _))

def Handled.parsed? (h : Handled) : Option (Fields × TradingSignal) :=
  match h.delivery.message.data with
  | .object fields (.ok signal) => some (fields, signal)
  | _ => none

def isDue (svc : Service) (broker strategy day : String) (h : Handled) : Bool :=
  h.parsed?.any fun x => Due svc broker strategy day h x.1 x.2

def isDueBelow (svc : Service) (broker strategy day : String) (h : Handled) : Bool :=
  h.parsed?.any fun x => Due svc broker strategy day h x.1 x.2 ∧ BelowLimit svc h x.1

def due (svc : Service) (broker strategy day : String) (run : List Handled) : List Handled :=
  run.filter (isDue svc broker strategy day)

/-- The signals due that find the counter the rule looks up below the limit. -/
def dueBelow (svc : Service) (broker strategy day : String) (run : List Handled) : List Handled :=
  run.filter (isDueBelow svc broker strategy day)

def tradesFound (svc : Service) (strategy day : String) (s : State) : ℤ :=
  ((readState svc s).dailyTrades.get? (lookedUp strategy day)).getD 0

/-- What is looked up for the strategy has a name of its own: it does not start
with the broker of a delivery, and it does not expire. -/
structure Apart (svc : Service) (strategy day : String) (ds : List Delivery) : Prop where
  brokers : ∀ b ∈ svc.activeBrokers, b = "paper" ∨ b = "zerodha"
  parsed : ∀ d ∈ ds, ∀ fields signal, d.message.data = .object fields (.ok signal) →
    (fields.get "strategy_id").text = signal.strategyId
  named : ∀ d ∈ ds, ¬(TopicMap.getBrokerFromTopic d.topic ++ "_").toList <+:
    (strategy ++ "_" ++ day).toList
  kept : ∀ d ∈ ds, ∀ key ∈ d.expired, tradeName key ≠ lookedUp strategy day

section
variable {svc : Service} {broker strategy day : String}

-- ---------------------------------------------------------------------------
-- The trades of a run
-- ---------------------------------------------------------------------------

theorem parsed?_eq_some {h : Handled} {x : Fields × TradingSignal} : h.parsed? = some x ↔
    h.delivery.message.data = .object x.1 (.ok x.2) := by
  unfold Handled.parsed?
  constructor
  · intro hx
    split at hx
    · cases hx
      assumption
    · cases hx
  · intro hdata
    rw [hdata]

theorem any_parsed? {h : Handled} {p : Fields × TradingSignal → Bool} : h.parsed?.any p ↔
    ∃ fields signal, h.delivery.message.data = .object fields (.ok signal) ∧ p (fields, signal) := by
  simp only [Option.any_eq_true, parsed?_eq_some, Prod.exists]

theorem isDue_iff : isDue svc broker strategy day h ↔ ∃ fields signal,
    h.delivery.message.data = .object fields (.ok signal) ∧
      Due svc broker strategy day h fields signal := by
  simp only [isDue, any_parsed?, decide_eq_true_eq]

theorem isDueBelow_iff : isDueBelow svc broker strategy day h ↔ ∃ fields signal,
    h.delivery.message.data = .object fields (.ok signal) ∧
      Due svc broker strategy day h fields signal ∧ BelowLimit svc h fields := by
  simp only [isDueBelow, any_parsed?, decide_eq_true_eq]

theorem trades_singleton {ds : List Delivery} (hh : h ∈ svc.run s ds) :
    (trades svc broker strategy day [h]).length = (dueBelow svc broker strategy day [h]).length := by
  unfold trades dueBelow
  rw [List.flatMap_singleton, List.filter_singleton]
  rcases validatedOn_cases hh broker with ⟨fields, signal, v, hadmitted, hsignal, -, hvalidated⟩ |
    ⟨hrefused, hvalidated⟩
  · by_cases hour : svc.today h.before.clock = day ∧ signal.strategyId = strategy
    · have hdue : isDueBelow svc broker strategy day h := isDueBelow_iff.mpr
        ⟨fields, signal, hadmitted.data, ⟨hadmitted.type, hour.2, hadmitted.topic, hour.1,
          hadmitted.position, hadmitted.price, hadmitted.publishes⟩, hadmitted.daily⟩
      simp [hdue, hour, hvalidated, hsignal]
    · have hnot : ¬isDueBelow svc broker strategy day h := by
        intro hdue
        obtain ⟨fields', signal', hdata, hdue, -⟩ := isDueBelow_iff.mp hdue
        cases hadmitted.data.symm.trans hdata
        exact hour ⟨hdue.day, hdue.strategy⟩
      rw [eq_false_of_ne_true hnot, hvalidated]
      split
      · rename_i hday
        have hstrategy : signal.strategyId ≠ strategy := fun h => hour ⟨hday, h⟩
        simp [hsignal, hstrategy]
      · rfl
  · have hnot : ¬isDueBelow svc broker strategy day h := by
      intro hdue
      obtain ⟨fields, signal, hdata, hdue, hbelow⟩ := isDueBelow_iff.mp hdue
      exact hrefused fields signal ⟨hdue.type, hdata, hdue.topic, hdue.position, hbelow, hdue.price,
        hdue.publishes⟩
    simp [hnot, hvalidated]

theorem trades_length (svc : Service) (broker strategy day : String) (s : State)
    (ds : List Delivery) : (trades svc broker strategy day (svc.run s ds)).length =
      (dueBelow svc broker strategy day (svc.run s ds)).length := by
  suffices hall : ∀ run : List Handled, run ⊆ svc.run s ds →
      (trades svc broker strategy day run).length = (dueBelow svc broker strategy day run).length from
    hall _ (List.Subset.refl _)
  intro run hrun
  induction run with
  | nil => rfl
  | cons h run ih =>
    obtain ⟨hh, hrest⟩ := List.cons_subset.mp hrun
    have hone : (trades svc broker strategy day [h]).length =
        (dueBelow svc broker strategy day [h]).length := trades_singleton hh
    rw [← List.singleton_append, trades, dueBelow, List.flatMap_append, List.filter_append,
      List.length_append, List.length_append]
    exact congrArg₂ (· + ·) hone (ih hrest)

-- ---------------------------------------------------------------------------
-- The counter that the rule looks up
-- ---------------------------------------------------------------------------

def Service.readsAs (svc : Service) (name key : String) : Bool :=
  tradeName key = name ∧ (svc.redisKey "counter" "daily_trades_").toList <+: key.toList

theorem readsAs_of_ne (svc : Service) (h : tradeName key ≠ name) : svc.readsAs name key = false := by
  simp [Service.readsAs, h]

theorem get?_dailyTrades (svc : Service) (name : String) (s : State) :
    (readState svc s).dailyTrades.get? name =
      ((s.counters.entries.filter fun e => svc.readsAs name e.1).getLast?).map Prod.snd := by
  rw [readState, tradeCounters, matching, Dict.get?_ofList_eq, List.filter_map, List.filter_filter,
    List.getLast?_map, Option.map_map]
  simp only [Service.readsAs, Function.comp_def, Bool.decide_and]
  rfl

theorem dailyTrades_stored (svc : Service) (name : String) :
    Stored (fun key => tradeName key ≠ name) fun s => (readState svc s).dailyTrades.get? name where
  clock _ _ := rfl
  counters s key n hkey := by
    simp only [get?_dailyTrades, Dict.set, Dict.filter_put (readsAs_of_ne svc hkey)]
  values _ _ := rfl

theorem tradesFound_expire {expired : List String}
    (h : ∀ key ∈ expired, tradeName key ≠ lookedUp strategy day) (s : State) :
    tradesFound svc strategy day (s.expire expired) = tradesFound svc strategy day s := by
  have hfilter := Dict.filter_foldl_pop (fun key hkey => readsAs_of_ne svc (h key hkey)) s.counters
  simp only [tradesFound, State.expire, get?_dailyTrades, hfilter]

/-- No delivery changes what is found for the strategy. -/
theorem tradesFound_run (hapart : Apart svc strategy day ds) (hh : h ∈ svc.run s ds) :
    tradesFound svc strategy day h.before = tradesFound svc strategy day s := by
  induction ds generalizing s with
  | nil => cases hh
  | cons d ds ih =>
    have hbefore : tradesFound svc strategy day (s.expire d.expired) =
        tradesFound svc strategy day s := tradesFound_expire (hapart.kept d List.mem_cons_self) s
    rcases List.mem_cons.mp hh with rfl | hh
    · exact hbefore
    · have hrest : Apart svc strategy day ds :=
        ⟨hapart.brokers, fun d hd => hapart.parsed d (List.mem_cons_of_mem _ hd),
          fun d hd => hapart.named d (List.mem_cons_of_mem _ hd),
          fun d hd => hapart.kept d (List.mem_cons_of_mem _ hd)⟩
      have hkeeps := (dailyTrades_stored svc (lookedUp strategy day)).handleMessage svc
        d.message d.topic fun fields _ _ today => tradeName_tradeKey_ne hapart.brokers
          (broker_cases d.topic) (hapart.named d List.mem_cons_self) _ today
      have hafter : tradesFound svc strategy day (svc.handle s d).after.st =
          tradesFound svc strategy day (s.expire d.expired) :=
        congrArg (·.getD 0) (hkeeps.eq d.answers (World.start (s.expire d.expired)))
      rw [ih hrest hh, hafter, hbefore]

theorem belowLimit_iff (hapart : Apart svc strategy day ds) (hh : h ∈ svc.run s ds)
    (hdata : h.delivery.message.data = .object fields (.ok signal))
    (hdue : Due svc broker strategy day h fields signal) :
    BelowLimit svc h fields ↔
      tradesFound svc strategy day s < ({} : MaxDailyTradesRule).maxDailyTrades := by
  have hname : (fields.get "strategy_id").text = strategy := by
    obtain ⟨s', d, hd, rfl⟩ := mem_run hh
    exact (hapart.parsed d hd fields signal hdata).trans hdue.strategy
  have hfound : dailyTradesOf (svc.today h.before.clock) fields (readState svc h.before) =
      tradesFound svc strategy day h.before := by
    rw [dailyTradesOf, hname, hdue.day]
    rfl
  rw [BelowLimit, MaxDailyTradesRule.passes_iff, hfound, tradesFound_run hapart hh]

theorem dueBelow_apart (hapart : Apart svc strategy day ds) (broker : String) (s : State) :
    dueBelow svc broker strategy day (svc.run s ds) =
      if tradesFound svc strategy day s < ({} : MaxDailyTradesRule).maxDailyTrades then
        due svc broker strategy day (svc.run s ds)
      else [] := by
  split
  · rename_i hbelow
    refine List.filter_congr fun h hh => Bool.eq_iff_iff.mpr ?_
    rw [isDueBelow_iff, isDue_iff]
    refine exists₂_congr fun fields signal => and_congr_right fun hdata => ?_
    exact and_iff_left_of_imp fun hdue => (belowLimit_iff hapart hh hdata hdue).mpr hbelow
  · rename_i hreached
    refine List.filter_eq_nil_iff.mpr fun h hh hparsed => hreached ?_
    obtain ⟨fields, signal, hdata, hdue, hbelow⟩ := isDueBelow_iff.mp hparsed
    exact (belowLimit_iff hapart hh hdata hdue).mp hbelow

/-- The limit holds exactly where at most fifty of the signals due find the
counter that the rule looks up below it. Where that counter has a name of its
own, no trade is ever counted under it. -/
theorem daily_limit_iff (svc : Service) (broker strategy day : String) (s : State)
    (ds : List Delivery) :
    (WithinDailyLimit svc broker strategy day (svc.run s ds) ↔
      (dueBelow svc broker strategy day (svc.run s ds)).length ≤
        ({} : MaxDailyTradesRule).maxDailyTrades) ∧
    (Apart svc strategy day ds → (WithinDailyLimit svc broker strategy day (svc.run s ds) ↔
      ({} : MaxDailyTradesRule).maxDailyTrades ≤ tradesFound svc strategy day s ∨
        (due svc broker strategy day (svc.run s ds)).length ≤
          ({} : MaxDailyTradesRule).maxDailyTrades)) := by
  have hlength : WithinDailyLimit svc broker strategy day (svc.run s ds) ↔
      (dueBelow svc broker strategy day (svc.run s ds)).length ≤
        ({} : MaxDailyTradesRule).maxDailyTrades := by
    rw [WithinDailyLimit, trades_length]
  refine ⟨hlength, fun hapart => ?_⟩
  rw [hlength, dueBelow_apart hapart]
  split
  · rename_i hbelow
    exact (or_iff_right (not_le.mpr hbelow)).symm
  · rename_i hreached
    exact iff_of_true (by decide) (.inl (not_lt.mp hreached))

end

-- ---------------------------------------------------------------------------
-- Fifty-one trades
-- ---------------------------------------------------------------------------

def paperOnly : Service where
  activeBrokers := ["paper"]
  now n := ⟨"2026-01-05", toString n⟩
  today _ := "2026-01-05"
  format := ⟨fun _ => "", fun _ => ""⟩

def buySignal (strategy broker : String) (quantity : ℤ) : Delivery where
  message :=
    { id := .str "e1"
      type := .str "trading_signal"
      data := .object
        (.ofList [("strategy_id", .str strategy), ("instrument_token", .int 1),
          ("signal_type", .str "BUY"), ("quantity", .int quantity)])
        (.ok
          { strategyId := strategy
            instrumentToken := 1
            signalType := .buy
            quantity := quantity
            timestamp := ⟨"2026-01-05", "09:30:00"⟩ }) }
  topic := (TopicMap.mk broker).signalsRaw

def buyFields : Fields :=
  .ofList [("strategy_id", .str "s1"), ("instrument_token", .int 1), ("signal_type", .str "BUY"),
    ("quantity", .int 1)]

theorem tradingSignal_type : isEventType (.str "trading_signal") .tradingSignal := by
  decide +kernel

theorem paper_signalsRaw_broker :
    TopicMap.getBrokerFromTopic (TopicMap.mk "paper").signalsRaw = "paper" := by
  decide +kernel

theorem buySignals_apart (n : ℕ) :
    Apart paperOnly "s1" "2026-01-05" (List.replicate n (buySignal "s1" "paper" 1)) where
  brokers b hb := .inl (List.mem_singleton.mp hb)
  parsed d hd fields signal hdata := by
    cases List.eq_of_mem_replicate hd
    cases hdata
    rfl
  named d hd := by
    cases List.eq_of_mem_replicate hd
    decide +kernel
  kept d hd key hkey := by
    cases List.eq_of_mem_replicate hd
    cases hkey

theorem buySignals_due (hh : h ∈ paperOnly.run {} (List.replicate n (buySignal "s1" "paper" 1))) :
    isDue paperOnly "paper" "s1" "2026-01-05" h := by
  have hpositions := positions_empty rfl hh
  obtain ⟨s, d, hd, rfl⟩ := mem_run hh
  cases List.eq_of_mem_replicate hd
  have hposition : Passes (({} : MaxPositionSizeRule).check paperOnly.format buyFields (readState paperOnly
      (paperOnly.handle s (buySignal "s1" "paper" 1)).before)) := by
    refine (MaxPositionSizeRule.passes_iff _ _ _ _).mpr ⟨.int 1, ?_, by decide +kernel⟩
    rw [newPosition, hpositions]
    rfl
  exact isDue_iff.mpr ⟨buyFields, _, rfl, tradingSignal_type, rfl, paper_signalsRaw_broker, rfl,
    hposition, ⟨_, rfl⟩, rfl⟩

theorem fifty_one_trades :
    ¬WithinDailyLimit paperOnly "paper" "s1" "2026-01-05"
      (paperOnly.run {} (List.replicate 51 (buySignal "s1" "paper" 1))) := by
  have hdue : due paperOnly "paper" "s1" "2026-01-05"
      (paperOnly.run {} (List.replicate 51 (buySignal "s1" "paper" 1))) = _ :=
    List.filter_eq_self.mpr fun h hh => buySignals_due hh
  have hnone : tradesFound paperOnly "s1" "2026-01-05" {} = 0 := rfl
  have hlength := congrArg List.length
    (run_deliveries paperOnly {} (List.replicate 51 (buySignal "s1" "paper" 1)))
  rw [List.length_map, List.length_replicate] at hlength
  rw [WithinDailyLimit, trades_length, dueBelow_apart (buySignals_apart 51), hnone,
    if_pos (by decide), hdue, hlength]
  decide

theorem fifty_one_limit :
    WithinDailyLimit paperOnly "paper" "s1" "2026-01-05"
        (paperOnly.run {} (List.replicate 51 (buySignal "s1" "paper" 1))) ↔
      ({} : MaxDailyTradesRule).maxDailyTrades ≤ tradesFound paperOnly "s1" "2026-01-05" {} ∨
        (due paperOnly "paper" "s1" "2026-01-05"
          (paperOnly.run {} (List.replicate 51 (buySignal "s1" "paper" 1)))).length ≤
            ({} : MaxDailyTradesRule).maxDailyTrades :=
  (daily_limit_iff paperOnly "paper" "s1" "2026-01-05" {} _).2 (buySignals_apart 51)

end AlphaPanda.Risk
