import AlphaPanda.Risk.DailyLimit

/-!
# The position limit

The rule bounds the stored position after the signal, and no handler of the
risk manager stores a position.
-/

namespace AlphaPanda.Risk

open Coroutine

/-- What `TradingSignal(**fields)` keeps of the fields that the rule reads. -/
structure ParsedFrom (fields : Fields) (signal : TradingSignal) : Prop where
  quantity : ∀ n, Number.ofValue (fields.getD "quantity" (.int 0)) = some n →
    n.toDecimal = .ofRat signal.quantity
  signalType : fields.get "signal_type" = .str "BUY" ↔ signal.signalType = .buy

theorem Number.abs_zero_add (n : Number) (h : n.toDecimal = .ofRat q) :
    ((Number.int 0).add n).abs.toDecimal = .ofRat |q| := by
  cases n with
  | int m =>
    cases h
    simp [Number.add, Number.abs, Number.toDecimal]
  | float x =>
    rw [Number.toDecimal] at h
    subst h
    simp [Number.add, Number.abs, Number.toDecimal, Decimal.add, Decimal.abs, Decimal.ofRat]

theorem Number.neg_toDecimal (n : Number) (h : n.toDecimal = .ofRat q) :
    n.neg.toDecimal = .ofRat (-q) := by
  cases n with
  | int m =>
    cases h
    simp [Number.neg, Number.toDecimal]
  | float x =>
    rw [Number.toDecimal] at h
    subst h
    rfl

theorem passes_iff_of_empty {riskState : RiskState} (hempty : riskState.positions = .empty)
    (hparsed : ParsedFrom fields signal) (rule : MaxPositionSizeRule) (format : FloatFormat) :
    Passes (rule.check format fields riskState) ↔
      (Number.ofValue (fields.getD "quantity" (.int 0))).isSome ∧
        |signal.quantity| ≤ rule.maxPosition := by
  have hzero : Number.ofValue (.int 0) = some (.int 0) := rfl
  have hgt : ∀ q : ℤ, (Decimal.ofRat |(q : ℚ)|).gt (.ofRat rule.maxPosition) = false ↔
      |q| ≤ rule.maxPosition := by
    intro q
    simp only [Decimal.gt, Decimal.ofRat, ExtRat.le, Bool.not_eq_false', decide_eq_true_eq]
    exact_mod_cast Iff.rfl
  rw [MaxPositionSizeRule.passes_iff, newPosition, hempty]
  rw [Dict.get?_empty, Option.getD_none, hzero]
  cases hquantity : Number.ofValue (fields.getD "quantity" (.int 0)) with
  | none => simp
  | some n =>
    have hn := hparsed.quantity n hquantity
    simp only [Except.ok.injEq, exists_eq_left', Option.isSome_some, true_and]
    by_cases hbuy : fields.get "signal_type" = .str "BUY"
    · rw [if_pos hbuy, Number.abs_zero_add n hn, hgt]
    · rw [if_neg hbuy, Number.abs_zero_add n.neg (Number.neg_toDecimal n hn), abs_neg, hgt]

-- ---------------------------------------------------------------------------
-- The net quantity
-- ---------------------------------------------------------------------------

def signed (signalType : SignalType) (quantity : ℤ) : ℤ :=
  match signalType with
  | .buy => quantity
  | .sell => -quantity
  | .hold => 0

/-- The net quantity of the signals that a run had validated on the broker. -/
def netValidated (broker : String) (instrument : ℤ) (run : List Handled) : ℤ :=
  ((run.flatMap (·.validatedOn broker)).map fun v =>
    if v.originalSignal.instrumentToken = instrument then
      signed v.originalSignal.signalType v.validatedQuantity
    else 0).sum

def WithinPositionLimit (broker : String) (instrument : ℤ) (run : List Handled) : Prop :=
  |netValidated broker instrument run| ≤ ({} : MaxPositionSizeRule).maxPosition

/-- A signal for the instrument whose own quantity is within the limit, that
passes the other rules, and whose verdict is published. -/
@[mk_iff]
structure Ordered (svc : Service) (broker : String) (instrument : ℤ) (h : Handled)
    (fields : Fields) (signal : TradingSignal) : Prop where
  type : isEventType h.delivery.message.type .tradingSignal
  topic : TopicMap.getBrokerFromTopic h.delivery.topic = broker
  instrument : signal.instrumentToken = instrument
  number : (Number.ofValue (fields.getD "quantity" (.int 0))).isSome
  quantity : |signal.quantity| ≤ ({} : MaxPositionSizeRule).maxPosition
  daily : Passes (({} : MaxDailyTradesRule).check (svc.today h.before.clock) fields
    (readState svc h.before))
  price : Passes (({} : PriceLimitRule).check svc.format fields (readState svc h.before))
  publishes : svc.publishes h.before h.delivery

instance : Decidable (Ordered svc broker instrument h fields signal) :=
  decidable_of_iff' _ (ordered_iff ..)

/-- The signals of the instrument among the messages delivered that are within
the limit each on its own. -/
def orders (svc : Service) (broker : String) (instrument : ℤ) (run : List Handled) :
    List TradingSignal :=
  run.filterMap fun h => (h.parsed?.filter fun x =>
    Ordered svc broker instrument h x.1 x.2).map Prod.snd

def netOrdered (svc : Service) (broker : String) (instrument : ℤ) (run : List Handled) : ℤ :=
  ((orders svc broker instrument run).map fun signal =>
    signed signal.signalType signal.quantity).sum

theorem netValidated_cons (h : Handled) (run : List Handled) :
    netValidated broker instrument (h :: run) =
      netValidated broker instrument [h] + netValidated broker instrument run := by
  simp [netValidated]

theorem netOrdered_cons (svc : Service) (broker : String) (instrument : ℤ) (h : Handled)
    (run : List Handled) : netOrdered svc broker instrument (h :: run) =
      netOrdered svc broker instrument [h] + netOrdered svc broker instrument run := by
  rw [netOrdered, orders, ← List.singleton_append, List.filterMap_append, List.map_append,
    List.sum_append]
  rfl

theorem netOrdered_of_ordered
    (hdata : h.delivery.message.data = .object fields (.ok signal))
    (hordered : Ordered svc broker instrument h fields signal) :
    netOrdered svc broker instrument [h] = signed signal.signalType signal.quantity := by
  have hparsed : h.parsed? = some (fields, signal) := parsed?_eq_some.mpr hdata
  simp [netOrdered, orders, Option.filter, hparsed, hordered]

theorem netOrdered_of_not (hnone : ∀ fields signal,
    h.delivery.message.data = .object fields (.ok signal) →
      ¬Ordered svc broker instrument h fields signal) :
    netOrdered svc broker instrument [h] = 0 := by
  have hfilter : (h.parsed?.filter fun x => Ordered svc broker instrument h x.1 x.2) = none := by
    refine Option.filter_eq_none_iff.mpr fun x hx hordered => ?_
    exact hnone x.1 x.2 (parsed?_eq_some.mp hx) (of_decide_eq_true hordered)
  simp [netOrdered, orders, hfilter]

theorem netValidated_singleton {svc : Service} {ds : List Delivery} (hs : s.collections = .empty)
    (hparsed : ∀ d ∈ ds, ∀ fields signal, d.message.data = .object fields (.ok signal) →
      ParsedFrom fields signal) (hh : h ∈ svc.run s ds) :
    netValidated broker instrument [h] = netOrdered svc broker instrument [h] := by
  have hposition : ∀ fields signal, h.delivery.message.data = .object fields (.ok signal) →
      (Passes (({} : MaxPositionSizeRule).check svc.format fields (readState svc h.before)) ↔
        (Number.ofValue (fields.getD "quantity" (.int 0))).isSome ∧
          |signal.quantity| ≤ ({} : MaxPositionSizeRule).maxPosition) := by
    intro fields signal hdata
    have hempty := positions_empty hs hh
    obtain ⟨s', d, hd, rfl⟩ := mem_run hh
    exact passes_iff_of_empty hempty (hparsed d hd fields signal hdata) _ _
  rcases validatedOn_cases hh broker with ⟨fields, signal, v, hadmitted, rfl, hquantity, hv⟩ |
    ⟨hrefused, hnone⟩
  · obtain ⟨hnumber, hsize⟩ := (hposition _ _ hadmitted.data).mp hadmitted.position
    by_cases hinstrument : v.originalSignal.instrumentToken = instrument
    · rw [netOrdered_of_ordered hadmitted.data ⟨hadmitted.type, hadmitted.topic, hinstrument,
        hnumber, hsize, hadmitted.daily, hadmitted.price, hadmitted.publishes⟩]
      simp [netValidated, hv, hinstrument, hquantity]
    · rw [netOrdered_of_not fun fields' signal' hdata hordered => ?_]
      · simp [netValidated, hv, hinstrument]
      · cases hadmitted.data.symm.trans hdata
        exact hinstrument hordered.instrument
  · rw [netOrdered_of_not fun fields signal hdata hordered => hrefused fields signal ?_]
    · simp [netValidated, hnone]
    · exact ⟨hordered.type, hdata, hordered.topic,
        (hposition _ _ hdata).mpr ⟨hordered.number, hordered.quantity⟩, hordered.daily,
        hordered.price, hordered.publishes⟩

theorem netValidated_eq {svc : Service} {ds : List Delivery} (hs : s.collections = .empty)
    (hparsed : ∀ d ∈ ds, ∀ fields signal, d.message.data = .object fields (.ok signal) →
      ParsedFrom fields signal) (hrun : run ⊆ svc.run s ds) :
    netValidated broker instrument run = netOrdered svc broker instrument run := by
  induction run with
  | nil => rfl
  | cons h run ih =>
    obtain ⟨hh, hrest⟩ := List.cons_subset.mp hrun
    rw [netValidated_cons, netOrdered_cons, netValidated_singleton hs hparsed hh, ih hrest]

/-- From a store without positions, the limit holds at every point of the run
exactly where the quantities delivered by then add up to no more. -/
theorem position_limit_iff (svc : Service) (broker : String) (instrument : ℤ) {s : State}
    (hs : s.collections = .empty) {ds : List Delivery}
    (hparsed : ∀ d ∈ ds, ∀ fields signal, d.message.data = .object fields (.ok signal) →
      ParsedFrom fields signal) :
    (∀ before, before <+: svc.run s ds → WithinPositionLimit broker instrument before) ↔
      ∀ before, before <+: svc.run s ds →
        |netOrdered svc broker instrument before| ≤ ({} : MaxPositionSizeRule).maxPosition := by
  refine forall₂_congr fun before hinit => ?_
  rw [WithinPositionLimit, netValidated_eq hs hparsed hinit.subset]

theorem buySignals_parsed (n : ℕ) (quantity : ℤ) :
    ∀ d ∈ List.replicate n (buySignal "s1" "paper" quantity), ∀ fields signal,
      d.message.data = .object fields (.ok signal) → ParsedFrom fields signal := by
  intro d hd fields signal hdata
  cases List.eq_of_mem_replicate hd
  cases hdata
  refine ⟨fun n hn => ?_, iff_of_true rfl rfl⟩
  cases hn
  rfl

theorem buy_600_limit :
    (∀ before, before <+: paperOnly.run {} (List.replicate 2 (buySignal "s1" "paper" 600)) →
      WithinPositionLimit "paper" 1 before) ↔
      ∀ before, before <+: paperOnly.run {} (List.replicate 2 (buySignal "s1" "paper" 600)) →
        |netOrdered paperOnly "paper" 1 before| ≤ ({} : MaxPositionSizeRule).maxPosition :=
  position_limit_iff paperOnly "paper" 1 rfl (buySignals_parsed 2 600)

theorem twice_600 :
    ¬WithinPositionLimit "paper" 1
      (paperOnly.run {} (List.replicate 2 (buySignal "s1" "paper" 600))) := by
  have hnet : netValidated "paper" 1
      (paperOnly.run {} (List.replicate 2 (buySignal "s1" "paper" 600))) = 1200 := by
    decide +kernel
  unfold WithinPositionLimit
  rw [hnet]
  decide

end AlphaPanda.Risk
