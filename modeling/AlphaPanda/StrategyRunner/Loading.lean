import AlphaPanda.StrategyRunner.Publishing
import AlphaPanda.Strategies.Rules
import Mathlib.Data.List.Count
import Mathlib.Data.List.Nodup

/-!
# Loading and routing

`_load_strategies` builds the table by which a tick finds its strategies. A
strategy stands in it as often as its instrument list names the token.
-/

namespace AlphaPanda.StrategyRunner

open Coroutine Strategies

-- ---------------------------------------------------------------------------
-- `_load_strategies`
-- ---------------------------------------------------------------------------

structure StrategyConfiguration where
  id : String
  strategyType : String
  instruments : List ℤ
  parameters : Metadata
  zerodhaTradingEnabled : Bool

structure Tables (ρ : Type) where
  strategyExecutors : State ρ := .empty
  strategyInstruments : Dict String (List ℤ) := .empty
  instrumentToStrategies : Dict ℤ (List String) := .empty

/-- What the factory makes of a type and its parameters, the numbers of the
configuration included, and the classes of the exceptions that it raises. -/
structure StrategyFactory (ρ : Type) where
  processor : String → Metadata → Except Exc (StrategyProcessor ρ × ρ)
  validator : Metadata → Except Exc StandardStrategyValidator
  isValueError : Exc → Bool

namespace StrategyFactory

variable (f : StrategyFactory ρ)

def createStrategy (config : StrategyConfiguration) : Except Exc (StrategyExecutor ρ) := do
  let (processor, state) ← f.processor config.strategyType config.parameters
  let validator ← f.validator config.parameters
  return .init processor validator
    { strategyId := config.id
      activeBrokers := if config.zerodhaTradingEnabled then ["zerodha"] else ["paper"]
      instrumentTokens := config.instruments }
    state

def route (strategyId : String) (tokens : List ℤ) (table : Dict ℤ (List String)) : Dict ℤ (List String) :=
  tokens.foldl (fun table token => table.set token ((table.get? token).getD [] ++ [strategyId])) table

def register (config : StrategyConfiguration) (executor : StrategyExecutor ρ) (t : Tables ρ) : Tables ρ where
  strategyExecutors := t.strategyExecutors.set config.id executor
  strategyInstruments := t.strategyInstruments.set config.id config.instruments
  instrumentToStrategies := route config.id config.instruments t.instrumentToStrategies

/-- An exception skips the strategy, but for a `ValueError` of another cause
than its model, which is raised. -/
def loadStrategy (t : Tables ρ) (config : StrategyConfiguration) : Except Exc (Tables ρ) :=
  match f.createStrategy config with
  | .ok executor => .ok (register config executor t)
  | .error e =>
    if f.isValueError e ∧ ¬"Failed to load ML model".toList <:+: e.message.toList then .error e
    else .ok t

def loadStrategies (configs : List StrategyConfiguration) : Except Exc (Tables ρ) :=
  configs.foldlM f.loadStrategy {}

end StrategyFactory

-- ---------------------------------------------------------------------------
-- The tables
-- ---------------------------------------------------------------------------

section
variable {f : StrategyFactory ρ} {configs : List StrategyConfiguration}

def routes (table : Dict ℤ (List String)) (token : ℤ) : List String := (table.get? token).getD []

theorem routes_set (table : Dict ℤ (List String)) :
    routes (table.set t ids) token = if token = t then ids else routes table token := by
  rw [routes, Dict.get?_set]
  split <;> simp_all [routes]

theorem routes_route (strategyId : String) (tokens : List ℤ) (table : Dict ℤ (List String)) (token : ℤ) :
    routes (StrategyFactory.route strategyId tokens table) token =
      routes table token ++ List.replicate (tokens.count token) strategyId := by
  induction tokens generalizing table with
  | nil => simp [StrategyFactory.route]
  | cons first rest ih =>
    change routes (StrategyFactory.route strategyId rest
      (table.set first (routes table first ++ [strategyId])))
      token = _
    rw [ih, routes_set]
    by_cases h : token = first
    · subst h
      rw [if_pos rfl, List.count_cons_self, List.append_assoc, List.replicate_succ]
      rfl
    · rw [if_neg h, List.count_cons_of_ne (Ne.symm h)]

def routesOf (token : ℤ) (config : StrategyConfiguration) : List String :=
  List.replicate (config.instruments.count token) config.id

/-- What a whole load leaves, when no strategy fails. -/
structure Loaded (configs : List StrategyConfiguration) (t t' : Tables ρ) : Prop where
  routes : ∀ token, routes t'.instrumentToStrategies token =
    routes t.instrumentToStrategies token ++ configs.flatMap (routesOf token)
  executors : ∀ id, (t'.strategyExecutors.get? id).isSome ↔
    (t.strategyExecutors.get? id).isSome ∨ id ∈ configs.map (·.id)

theorem loaded_foldlM (hloads : ∀ c ∈ configs, ∃ e, f.createStrategy c = .ok e) (t : Tables ρ)
    (h : configs.foldlM f.loadStrategy t = .ok t') : Loaded configs t t' := by
  induction configs generalizing t with
  | nil =>
    cases h
    exact ⟨by simp, by simp⟩
  | cons config rest ih =>
    obtain ⟨executor, hcreate⟩ := hloads config List.mem_cons_self
    rw [List.foldlM_cons, StrategyFactory.loadStrategy, hcreate] at h
    have hrest := ih (fun c hc => hloads c (List.mem_cons_of_mem _ hc)) _ h
    constructor
    · intro token
      rw [hrest.routes]
      change routes (StrategyFactory.route _ _ _) token ++ _ = _
      rw [routes_route, List.flatMap_cons, List.append_assoc]
      rfl
    · intro id
      rw [hrest.executors]
      change ((t.strategyExecutors.set config.id executor).get? id).isSome ∨ _ ↔ _
      rw [Dict.get?_set]
      by_cases hid : id = config.id <;> simp [hid]

theorem count_routesOf (hids : (configs.map (·.id)).Nodup) (hc : c ∈ configs) (token : ℤ) :
    (configs.flatMap (routesOf token)).count c.id = c.instruments.count token := by
  induction configs with
  | nil => cases hc
  | cons config rest ih =>
    rw [List.map_cons, List.nodup_cons] at hids
    rw [List.flatMap_cons, List.count_append, routesOf, List.count_replicate]
    rcases List.mem_cons.mp hc with rfl | hrest
    · have hnone : (rest.flatMap (routesOf token)).count c.id = 0 := by
        rw [List.count_eq_zero, List.mem_flatMap]
        rintro ⟨other, hother, hmem⟩
        rw [List.eq_of_mem_replicate hmem] at hids
        exact hids.1 (List.mem_map_of_mem hother)
      simp [hnone]
    · have hne : config.id ≠ c.id := by
        intro heq
        exact hids.1 (heq ▸ List.mem_map_of_mem hrest)
      rw [if_neg (by simpa using hne), Nat.zero_add]
      exact ih hids.2 hrest

end

-- ---------------------------------------------------------------------------
-- Handing a tick over
-- ---------------------------------------------------------------------------

section
variable {svc : Service} {s : State ρ}

def handed (svc : Service) (s : State ρ) (marketOpen : Bool) (message : Streaming.Envelope Data) :
    List (String × MarketTick) :=
  if !Risk.isEventType message.type .marketTick || !marketOpen then []
  else match message.data with
    | .other _ => []
    | .object fields tick =>
      if !(fields.get "instrument_token").truthy then []
      else match interestedStrategyIds svc (fields.get "instrument_token"), tick with
        | .ok strategyIds, .ok tick => (strategyIds.filter fun id => (s.get? id).isSome).map (·, tick)
        | _, _ => []

def hand (s : State ρ) (call : String × MarketTick) : State ρ :=
  match s.get? call.1 with
  | some executor => s.set call.1 (executor.processTick call.2).2
  | none => s

theorem isSome_hand (s : State ρ) (call : String × MarketTick) (id : String) :
    ((hand s call).get? id).isSome = (s.get? id).isSome := by
  unfold hand
  split
  · rename_i executor hsome
    rw [Dict.get?_set]
    split
    · subst id
      simp [hsome]
    · rfl
  · rfl

theorem isSome_foldl_hand (calls : List (String × MarketTick)) (s : State ρ) (id : String) :
    ((calls.foldl hand s).get? id).isSome = (s.get? id).isSome := by
  induction calls generalizing s with
  | nil => rfl
  | cons call rest ih => rw [List.foldl_cons, ih, isSome_hand]

theorem processStrategies_hands (svc : Service) (tick : MarketTick) (strategyIds : List String)
    (as : List (Option Exc)) (w : World (State ρ) Op Exc) :
    ((processStrategies svc tick strategyIds).exec as w).world.st =
      ((strategyIds.filter fun id => (w.st.get? id).isSome).map (·, tick)).foldl hand w.st := by
  induction strategyIds generalizing as w with
  | nil => rfl
  | cons strategyId rest ih =>
    simp only [processStrategies, exec_bind, exec_suppress, Outcome.andThen_ok]
    rw [ih]
    cases hexecutor : w.st.get? strategyId with
    | none =>
      have hout : (processStrategy svc tick strategyId).exec as w = ⟨.ok (), w, as⟩ := by
        simp only [processStrategy, exec_bind, exec_get, Outcome.andThen_ok, hexecutor, exec_pure]
      rw [hout, List.filter_cons_of_neg (by simp [hexecutor])]
    | some executor =>
      have hstate : ((processStrategy svc tick strategyId).exec as w).world.st = _ :=
        (processStrategy_publishes tick strategyId as w hexecutor).2
      have hhand : hand w.st (strategyId, tick) = w.st.set strategyId (executor.processTick tick).2 := by
        simp only [hand, hexecutor]
      rw [List.filter_cons_of_pos (by simp [hexecutor]), List.map_cons, List.foldl_cons, hstate, ← hhand]
      simp only [isSome_hand]

/-- The handler does to the executors what these calls do, and nothing else. -/
theorem handleMarketTick_hands (svc : Service) (marketOpen : Bool) (message : Streaming.Envelope Data)
    (as : List (Option Exc)) (w : World (State ρ) Op Exc) :
    ((handleMarketTick svc marketOpen message).exec as w).world.st =
      (handed svc w.st marketOpen message).foldl hand w.st := by
  unfold handleMarketTick handed
  split
  · rfl
  cases hdata : message.data with
  | other v => rfl
  | object fields tick =>
    dsimp only
    split
    · rfl
    cases hids : interestedStrategyIds svc (fields.get "instrument_token") with
    | error e => rfl
    | ok strategyIds =>
      cases tick with
      | error e => cases strategyIds <;> rfl
      | ok tick =>
        cases strategyIds with
        | nil => rfl
        | cons id rest => exact processStrategies_hands svc tick (id :: rest) as w

structure Arrival where
  marketOpen : Bool
  message : Streaming.Envelope Data
  answers : List (Option Exc)

def arrive (svc : Service) (s : State ρ) (x : Arrival) : State ρ :=
  ((handleMarketTick svc x.marketOpen x.message).exec x.answers (World.start s)).world.st

def arriveAll (svc : Service) (s : State ρ) (xs : List Arrival) : State ρ := xs.foldl (arrive svc) s

theorem isSome_arriveAll (svc : Service) (s : State ρ) (xs : List Arrival) (id : String) :
    ((arriveAll svc s xs).get? id).isSome = (s.get? id).isSome := by
  induction xs generalizing s with
  | nil => rfl
  | cons x rest ih =>
    change ((arriveAll svc (arrive svc s x) rest).get? id).isSome = _
    rw [ih, arrive, handleMarketTick_hands, isSome_foldl_hand]
    rfl

end

-- ---------------------------------------------------------------------------
-- Routing
-- ---------------------------------------------------------------------------

/-- A message with a tick in it, whose token is an integer of the JSON. -/
structure ValidTick (message : Streaming.Envelope Data) (tick : MarketTick) : Prop where
  type : Risk.isEventType message.type .marketTick
  data : ∃ fields, message.data = .object fields (.ok tick) ∧
    fields.get "instrument_token" = .int tick.instrumentToken

theorem handed_valid (hvalid : ValidTick message tick) (svc : Service) (s : State ρ) :
    handed svc s true message =
      if tick.instrumentToken = 0 then []
      else ((routes svc.instrumentToStrategies tick.instrumentToken).filter
        fun id => (s.get? id).isSome).map (·, tick) := by
  obtain ⟨htype, fields, hdata, htoken⟩ := hvalid
  have hkey : interestedStrategyIds svc (.int tick.instrumentToken) =
    .ok (routes svc.instrumentToStrategies tick.instrumentToken) := rfl
  simp only [handed, htype, hdata, htoken, hkey, Bool.not_true, Bool.or_self, Bool.false_eq_true, if_false]
  by_cases hzero : tick.instrumentToken = 0 <;> simp [Value.truthy, hzero]

/-- The tick is handed to each strategy that lists its token, once, and to no other. -/
structure RoutedOnce (configs : List StrategyConfiguration) (tick : MarketTick)
    (calls : List (String × MarketTick)) : Prop where
  once : ∀ c ∈ configs, calls.count (c.id, tick) = if tick.instrumentToken ∈ c.instruments then 1 else 0
  only : ∀ call ∈ calls, ∃ c ∈ configs, tick.instrumentToken ∈ c.instruments ∧ call = (c.id, tick)

/-- After any run, the next tick is routed as it should exactly if no strategy
lists its token twice, or at all if it is zero. -/
theorem routed_once_iff (f : StrategyFactory ρ) (activeBrokers : List String)
    (hids : (configs.map (·.id)).Nodup) (hloads : ∀ c ∈ configs, ∃ e, f.createStrategy c = .ok e)
    (hload : f.loadStrategies configs = .ok tables) (arrivals : List Arrival)
    (hvalid : ValidTick message tick) :
    RoutedOnce configs tick (handed ⟨activeBrokers, tables.instrumentToStrategies⟩
        (arriveAll ⟨activeBrokers, tables.instrumentToStrategies⟩ tables.strategyExecutors arrivals) true
        message) ↔
      ∀ c ∈ configs, c.instruments.count tick.instrumentToken ≤
        if tick.instrumentToken = 0 then 0 else 1 := by
  have hloaded := loaded_foldlM hloads {} hload
  have hroutes : routes tables.instrumentToStrategies tick.instrumentToken =
      configs.flatMap (routesOf tick.instrumentToken) := hloaded.routes _
  have hknown : ∀ id ∈ configs.flatMap (routesOf tick.instrumentToken),
      ((arriveAll ⟨activeBrokers, tables.instrumentToStrategies⟩ tables.strategyExecutors arrivals).get?
        id).isSome := by
    intro id hid
    obtain ⟨c, hc, hmem⟩ := List.mem_flatMap.mp hid
    rw [isSome_arriveAll, hloaded.executors]
    exact .inr (List.eq_of_mem_replicate hmem ▸ List.mem_map_of_mem hc)
  rw [handed_valid hvalid, hroutes, List.filter_eq_self.mpr hknown]
  generalize hcalls : (if tick.instrumentToken = 0 then [] else
    (configs.flatMap (routesOf tick.instrumentToken)).map (·, tick)) = calls
  have hcount : ∀ c ∈ configs, calls.count (c.id, tick) =
      if tick.instrumentToken = 0 then 0 else c.instruments.count tick.instrumentToken := by
    intro c hc
    rw [← hcalls]
    split
    · rfl
    · rw [List.count_map_of_injective _ _ (Prod.mk_left_injective tick), count_routesOf hids hc]
  have honly : ∀ call ∈ calls,
      ∃ c ∈ configs, tick.instrumentToken ∈ c.instruments ∧ call = (c.id, tick) := by
    intro call hcall
    rw [← hcalls] at hcall
    split at hcall
    · cases hcall
    · obtain ⟨id, hid, rfl⟩ := List.mem_map.mp hcall
      obtain ⟨c, hc, hmem⟩ := List.mem_flatMap.mp hid
      obtain ⟨hpos, rfl⟩ := List.mem_replicate.mp hmem
      exact ⟨c, hc, List.count_pos_iff.mp (Nat.pos_of_ne_zero hpos), rfl⟩
  constructor
  · rintro ⟨honce, -⟩ c hc
    have hc' := honce c hc
    rw [hcount c hc] at hc'
    by_cases hmem : tick.instrumentToken ∈ c.instruments
    · rw [if_pos hmem] at hc'
      split_ifs at hc' ⊢
      exact hc'.le
    · rw [List.count_eq_zero_of_not_mem hmem]
      exact Nat.zero_le _
  · refine fun hcounts => ⟨fun c hc => ?_, honly⟩
    have hle := hcounts c hc
    rw [hcount c hc]
    by_cases hmem : tick.instrumentToken ∈ c.instruments
    · have hpos := List.count_pos_iff.mpr hmem
      rw [if_pos hmem]
      split_ifs at hle ⊢ <;> omega
    · rw [if_neg hmem, List.count_eq_zero_of_not_mem hmem, ite_self]

def momentumFactory : StrategyFactory Unit where
  processor _ _ := .ok ((RulesProcessor.momentum {}).toProcessor, ())
  validator _ := .ok {}
  isValueError _ := false

def listing (instruments : List ℤ) : StrategyConfiguration where
  id := "s1"
  strategyType := "momentum"
  instruments := instruments
  parameters := .empty
  zerodhaTradingEnabled := false

def firstTick : MarketTick := ⟨1, 10, ⟨"2026-01-05", "09:30:00"⟩⟩

def firstMessage : Streaming.Envelope Data where
  id := .str "e1"
  type := .str "market_tick"
  data := .object (.ofList [("instrument_token", .int 1), ("last_price", .int 10),
    ("timestamp", .str "2026-01-05T09:30:00")]) (.ok firstTick)

theorem firstMessage_valid : ValidTick firstMessage firstTick :=
  ⟨by decide +kernel, _, rfl, by decide +kernel⟩

def listingService (instruments : List ℤ) : Service :=
  ⟨["paper"], StrategyFactory.route "s1" instruments .empty⟩

def listingExecutors (instruments : List ℤ) : State Unit :=
  Dict.empty.set "s1"
    (.init (RulesProcessor.momentum {}).toProcessor {} ⟨"s1", ["paper"], instruments, true⟩ ())

theorem listed_once_routed : RoutedOnce [listing [2, 1]] firstTick
    (handed (listingService [2, 1]) (arriveAll (listingService [2, 1]) (listingExecutors [2, 1])
      [⟨true, firstMessage, []⟩]) true firstMessage) :=
  (routed_once_iff momentumFactory ["paper"] (by decide) (fun _ _ => ⟨_, rfl⟩)
    (show momentumFactory.loadStrategies [listing [2, 1]] =
      .ok (StrategyFactory.register (listing [2, 1]) _ {}) from rfl)
    [⟨true, firstMessage, []⟩] firstMessage_valid).mpr (by decide)

/-- A strategy whose list repeats the token is handed the tick twice. -/
theorem listed_twice_routed_twice : ¬∀ (f : StrategyFactory Unit) (activeBrokers : List String)
    (configs : List StrategyConfiguration) (tables : Tables Unit) (arrivals : List Arrival)
    (message : Streaming.Envelope Data) (tick : MarketTick),
    (configs.map (·.id)).Nodup → (∀ c ∈ configs, ∃ e, f.createStrategy c = .ok e) →
    f.loadStrategies configs = .ok tables → ValidTick message tick →
    RoutedOnce configs tick (handed ⟨activeBrokers, tables.instrumentToStrategies⟩
      (arriveAll ⟨activeBrokers, tables.instrumentToStrategies⟩ tables.strategyExecutors arrivals) true
      message) := by
  intro h
  have honce := (h momentumFactory ["paper"] [listing [1, 1]]
    (StrategyFactory.register (listing [1, 1]) _ {})
    [] firstMessage firstTick (by decide) (fun _ _ => ⟨_, rfl⟩) rfl firstMessage_valid).once _
    List.mem_cons_self
  revert honce
  decide +kernel

end AlphaPanda.StrategyRunner
