import AlphaPanda.Risk.Keys

/-!
# What a message leaves alone

A signal is counted under one key and nothing else is written for it; a tick
writes a price.
-/

namespace AlphaPanda.Risk

open Coroutine

/-- It writes no price, and lets no key expire but those of counters. -/
def Op.sparesPrices (svc : Service) : Op → Prop
  | .setValue .. => False
  | .expire key _ => ∃ counter, key = svc.redisKey "counter" counter
  | _ => True

/-- What of the world depends neither on the clock nor on the counters that a
signal is counted under. -/
structure Uncounted (svc : Service) (counts : String → Prop) (f : World State Op Exc → φ) :
    Prop where
  clock : ∀ w n, f { w with st := { w.st with clock := n } } = f w
  counters : ∀ w key n, counts key →
    f { w with st := { w.st with counters := w.st.counters.set key n } } = f w
  record : ∀ w op answer, op.sparesPrices svc → f (w.record op answer) = f w

theorem redis_leaves {f : World State Op Exc → φ} (hf : ∀ w answer, f (w.record op answer) = f w) :
    (redis what op).Leaves f :=
  leaves_tryCatch (leaves_perform hf) fun _ => leaves_throw

section
variable {svc : Service} {counts : String → Prop} {f : World State Op Exc → φ}
  (hf : Uncounted svc counts f)
include hf

theorem Uncounted.readClock : readClock.Leaves f := fun _ w => hf.clock w _

theorem Uncounted.scan {ν : Type} (start : String) (entries : State → List (String × ν)) :
    (scan start entries).Leaves f := by
  have hop : ∀ {what op}, op.sparesPrices svc → (redis what op).Leaves f := fun h =>
    redis_leaves fun w answer => hf.record w _ answer h
  refine leaves_bind (hop trivial) fun _ => leaves_bind leaves_get fun s => ?_
  dsimp only
  split
  · exact leaves_pure
  · exact leaves_bind (hop trivial) fun _ => leaves_bind leaves_get fun _ => leaves_pure

theorem Uncounted.getState : (getState svc).Leaves f :=
  leaves_bind (hf.scan _ _) fun _ => leaves_bind (hf.scan _ _) fun _ =>
    leaves_bind (hf.scan _ _) fun _ => leaves_pure

theorem Uncounted.emitVerdict (signal : Except String TradingSignal) (passed : Bool) (broker : String)
    (record : TradingSignal → Timestamp → Record) :
    (emitVerdict svc signal passed broker record).Leaves f := by
  have hperform : ∀ {op}, op.sparesPrices svc → (Prog.perform op : Handler Unit).Leaves f := fun h =>
    leaves_perform fun w answer => hf.record w _ answer h
  unfold Risk.emitVerdict
  split
  · exact leaves_throw
  · refine leaves_bind hf.readClock fun n => ?_
    exact leaves_bind (leaves_bind (hperform trivial) fun _ => hperform trivial) fun _ =>
      leaves_suppress (hperform trivial)

theorem Uncounted.updateRiskStateForSignal
    (hcounts : ∀ today, counts (svc.tradeKey broker (fields.get "strategy_id").text today)) :
    (updateRiskStateForSignal svc fields broker).Leaves f := by
  unfold Risk.updateRiskStateForSignal
  dsimp only
  split
  · refine leaves_bind hf.readClock fun n => ?_
    exact leaves_bind (redis_leaves fun w answer => hf.record w _ answer trivial) fun _ =>
      leaves_bind (leaves_modify fun w => hf.counters w _ _ (hcounts _)) fun _ =>
        redis_leaves fun w answer => hf.record w _ answer ⟨_, rfl⟩
  · exact leaves_pure

theorem Uncounted.handleTradingSignal
    (hcounts : ∀ today, counts (svc.tradeKey broker (fields.get "strategy_id").text today))
    (key : String) (signal : Except String TradingSignal) :
    (handleTradingSignal svc key broker fields signal).Leaves f := by
  refine leaves_bind hf.getState fun riskState => leaves_bind hf.readClock fun n => ?_
  split
  · exact leaves_throw
  · split
    · exact leaves_bind (hf.emitVerdict signal _ _ _) fun _ =>
        hf.updateRiskStateForSignal hcounts
    · exact hf.emitVerdict signal _ _ _

end

structure Stored (counts : String → Prop) (f : State → φ) : Prop where
  clock : ∀ s n, f { s with clock := n } = f s
  counters : ∀ s key n, counts key → f { s with counters := s.counters.set key n } = f s
  values : ∀ s d, f { s with values := d } = f s

theorem Stored.handleMarketTick {f : State → φ} (hf : Stored counts f) (svc : Service)
    (fields : Fields) : (handleMarketTick svc fields).Keeps f := by
  unfold Risk.handleMarketTick
  dsimp only
  split
  · split
    · exact leaves_throw
    · exact leaves_bind (redis_leaves fun _ _ => rfl) fun _ =>
        leaves_bind (keeps_modify fun s => hf.values s _) fun _ => redis_leaves fun _ _ => rfl
  · exact leaves_pure

theorem Stored.handleMessage {f : State → φ} (hf : Stored counts f) (svc : Service)
    (message : Streaming.Envelope Data) (topic : String)
    (hcounts : ∀ fields signal, message.data = .object fields signal → ∀ today,
      counts (svc.tradeKey (TopicMap.getBrokerFromTopic topic) (fields.get "strategy_id").text today)) :
    (handleMessage svc message topic).Keeps f := by
  have hworld : Uncounted svc counts fun w => f w.st :=
    ⟨fun w => hf.clock w.st, fun w => hf.counters w.st, fun _ _ _ _ => rfl⟩
  unfold Risk.handleMessage
  dsimp only
  split
  · split
    · exact leaves_throw
    · rename_i fields signal hdata
      split
      · exact hworld.handleTradingSignal (hcounts fields signal hdata) _ signal
      · exact hf.handleMarketTick svc fields
  · exact leaves_pure

theorem collections_stored : Stored (fun _ => True) State.collections :=
  ⟨fun _ _ => rfl, fun _ _ _ _ => rfl, fun _ _ => rfl⟩

theorem foldl_pop_empty [DecidableEq κ] (keys : List κ) :
    keys.foldl Dict.pop (Dict.empty : Dict κ ν) = Dict.empty := by
  induction keys with
  | nil => rfl
  | cons key rest ih => exact ih

theorem positions_empty {svc : Service} {ds : List Delivery} (hs : s.collections = .empty)
    (hh : h ∈ svc.run s ds) : (readState svc h.before).positions = .empty := by
  suffices hempty : h.before.collections = .empty by
    simp [readState, positionItems, hempty, Dict.empty, matching, Dict.ofList]
  induction ds generalizing s with
  | nil => cases hh
  | cons d ds ih =>
    have hbefore : (s.expire d.expired).collections = .empty := by
      rw [State.expire, hs]
      exact foldl_pop_empty d.expired
    rcases List.mem_cons.mp hh with rfl | hh
    · exact hbefore
    · have hafter := (collections_stored.handleMessage svc d.message d.topic
        fun _ _ _ _ => trivial).eq d.answers (World.start (s.expire d.expired))
      exact ih (hafter.trans hbefore) hh

end AlphaPanda.Risk
