import AlphaPanda.Lib.Expiry
import AlphaPanda.Risk.PositionLimit

/-!
# The price band

A signal that is validated within an hour of a tick of its instrument is within
ten percent of the tick's price: the price is written under a key, found again
by a scan, taken out of the key and looked up under a name, and each of these
keeps the instruments apart. A tick of instrument 0 is ignored.
-/

namespace AlphaPanda.Risk

open Coroutine

-- ---------------------------------------------------------------------------
-- A Redis with a clock
-- ---------------------------------------------------------------------------

structure Arrival where
  message : Streaming.Envelope Data
  topic : String
  elapsed : ℚ≥0
  answers : List (Option Exc) := []

structure Clocked where
  st : State := {}
  deadlines : Expiry String := .empty
  now : ℚ≥0 := 0

/-- SET drops the time of a key, and EXPIRE sets it. -/
def expireAt (now : ℚ≥0) (deadlines : Expiry String) : Op × Option Exc → Expiry String
  | (.setValue key _, none) => deadlines.persist key
  | (.expire key ttlSeconds, none) => deadlines.setex key now ttlSeconds
  | _ => deadlines

def Service.receive (svc : Service) (c : Clocked) (a : Arrival) : Handled :=
  svc.handle c.st
    { message := a.message
      topic := a.topic
      expired := c.deadlines.dead (c.now + a.elapsed)
      answers := a.answers }

def Service.next (svc : Service) (c : Clocked) (a : Arrival) : Clocked where
  st := (svc.receive c a).after.st
  deadlines := (svc.receive c a).after.log.foldl (expireAt (c.now + a.elapsed))
    (c.deadlines.sweep (c.now + a.elapsed))
  now := c.now + a.elapsed

def Service.after (svc : Service) (c : Clocked) (arrivals : List Arrival) : Clocked :=
  arrivals.foldl svc.next c

theorem after_append (svc : Service) (c : Clocked) (arrivals later : List Arrival) :
    svc.after c (arrivals ++ later) = svc.after (svc.after c arrivals) later :=
  List.foldl_append

structure IsTick (m : Streaming.Envelope Data) (instrument : ℤ) (price : ℚ) : Prop where
  type : isEventType m.type .marketTick
  data : ∃ fields signal, m.data = .object fields signal ∧
    fields.get "instrument_token" = .int instrument ∧
      (fields.get "last_price").toFloat = some (.ofRat price)
  positive : 0 < price

def Op.isRedis : Op → Bool
  | .keys _ | .mget _ | .incr _ | .setValue .. | .expire .. => true
  | .getProducer | .send _ | .recordSignalValidated .. => false

def Service.trace (svc : Service) (c : Clocked) : List Arrival → List Handled
  | [] => []
  | a :: arrivals => svc.receive c a :: svc.trace (svc.next c a) arrivals

/-- The ticks of a run are market ticks, and Redis does not fail. -/
structure Regular (svc : Service) (c : Clocked) (arrivals : List Arrival) : Prop where
  ticks : ∀ a ∈ arrivals, isEventType a.message.type .marketTick →
    ∃ instrument price, IsTick a.message instrument price
  redis : ∀ h ∈ svc.trace c arrivals, ∀ x ∈ h.after.log, x.1.isRedis → x.2 = none

def Service.priceKey (svc : Service) (instrument : ℤ) : String :=
  svc.redisKey "value" ("recent_price_" ++ toString instrument)

def OnlyPrices (svc : Service) (s : State) : Prop :=
  ∀ key price, s.values.get? key = some price → ∃ instrument, key = svc.priceKey instrument

theorem isDigit_of_mem_repr {n : ℕ} (h : c ∈ n.repr.toList) : c.isDigit := by
  rw [Nat.repr, String.toList_ofList] at h
  exact Nat.isDigit_of_mem_toDigits (by decide) (by decide) h

theorem repr_injective {m n : ℕ} (h : m.repr = n.repr) : m = n := by
  have hdigits : Nat.toDigits 10 m = Nat.toDigits 10 n := String.ofList_inj.mp h
  rw [← Nat.ofDigitChars_ten_toDigits (n := m), hdigits, Nat.ofDigitChars_ten_toDigits]

theorem toString_negSucc (n : ℕ) : (toString (Int.negSucc n)).toList = '-' :: n.succ.repr.toList :=
  String.toList_append

theorem mem_toString {i : ℤ} (h : c ∈ (toString i).toList) : c = '-' ∨ c.isDigit := by
  cases i with
  | ofNat n => exact .inr (isDigit_of_mem_repr h)
  | negSucc n =>
    rw [toString_negSucc] at h
    exact (List.mem_cons.mp h).imp_right isDigit_of_mem_repr

theorem toString_injective : Function.Injective (toString : ℤ → String) := by
  have hsign : ∀ m n : ℕ, m.repr ≠ toString (Int.negSucc n) := by
    intro m n h
    have hminus : '-' ∈ m.repr.toList := by
      rw [h, toString_negSucc]
      exact List.mem_cons_self
    exact absurd (isDigit_of_mem_repr hminus) (by decide)
  intro i j h
  cases i with
  | ofNat m =>
    cases j with
    | ofNat n => exact congrArg _ (repr_injective h)
    | negSucc n => exact absurd h (hsign m n)
  | negSucc m =>
    cases j with
    | ofNat n => exact absurd h.symm (hsign n m)
    | negSucc n =>
      have hlist := congrArg String.toList h
      rw [toString_negSucc, toString_negSucc] at hlist
      exact congrArg Int.negSucc
        (Nat.succ_injective (repr_injective (String.toList_inj.mp (List.cons.inj hlist).2)))

theorem priceKey_inj {svc : Service} (h : svc.priceKey i = svc.priceKey j) : i = j := by
  have hlist := congrArg String.toList h
  simp only [Service.priceKey, redisKey_append, String.toList_append,
    List.append_cancel_left_eq] at hlist
  exact toString_injective (String.toList_inj.mp hlist)

theorem priceKey_ne_counter (svc : Service) (i : ℤ) (counter : String) :
    svc.priceKey i ≠ svc.redisKey "counter" counter := by
  intro h
  have hlist := congrArg String.toList h
  rw [Service.priceKey, redisKey_toList, redisKey_toList, List.append_cancel_left_eq] at hlist
  simp at hlist

theorem secondPart_priceKey {svc : Service}
    (h : ∀ b ∈ svc.activeBrokers, b = "paper" ∨ b = "zerodha") (i : ℤ) :
    secondPart "recent_price_" (svc.priceKey i) = toString i := by
  have hsep : "recent_price_".toList = 'r' :: "ecent_price_".toList := by decide +kernel
  have hbase : ∀ l ∈ (svc.base ++ "value" ++ ":").toList.tails, l ≠ [] →
      ¬"recent_price_".toList <+: l ++ "recent_price_".toList := by
    rcases namespace_cases h with hns | hns | hns <;> rw [Service.base, hns] <;> decide +kernel
  have hdigits : 'r' ∉ (toString i).toList := by
    intro hr
    rcases mem_toString hr with hr | hr <;> exact absurd hr (by decide)
  rw [secondPart, Service.priceKey, afterFirst_redisKey hbase (by decide +kernel), hsep,
    beforeFirst_eq_self _ hdigits, String.ofList_toList]

-- ---------------------------------------------------------------------------
-- The price that the rule reads
-- ---------------------------------------------------------------------------

theorem recentPrice_read {svc : Service}
    (hbrokers : ∀ b ∈ svc.activeBrokers, b = "paper" ∨ b = "zerodha") (honly : OnlyPrices svc s)
    (hprice : s.values.get? (svc.priceKey i) = some price) :
    (readState svc s).recentPrices.get? ("recent_price_" ++ toString i) = some price := by
  have hname : ∀ j, "recent_price_" ++ secondPart "recent_price_" (svc.priceKey j) =
      "recent_price_" ++ toString j := fun j => by rw [secondPart_priceKey hbrokers]
  have hstart : (svc.redisKey "value" "recent_price_").toList <+: (svc.priceKey i).toList := by
    rw [Service.priceKey, redisKey_append, String.toList_append]
    exact List.prefix_append _ _
  refine Dict.get?_ofList ?_ fun v hv => ?_
  · refine List.mem_map.mpr ⟨(svc.priceKey i, price), ?_, by rw [hname]⟩
    exact List.mem_filter.mpr ⟨Dict.mem_entries.mpr hprice, decide_eq_true hstart⟩
  · obtain ⟨⟨key, v'⟩, hmem, heq⟩ := List.mem_map.mp hv
    have hget := Dict.mem_entries.mp (List.mem_filter.mp hmem).1
    obtain ⟨j, rfl⟩ := honly key v' hget
    rw [hname] at heq
    obtain ⟨hnames, rfl⟩ := Prod.mk.inj heq
    have hlist := congrArg String.toList hnames
    rw [String.toList_append, String.toList_append, List.append_cancel_left_eq] at hlist
    obtain rfl := toString_injective (String.toList_inj.mp hlist)
    exact Option.some.inj (hget.symm.trans hprice)

theorem truthy_of_toFloat {v : Value} (h : v.toFloat = some (.ofRat q)) (hq : q ≠ 0) : v.truthy := by
  cases v with
  | null => cases h
  | container repr nonempty => cases h
  | bool b =>
    cases b with
    | true => rfl
    | false => exact absurd (ExtRat.fin.inj (Decimal.num.inj (Option.some.inj h))).symm hq
  | int n =>
    have hn : (n : ℚ) = q := ExtRat.fin.inj (Decimal.num.inj (Option.some.inj h))
    refine decide_eq_true fun hzero => hq ?_
    rw [← hn, hzero, Int.cast_zero]
  | float repr =>
    have hreal : Decimal.ofText repr = some (.ofRat q) := h
    rw [Value.truthy, hreal]
    exact decide_eq_true fun hzero => hq (ExtRat.fin.inj (Decimal.num.inj hzero))
  | str s =>
    refine decide_eq_true fun hempty => ?_
    have hnone : Decimal.ofFloatText "" = none := by decide +kernel
    rw [hempty, Value.toFloat, hnone] at h
    cases h

theorem PriceLimitRule.passes_within {fields : Fields} {riskState : RiskState} (rule : PriceLimitRule)
    (format : FloatFormat) (hpass : Passes (rule.check format fields riskState))
    (hrecent : riskState.recentPrices.get?
      ("recent_price_" ++ (fields.get "instrument_token").text) = some (.ofRat r)) (hr : 0 < r)
    (hp : (fields.get "price").toFloat = some (.ofRat p)) (hp0 : p ≠ 0) :
    |p - r| ≤ rule.maxPriceDeviation * r := by
  obtain ⟨reason, hcheck⟩ := hpass
  have hprice : (fields.get "price").truthy := truthy_of_toFloat hp hp0
  have htruthy : (Decimal.ofRat r).truthy := decide_eq_true fun hzero =>
    hr.ne' (ExtRat.fin.inj (Decimal.num.inj hzero))
  have hfloat : toFloat (fields.get "price") = .ok (.ofRat p) := by rw [toFloat, hp]
  have hdeviation : (((Decimal.ofRat p).add (Decimal.ofRat r).neg).abs.div (.ofRat r)) =
      .ofRat (|p - r| / r) := by
    simp [Decimal.ofRat, Decimal.neg, Decimal.add, Decimal.abs, Decimal.div, sub_eq_add_neg]
  unfold PriceLimitRule.check at hcheck
  simp only [toString, hprice, hrecent, htruthy, hfloat, hdeviation, bind, Except.bind, Bool.not_true,
    Bool.false_eq_true, if_false] at hcheck
  by_cases hgt : (Decimal.ofRat (|p - r| / r)).gt (.ofRat rule.maxPriceDeviation)
  · rw [if_pos hgt] at hcheck
    cases hcheck
  · have hle : |p - r| / r ≤ rule.maxPriceDeviation := by
      simpa [Decimal.gt, Decimal.ofRat, ExtRat.le] using hgt
    exact (div_le_iff₀ hr).mp hle

-- ---------------------------------------------------------------------------
-- One message
-- ---------------------------------------------------------------------------

inductive Received (svc : Service) (c : Clocked) (a : Arrival) : Clocked → Prop
  | priced (htick : IsTick a.message i r) (hi : i ≠ 0)
    (hvalues : c'.st.values = (c.st.expire (c.deadlines.dead c'.now)).values.set (svc.priceKey i)
      (.ofRat r))
    (hdeadlines : c'.deadlines = ((c.deadlines.sweep c'.now).persist (svc.priceKey i)).setex
      (svc.priceKey i) c'.now 3600) : Received svc c a c'
  | unpriced (htick : ∀ i r, IsTick a.message i r → i = 0)
    (hvalues : c'.st.values = (c.st.expire (c.deadlines.dead c'.now)).values)
    (hdeadlines : ∀ i t, (c.deadlines.sweep c'.now).Until (svc.priceKey i) t →
      c'.deadlines.Until (svc.priceKey i) t) : Received svc c a c'

def Op.spares (key : String) : Op → Bool
  | .setValue k _ | .expire k _ => k ≠ key
  | _ => true

theorem until_expireAt {deadlines : Expiry String} {log : List (Op × Option Exc)} (h : deadlines.Until key t)
    (hlog : ∀ x ∈ log, Op.spares key x.1) : (log.foldl (expireAt now) deadlines).Until key t := by
  induction log generalizing deadlines with
  | nil => exact h
  | cons x log ih =>
    refine ih ?_ fun y hy => hlog y (List.mem_cons_of_mem _ hy)
    have hspares := hlog x List.mem_cons_self
    obtain ⟨op, answer⟩ := x
    cases answer with
    | some e => cases op <;> exact h
    | none =>
      cases op with
      | setValue k price => exact h.persist (Ne.symm (of_decide_eq_true hspares))
      | expire k ttl => exact h.setex_of_ne (Ne.symm (of_decide_eq_true hspares))
      | _ => exact h

/-- The prices, and the operations that write the one of an instrument. -/
def priceWrites (svc : Service) (i : ℤ) (w : World State Op Exc) :
    Dict String Decimal × List (Op × Option Exc) :=
  (w.st.values, w.log.filter fun x => !x.1.spares (svc.priceKey i))

theorem priceWrites_uncounted (svc : Service) (i : ℤ) :
    Uncounted svc (fun _ => True) (priceWrites svc i) where
  clock _ _ := rfl
  counters _ _ _ _ := rfl
  record w op answer hop := by
    have hspares : op.spares (svc.priceKey i) = true := by
      cases op with
      | setValue => cases hop
      | expire key ttl =>
        obtain ⟨counter, rfl⟩ := hop
        exact decide_eq_true (priceKey_ne_counter svc i counter).symm
      | _ => rfl
    simp [priceWrites, World.record, hspares]

theorem received_unpriced {svc : Service} (htick : ∀ i r, IsTick a.message i r → i = 0)
    (hleaves : ∀ i, (handleMessage svc a.message a.topic).Leaves (priceWrites svc i)) :
    Received svc c a (svc.next c a) := by
  have hwrites := fun i => hleaves i a.answers
    (World.start (c.st.expire (c.deadlines.dead (c.now + a.elapsed))))
  refine .unpriced htick (congrArg Prod.fst (hwrites 0)) fun i t huntil => ?_
  refine until_expireAt huntil fun x hx => ?_
  have hnone := List.filter_eq_nil_iff.mp (congrArg Prod.snd (hwrites i)) x hx
  simpa using hnone

theorem updateRecentPrice_succeeds {svc : Service} {as : List (Option Exc)} {s : State}
    (hredis : ∀ x ∈ ((updateRecentPrice svc token price).exec as (World.start s)).world.log,
      x.1.isRedis → x.2 = none) :
    ((updateRecentPrice svc token price).exec as (World.start s)).world =
      let key := svc.redisKey "value" s!"recent_price_{token}"
      ⟨{ s with values := s.values.set key price },
        [(.setValue key price, none), (.expire key 3600, none)]⟩ := by
  unfold updateRecentPrice redis at hredis ⊢
  simp only [exec_bind, exec_tryCatch, exec_perform, exec_modify] at hredis ⊢
  cases hset : as.headD none with
  | some e =>
    simp only [hset] at hredis
    exact absurd (hredis (_, some e) List.mem_cons_self rfl) (Option.some_ne_none e)
  | none =>
    simp only [hset, Outcome.andThen_ok, Outcome.orElse_ok] at hredis ⊢
    cases hexpire : as.tail.headD none with
    | some e =>
      simp only [hexpire] at hredis
      exact absurd (hredis (_, some e) (List.mem_cons_of_mem _ List.mem_cons_self) rfl)
        (Option.some_ne_none e)
    | none => rfl

theorem not_both_types {t : Value} (htick : isEventType t .marketTick) :
    isEventType t .tradingSignal = false := by
  cases t with
  | str s =>
    have hlower : Streaming.ErrorClassifier.lower s = EventType.marketTick.value :=
      of_decide_eq_true htick
    rw [isEventType, hlower]
    decide
  | _ => rfl

theorem handleMessage_tick {fields : Fields} (htype : isEventType m.type .marketTick)
    (hdata : m.data = .object fields signal) (htoken : fields.get "instrument_token" = .int i)
    (hprice : (fields.get "last_price").toFloat = some (.ofRat r)) (hr : 0 < r) (svc : Service)
    (topic : String) : handleMessage svc m topic =
      if i = 0 then pure () else updateRecentPrice svc (toString i) (.ofRat r) := by
  have htruthy : (fields.get "last_price").truthy := truthy_of_toFloat hprice hr.ne'
  have hfloat : toFloat (fields.get "last_price") = .ok (.ofRat r) := by rw [toFloat, hprice]
  have hzero : (Value.int i).truthy = decide (i ≠ 0) := rfl
  unfold handleMessage handleMarketTick
  simp only [htype, not_both_types htype, hdata, htoken, htruthy, hfloat, hzero, Value.text,
    Bool.or_true, Bool.and_true, if_true, Bool.false_eq_true, if_false]
  by_cases hi : i = 0
  · rw [if_pos hi, if_neg (by simp [hi])]
  · rw [if_neg hi, if_pos (by simp [hi])]

theorem IsTick.unique (h : IsTick m i r) (h' : IsTick m j r') : i = j ∧ r = r' := by
  obtain ⟨-, ⟨fields, signal, hdata, htoken, hprice⟩, -⟩ := h
  obtain ⟨-, ⟨fields', signal', hdata', htoken', hprice'⟩, -⟩ := h'
  obtain ⟨rfl, -⟩ := Data.object.inj (hdata.symm.trans hdata')
  have hfloat := Option.some.inj (hprice.symm.trans hprice')
  exact ⟨Value.int.inj (htoken.symm.trans htoken'), ExtRat.fin.inj (Decimal.num.inj hfloat)⟩

theorem received_tick {svc : Service} (htick : IsTick a.message i r)
    (hredis : ∀ x ∈ (svc.receive c a).after.log, x.1.isRedis → x.2 = none) :
    Received svc c a (svc.next c a) := by
  obtain ⟨fields, signal, hdata, htoken, hprice⟩ := htick.data
  have hhandle := handleMessage_tick htick.type hdata htoken hprice htick.positive svc a.topic
  by_cases hi : i = 0
  · refine received_unpriced (fun j r' h => (h.unique htick).1.trans hi) fun j => ?_
    rw [hhandle, if_pos hi]
    exact leaves_pure
  · unfold Service.receive Service.handle at hredis
    dsimp only at hredis
    rw [hhandle, if_neg hi] at hredis
    unfold Service.next Service.receive Service.handle
    dsimp only
    rw [hhandle, if_neg hi, updateRecentPrice_succeeds hredis]
    exact .priced htick hi rfl rfl

theorem received_other {svc : Service} (htick : isEventType a.message.type .marketTick = false) :
    Received svc c a (svc.next c a) := by
  refine received_unpriced (fun i r h => absurd h.type (by simp [htick])) fun i => ?_
  unfold handleMessage
  dsimp only
  rw [htick, Bool.or_false]
  split
  · split
    · exact leaves_throw
    · exact (priceWrites_uncounted svc i).handleTradingSignal (fun _ => trivial) _ _
  · exact leaves_pure

theorem received {svc : Service} (h : Regular svc c (a :: arrivals)) :
    Received svc c a (svc.next c a) := by
  cases htype : isEventType a.message.type .marketTick with
  | false => exact received_other htype
  | true =>
    obtain ⟨i, r, htick⟩ := h.ticks a List.mem_cons_self htype
    exact received_tick htick (h.redis _ List.mem_cons_self)

theorem Regular.tail {svc : Service} (h : Regular svc c (a :: arrivals)) :
    Regular svc (svc.next c a) arrivals where
  ticks b hb := h.ticks b (List.mem_cons_of_mem _ hb)
  redis x hx := h.redis x (List.mem_cons_of_mem _ hx)

structure Holds (svc : Service) (c : Clocked) (i : ℤ) (r : ℚ) (t : ℚ≥0) : Prop where
  value : c.st.values.get? (svc.priceKey i) = some (.ofRat r)
  lasts : c.deadlines.Until (svc.priceKey i) t

section
variable {svc : Service} {c c' : Clocked} {a : Arrival}

theorem OnlyPrices.expire (h : OnlyPrices svc s) (expired : List String) :
    OnlyPrices svc (s.expire expired) :=
  fun key price hget => h key price (Dict.get?_of_foldl_pop hget)

theorem Received.onlyPrices (h : Received svc c a c') (honly : OnlyPrices svc c.st) :
    OnlyPrices svc c'.st := by
  have hexpire := honly.expire (c.deadlines.dead c'.now)
  intro key price hget
  cases h with
  | unpriced _ hvalues _ =>
    rw [hvalues] at hget
    exact hexpire key price hget
  | priced _ _ hvalues _ =>
    rw [hvalues, Dict.get?_set] at hget
    split at hget
    · rename_i heq
      exact ⟨_, heq⟩
    · exact hexpire key price hget

theorem Holds.found (h : Holds svc c i r t) (hnow : now < t) :
    (c.st.expire (c.deadlines.dead now)).values.get? (svc.priceKey i) = some (.ofRat r) :=
  (Dict.get?_foldl_pop _ (h.lasts.not_dead hnow)).trans h.value

theorem Received.holds_tick (h : Received svc c a c') (htick : IsTick a.message i r) (hi : i ≠ 0) :
    Holds svc c' i r (c'.now + 3600) := by
  cases h with
  | unpriced hzero _ _ => exact absurd (hzero i r htick) hi
  | priced htick' _ hvalues hdeadlines =>
    obtain ⟨rfl, rfl⟩ := htick.unique htick'
    refine ⟨?_, ?_⟩
    · rw [hvalues, Dict.get?_set_self]
    · rw [hdeadlines]
      exact Expiry.until_setex_self _ _ _ _

theorem Received.holds_other (h : Received svc c a c') (hholds : Holds svc c i r t)
    (hnow : c'.now < t) (hother : ∀ r', ¬IsTick a.message i r') : Holds svc c' i r t := by
  have hlasts := hholds.lasts.sweep hnow
  cases h with
  | unpriced _ hvalues hdeadlines => exact ⟨hvalues ▸ hholds.found hnow, hdeadlines i t hlasts⟩
  | priced htick hj hvalues hdeadlines =>
    rename_i j r'
    have hne : svc.priceKey i ≠ svc.priceKey j := fun heq => hother r' (priceKey_inj heq ▸ htick)
    refine ⟨?_, ?_⟩
    · rw [hvalues, Dict.get?_set_of_ne _ hne]
      exact hholds.found hnow
    · rw [hdeadlines]
      exact (hlasts.persist hne).setex_of_ne hne

theorem after_now (svc : Service) (c : Clocked) (arrivals : List Arrival) :
    (svc.after c arrivals).now = c.now + (arrivals.map (·.elapsed)).sum := by
  induction arrivals generalizing c with
  | nil => exact (add_zero _).symm
  | cons a arrivals ih =>
    change (svc.after (svc.next c a) arrivals).now = _
    rw [ih, Service.next, List.map_cons, List.sum_cons, add_assoc]

theorem onlyPrices_after (hregular : Regular svc c arrivals) (honly : OnlyPrices svc c.st) :
    OnlyPrices svc (svc.after c arrivals).st := by
  induction arrivals generalizing c with
  | nil => exact honly
  | cons a arrivals ih => exact ih hregular.tail ((received hregular).onlyPrices honly)

theorem holds_after (hregular : Regular svc c arrivals) (hholds : Holds svc c i r t)
    (hnow : c.now + (arrivals.map (·.elapsed)).sum < t)
    (hother : ∀ a ∈ arrivals, ∀ r', ¬IsTick a.message i r') :
    Holds svc (svc.after c arrivals) i r t := by
  induction arrivals generalizing c with
  | nil => exact hholds
  | cons a arrivals ih =>
    rw [List.map_cons, List.sum_cons, ← add_assoc] at hnow
    have hnext : (svc.next c a).now < t := lt_of_le_of_lt (le_add_of_nonneg_right zero_le) hnow
    have hstep := (received hregular).holds_other hholds hnext (hother a List.mem_cons_self)
    exact ih hregular.tail hstep hnow fun b hb => hother b (List.mem_cons_of_mem _ hb)

theorem Regular.drop (h : Regular svc c (arrivals ++ later)) :
    Regular svc (svc.after c arrivals) later := by
  induction arrivals generalizing c with
  | nil => exact h
  | cons a arrivals ih => exact ih h.tail

theorem Regular.take (h : Regular svc c (arrivals ++ later)) : Regular svc c arrivals where
  ticks a ha := h.ticks a (List.mem_append_left _ ha)
  redis := by
    have hearlier : ∀ c, svc.trace c arrivals <+: svc.trace c (arrivals ++ later) := by
      intro c
      clear h
      induction arrivals generalizing c with
      | nil => exact List.nil_prefix
      | cons a arrivals ih => exact (List.prefix_cons_inj _).mpr (ih _)
    exact fun x hx => h.redis x ((hearlier c).subset hx)

-- ---------------------------------------------------------------------------
-- The band
-- ---------------------------------------------------------------------------

/-- The last tick of the instrument, less than an hour ago, had the price. -/
def Quoted (i : ℤ) (r : ℚ) (arrivals : List Arrival) (a : Arrival) : Prop :=
  ∃ before tick between, arrivals = before ++ tick :: between ∧ IsTick tick.message i r ∧
    (∀ b ∈ between, ∀ r', ¬IsTick b.message i r') ∧
      (between.map (·.elapsed)).sum + a.elapsed < 3600

structure ValidatedAt (svc : Service) (c : Clocked) (a : Arrival) (i : ℤ) (p : ℚ) : Prop where
  validated : ∃ broker, (svc.receive c a).validatedOn broker ≠ []
  data : ∃ fields signal, a.message.data = .object fields signal ∧
    fields.get "instrument_token" = .int i ∧ (fields.get "price").toFloat = some (.ofRat p)
  priced : p ≠ 0

theorem within_of_holds (hbrokers : ∀ b ∈ svc.activeBrokers, b = "paper" ∨ b = "zerodha")
    (honly : OnlyPrices svc c.st) (hholds : Holds svc c i r t) (hnow : c.now + a.elapsed < t)
    (hr : 0 < r) (hvalid : ValidatedAt svc c a i p) : |p - r| ≤ 10 / 100 * r := by
  obtain ⟨⟨broker, hvalidated⟩, ⟨fields, signal, hdata, htoken, hp⟩, hp0⟩ := hvalid
  have hmem : svc.receive c a ∈ svc.run c.st [(svc.receive c a).delivery] := List.mem_cons_self
  rcases validatedOn_cases hmem broker with ⟨fields', signal', v, hadmitted, -⟩ | ⟨-, hnone⟩
  · obtain ⟨rfl, -⟩ := Data.object.inj (hdata.symm.trans hadmitted.data)
    have hread := recentPrice_read hbrokers (honly.expire _) (hholds.found hnow)
    have htext : (fields.get "instrument_token").text = toString i := by rw [htoken]; rfl
    exact PriceLimitRule.passes_within _ _ hadmitted.price (htext ▸ hread) hr hp hp0
  · exact absurd hnone hvalidated

/-- A signal that is validated within an hour of a tick of its instrument is
within ten percent of the price of the last one, whatever else the run has. -/
theorem price_band (hbrokers : ∀ b ∈ svc.activeBrokers, b = "paper" ∨ b = "zerodha")
    (honly : OnlyPrices svc c.st) (hregular : Regular svc c arrivals) (hi : i ≠ 0)
    (hquoted : Quoted i r arrivals a) (hvalid : ValidatedAt svc (svc.after c arrivals) a i p) :
    |p - r| ≤ 10 / 100 * r := by
  have hafter := onlyPrices_after hregular honly
  obtain ⟨before, tick, between, rfl, htick, hlast, hage⟩ := hquoted
  have hrest := hregular.drop
  have hholds := (received hrest).holds_tick htick hi
  have hbetween := hrest.tail
  rw [after_append] at hafter hvalid
  change OnlyPrices svc (svc.after (svc.next _ tick) between).st at hafter
  change ValidatedAt svc (svc.after (svc.next _ tick) between) a i p at hvalid
  generalize svc.next (svc.after c before) tick = quoted at *
  have hnow := add_lt_add_right hage quoted.now
  rw [← add_assoc] at hnow
  have hkept := holds_after hbetween hholds
    (lt_of_le_of_lt (le_add_of_nonneg_right zero_le) hnow) hlast
  rw [← after_now svc] at hnow
  exact within_of_holds hbrokers hafter hkept hnow htick.positive hvalid

end

def quote (i : ℤ) (price : String) : Arrival where
  message :=
    { id := .null
      type := .str "market_tick"
      data := .object (.ofList [("instrument_token", .int i), ("last_price", .float price)])
        (.error "") }
  topic := "market.ticks"
  elapsed := 1

def buyAt (i : ℤ) (price : String) : Arrival where
  message :=
    { id := .null
      type := .str "trading_signal"
      data := .object
        (.ofList [("strategy_id", .str "s1"), ("instrument_token", .int i),
          ("signal_type", .str "BUY"), ("quantity", .int 1), ("price", .float price)])
        (.ok
          { strategyId := "s1"
            instrumentToken := i
            signalType := .buy
            quantity := 1
            timestamp := ⟨"2026-01-05", "09:30:00"⟩ }) }
  topic := (TopicMap.mk "paper").signalsRaw
  elapsed := 3599

theorem quote_isTick (i : ℤ) : IsTick (quote i "100").message i 100 where
  type :=
    have htype : isEventType (.str "market_tick") .marketTick := by decide +kernel
    htype
  data := by
    have hfloat : Decimal.ofText "100" = some (.ofRat 100) := by decide +kernel
    exact ⟨_, _, rfl, rfl, hfloat⟩
  positive := by decide

theorem quote_regular
    (h : ∀ x ∈ (paperOnly.receive {} (quote i "100")).after.log, x.1.isRedis → x.2 = none) :
    Regular paperOnly {} [quote i "100"] where
  ticks a ha _ := by
    cases List.mem_singleton.mp ha
    exact ⟨i, 100, quote_isTick i⟩
  redis x hx := by
    cases List.mem_singleton.mp hx
    exact h

theorem buyAt_quoted (i : ℤ) : Quoted i 100 [quote i "100"] (buyAt i price) := by
  have hage : (0 : ℚ≥0) + 3599 < 3600 := by decide +kernel
  exact ⟨[], quote i "100", [], rfl, quote_isTick i, fun _ h => absurd h List.not_mem_nil, hage⟩

theorem onlyPrices_empty (svc : Service) : OnlyPrices svc {} := fun _ _ h => nomatch h

theorem buyAt_105_within : ValidatedAt paperOnly (paperOnly.after {} [quote 1 "100"]) (buyAt 1 "105")
    1 105 ∧ |(105 : ℚ) - 100| ≤ 10 / 100 * 100 := by
  have hprice : Decimal.ofText "105" = some (.ofRat 105) := by decide +kernel
  have hvalid : ValidatedAt paperOnly (paperOnly.after {} [quote 1 "100"]) (buyAt 1 "105") 1 105 :=
    ⟨⟨"paper", by decide +kernel⟩, ⟨_, _, rfl, rfl, hprice⟩, by decide⟩
  have hregular : Regular paperOnly {} [quote 1 "100"] := quote_regular (by decide +kernel)
  exact ⟨hvalid, price_band (by decide) (onlyPrices_empty _) hregular (by decide) (buyAt_quoted 1) hvalid⟩

/-- The tick of instrument 0 leaves no price to compare with. -/
theorem instrument_0_unbounded : ¬ ∀ (svc : Service) c arrivals a i p r,
    (∀ b ∈ svc.activeBrokers, b = "paper" ∨ b = "zerodha") → OnlyPrices svc c.st →
      Regular svc c arrivals → Quoted i r arrivals a →
        ValidatedAt svc (svc.after c arrivals) a i p → |p - r| ≤ 10 / 100 * r := by
  intro hclaim
  have hprice : Decimal.ofText "200" = some (.ofRat 200) := by decide +kernel
  have hvalid : ValidatedAt paperOnly (paperOnly.after {} [quote 0 "100"]) (buyAt 0 "200") 0 200 :=
    ⟨⟨"paper", by decide +kernel⟩, ⟨_, _, rfl, rfl, hprice⟩, by decide⟩
  have hregular : Regular paperOnly {} [quote 0 "100"] := quote_regular (by decide +kernel)
  have hwithin := hclaim paperOnly {} [quote 0 "100"] (buyAt 0 "200") 0 200 100 (by decide)
    (onlyPrices_empty _) hregular (buyAt_quoted 0) hvalid
  norm_num at hwithin

end AlphaPanda.Risk
