import AlphaPanda.Paper.Retry

/-!
# Brackets

A bracket belongs to the open long position whose opening BUY it was computed
from, as long as no order that is filled leaves its key flat while a bracket
is set for it. The service does not see to that: selling out leaves the
bracket, and a BUY that fills nothing sets one.
-/

namespace AlphaPanda.Paper

open Coroutine

-- ---------------------------------------------------------------------------
-- What an order fills
-- ---------------------------------------------------------------------------

def qtyAfter (side : SignalType) (q sold : ℤ) : ℤ := if side = .buy then q + sold else q - sold

def Order.applyAll (c : PaperTradingSettings) (o : Order) (sent : List ℤ) (p : Portfolio) : Portfolio :=
  sent.foldl (fun p qty => o.apply c qty p) p

theorem Order.position_applyAll_of_ne (h : k ≠ key o.signal) (sent : List ℤ) (p : Portfolio) :
    (Order.applyAll c o sent p).position k = p.position k := by
  induction sent generalizing p with
  | nil => rfl
  | cons qty sent ih => exact (ih _).trans (Order.position_apply_of_ne h)

theorem Order.position_applyAll {sent : List ℤ} (hpos : sent.length ≤ 1 ∨ ∀ p ∈ sent, 0 ≤ p)
    (hheld : o.signal.signalType ≠ .buy → sent.sum ≤ (Portfolio.position p (key o.signal)).qty) :
    ((Order.applyAll c o sent p).position (key o.signal)).qty =
      qtyAfter o.signal.signalType (p.position (key o.signal)).qty sent.sum := by
  induction sent generalizing p with
  | nil => simp [Order.applyAll, qtyAfter]
  | cons qty sent ih =>
    have hrest : 0 ≤ sent.sum := by
      rcases hpos with hlen | hpos
      · obtain rfl : sent = [] := by simpa using hlen
        simp
      · exact List.sum_nonneg fun p hp => hpos p (by simp [hp])
    have htail : sent.length ≤ 1 ∨ ∀ p ∈ sent, 0 ≤ p := by
      rcases hpos with hlen | hpos
      · left; simp at hlen; simp [hlen]
      · exact .inr fun p hp => hpos p (by simp [hp])
    rw [List.sum_cons] at hheld ⊢
    have hstep := @ih (Order.apply c o qty p) htail
    simp only [Order.applyAll, List.foldl_cons] at hstep ⊢
    by_cases hbuy : o.signal.signalType = .buy
    · rw [hstep fun h => absurd hbuy h, Order.position_apply_buy hbuy]
      simp only [qtyAfter, if_pos hbuy]
      ring
    · have hle := hheld hbuy
      have hq : max 0 ((p.position (key o.signal)).qty - qty) =
          (p.position (key o.signal)).qty - qty := max_eq_right (by omega)
      rw [hstep fun _ => by rw [Order.position_apply_sell hbuy, hq]; omega,
        Order.position_apply_sell hbuy, hq]
      simp only [qtyAfter, if_neg hbuy]
      ring

/-- The fill loop applies the parts it sent: all of them, or those before the
one that failed. -/
theorem emitFills_exec (c : PaperTradingSettings) (o : Order) (orderId : OrderId) (parts : List ℤ)
    (as : List (Option Exc)) (w : PaperWorld) :
    ∃ sent, sent <+: parts ∧
      ((emitFills c o orderId parts).exec as w).world.st.portfolio =
        o.applyAll c sent w.st.portfolio ∧
      (((emitFills c o orderId parts).exec as w).result = .ok () → sent = parts) ∧
      (((emitFills c o orderId parts).exec as w).result ≠ .ok () → sent ≠ parts) := by
  induction parts generalizing as w with
  | nil => exact ⟨[], List.prefix_rfl, rfl, fun _ => rfl, fun h => absurd rfl h⟩
  | cons qty parts ih =>
    simp only [emitFills, exec_bind, exec_perform]
    rcases as.headD none with _ | e
    · simp only [Outcome.andThen_ok, exec_modify]
      obtain ⟨sent, hpre, hport, hok, hfail⟩ := ih as.tail _
      exact ⟨qty :: sent, (List.prefix_cons_inj qty).mpr hpre, hport,
        fun h => by rw [hok h], fun h heq => hfail h (List.cons.inj heq).2⟩
    · simp only [Outcome.andThen_error]
      refine ⟨[], List.nil_prefix, rfl, fun hok => ?_, fun _ => (List.cons_ne_nil qty parts).symm⟩
      cases hok

theorem qtyAfter_pos {sent parts : List ℤ} (hpre : sent <+: parts) (hne : sent ≠ parts)
    (hsplit : parts = [parts.sum] ∨ ∀ p ∈ parts, 1 ≤ p) (hheld : side ≠ .buy → parts.sum ≤ q)
    (hq : 0 < q) : 0 < qtyAfter side q sent.sum := by
  obtain ⟨rest, rfl⟩ := hpre
  have hrest : rest ≠ [] := fun h => hne (by simp [h])
  have hsum : 0 ≤ sent.sum ∧ (sent = [] ∨ 1 ≤ rest.sum) := by
    rcases hsplit with hone | hpos
    · have hlen := congrArg List.length hone
      have : 0 < rest.length := List.length_pos_iff.mpr hrest
      obtain rfl : sent = [] := List.length_eq_zero_iff.mp (by simp at hlen; omega)
      exact ⟨le_rfl, .inl rfl⟩
    · refine ⟨List.sum_nonneg fun p hp => by have := hpos p (by simp [hp]); omega, .inr ?_⟩
      obtain ⟨x, xs, rfl⟩ := List.exists_cons_of_ne_nil hrest
      have hx := hpos x (by simp)
      have hxs : 0 ≤ xs.sum := List.sum_nonneg fun p hp => by have := hpos p (by simp [hp]); omega
      rw [List.sum_cons]; omega
  unfold qtyAfter
  split
  · omega
  · rename_i hsell
    have hle := hheld hsell
    rw [List.sum_append] at hle
    rcases hsum.2 with rfl | hrest
    · simpa using hq
    · omega

theorem sent_nonneg {sent parts : List ℤ} (hpre : sent <+: parts)
    (hsplit : parts = [q] ∨ ∀ p ∈ parts, 1 ≤ p) : sent.length ≤ 1 ∨ ∀ p ∈ sent, 0 ≤ p := by
  rcases hsplit with hone | hpos
  · left; simpa [hone] using hpre.length_le
  · exact .inr fun p hp => by have := hpos p (hpre.subset hp); omega

def bracketsAfter (o : Order) (preQty : ℤ) (brackets : Dict Key Bracket) : Dict Key Bracket :=
  if o.signal.signalType = .buy ∧ preQty = 0 then
    match bracketFor o.fillPrice o.signal.md with
    | some bracket => brackets.set (key o.signal) bracket
    | none => brackets
  else brackets

theorem afterFills_brackets (o : Order) (orderId : OrderId) (preQty qty : ℤ)
    (as : List (Option Exc)) (w : PaperWorld) :
    ((afterFills svc o orderId preQty qty).exec as w).world.st.brackets =
      bracketsAfter o preQty w.st.brackets := by
  unfold afterFills bracketsAfter
  split
  · simp only [exec_bind, exec_modify, Outcome.andThen_ok]
    rw [show ∀ as w, ((emitPnlSnapshot o.validated (orderFilled svc.settings o orderId qty)).exec as
      w).world.st.brackets = w.st.brackets from emitPnlSnapshot_keeps]
    unfold setBracketIfConfigured
    cases bracketFor o.fillPrice o.signal.md <;> rfl
  · exact emitPnlSnapshot_keeps as w

/-- What filling an order does to the positions and the brackets: it is filled
in full, or its brackets are as they were and an open position is still open. -/
structure FillEffect (o : Order) (preQty qty : ℤ) (allSent : Prop) (s s' : State) : Prop where
  others : ∀ k, k ≠ key o.signal → s'.portfolio.position k = s.portfolio.position k
  own : allSent ∧
      (s'.portfolio.position (key o.signal)).qty =
        qtyAfter o.signal.signalType (s.portfolio.position (key o.signal)).qty qty ∧
      s'.brackets = bracketsAfter o preQty s.brackets ∨
    s'.brackets = s.brackets ∧ (0 < (s.portfolio.position (key o.signal)).qty →
      0 < (s'.portfolio.position (key o.signal)).qty)

theorem fillOrder_effect (svc : Service) (o : Order) (orderId : OrderId) (preQty qty : ℤ)
    (as : List (Option Exc))
    (w : PaperWorld)
    (hheld : o.signal.signalType ≠ .buy → qty ≤ (w.st.portfolio.position (key o.signal)).qty) :
    FillEffect o preQty qty (∀ r ∈ as.take ((partsOf svc o qty).length + 1), r = none) w.st
      ((fillOrder svc o orderId preQty qty).exec as w).world.st := by
  rw [← fillOrder_ok_iff o orderId preQty qty as w]
  obtain ⟨hsum, hsplit⟩ := partsOf_spec svc o qty
  simp only [fillOrder, exec_bind, exec_perform]
  rcases as.headD none with _ | e
  swap
  · -- No producer: nothing is filled.
    exact ⟨fun _ _ => rfl, .inr ⟨rfl, id⟩⟩
  simp only [Outcome.andThen_ok]
  obtain ⟨sent, hpre, hport, hok, hfail⟩ := emitFills_exec svc.settings o orderId (partsOf svc o qty)
    as.tail (w.record .getProducer none)
  have hbrackets : ((emitFills svc.settings o orderId (partsOf svc o qty)).exec as.tail
      (w.record .getProducer none)).world.st.brackets = w.st.brackets :=
    emitFills_keeps (fun _ _ => rfl) _ _ _
  rcases hres : (emitFills svc.settings o orderId (partsOf svc o qty)).exec as.tail
    (w.record .getProducer none) with ⟨e | ⟨⟩, w', as'⟩
  · -- A part failed: those before it are applied.
    rw [hres] at hport hbrackets hfail
    simp only [Outcome.andThen_error]
    refine ⟨fun k hk => ?_, .inr ⟨hbrackets, fun hq => ?_⟩⟩
    · rw [hport]; exact Order.position_applyAll_of_ne hk ..
    have hne := hfail (by simp)
    have hpos := qtyAfter_pos hpre hne (hsum.symm ▸ hsplit) (hsum.symm ▸ hheld) hq
    rw [hport, Order.position_applyAll (sent_nonneg hpre hsplit)]
    · exact hpos
    · intro hsell
      simp only [qtyAfter, if_neg hsell] at hpos
      exact (sub_pos.mp hpos).le
  · rw [hres] at hport hbrackets hok
    simp only [Outcome.andThen_ok]
    obtain rfl : sent = partsOf svc o qty := hok rfl
    have hkeep : ((afterFills svc o orderId preQty ((partsOf svc o qty).getLastD qty)).exec as'
        w').world.st.portfolio = w'.st.portfolio := afterFills_keeps (fun _ _ => rfl) _ _
    refine ⟨fun k hk => ?_, .inl ⟨?_, ?_, ?_⟩⟩
    · rw [hkeep, hport]; exact Order.position_applyAll_of_ne hk ..
    · unfold afterFills
      split <;> simp [emitPnlSnapshot]
    · rw [hkeep, hport, Order.position_applyAll (sent_nonneg hpre hsplit) (hsum.symm ▸ hheld), hsum]
      rfl
    · rw [afterFills_brackets, hbrackets]

-- ---------------------------------------------------------------------------
-- One signal
-- ---------------------------------------------------------------------------

structure FilledInFull (svc : Service) (v : ValidatedSignal) (as : List (Option Exc)) (s : State)
    (o : Order) (qty : ℤ) : Prop where
  new : idemKey v ∉ s.seen.keys
  routed : route svc.settings (svc.rng (idemKey v)) v = .ok (.fillable o)
  sized : sizedNow svc s.portfolio o = .ok qty
  sent : ∀ r ∈ (as.drop (latencyAwaits svc.settings)).take ((partsOf svc o qty).length + 1), r = none

structure Kept (s s' : State) : Prop where
  brackets : s'.brackets = s.brackets
  opened : ∀ k, 0 < (s.portfolio.position k).qty → 0 < (s'.portfolio.position k).qty

structure Applied (o : Order) (qty : ℤ) (s s' : State) : Prop where
  others : ∀ k, k ≠ key o.signal → s'.portfolio.position k = s.portfolio.position k
  own : (s'.portfolio.position (key o.signal)).qty =
    qtyAfter o.signal.signalType (s.portfolio.position (key o.signal)).qty qty
  brackets : s'.brackets = bracketsAfter o (s.portfolio.position (key o.signal)).qty s.brackets

theorem position_initCash (c : PaperTradingSettings) (strategyId : String) (p : Portfolio) (k : Key) :
    (initCash c strategyId p).position k = p.position k := by
  rw [Portfolio.position, initCash_position, Portfolio.position]

theorem executeOrder_effect (svc : Service) (o : Order) (as : List (Option Exc)) (w : PaperWorld) :
    (∃ qty, sizedNow svc w.st.portfolio o = .ok qty ∧
        (∀ r ∈ as.take ((partsOf svc o qty).length + 1), r = none) ∧
        Applied o qty w.st ((executeOrder svc o).exec as w).world.st) ∨
      Kept w.st ((executeOrder svc o).exec as w).world.st := by
  have hp : ∀ k, (opened svc o w.st).portfolio.position k = w.st.portfolio.position k :=
    position_initCash svc.settings o.signal.strategyId w.st.portfolio
  have hnoted : ∀ k, (noted svc o w.st).portfolio.position k = w.st.portfolio.position k := hp
  rcases hsize : sizedNow svc w.st.portfolio o with (e | reason) | qty
  · rw [executeOrder_raises as hsize]
    exact .inr ⟨rfl, fun k hk => (hp k).symm ▸ hk⟩
  · rw [executeOrder_refuses as hsize]
    right
    have hbrackets : (emitOrderFailed o.validated reason).Keeps State.brackets :=
      emitOrderFailed_keeps fun _ _ => rfl
    have hport : (emitOrderFailed o.validated reason).Keeps State.portfolio :=
      emitOrderFailed_keeps fun _ _ => rfl
    refine ⟨hbrackets as _, fun k hk => ?_⟩
    rw [hport.eq as _, hp]
    exact hk
  · rw [executeOrder_fills as hsize, hp]
    obtain ⟨hothers, ⟨hsent, hown, hbrackets⟩ | ⟨hbrackets, hopened⟩⟩ :=
      fillOrder_effect svc o w.st.nextId (w.st.portfolio.position (key o.signal)).qty qty as
        ⟨noted svc o w.st, w.log⟩ (sizeOrder_ok hsize).held
    · dsimp only at hothers hown
      simp only [hnoted] at hothers hown
      exact .inl ⟨qty, rfl, hsent, hothers, hown, hbrackets⟩
    · refine .inr ⟨hbrackets, fun k hk => ?_⟩
      by_cases hkey : k = key o.signal
      · subst hkey
        exact hopened (hnoted _ ▸ hk)
      · rw [hothers k hkey, hnoted]
        exact hk

theorem attempt_effect (svc : Service) (v : ValidatedSignal) (as : List (Option Exc)) (s : State) :
    (∃ o qty, FilledInFull svc v as s o qty ∧ Applied o qty s (attempt svc v as s).world.st) ∨
      Kept s (attempt svc v as s).world.st := by
  by_cases hseen : idemKey v ∈ s.seen.keys
  · rw [attempt_seen hseen]
    exact .inr ⟨rfl, fun _ => id⟩
  rw [attempt_new hseen]
  simp only [executeSignal, exec_bind]
  obtain ⟨w, hlat, hst⟩ := simulateLatency_exec svc.settings (svc.rng (idemKey v)) as
    (World.start { s with seen := s.seen.record (idemKey v) hseen })
  rw [hlat, Outcome.andThen_ok]
  rcases hroute : route svc.settings (svc.rng (idemKey v)) v with e | (reason | stop | o)
  · simp only [exec_throw, hst]
    exact .inr ⟨rfl, fun _ => id⟩
  · have hbrackets : (emitOrderFailed v reason).Keeps State.brackets :=
      emitOrderFailed_keeps fun _ _ => rfl
    have hport : (emitOrderFailed v reason).Keeps State.portfolio :=
      emitOrderFailed_keeps fun _ _ => rfl
    right
    exact ⟨by rw [hbrackets.eq, hst]; rfl, fun k hk => by rw [hport.eq, hst]; exact hk⟩
  · simp only [exec_modify, hst]
    exact .inr ⟨rfl, fun _ => id⟩
  · rcases executeOrder_effect svc o (as.drop (latencyAwaits svc.settings)) w with
      ⟨qty, hsized, hsent, happlied⟩ | hkept
    · rw [hst] at hsized happlied
      exact .inl ⟨o, qty, ⟨hseen, hroute, hsized, hsent⟩, happlied.others, happlied.own,
        happlied.brackets⟩
    · rw [hst] at hkept
      exact .inr ⟨hkept.brackets, hkept.opened⟩

-- ---------------------------------------------------------------------------
-- One tick
-- ---------------------------------------------------------------------------

theorem bracketTrigger_ok {lp : Decimal} (h : bracketTrigger b lp = .ok (some price)) :
    b.tp = some price ∨ b.sl = some price := by
  cases lp with
  | nan =>
    simp only [bracketTrigger] at h
    split at h <;> cases h
  | num lp =>
    simp only [bracketTrigger, Except.ok.injEq] at h
    split at h
    · exact .inr h
    split at h
    · exact .inl h
    · cases h

def ExitOf (f : OrderFilled) (e : Key × Bracket) : Prop :=
  (f.strategyId, f.instrumentToken) = e.1 ∧
    (e.2.tp = some (.fin f.fillPrice) ∨ e.2.sl = some (.fin f.fillPrice))

theorem emitBracketExitFill_fills {w₀ w : PaperWorld}
    (hprice : br.tp = some price ∨ br.sl = some price) :
    (emitBracketExitFill svc k qty price).Meets (fun w w' => w' = w) (fun _ _ => True)
      (fun r _ w' => r = .ok () ∧ ∀ f ∈ fills w'.log, f ∈ fills w.log ∨ ExitOf f (k, br)) w₀ w := by
  simp only [emitBracketExitFill, suppress, generateEventId, meets_tryCatch, meets_bind,
    meets_perform, meets_get, meets_set, meets_pure]
  refine ⟨trivial, fun w₁ hw => ⟨?_, fun e => ⟨trivial, fun f hf => .inl ?_⟩⟩⟩
  · subst hw
    split
    · rename_i p
      simp only [meets_bind, meets_modify, meets_perform, meets_throw]
      refine ⟨trivial, fun w₂ hw => ⟨⟨trivial, fun f hf => ?_⟩, fun e => ⟨trivial, fun f hf => .inl ?_⟩⟩⟩
      · subst hw
        simp only [World.record, fills_append, List.mem_append] at hf
        rcases hf with (hf | hf) | hf
        · exact .inl hf
        · simp [fills, published] at hf
        · simp only [fills, published, List.filterMap_cons, List.filterMap_nil, Record.fill?,
            bracketExitRecord, List.mem_singleton] at hf
          subst hf
          exact .inr ⟨rfl, hprice⟩
      · subst hw
        simpa [World.record, fills_append, fills, published] using hf
    · refine ⟨trivial, fun f hf => .inl ?_⟩
      simpa [World.record, fills_append, fills, published] using hf
  · subst hw
    simpa [World.record, fills_append, fills, published] using hf

theorem checkBrackets_fills {lp : Decimal} {w₀ w : PaperWorld} (l : List (Key × Bracket)) :
    (checkBrackets svc inst lp l).Meets (fun w w' => w' = w) (fun _ _ => True)
      (fun _ _ w' => ∀ f ∈ fills w'.log, f ∈ fills w.log ∨ ∃ e ∈ l, ExitOf f e) w₀ w := by
  induction l generalizing w₀ w with
  | nil => exact fun f hf => .inl hf
  | cons e rest ih =>
    obtain ⟨k, br⟩ := e
    have hrest {w₀ w : PaperWorld} : (checkBrackets svc inst lp rest).Meets (fun w w' => w' = w)
        (fun _ _ => True) (fun _ _ w' => ∀ f ∈ fills w'.log, f ∈ fills w.log ∨
          ∃ e ∈ (k, br) :: rest, ExitOf f e) w₀ w :=
      ih.mono fun _ _ _ h f hf => (h f hf).imp_right fun he =>
        he.imp fun _ he => ⟨List.mem_cons_of_mem _ he.1, he.2⟩
    have hcons {w₀ w : PaperWorld} : (checkBrackets svc inst lp rest >>= fun ks =>
        pure (k :: ks)).Meets (fun w w' => w' = w) (fun _ _ => True)
        (fun _ _ w' => ∀ f ∈ fills w'.log, f ∈ fills w.log ∨
          ∃ e ∈ (k, br) :: rest, ExitOf f e) w₀ w := by
      simp only [meets_bind, meets_pure]
      exact hrest.mono fun r _ _ h => by cases r <;> exact h
    simp only [checkBrackets]
    split
    · exact hrest
    rw [meets_bind, meets_get]
    dsimp only
    split
    · exact hcons
    split
    · exact fun f hf => .inl hf
    · exact hrest
    · rename_i price htrigger
      rw [meets_bind, meets_modify]
      dsimp only
      rw [meets_bind]
      refine (emitBracketExitFill_fills (bracketTrigger_ok htrigger)).mono ?_
      rintro _ w₁ w₂ ⟨rfl, hexit⟩
      refine hcons.mono fun r _ w' h f hf => ?_
      rcases h f hf with hf | hf
      · exact (hexit f hf).imp_right fun h => ⟨(k, br), by simp, h⟩
      · exact .inr hf

theorem get?_foldl_pop {d : Dict Key Bracket} (ks : List Key)
    (h : (ks.foldl Dict.pop d).get? k = some b) : d.get? k = some b := by
  induction ks generalizing d with
  | nil => exact h
  | cons k' ks ih =>
    have hpop := ih h
    rw [Dict.get?_pop] at hpop
    split at hpop
    · cases hpop
    · exact hpop

theorem checkStops_keeps {f : State → φ} {lp : Decimal} (l : List PendingStop) :
    (checkStops inst lp l).Keeps f :=
  fun as w =>
    have hmeets : (checkStops inst lp l).Meets (fun w w' => w' = w) (fun _ _ => True)
      (fun _ _ w' => f w'.st = f w.st) w w := checkStops_meets l fun _ => rfl
    hmeets.exec as

theorem handleMarketTick_portfolio (svc : Service) (m : TickMessage) :
    (handleMarketTick svc m).Keeps State.portfolio := by
  unfold handleMarketTick
  split
  · exact leaves_pure
  split
  · exact leaves_pure
  refine leaves_bind (keeps_modify fun _ => rfl) fun _ => leaves_bind ?_ fun _ => ?_
  · exact leaves_bind leaves_get fun s => leaves_bind
      (checkBrackets_keeps (fun _ _ => rfl) (fun _ _ => rfl) (fun _ _ => rfl) _) fun _ =>
        keeps_modify fun _ => rfl
  · exact leaves_bind leaves_get fun s => leaves_bind (checkStops_keeps _) fun _ =>
      keeps_modify fun _ => rfl

theorem handleMarketTick_brackets (as : List (Option Exc)) (s : State)
    (h : ((handleMarketTick svc m).exec as (World.start s)).world.st.brackets.get? k = some b) :
    s.brackets.get? k = some b := by
  unfold handleMarketTick at h
  split at h
  · exact h
  split at h
  · exact h
  rename_i lp hlp
  have hstops : (evaluateStops m.instrumentToken lp).Keeps State.brackets :=
    leaves_bind leaves_get fun s => leaves_bind (checkStops_keeps _) fun _ => keeps_modify fun _ => rfl
  simp only [evaluateBrackets, exec_bind, exec_modify, exec_get, Outcome.andThen_ok, World.start] at h
  have hcheck : ((checkBrackets svc m.instrumentToken lp s.brackets.entries).exec as
      ⟨{ s with lastPrice := s.lastPrice.set m.instrumentToken lp }, []⟩).world.st.brackets =
      s.brackets := checkBrackets_keeps (fun _ _ => rfl) (fun _ _ => rfl) (fun _ _ => rfl) _ _ _
  rcases hrun : (checkBrackets svc m.instrumentToken lp s.brackets.entries).exec as
    ⟨{ s with lastPrice := s.lastPrice.set m.instrumentToken lp }, []⟩ with ⟨e | removed, w, as'⟩
  · rw [hrun] at h hcheck
    rw [← hcheck]
    exact h
  · rw [hrun] at h hcheck
    simp only [Outcome.andThen_ok] at h
    rw [hstops.eq] at h
    rw [← hcheck]
    exact get?_foldl_pop removed h

theorem handleMarketTick_fills (as : List (Option Exc)) (s : State) :
    ∀ f ∈ fills ((handleMarketTick svc m).exec as (World.start s)).world.log,
      ∃ e ∈ s.brackets.entries, ExitOf f e := by
  suffices hmeets : (handleMarketTick svc m).Meets (fun w w' => w' = w) (fun _ _ => True)
      (fun _ _ w => ∀ f ∈ fills w.log, ∃ e ∈ s.brackets.entries, ExitOf f e) (World.start s)
      (World.start s) from hmeets.exec as
  unfold handleMarketTick
  split
  · exact fun f hf => absurd hf List.not_mem_nil
  split
  · exact fun f hf => absurd hf List.not_mem_nil
  simp only [meets_bind, meets_modify, meets_get, evaluateBrackets, evaluateStops]
  refine (checkBrackets_fills _).mono ?_
  rintro (e | removed) w₁ w₂ h
  · exact fun f hf => (h f hf).resolve_left List.not_mem_nil
  refine checkStops_meets _ fun r => ?_
  cases r with
  | error e => exact fun f hf => (h f hf).resolve_left List.not_mem_nil
  | ok after => exact fun f hf => (h f hf).resolve_left List.not_mem_nil

-- ---------------------------------------------------------------------------
-- Sequential runs
-- ---------------------------------------------------------------------------

def serve (svc : Service) (m : Message) (as : List (Option Exc)) (s : State) :
    Outcome State Op Exc Unit := (handle svc m).exec as (World.start s)

def Message.signal? : Message → Option ValidatedSignal
  | .signal m => if m.type = .str EventType.validatedSignal.value then m.data.toOption else none
  | .tick _ => none

def State.held (s : State) (k : Key) : ℤ := (s.portfolio.position k).qty

/-- The service, and which signal opened each long position. -/
structure Observed where
  st : State
  opener : Key → Option ValidatedSignal

def Observed.init : Observed := ⟨.init, fun _ => none⟩

/-- A position is opened by the message during which it stops being flat. -/
def Observed.next (svc : Service) (x : Observed) (m : Message) (as : List (Option Exc)) : Observed :=
  let s' := (serve svc m as x.st).world.st
  ⟨s', fun k => if s'.held k ≤ 0 then none else if x.st.held k ≤ 0 then m.signal? else x.opener k⟩

def Follows (svc : Service) (P : Observed → Message → List (Option Exc) → Prop) :
    Observed → Prop :=
  Relation.ReflTransGen (fun x x' => ∃ m as, P x m as ∧ x' = x.next svc m as) .init

def openingBracket (c : PaperTradingSettings) (v : ValidatedSignal) : Option Bracket :=
  bracketFor (slipped c v.originalSignal.signalType (basePrice v)) v.originalSignal.md

/-- The bracket was computed from the BUY that opened the position of `k`. -/
structure OfOpening (svc : Service) (x : Observed) (k : Key) (b : Bracket) (v : ValidatedSignal) :
    Prop where
  opened : x.opener k = some v
  buy : v.originalSignal.signalType = .buy
  bracket : openingBracket svc.settings v = some b

/-- Every bracket belongs to the open position of its key, and so does every
exit that a tick publishes next. -/
structure BracketsCurrent (svc : Service) (x : Observed) : Prop where
  entries : ∀ k b, x.st.brackets.get? k = some b → ∃ v, OfOpening svc x k b v
  exits : ∀ m as, ∀ f ∈ fills (serve svc (.tick m) as x.st).world.log,
    ∃ b v, OfOpening svc x (f.strategyId, f.instrumentToken) b v ∧
      (b.tp = some (.fin f.fillPrice) ∨ b.sl = some (.fin f.fillPrice))

/-- The message is an order that is filled in full and leaves its key flat
while there is a bracket for it: sold out, or opened with a fill of zero. -/
def LeavesBracketBehind (svc : Service) (x : Observed) (m : Message) (as : List (Option Exc)) : Prop :=
  ∃ v o qty, m.signal? = some v ∧ FilledInFull svc v as x.st o qty ∧
    (bracketsAfter o (x.st.held (key o.signal)) x.st.brackets).get? (key o.signal) ≠ none ∧
    qtyAfter o.signal.signalType (x.st.held (key o.signal)) qty ≤ 0

theorem serve_signal (h : m.signal? = some v) : serve svc m as s = attempt svc v as s := by
  rcases m with ⟨type, data⟩ | m
  · simp only [Message.signal?] at h
    split at h
    · rename_i htype
      rcases data with e | v'
      · cases h
      · cases h
        rw [serve, attempt, handle, htype]
    · cases h
  · cases h

theorem serve_ignored (h : (Message.signal m).signal? = none) :
    (serve svc (.signal m) as s).world.st = s := by
  simp only [Message.signal?] at h
  simp only [serve, handle, handleValidatedSignal]
  rcases hdata : m.data with e | v
  · split <;> rfl
  · split at h
    · simp [hdata, Except.toOption] at h
    · rename_i htype
      rw [if_pos htype]
      rfl

/-- What the brackets must keep to: each was computed from the BUY that opened
the position, which is still open. -/
structure Tied (svc : Service) (x : Observed) (k : Key) (b : Bracket) : Prop where
  long : 0 < x.st.held k
  opening : ∃ v, OfOpening svc x k b v

theorem Tied.next (h : Tied svc x k b) (hlong : 0 < (x.next svc m as).st.held k) :
    Tied svc (x.next svc m as) k b := by
  obtain ⟨hlong₀, v, hopened, hbuy, hbracket⟩ := h
  refine ⟨hlong, v, ?_, hbuy, hbracket⟩
  simp only [Observed.next] at hlong ⊢
  rw [if_neg (not_le.mpr hlong), if_neg (not_le.mpr hlong₀), hopened]

theorem tied_step (h : ∀ k b, x.st.brackets.get? k = some b → Tied svc x k b)
    (hP : ¬ LeavesBracketBehind svc x m as) :
    ∀ k b, (x.next svc m as).st.brackets.get? k = some b → Tied svc (x.next svc m as) k b := by
  intro k b hb
  rcases hsignal : m.signal? with _ | v
  · -- The portfolio is as it was, and there is no new bracket.
    obtain ⟨hb₀, hheld⟩ : x.st.brackets.get? k = some b ∧
        (x.next svc m as).st.held k = x.st.held k := by
      rcases m with m | m
      · have hst : (x.next svc (.signal m) as).st = x.st := serve_ignored hsignal
        rw [hst] at hb ⊢
        exact ⟨hb, rfl⟩
      · refine ⟨handleMarketTick_brackets as x.st hb, ?_⟩
        simp only [State.held]
        exact congrArg (fun p : Portfolio => (p.position k).qty)
          (handleMarketTick_portfolio svc m as (World.start x.st))
    exact (h k b hb₀).next (by rw [hheld]; exact (h k b hb₀).long)
  have hst : (x.next svc m as).st = (attempt svc v as x.st).world.st := by
    simp only [Observed.next, serve_signal hsignal]
  rcases attempt_effect svc v as x.st with ⟨o, qty, hfull, happlied⟩ | hkept
  · rw [← hst] at happlied
    obtain ⟨hrouted, -⟩ := route_fillable hfull.routed
    by_cases hkey : k = key o.signal
    · subst hkey
      rw [happlied.brackets] at hb
      have hlong : 0 < (x.next svc m as).st.held (key o.signal) := by
        by_contra hflat
        refine hP ⟨v, o, qty, hsignal, hfull, ?_, ?_⟩
        · simp only [State.held, hb]; simp
        · simpa only [State.held, happlied.own, not_lt] using hflat
      unfold bracketsAfter at hb
      split at hb
      · rename_i hopens
        split at hb
        · -- The BUY that opens the position, and sets its bracket.
          rename_i bracket hbracket
          rw [Dict.get?_set_self, Option.some.injEq] at hb
          subst hb
          refine ⟨hlong, v, ?_, ?_, ?_⟩
          · simp only [Observed.next] at hlong ⊢
            rw [if_neg (not_le.mpr hlong), if_pos (by simp only [State.held]; omega), hsignal]
          · rw [← hrouted.validated]; exact hopens.1
          · rw [openingBracket, ← hrouted.price, ← hbracket, Order.signal, hrouted.validated]
        · -- One that sets none: there was none on a flat key.
          exact absurd (h _ b hb).long (by simp only [State.held]; omega)
      · exact (h _ b hb).next hlong
    · rw [happlied.brackets] at hb
      have hb₀ : x.st.brackets.get? k = some b := by
        unfold bracketsAfter at hb
        split at hb
        · split at hb
          · rwa [Dict.get?_set_of_ne _ hkey] at hb
          · exact hb
        · exact hb
      refine (h k b hb₀).next ?_
      simp only [State.held, happlied.others k hkey]
      exact (h k b hb₀).long
  · rw [← hst] at hkept
    rw [hkept.brackets] at hb
    exact (h k b hb).next (hkept.opened k (h k b hb).long)

/-- In every run in which no order leaves a bracket behind, the brackets stay
those of the open positions, and only they are exited. -/
theorem brackets_current
    (h : Follows svc (fun x m as => ¬ LeavesBracketBehind svc x m as) x) :
    BracketsCurrent svc x := by
  have htied : ∀ k b, x.st.brackets.get? k = some b → Tied svc x k b := by
    induction h with
    | refl => intro k b hb; cases hb
    | tail _ hstep ih =>
      obtain ⟨m, as, hP, rfl⟩ := hstep
      exact tied_step ih hP
  refine ⟨fun k b hb => (htied k b hb).opening, fun m as f hf => ?_⟩
  obtain ⟨⟨k, b⟩, he, hk, hprice⟩ := handleMarketTick_fills as x.st f hf
  obtain ⟨v, hv⟩ := (htied k b (Dict.mem_entries.mp he)).opening
  exact ⟨b, v, by rw [hk]; exact hv, hprice⟩

def bracketBuy : ValidatedSignal :=
  signalOf .buy 2 10 "09:30:00" (Dict.empty.set "take_profit_pct" (.int 10))

theorem bracketBuy_current : ∃ x b, x = Observed.init.next .plain (.ofSignal bracketBuy) [] ∧
    x.st.brackets.get? ("s1", 1) = some b ∧ BracketsCurrent .plain x := by
  have hset : ((Observed.init.next .plain (.ofSignal bracketBuy) []).st.brackets.get? ("s1", 1)).isSome := by
    decide +kernel
  obtain ⟨b, hb⟩ := Option.isSome_iff_exists.mp hset
  refine ⟨_, b, rfl, hb, brackets_current (.single ⟨_, _, ?_, rfl⟩)⟩
  rintro ⟨v, o, qty, hv, hfull, -, hflat⟩
  obtain rfl : bracketBuy = v := Option.some.inj hv
  have hroute : route Service.plain.settings (Service.plain.rng (idemKey bracketBuy)) bracketBuy =
      .ok (.fillable ⟨bracketBuy, "market", "DAY", 2, 10⟩) := by decide +kernel
  obtain rfl : Order.mk bracketBuy "market" "DAY" 2 10 = o := by
    simpa using hroute.symm.trans hfull.routed
  have hsized : sizedNow .plain State.init.portfolio ⟨bracketBuy, "market", "DAY", 2, 10⟩ = .ok 2 := by
    decide +kernel
  obtain rfl : 2 = qty := Except.ok.inj (hsized.symm.trans hfull.sized)
  revert hflat
  decide +kernel

/-- The position is bought with a bracket, sold out and bought again without. -/
def rebuy : ValidatedSignal := signalOf .buy 2 20 "09:32:00" .empty

def rebought : Observed :=
  ((Observed.init.next .plain (.ofSignal bracketBuy) []).next .plain
    (.ofSignal (signalOf .sell 2 10 "09:31:00" .empty)) []).next .plain (.ofSignal rebuy) []

/-- A tick then exits it at the first purchase's take-profit. -/
theorem stale_bracket_exits : ¬ ∀ x, Follows .plain (fun _ _ _ => True) x →
    BracketsCurrent .plain x := by
  intro hclaim
  have hcurrent := hclaim rebought (((Relation.ReflTransGen.single ⟨_, _, trivial, rfl⟩).tail
    ⟨_, _, trivial, rfl⟩).tail ⟨_, _, trivial, rfl⟩)
  have hexit : ∃ f ∈ fills (serve .plain (.ofPrice "21") [] rebought.st).world.log,
      (f.strategyId, f.instrumentToken) = ("s1", 1) := by
    decide +kernel
  obtain ⟨f, hf, hkey⟩ := hexit
  obtain ⟨b, v, hof, -⟩ := hcurrent.exits _ _ f hf
  rw [hkey] at hof
  have hopener : rebought.opener ("s1", 1) = some rebuy := by decide +kernel
  obtain rfl : rebuy = v := Option.some.inj (hopener.symm.trans hof.opened)
  have hnone : openingBracket Service.plain.settings rebuy = none := by decide +kernel
  exact Option.some_ne_none b (hof.bracket.symm.trans hnone)

end AlphaPanda.Paper
