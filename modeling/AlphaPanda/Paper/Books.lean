import AlphaPanda.Paper.Sizing

/-!
# The books

An abstract machine for what the service's fills do: the portfolio, the fills
published so far, and what was held when each order was sized, for a bracket
exit what the bracket loop found held. Its moves are
the whole of what a stretch of either handler does to them between two
awaits, whatever the other handler did before (`books_reached`). The results
about the portfolio are invariants of the moves.
-/

namespace AlphaPanda.Paper

open Coroutine Relation

structure Books where
  portfolio : Portfolio
  fills : List OrderFilled
  found : ℤ
  sized : List (OrderId × ℤ)

def Books.init : Books := ⟨State.init.portfolio, [], 0, []⟩

def Books.held (b : Books) (k : Key) : ℤ := (b.portfolio.position k).qty

def Books.post (b : Books) (c : PaperTradingSettings) (o : Order) (id : OrderId) (qty : ℤ) : Books :=
  { b with
    portfolio := o.apply c qty b.portfolio
    fills := b.fills ++ [orderFilled c o id qty] }

-- ---------------------------------------------------------------------------
-- Moves
-- ---------------------------------------------------------------------------

/-- What a part of an order may be filled on: the signal it comes from, the
account it is charged to, what was held when it was sized and what is held
now. -/
structure Fillable (svc : Service) (V : ValidatedSignal → Prop) (b : Books) (o : Order)
    (id : OrderId) (held qty : ℤ) : Prop where
  valid : V o.validated
  routed : o.Routed svc.settings o.validated
  opened : (b.portfolio.cash.get? o.signal.strategyId).isSome
  sized : (id, held) ∈ b.sized
  nonneg : 0 ≤ o.quantity → 0 ≤ qty
  affordable : o.signal.signalType = .buy → 0 < unitCost svc.settings o →
    0 ≤ b.portfolio.cashOf o.signal.strategyId →
    qty * unitCost svc.settings o ≤ b.portfolio.cashOf o.signal.strategyId
  held : o.signal.signalType ≠ .buy → qty ≤ held ∧ qty ≤ b.held (key o.signal)
  ordered : 1 ≤ o.signal.quantity

/-- The moves of the signal handler, for signals that satisfy `V`. -/
inductive SignalMove (svc : Service) (V : ValidatedSignal → Prop) : Books → Books → Prop
  | openAccount (b : Books) (strategyId : String) : SignalMove svc V b
      { b with portfolio := initCash svc.settings strategyId b.portfolio }
  | size (b : Books) (id : OrderId) (k : Key) :
      SignalMove svc V b { b with sized := b.sized ++ [(id, b.held k)] }
  | fill (h : Fillable svc V b o orderId held qty) :
      SignalMove svc V b (b.post svc.settings o orderId qty)

/-- The moves of the tick handler, where brackets may trigger (`E`): a bracket
exit is sized at what was found held and published, and that is all. The
portfolio keeps the position. -/
inductive TickMove (E : Prop) : Books → Books → Prop
  | find (b : Books) (k : Key) (h : E) : TickMove E b { b with found := b.held k }
  | size (b : Books) (id : OrderId) (h : E) :
      TickMove E b { b with sized := b.sized ++ [(id, b.found)] }
  | exit (b : Books) (id : OrderId) (k : Key) (price : ℚ) (now : Timestamp) (h : E)
      (hid : (id, held) ∈ b.sized) (hle : qty ≤ held) :
      TickMove E b { b with fills := b.fills ++ [bracketExit k id qty price now] }

def Move (svc : Service) (V : ValidatedSignal → Prop) (E : Prop) (b b' : Books) : Prop :=
  SignalMove svc V b b' ∨ TickMove E b b'

theorem TickMove.portfolio (h : TickMove E b b') : b'.portfolio = b.portfolio := by
  cases h <;> rfl

theorem TickMove.sized (h : TickMove E b b') : b.sized ⊆ b'.sized := by
  cases h with
  | size => exact List.subset_append_left ..
  | find | exit => exact List.Subset.refl _

theorem ticks_frame (h : ReflTransGen (TickMove E) b b') :
    b'.portfolio = b.portfolio ∧ b.sized ⊆ b'.sized := by
  induction h with
  | refl => exact ⟨rfl, List.Subset.refl _⟩
  | tail _ hmove ih => exact ⟨hmove.portfolio.trans ih.1, List.Subset.trans ih.2 hmove.sized⟩

theorem SignalMove.sized (h : SignalMove svc V b b') : b.sized ⊆ b'.sized := by
  cases h with
  | openAccount | fill => exact List.Subset.refl _
  | size => exact List.subset_append_left ..

theorem SignalMove.found (h : SignalMove svc V b b') : b'.found = b.found := by
  cases h <;> rfl

theorem signals_frame (h : ReflTransGen (SignalMove svc V) b b') :
    b'.found = b.found ∧ b.sized ⊆ b'.sized := by
  induction h with
  | refl => exact ⟨rfl, List.Subset.refl _⟩
  | tail _ hmove ih => exact ⟨hmove.found.trans ih.1, List.Subset.trans ih.2 hmove.sized⟩

def books (w : PaperWorld) : Books := ⟨w.st.portfolio, fills w.log, w.st.found, w.st.sized⟩

theorem fills_append (l l' : List (Op × Option Exc)) : fills (l ++ l') = fills l ++ fills l' := by
  simp [fills, published]

@[simp] theorem books_record_some (w : PaperWorld) : books (w.record op (some e)) = books w := by
  simp [books, World.record, fills_append]
  cases op <;> rfl

@[simp] theorem books_record_sleep (w : PaperWorld) : books (w.record (.sleep d) r) = books w := by
  cases r
  · simp [books, World.record, fills_append]; rfl
  · exact books_record_some w

@[simp] theorem books_record_getProducer (w : PaperWorld) :
    books (w.record .getProducer r) = books w := by
  cases r
  · simp [books, World.record, fills_append]; rfl
  · exact books_record_some w

@[simp] theorem books_record_orderProcessed (w : PaperWorld) :
    books (w.record (.recordOrderProcessed f) r) = books w := by
  cases r
  · simp [books, World.record, fills_append]; rfl
  · exact books_record_some w

@[simp] theorem books_record_portfolioUpdate (w : PaperWorld) :
    books (w.record (.recordPortfolioUpdate p) r) = books w := by
  cases r
  · simp [books, World.record, fills_append]; rfl
  · exact books_record_some w

theorem books_record_send (w : PaperWorld) (h : r.fill? = none) :
    books (w.record (.send r) a) = books w := by
  cases a
  · simp [books, World.record, fills_append]; simp [fills, published, h]
  · exact books_record_some w

theorem books_record_fill (w : PaperWorld) (h : r.fill? = some f) :
    books (w.record (.send r) none) = { books w with fills := (books w).fills ++ [f] } := by
  simp only [books, World.record, fills_append]
  simp [fills, published, h]

-- ---------------------------------------------------------------------------
-- The signal handler
-- ---------------------------------------------------------------------------

def signalG (svc : Service) (V : ValidatedSignal → Prop) (w w' : PaperWorld) : Prop :=
  ReflTransGen (SignalMove svc V) (books w) (books w')

def tickG (E : Prop) (w w' : PaperWorld) : Prop := ReflTransGen (TickMove E) (books w) (books w')

/-- A stretch that changes neither the books nor what waits for a price. -/
structure Idle (w w' : PaperWorld) : Prop where
  books : books w' = books w
  brackets : w'.st.brackets = w.st.brackets
  pendingStops : w'.st.pendingStops = w.st.pendingStops

section
variable {R G : PaperWorld → PaperWorld → Prop} {w₀ w : PaperWorld}

theorem emitOrderFailed_meets (hG : ∀ w w', Idle w w' → G w w') (h : G w₀ w) :
    (emitOrderFailed v reason).Meets R G (fun _ => G) w₀ w := by
  simp only [emitOrderFailed, suppress, generateEventId, meets_tryCatch, meets_bind, meets_perform,
    meets_get, meets_set, meets_pure]
  refine ⟨h, fun w₁ _ => ⟨⟨?_, fun w₂ _ => ⟨?_, fun e => ?_⟩⟩, fun e => ?_⟩⟩
  · exact hG _ _ ⟨books_record_getProducer w₁, rfl, rfl⟩
  · exact hG _ _ ⟨books_record_send w₂ rfl, rfl, rfl⟩
  · exact hG _ _ ⟨books_record_some w₂, rfl, rfl⟩
  · exact hG _ _ ⟨books_record_some w₁, rfl, rfl⟩

theorem suppress_perform_meets (hop : ∀ (w : PaperWorld) r, books (w.record op r) = books w)
    (hG : ∀ w w', Idle w w' → G w w') (h : G w₀ w) :
    (suppress (Prog.perform op)).Meets R G (fun r w₀ w => r = .ok () ∧ G w₀ w) w₀ w := by
  simp only [suppress, meets_tryCatch, meets_perform, meets_pure]
  exact ⟨h, fun w₁ _ => ⟨⟨trivial, hG _ _ ⟨hop w₁ none, rfl, rfl⟩⟩,
    fun e => ⟨trivial, hG _ _ ⟨hop w₁ (some e), rfl, rfl⟩⟩⟩⟩

theorem simulateLatency_meets (hG : ∀ w w', Idle w w' → G w w') (h : G w₀ w) :
    (simulateLatency c rng).Meets R G (fun r w₀ w => r = .ok () ∧ G w₀ w) w₀ w := by
  unfold simulateLatency
  split
  · exact suppress_perform_meets (fun w r => books_record_sleep w) hG h
  · exact ⟨rfl, h⟩

end

section
variable {svc : Service} {V : ValidatedSignal → Prop} {E : Prop} {w₀ w w' : PaperWorld}

theorem signalG_of_eq (h : books w' = books w) : signalG svc V w w' := by
  rw [signalG, h]

theorem signalG_of_idle (w w' : PaperWorld) (h : Idle w w') : signalG svc V w w' :=
  signalG_of_eq h.books

theorem signalG.move (h : signalG svc V w₀ w) (hmove : SignalMove svc V (books w) (books w')) :
    signalG svc V w₀ w' := h.tail hmove

theorem emitPnlSnapshot_meets (h : signalG svc V w₀ w) :
    (emitPnlSnapshot v last).Meets (tickG E) (signalG svc V) (fun _ => signalG svc V) w₀ w := by
  simp only [emitPnlSnapshot, suppress, meets_tryCatch, meets_bind, meets_get]
  split
  · simpa only [meets_throw, meets_pure] using h
  rename_i pnl _
  simp only [meets_bind, meets_perform, meets_pure]
  refine ⟨h, fun w₁ _ => ⟨?_, fun e => signalG_of_eq (books_record_some w₁)⟩⟩
  have hsend : signalG svc V w₁ (w₁.record (.send (pnlRecord v pnl)) none) :=
    signalG_of_eq (books_record_send w₁ rfl)
  refine (suppress_perform_meets (fun w r => books_record_orderProcessed w) signalG_of_idle hsend).mono ?_
  rintro _ w₂ w₃ ⟨rfl, hproc⟩
  refine (suppress_perform_meets (fun w r => books_record_portfolioUpdate w) signalG_of_idle hproc).mono ?_
  rintro _ w₄ w₅ ⟨rfl, hupdate⟩
  exact hupdate

/-- What the fill loop may still fill: the parts left are together fillable,
and only a quantity of at least two was split. -/
structure Remaining (svc : Service) (V : ValidatedSignal → Prop) (b : Books) (o : Order)
    (orderId : OrderId) (held : ℤ) (parts : List ℤ) : Prop where
  all : parts ≠ [] → Fillable svc V b o orderId held parts.sum
  split : parts.length ≤ 1 ∨ ∀ p ∈ parts, 1 ≤ p

theorem Remaining.ticks (h : Remaining svc V (books w) o orderId held parts)
    (hticks : tickG E w w') : Remaining svc V (books w') o orderId held parts := by
  obtain ⟨hport, hsized⟩ := ticks_frame hticks
  refine ⟨fun hne => ?_, h.split⟩
  obtain ⟨hV, hrouted, hopened, hmem, hnonneg, hcash, hheld, hordered⟩ := h.all hne
  refine ⟨hV, hrouted, ?_, hsized hmem, hnonneg, ?_, ?_, hordered⟩
  · rw [hport]; exact hopened
  · rw [hport]; exact hcash
  · rw [Books.held, hport]; exact hheld

theorem Remaining.head (h : Remaining svc V b o orderId held (qty :: parts)) :
    Fillable svc V b o orderId held qty := by
  obtain ⟨hV, hrouted, hopened, hmem, hnonneg, hcash, hheld, hordered⟩ := h.all (by simp)
  rcases h.split with hlen | hpos
  · obtain rfl : parts = [] := by simpa using hlen
    simp only [List.sum_cons, List.sum_nil, add_zero] at *
    exact ⟨hV, hrouted, hopened, hmem, hnonneg, hcash, hheld, hordered⟩
  · have hqty : 1 ≤ qty := hpos qty (by simp)
    have hrest : 0 ≤ parts.sum :=
      List.sum_nonneg fun p hp => by have := hpos p (by simp [hp]); omega
    rw [List.sum_cons] at hcash hheld
    refine ⟨hV, hrouted, hopened, hmem, fun _ => by omega, fun hbuy hcost h0 => ?_, fun hbuy => ?_,
      hordered⟩
    · have hle : (qty : ℚ) ≤ ((qty + parts.sum : ℤ) : ℚ) := by exact_mod_cast (by omega)
      exact (mul_le_mul_of_nonneg_right hle hcost.le).trans (hcash hbuy hcost h0)
    · have := hheld hbuy; omega

theorem Remaining.post (h : Remaining svc V b o orderId held (qty :: parts)) :
    Remaining svc V (b.post svc.settings o orderId qty) o orderId held parts := by
  obtain ⟨hV, hrouted, hopened, hmem, hnonneg, hcash, hheld, hordered⟩ := h.all (by simp)
  refine ⟨fun hne => ?_, ?_⟩
  · rcases h.split with hlen | hpos
    · exact absurd (by simpa using hlen) hne
    have hqty : 1 ≤ qty := hpos qty (by simp)
    have hrest : 0 ≤ parts.sum :=
      List.sum_nonneg fun p hp => by have := hpos p (by simp [hp]); omega
    rw [List.sum_cons] at hcash hheld
    refine ⟨hV, hrouted, ?_, hmem, fun _ => hrest, fun hbuy hcost h0 => ?_, fun hbuy => ?_, hordered⟩
    · exact Order.opened_apply ..
    · rw [Books.post, Order.cashOf_apply_buy hbuy] at h0 ⊢
      have hq : (0 : ℚ) ≤ qty * unitCost svc.settings o :=
        mul_nonneg (by exact_mod_cast (by omega)) hcost.le
      have := hcash hbuy hcost (by linarith)
      rw [Int.cast_add, add_mul] at this
      linarith
    · have := hheld hbuy
      rw [Books.post, Books.held, Order.position_apply_sell hbuy]
      simp only [Books.held] at this
      omega
  · rcases h.split with hlen | hpos
    · left; simp at hlen; simp [hlen]
    · exact .inr fun p hp => hpos p (by simp [hp])

theorem emitFills_meets {parts : List ℤ} (hrem : Remaining svc V (books w) o orderId held parts)
    (h : signalG svc V w₀ w) :
    (emitFills svc.settings o orderId parts).Meets (tickG E) (signalG svc V)
      (fun _ => signalG svc V) w₀ w := by
  induction parts generalizing w₀ w with
  | nil => exact h
  | cons qty parts ih =>
    simp only [emitFills, meets_bind, meets_perform, meets_modify]
    refine ⟨h, fun w₁ hticks => ⟨?_, fun e => signalG_of_eq (books_record_some w₁)⟩⟩
    have hrem := hrem.ticks hticks
    have hpost : books { (w₁.record (.send (filledRecord svc.settings o orderId qty)) none) with
        st := { w₁.st with portfolio := o.apply svc.settings qty w₁.st.portfolio } } =
          (books w₁).post svc.settings o orderId qty := by
      have := books_record_fill w₁ (r := filledRecord svc.settings o orderId qty) rfl
      simp only [books, World.record] at this ⊢
      simp only [Books.mk.injEq] at this
      simp only [Books.post, this.2.1]
    refine ih ?_ ?_
    · exact hpost ▸ hrem.post
    · rw [signalG]
      exact .single (hpost ▸ .fill hrem.head)

theorem afterFills_meets (h : signalG svc V w₀ w) :
    (afterFills svc o orderId preQty qty).Meets (tickG E) (signalG svc V)
      (fun _ => signalG svc V) w₀ w := by
  unfold afterFills
  split
  · simp only [meets_bind, meets_modify]
    have hbracket : books ⟨setBracketIfConfigured (key o.signal) o.fillPrice o.signal.md w.st,
        w.log⟩ = books w := by
      simp only [books, setBracketIfConfigured]
      split <;> rfl
    exact emitPnlSnapshot_meets (h.trans (signalG_of_eq hbracket))
  · exact emitPnlSnapshot_meets h

theorem fillOrder_meets (hrem : Remaining svc V (books w) o orderId held (partsOf svc o qty))
    (h : signalG svc V w₀ w) :
    (fillOrder svc o orderId preQty qty).Meets (tickG E) (signalG svc V)
      (fun _ => signalG svc V) w₀ w := by
  simp only [fillOrder, meets_bind, meets_perform]
  refine ⟨h, fun w₁ hticks => ⟨?_, fun e => signalG_of_eq (books_record_some w₁)⟩⟩
  have hrem := hrem.ticks hticks
  rw [← books_record_getProducer (r := none) w₁] at hrem
  refine (emitFills_meets hrem (signalG_of_eq (books_record_getProducer w₁))).mono ?_
  rintro (e | _) w₂ w₃ hfills
  · exact hfills
  · exact afterFills_meets hfills

theorem executeOrder_meets (hV : V o.validated) (hrouted : o.Routed svc.settings o.validated)
    (hordered : 1 ≤ o.signal.quantity) (h : signalG svc V w₀ w) :
    (executeOrder svc o).Meets (tickG E) (signalG svc V) (fun _ => signalG svc V) w₀ w := by
  simp only [executeOrder, generateEventId, meets_bind, meets_get, meets_set, meets_modify,
    meets_pure]
  have hopen : signalG svc V w₀ { w with st := { w.st with
      nextId := w.st.nextId + 1
      portfolio := initCash svc.settings o.signal.strategyId w.st.portfolio } } :=
    h.move (.openAccount ..)
  have hcash := initCash_opened svc.settings o.signal.strategyId w.st.portfolio
  generalize initCash svc.settings o.signal.strategyId w.st.portfolio = p at hopen hcash ⊢
  split
  · exact hopen
  · exact emitOrderFailed_meets signalG_of_idle hopen
  rename_i qty hsize
  simp only [meets_bind, meets_modify]
  have hsized := sizeOrder_ok hsize
  obtain ⟨hsum, hsplit⟩ := partsOf_spec svc o qty
  have hrem : Remaining svc V ⟨p, fills w.log, w.st.found,
      w.st.sized ++ [(w.st.nextId, (p.position (key o.signal)).qty)]⟩ o w.st.nextId
      (p.position (key o.signal)).qty (partsOf svc o qty) := by
    refine ⟨fun _ => hsum.symm ▸ ?_, ?_⟩
    · exact ⟨hV, hrouted, hcash, List.mem_append_right _ (List.mem_singleton_self _),
        hsized.nonneg, hsized.affordable, fun hsell => ⟨hsized.held hsell, hsized.held hsell⟩,
        hordered⟩
    · rcases hsplit with hone | hpos
      · left; simp [hone]
      · exact .inr hpos
  exact fillOrder_meets hrem (hopen.move (.size _ w.st.nextId (key o.signal)))

/-- Whatever the ticks do in between, the signal handler only makes its moves.

Premise: the signal, if there is one, satisfies `V`. -/
theorem handleValidatedSignal_meets (hV : ∀ v, m.data = .ok v → V v) :
    (handleValidatedSignal svc m).Meets (tickG E) (signalG svc V) (fun _ => signalG svc V) w w := by
  have hrefl : signalG svc V w w := .refl
  unfold handleValidatedSignal
  split
  · exact hrefl
  split
  · exact hrefl
  rename_i v hv
  simp only [meets_bind, meets_get]
  split
  · exact hrefl
  rename_i hnew
  simp only [meets_bind, meets_set, executeSignal]
  have hseen : signalG svc V w { w with st := { w.st with
      seen := w.st.seen.record (idemKey v) hnew } } := signalG_of_eq rfl
  refine (simulateLatency_meets signalG_of_idle hseen).mono ?_
  rintro _ w₁ w₂ ⟨rfl, h⟩
  dsimp only
  split
  · exact h
  · exact emitOrderFailed_meets signalG_of_idle h
  · simp only [meets_modify]
    exact h.trans (signalG_of_eq rfl)
  · rename_i order horder
    obtain ⟨hrouted, hordered⟩ := route_fillable horder
    have hval := hrouted.validated
    refine executeOrder_meets (hval ▸ hV v hv) (hval.symm ▸ hrouted) ?_ h
    rw [Order.signal, hval]; exact hordered

-- ---------------------------------------------------------------------------
-- The tick handler
-- ---------------------------------------------------------------------------

def Triggered (s : State) (inst : ℤ) (lp : Decimal) (e : Key × Bracket) : Prop :=
  e.1.2 = inst ∧ 0 < (s.portfolio.position e.1).qty ∧
    ∃ price, bracketTrigger e.2 lp = .ok (some price)

theorem tickG_of_eq (h : books w' = books w) : tickG E w w' := by
  rw [tickG, h]

theorem emitBracketExitFill_meets (hE : E) (hqty : qty ≤ w.st.found) (h : tickG E w₀ w) :
    (emitBracketExitFill svc k qty price).Meets (signalG svc V) (tickG E)
      (fun r w₀ w => r = .ok () ∧ tickG E w₀ w) w₀ w := by
  simp only [emitBracketExitFill, suppress, generateEventId, meets_tryCatch, meets_bind,
    meets_perform, meets_get, meets_set, meets_pure]
  refine ⟨h, fun w₁ hsignals => ⟨?_, fun e => ⟨trivial, tickG_of_eq (books_record_some w₁)⟩⟩⟩
  have hfound : qty ≤ w₁.st.found := hqty.trans_eq (signals_frame hsignals).1.symm
  split
  · simp only [meets_bind, meets_modify, meets_perform, meets_throw]
    refine ⟨.single ?_, fun w₂ hsignals => ⟨⟨trivial, .single ?_⟩, fun e => ⟨trivial, ?_⟩⟩⟩
    · rw [← books_record_getProducer (r := none) w₁]
      exact .size _ w₁.st.nextId hE
    · rw [books_record_fill w₂ (f := bracketExit k w₁.st.nextId qty ‹_› (svc.now w₁.st.nextId)) rfl]
      exact .exit _ _ _ _ _ hE
        ((signals_frame hsignals).2 (List.mem_append_right _ (List.mem_singleton_self _))) hfound
    · exact tickG_of_eq (books_record_some w₂)
  · exact ⟨trivial, tickG_of_eq (books_record_getProducer w₁)⟩

theorem checkBrackets_meets {lp : Decimal} {l : List (Key × Bracket)}
    (hE : E ∨ ∀ e ∈ l, ¬ Triggered w.st inst lp e) (h : tickG E w₀ w) :
    (checkBrackets svc inst lp l).Meets (signalG svc V) (tickG E)
      (fun _ => tickG E) w₀ w := by
  induction l generalizing w₀ w with
  | nil => exact h
  | cons e rest ih =>
    obtain ⟨k, br⟩ := e
    have hrest : E ∨ ∀ e ∈ rest, ¬ Triggered w.st inst lp e :=
      hE.imp_right fun hl e he => hl e (List.mem_cons_of_mem _ he)
    simp only [checkBrackets]
    split
    · exact ih hrest h
    rename_i hinst
    simp only [meets_bind, meets_get]
    split
    · simp only [meets_bind, meets_pure]
      refine (ih hrest h).mono ?_
      rintro (_ | _) _ _ h <;> exact h
    rename_i hqty
    split
    · exact h
    · exact ih hrest h
    · rename_i price htrigger
      have hE : E := hE.resolve_right fun hl =>
        hl (k, br) (by simp) ⟨not_not.mp hinst, not_le.mp hqty, price, htrigger⟩
      simp only [meets_bind, meets_modify, meets_pure]
      have hfind : tickG E w₀ { w with st := { w.st with
          found := (w.st.portfolio.position k).qty } } := h.tail (.find (books w) k hE)
      refine (emitBracketExitFill_meets hE le_rfl hfind).mono ?_
      rintro _ w₁ w₂ ⟨rfl, h⟩
      refine (ih (.inl hE) h).mono ?_
      rintro (_ | _) _ _ h <;> exact h

theorem checkStops_meets {R G : PaperWorld → PaperWorld → Prop} {lp : Decimal}
    (l : List PendingStop)
    {Q : Except Exc (List PendingStop) → PaperWorld → PaperWorld → Prop}
    (h : ∀ r, Q r w₀ w) : (checkStops inst lp l).Meets R G Q w₀ w := by
  induction l generalizing Q with
  | nil => exact h _
  | cons od rest ih =>
    simp only [checkStops]
    split
    · simp only [meets_bind, meets_pure]
      exact ih fun r => by cases r <;> exact h _
    split
    · exact ih h
    split
    · exact h _
    split
    · simp only [suppress, executeStop, meets_bind, meets_tryCatch, meets_throw, meets_pure]
      exact ih h
    · simp only [meets_bind, meets_pure]
      exact ih fun r => by cases r <;> exact h _

theorem handleMarketTick_meets
    (hE : E ∨ ∀ lp, m.lastPrice.toDecimal = some lp →
      ∀ e ∈ w.st.brackets.entries, ¬ Triggered w.st m.instrumentToken lp e) :
    (handleMarketTick svc m).Meets (signalG svc V) (tickG E) (fun _ => tickG E) w w := by
  have hrefl : tickG E w w := .refl
  unfold handleMarketTick
  split
  · exact hrefl
  split
  · exact hrefl
  rename_i lp hlp
  simp only [meets_bind, meets_modify, meets_get, evaluateBrackets, evaluateStops]
  have hprice : tickG E w { w with st := { w.st with
      lastPrice := w.st.lastPrice.set m.instrumentToken lp } } := tickG_of_eq rfl
  refine (checkBrackets_meets (hE.imp_right fun hno => hno lp hlp) hprice).mono ?_
  rintro (e | removed) w₁ w₂ h
  · exact h
  refine checkStops_meets _ fun r => ?_
  cases r with
  | error e => exact h.trans (tickG_of_eq rfl)
  | ok after => exact h.trans (tickG_of_eq rfl)

end

/-- The steps of a run whose signals satisfy `V` and whose ticks, unless `E`,
trigger no bracket. -/
def Allowed (V : ValidatedSignal → Prop) (E : Prop) (c : Config Consumer State Op Exc) :
    Act Consumer Message Exc → Prop
  | .deliver (.signal m) => ∀ v, m.data = .ok v → V v
  | .deliver (.tick m) => E ∨ ∀ lp, m.lastPrice.toDecimal = some lp →
      ∀ e ∈ c.world.st.brackets.entries, ¬ Triggered c.world.st m.instrumentToken lp e
  | .resume .. => True

def guarantee (svc : Service) (V : ValidatedSignal → Prop) (E : Prop) :
    Consumer → PaperWorld → PaperWorld → Prop
  | .signals => signalG svc V
  | .ticks => tickG E

def rely (svc : Service) (V : ValidatedSignal → Prop) (E : Prop) :
    Consumer → PaperWorld → PaperWorld → Prop
  | .signals => tickG E
  | .ticks => signalG svc V

theorem system_guarantees (svc : Service) (V : ValidatedSignal → Prop) (E : Prop) :
    svc.system.Guarantees (Allowed V E) (fun m => rely svc V E m.consumer)
      (fun m => guarantee svc V E m.consumer)
      (fun w => ReflTransGen (Move svc V E) Books.init (books w)) where
  rely := by
    rintro (_ | _) (_ | _) hne w w' - hG
    · exact absurd rfl hne
    · exact hG
    · exact hG
    · exact absurd rfl hne
  trans := by
    rintro (_ | _) w w' w'' h h' <;> exact ReflTransGen.trans h h'
  keep := by
    rintro (_ | _) w w' hI hG
    · exact hI.trans (ReflTransGen.mono (fun _ _ hmove => Or.inl hmove) _ _ hG)
    · exact hI.trans (ReflTransGen.mono (fun _ _ hmove => Or.inr hmove) _ _ hG)
  refl := by
    rintro (_ | _) w <;> exact ReflTransGen.refl
  meets := by
    rintro c (m | m) - - hP
    · exact handleValidatedSignal_meets hP
    · exact handleMarketTick_meets hP

/-- The books of every reachable configuration come about by moves alone. -/
theorem books_reached {svc : Service}
    (h : svc.system.Reaches (Allowed V E) (Config.start .init) c) :
    ReflTransGen (Move svc V E) Books.init (books c.world) :=
  System.invariant (system_guarantees svc V E) .refl (fun _ => rfl) h

theorem books_invariant {svc : Service} {I : Books → Prop} (hinit : I .init)
    (hstep : ∀ b b', I b → Move svc V E b b' → I b')
    (h : svc.system.Reaches (Allowed V E) (Config.start .init) c) : I (books c.world) := by
  have hmoves := books_reached h
  generalize books c.world = b at hmoves ⊢
  induction hmoves with
  | refl => exact hinit
  | tail _ hmove ih => exact hstep _ _ ih hmove

end AlphaPanda.Paper
