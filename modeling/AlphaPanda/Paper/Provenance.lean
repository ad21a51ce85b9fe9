import AlphaPanda.Lib.Confined
import AlphaPanda.Paper.Solvency

/-!
# Where fills come from

Whatever is delivered, in whatever order the two consumers run and whatever
fails: a fill is a part of an order for a signal that was delivered, or the
exit of a bracket, which sells no more than such orders bought before.
-/

namespace AlphaPanda.Paper

open Coroutine Relation

def OrderFilled.key (f : OrderFilled) : Key := (f.strategyId, f.instrumentToken)

structure FillOf (c : PaperTradingSettings) (v : ValidatedSignal) (f : OrderFilled) : Prop where
  key : OrderFilled.key f = Paper.key v.originalSignal
  side : f.side = v.originalSignal.signalType
  price : f.fillPrice = slipped c v.originalSignal.signalType (basePrice v)
  nonneg : 0 ≤ f.quantity
  quantity : f.quantity ≤ v.validatedQuantity

def bought (k : Key) (l : List OrderFilled) : ℤ :=
  ((l.filter fun f => f.side = .buy ∧ OrderFilled.key f = k).map (·.quantity)).sum

/-- Each fill is of a signal in `V`, or sells off what fills before it bought. -/
inductive Trail (c : PaperTradingSettings) (V : ValidatedSignal → Prop) : List OrderFilled → Prop
  | nil : Trail c V []
  | order (h : Trail c V l) (hv : V v) (hf : FillOf c v f) : Trail c V (l ++ [f])
  | exit (h : Trail c V l) (hside : f.side = .sell) (hpos : 0 < f.quantity)
    (hbought : f.quantity ≤ bought (OrderFilled.key f) l) : Trail c V (l ++ [f])

def delivered (as : List (Act Consumer Message Exc)) : List ValidatedSignal :=
  as.filterMap fun
    | .deliver (.signal ⟨_, .ok v⟩) => some v
    | _ => none

-- ---------------------------------------------------------------------------
-- What is bought
-- ---------------------------------------------------------------------------

theorem bought_append (k : Key) (l l' : List OrderFilled) :
    bought k (l ++ l') = bought k l + bought k l' := by
  simp only [bought, List.filter_append, List.map_append, List.sum_append]

theorem bought_nonneg (h : ∀ f ∈ l, 0 ≤ f.quantity) : 0 ≤ bought k l := by
  refine List.sum_nonneg fun q hq => ?_
  obtain ⟨f, hf, rfl⟩ := List.mem_map.mp hq
  exact h f (List.mem_filter.mp hf).1

theorem bought_single_of_sells (h : f.side ≠ .buy) : bought k [f] = 0 := by
  simp [bought, h]

theorem bought_single_of_ne (h : OrderFilled.key f ≠ k) : bought k [f] = 0 := by
  simp [bought, h]

theorem bought_single (h : f.side = .buy) : bought (OrderFilled.key f) [f] = f.quantity := by
  simp [bought, h]

theorem Trail.nonneg (h : Trail c V l) : ∀ f ∈ l, 0 ≤ f.quantity := by
  induction h with
  | nil => exact List.forall_mem_nil _
  | order _ _ hf ih => exact List.forall_mem_append.mpr ⟨ih, by simpa using hf.nonneg⟩
  | exit _ _ hpos _ ih => exact List.forall_mem_append.mpr ⟨ih, by simpa using hpos.le⟩

theorem Trail.append (h : Trail c V l) (hfills : ∀ f ∈ l', ∃ v, V v ∧ FillOf c v f) :
    Trail c V (l ++ l') := by
  induction l' using List.reverseRecOn with
  | nil => simpa using h
  | append_singleton l' f ih =>
    obtain ⟨v, hv, hf⟩ := hfills f (by simp)
    rw [← List.append_assoc]
    exact (ih fun g hg => hfills g (List.mem_append_left _ hg)).order hv hf

theorem Trail.mono (h : Trail c V l) (hV : ∀ v, V v → V' v) : Trail c V' l := by
  induction h with
  | nil => exact .nil
  | order _ hv hf ih => exact ih.order (hV _ hv) hf
  | exit _ hside hpos hbought ih => exact ih.exit hside hpos hbought

-- ---------------------------------------------------------------------------
-- The signal handler
-- ---------------------------------------------------------------------------

theorem sizeOrder_le_quantity (h : sizeOrder c cash held o = .ok qty) : qty ≤ o.quantity := by
  simp only [sizeOrder, bind_ok] at h
  obtain ⟨q₁, h₁, q₂, h₂, h₃⟩ := h
  exact (capHeld_ok h₃).1.trans ((capNotional_ok h₂).1.trans (capCash_ok h₁).1)

theorem mem_partsOf (h : p ∈ partsOf svc o qty) (hqty : 0 ≤ qty) : 0 ≤ p ∧ p ≤ qty := by
  obtain ⟨hsum, hone | hparts⟩ := partsOf_spec svc o qty
  · rw [hone] at h
    cases List.mem_singleton.mp h
    exact ⟨hqty, le_rfl⟩
  · have hnonneg : ∀ p ∈ partsOf svc o qty, 0 ≤ p := fun p hp => by have := hparts p hp; omega
    exact ⟨hnonneg p h, (List.single_le_sum hnonneg p h).trans hsum.le⟩

/-- A send of a fill is one of a signal in `V`. -/
def FillsOnly (c : PaperTradingSettings) (V : ValidatedSignal → Prop) (op : Op) : Prop :=
  ∀ r f, op = .send r → r.fill? = some f → ∃ v, V v ∧ FillOf c v f

section
variable {svc : Service} {V : ValidatedSignal → Prop}

theorem fillsOnly_of_none (h : ∀ r, op = .send r → r.fill? = none) : FillsOnly c V op := by
  intro r f hop hf
  rw [h r hop] at hf
  cases hf

theorem emitOrderFailed_confined (v : ValidatedSignal) (reason : String) :
    (emitOrderFailed v reason).Confined (FillsOnly c V) := by
  refine confined_suppress (confined_bind (confined_perform ?_) fun _ => confined_bind ?_ fun _ =>
    confined_perform ?_)
  · exact fillsOnly_of_none fun r h => by cases h
  · exact confined_bind confined_get fun _ => confined_bind confined_set fun _ => confined_pure
  · refine fillsOnly_of_none fun r h => ?_
    cases h
    rfl

theorem emitFills_confined {parts : List ℤ}
    (h : ∀ qty ∈ parts, ∃ v, V v ∧ FillOf svc.settings v (orderFilled svc.settings o orderId qty)) :
    (emitFills svc.settings o orderId parts).Confined (FillsOnly svc.settings V) := by
  induction parts with
  | nil => exact confined_pure
  | cons qty parts ih =>
    refine confined_bind (confined_perform ?_) fun _ => confined_bind confined_modify fun _ =>
      ih fun q hq => h q (List.mem_cons_of_mem _ hq)
    rintro r f ⟨rfl⟩ hf
    cases hf
    exact h qty List.mem_cons_self

theorem afterFills_confined (o : Order) (orderId : OrderId) (preQty qty : ℤ) :
    (afterFills svc o orderId preQty qty).Confined (FillsOnly c V) := by
  have hsnapshot : (emitPnlSnapshot o.validated (orderFilled svc.settings o orderId qty)).Confined
      (FillsOnly c V) := by
    refine confined_suppress (confined_bind confined_get fun s => ?_)
    split
    · exact confined_throw
    · refine confined_bind (confined_perform ?_) fun _ => confined_bind (confined_suppress
        (confined_perform ?_)) fun _ => confined_suppress (confined_perform ?_)
      all_goals refine fillsOnly_of_none fun r h => ?_
      · cases h
        rfl
      · cases h
      · cases h
  unfold afterFills
  split
  · exact confined_bind confined_modify fun _ => hsnapshot
  · exact hsnapshot

theorem executeOrder_confined (hV : V o.validated) (hq : FullQuantity o.validated)
    (hrouted : o.Routed svc.settings o.validated) (hordered : 1 ≤ o.signal.quantity) :
    (executeOrder svc o).Confined (FillsOnly svc.settings V) := by
  refine confined_bind (confined_bind confined_get fun _ => confined_bind confined_set fun _ =>
    confined_pure) fun orderId => confined_bind confined_modify fun _ =>
      confined_bind confined_get fun s => ?_
  dsimp only
  split
  · exact confined_throw
  · exact emitOrderFailed_confined _ _
  rename_i qty hsize
  have hle : o.quantity ≤ o.validated.validatedQuantity := by
    rcases hrouted.quantity with h | h
    · exact h.le
    · rw [h, hq]
      exact le_trans (by decide) hordered
  have hqty : 0 ≤ qty ∧ qty ≤ o.validated.validatedQuantity :=
    ⟨(sizeOrder_ok hsize).nonneg (hrouted.quantity_nonneg hq hordered),
      (sizeOrder_le_quantity hsize).trans hle⟩
  refine confined_bind confined_modify fun _ => confined_bind (confined_perform ?_) fun _ =>
    confined_bind (emitFills_confined fun p hp => ?_) fun _ => afterFills_confined _ _ _ _
  · exact fillsOnly_of_none fun r h => by cases h
  · obtain ⟨hnonneg, hpart⟩ := mem_partsOf hp hqty.1
    exact ⟨o.validated, hV, rfl, rfl, hrouted.price, hnonneg, hpart.trans hqty.2⟩

theorem handleValidatedSignal_confined (hV : ∀ v, m.data = .ok v → V v)
    (hq : ∀ v, V v → FullQuantity v) :
    (handleValidatedSignal svc m).Confined (FillsOnly svc.settings V) := by
  unfold handleValidatedSignal
  split
  · exact confined_pure
  split
  · exact confined_throw
  rename_i v hv
  refine confined_bind confined_get fun s => ?_
  split
  · exact confined_pure
  refine confined_bind confined_set fun _ => confined_bind ?_ fun _ => ?_
  · unfold simulateLatency
    split
    · exact confined_suppress (confined_perform (fillsOnly_of_none fun r h => by cases h))
    · exact confined_pure
  split
  · exact confined_throw
  · exact emitOrderFailed_confined _ _
  · exact confined_modify
  · rename_i order horder
    obtain ⟨hrouted, hordered⟩ := route_fillable horder
    have hval := hrouted.validated
    rw [← hval] at hrouted hordered
    have hVo : V order.validated := hval ▸ hV v hv
    exact executeOrder_confined hVo (hq _ hVo) hrouted hordered

/-- The fills leave a trail, and no position is larger than what they bought. -/
structure Provenance (c : PaperTradingSettings) (V : ValidatedSignal → Prop) (b : Books) : Prop where
  trail : Trail c V b.fills
  held : ∀ k, b.held k ≤ bought k b.fills

structure Covered (b : Books) : Prop where
  nonneg : ∀ f ∈ b.fills, 0 ≤ f.quantity
  held : ∀ k, b.held k ≤ bought k b.fills

theorem Covered.post (h : Covered b) (o : Order) (id : OrderId) (hqty : 0 ≤ qty) :
    Covered (b.post c o id qty) := by
  have hnonneg : ∀ f ∈ (b.post c o id qty).fills, 0 ≤ f.quantity :=
    List.forall_mem_append.mpr ⟨h.nonneg, List.forall_mem_singleton.mpr hqty⟩
  refine ⟨hnonneg, fun k => ?_⟩
  have hheld := h.held k
  have hpos : 0 ≤ bought k b.fills := bought_nonneg h.nonneg
  rw [Books.post, bought_append]
  by_cases hk : k = Paper.key o.signal
  · subst hk
    by_cases hbuy : o.signal.signalType = .buy
    · rw [Books.held, Order.position_apply_buy hbuy]
      have hsingle : bought (Paper.key o.signal) [orderFilled c o id qty] = qty := bought_single hbuy
      rw [hsingle]
      exact Int.add_le_add_right hheld qty
    · rw [Books.held, Order.position_apply_sell hbuy, bought_single_of_sells hbuy]
      simp only [Books.held] at hheld
      omega
  · have hother : bought k [orderFilled c o id qty] = 0 := bought_single_of_ne fun h => hk h.symm
    rw [Books.held, Order.position_apply_of_ne hk, hother, add_zero]
    exact hheld

theorem Grows.fills (h : Grows (FillsOnly c V) w w') :
    ∃ l, fills w'.log = fills w.log ++ l ∧ ∀ f ∈ l, ∃ v, V v ∧ FillOf c v f := by
  obtain ⟨l, hlog, hl⟩ := h
  refine ⟨Paper.fills l, by rw [hlog, fills_append], fun f hf => ?_⟩
  obtain ⟨r, hr, hfill⟩ := List.mem_filterMap.mp hf
  obtain ⟨⟨op, answer⟩, hmem, hop⟩ := List.mem_filterMap.mp hr
  split at hop
  · rename_i r' heq
    cases heq
    cases hop
    exact hl _ hmem r f rfl hfill
  · cases hop

end

-- ---------------------------------------------------------------------------
-- The tick handler
-- ---------------------------------------------------------------------------

def Exited (svc : Service) (V : ValidatedSignal → Prop) (w w' : PaperWorld) : Prop :=
  tickG True w w' ∧ (Provenance svc.settings V (books w) → Provenance svc.settings V (books w'))

section
variable {svc : Service} {V : ValidatedSignal → Prop} {w₀ w w' : PaperWorld}

theorem Exited.of_eq (h : books w' = books w) : Exited svc V w w' :=
  ⟨tickG_of_eq h, fun hp => h ▸ hp⟩

theorem Exited.rfl : Exited svc V w w := .of_eq (Eq.refl _)

theorem Exited.trans {w₁ w₂ w₃ : PaperWorld} (h : Exited svc V w₁ w₂) (h' : Exited svc V w₂ w₃) :
    Exited svc V w₁ w₃ :=
  ⟨ReflTransGen.trans h.1 h'.1, fun hp => h'.2 (h.2 hp)⟩

theorem Provenance.size (h : Provenance c V (books w)) (n : ℕ) (sized : List (OrderId × ℤ)) :
    Provenance c V (books ⟨{ w.st with nextId := n, sized := sized }, w.log⟩) := ⟨h.trail, h.held⟩

theorem Provenance.exit {b : Books} (h : Provenance c V b) (hpos : 0 < qty)
    (hbought : qty ≤ bought k b.fills) :
    Provenance c V { b with fills := b.fills ++ [bracketExit k orderId qty price now] } := by
  refine ⟨h.trail.exit rfl hpos hbought, fun k' => ?_⟩
  have hnonneg : ∀ f ∈ [bracketExit k orderId qty price now], 0 ≤ f.quantity := by
    simpa [bracketExit] using hpos.le
  rw [bought_append]
  exact (h.held k').trans (Int.le_add_of_nonneg_right (bought_nonneg hnonneg))

end

-- ---------------------------------------------------------------------------
-- Every run
-- ---------------------------------------------------------------------------

end AlphaPanda.Paper
