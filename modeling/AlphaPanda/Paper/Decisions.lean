import AlphaPanda.Paper.Sizing

/-!
# Routing and sizing by conditions

When an order is filled, left open or sized, said of the signal, the settings
and the account, without the order in which the handler looks at them.
-/

namespace AlphaPanda.Paper

-- ---------------------------------------------------------------------------
-- Sizing by limits
-- ---------------------------------------------------------------------------

def Admits (tif : String) (qty limit : ℤ) : Prop := qty ≤ limit ∨ tif = "IOC" ∧ 0 < limit

def cashLimit (c : PaperTradingSettings) (cash : ℚ) (o : Order) : Option ℤ :=
  if o.signal.signalType = .buy ∧ 0 < unitCost c o then
    Decimal.floorDiv cash (unitCost c o)
  else none

/-- The cash affords fewer units than there are numbers of 28 digits. -/
def Divides (c : PaperTradingSettings) (cash : ℚ) (o : Order) : Prop :=
  o.signal.signalType = .buy ∧ 0 < unitCost c o → |cash / unitCost c o| < 10 ^ 28

def notionalLimit (c : PaperTradingSettings) (o : Order) : Option ℤ :=
  c.maxPositionNotional.bind fun notional =>
    if 0 < notional ∧ 0 < unitCost c o then some ⌊notional / unitCost c o⌋ else none

def heldLimit (held : ℤ) (o : Order) : Option ℤ :=
  if o.signal.signalType ≠ .buy then some held else none

structure Sizes (c : PaperTradingSettings) (cash : ℚ) (held : ℤ) (o : Order) : Prop where
  divides : Divides c cash o
  cash : ∀ l ∈ cashLimit c cash o, Admits o.tif o.quantity l
  notional : ∀ l ∈ notionalLimit c o, 0 < l ∧ Admits o.tif o.quantity l
  held : ∀ l ∈ heldLimit held o, Admits o.tif o.quantity l

/-- What is left of a quantity: all of it, or for IOC some of it. -/
def CutTo (tif : String) (qty q : ℤ) : Prop := q = qty ∨ tif = "IOC" ∧ 1 ≤ q ∧ q < qty

theorem CutTo.trans (h : CutTo tif qty q) (h' : CutTo tif q q') : CutTo tif qty q' := by
  obtain rfl | ⟨hioc, hpos, hlt⟩ := h
  · exact h'
  · obtain rfl | ⟨-, hpos', hlt'⟩ := h'
    · exact .inr ⟨hioc, hpos, hlt⟩
    · exact .inr ⟨hioc, hpos', hlt'.trans hlt⟩

theorem CutTo.admits_iff (h : CutTo tif qty q) : Admits tif q l ↔ Admits tif qty l := by
  obtain rfl | ⟨hioc, hpos, hlt⟩ := h
  · rfl
  · simp only [Admits, hioc, true_and]
    omega

theorem CutTo.pos_iff (h : CutTo tif qty q) : 1 ≤ q ↔ 1 ≤ qty := by
  obtain rfl | ⟨-, hpos, hlt⟩ := h
  · rfl
  · omega

theorem capQuantity_cut (h : capQuantity tif qty limit fok other = .ok q) :
    CutTo tif qty q ∧ Admits tif qty limit := by
  unfold capQuantity at h
  split at h
  · cases h
  split at h
  · rename_i hlt
    split at h
    · rename_i hioc
      cases h
      exact ⟨.inr ⟨hioc.1, hioc.2, hlt⟩, .inr hioc⟩
    · cases h
  · rename_i hle
    cases h
    exact ⟨.inl rfl, .inl (not_lt.mp hle)⟩

theorem capQuantity_admits (fok other : String) (h : Admits tif qty limit) :
    ∃ q, capQuantity tif qty limit fok other = .ok q := by
  unfold capQuantity
  obtain hle | hioc := h
  · rw [if_neg fun h => hle.not_gt h.2, if_neg hle.not_gt]
    exact ⟨qty, rfl⟩
  · rw [if_neg fun h => by simp [hioc.1] at h]
    by_cases hlt : limit < qty
    · rw [if_pos hlt, if_pos hioc]
      exact ⟨limit, rfl⟩
    · rw [if_neg hlt]
      exact ⟨qty, rfl⟩

def capBy (limit : Option ℤ) (tif : String) (qty : ℤ) (fok other : String) : Except Unsized ℤ :=
  limit.elim (.ok qty) fun l => capQuantity tif qty l fok other

theorem capBy_cut (h : capBy limit tif qty fok other = .ok q) :
    CutTo tif qty q ∧ ∀ l ∈ limit, Admits tif qty l := by
  cases limit with
  | none =>
    cases h
    exact ⟨.inl rfl, fun l hl => by cases hl⟩
  | some limit =>
    obtain ⟨hcut, hadmits⟩ := capQuantity_cut h
    exact ⟨hcut, fun l hl => Option.some.inj hl ▸ hadmits⟩

theorem capBy_admits (fok other : String) (h : ∀ l ∈ limit, Admits tif qty l) :
    ∃ q, capBy limit tif qty fok other = .ok q := by
  cases limit with
  | none => exact ⟨qty, rfl⟩
  | some limit => exact capQuantity_admits fok other (h limit rfl)

theorem capCash_eq (h : Divides c cash o) (qty : ℤ) : capCash c cash o qty =
    capBy (cashLimit c cash o) o.tif qty "FOK insufficient cash" "Insufficient cash" := by
  unfold capCash cashLimit
  split
  · rename_i hbuy
    cases hdiv : Decimal.floorDiv cash (unitCost c o) with
    | none => exact absurd (h hbuy) (Decimal.floorDiv_eq_none.mp hdiv)
    | some maxAffordable => rfl
  · rfl

theorem capCash_raises (h : ¬Divides c cash o) (qty : ℤ) :
    capCash c cash o qty = .error (.raises divisionImpossible) := by
  obtain ⟨hbuy, hdiv⟩ := Classical.not_imp.mp h
  rw [capCash, if_pos hbuy, Decimal.floorDiv_eq_none.mpr hdiv]

theorem capCash_ok_iff : capCash c cash o qty = .ok q ↔ Divides c cash o ∧
    capBy (cashLimit c cash o) o.tif qty "FOK insufficient cash" "Insufficient cash" = .ok q := by
  by_cases h : Divides c cash o
  · rw [capCash_eq h]
    simp [h]
  · simp [capCash_raises h, h]

theorem capHeld_eq (held : ℤ) (o : Order) (qty : ℤ) : capHeld held o qty =
    capBy (heldLimit held o) o.tif qty "FOK exceeds position size" "No position to sell" := by
  unfold capHeld heldLimit
  split <;> rfl

theorem capNotional_ok_iff : capNotional c o qty = .ok q ↔ (∀ l ∈ notionalLimit c o, 0 < l) ∧
    capBy (notionalLimit c o) o.tif qty "FOK exceeds max position notional"
      "Exceeds max position notional" = .ok q := by
  unfold capNotional notionalLimit
  cases c.maxPositionNotional with
  | none => simp [capBy]
  | some notional =>
    simp only [Option.bind_some]
    split
    · split
      · rename_i hunit
        simp [hunit]
      · rename_i hunit
        simp [capBy, not_le.mp hunit]
    · simp [capBy]

/-- The three caps in turn leave all of the quantity or, for IOC, some. -/
theorem sizeOrder_cut (h : sizeOrder c cash held o = .ok qty) :
    CutTo o.tif o.quantity qty ∧ Sizes c cash held o := by
  simp only [sizeOrder, bind_ok, capCash_ok_iff, capNotional_ok_iff, capHeld_eq] at h
  obtain ⟨q₁, ⟨hdivides, h₁⟩, q₂, ⟨hunit, h₂⟩, h₃⟩ := h
  obtain ⟨hcut₁, hcash⟩ := capBy_cut h₁
  obtain ⟨hcut₂, hnotional⟩ := capBy_cut h₂
  obtain ⟨hcut₃, hheld⟩ := capBy_cut h₃
  have hcut := hcut₁.trans hcut₂
  refine ⟨hcut.trans hcut₃, hdivides, hcash, fun l hl => ?_, fun l hl => ?_⟩
  · exact ⟨hunit l hl, hcut₁.admits_iff.mp (hnotional l hl)⟩
  · exact hcut.admits_iff.mp (hheld l hl)

theorem sizeOrder_ok_iff : (∃ qty, sizeOrder c cash held o = .ok qty) ↔ Sizes c cash held o := by
  refine ⟨fun ⟨qty, h⟩ => (sizeOrder_cut h).2, fun h => ?_⟩
  simp only [sizeOrder, bind_ok, capCash_ok_iff, capNotional_ok_iff, capHeld_eq]
  obtain ⟨q₁, h₁⟩ := capBy_admits "FOK insufficient cash" "Insufficient cash" h.cash
  have hcut₁ := (capBy_cut h₁).1
  obtain ⟨q₂, h₂⟩ := capBy_admits "FOK exceeds max position notional"
    "Exceeds max position notional" fun l hl => hcut₁.admits_iff.mpr (h.notional l hl).2
  have hcut₂ := hcut₁.trans (capBy_cut h₂).1
  obtain ⟨q₃, h₃⟩ := capBy_admits "FOK exceeds position size" "No position to sell"
    fun l hl => hcut₂.admits_iff.mpr (h.held l hl)
  exact ⟨q₃, q₁, ⟨h.divides, h₁⟩, q₂, ⟨fun l hl => (h.notional l hl).1, h₂⟩, h₃⟩

theorem capQuantity_ne_raises (e : Exc) :
    capQuantity tif qty limit fok other ≠ .error (.raises e) := by
  unfold capQuantity
  split
  · simp
  split
  · split <;> simp
  · simp

theorem capBy_ne_raises (e : Exc) : capBy limit tif qty fok other ≠ .error (.raises e) := by
  cases limit with
  | none => simp [capBy]
  | some limit => exact capQuantity_ne_raises e

theorem capNotional_ne_raises (e : Exc) : capNotional c o qty ≠ .error (.raises e) := by
  unfold capNotional
  split
  · simp
  split
  · split
    · simp
    · exact capQuantity_ne_raises e
  · simp

theorem bind_error {x : Except ε α} {f : α → Except ε β} :
    x >>= f = .error e ↔ x = .error e ∨ ∃ a, x = .ok a ∧ f a = .error e := by
  cases x <;> simp [bind, Except.bind]

/-- The sizing raises exactly where the cash cannot be divided. -/
theorem sizeOrder_raises_iff : (∃ e, sizeOrder c cash held o = .error (.raises e)) ↔
    ¬Divides c cash o := by
  refine ⟨fun ⟨e, h⟩ hdivides => ?_, fun h => ⟨divisionImpossible, ?_⟩⟩
  · simp only [sizeOrder, bind_error, capCash_eq hdivides, capHeld_eq] at h
    obtain hcash | ⟨_, -, hnotional | ⟨_, -, hheld⟩⟩ := h
    · exact capBy_ne_raises e hcash
    · exact capNotional_ne_raises e hnotional
    · exact capBy_ne_raises e hheld
  · rw [sizeOrder, capCash_raises h]
    rfl

-- ---------------------------------------------------------------------------
-- Routing by conditions
-- ---------------------------------------------------------------------------

def namedPrice (s : TradingSignal) (name : String) : Option Decimal :=
  (s.md.find name).bind Value.toDecimal

def crossing (v : ValidatedSignal) : Except Exc Bool :=
  isCrossing v.originalSignal.signalType (basePrice v)
    (limitPrice (orderType v.originalSignal.md) v.originalSignal.md (basePrice v))

def IsStop (v : ValidatedSignal) : Prop :=
  orderType v.originalSignal.md = "stop" ∨ orderType v.originalSignal.md = "stop_limit"

def StopReached (v : ValidatedSignal) : Prop :=
  ∃ stop, namedPrice v.originalSignal "stop_price" = some (.num stop) ∧
    stopTriggered v.originalSignal.signalType (.fin (basePrice v)) stop

/-- A price that has to be compared is NaN. -/
def Incomparable (v : ValidatedSignal) : Prop :=
  IsStop v ∧ namedPrice v.originalSignal "stop_price" = some .nan ∨
    (orderType v.originalSignal.md = "limit" ∨
      orderType v.originalSignal.md = "stop_limit" ∧ StopReached v) ∧
    namedPrice v.originalSignal "limit_price" = some .nan

/-- The order is to be filled in full: its stop is triggered, if it has one,
and the price crosses its limit, if it has one. -/
structure FillsNow (v : ValidatedSignal) : Prop where
  stop : IsStop v → StopReached v
  limit : orderType v.originalSignal.md = "limit" ∨ orderType v.originalSignal.md = "stop_limit" →
    crossing v = .ok true

/-- A limit order that the price does not cross, and that may rest. -/
structure LeftOpen (v : ValidatedSignal) : Prop where
  limit : orderType v.originalSignal.md = "limit"
  crossing : crossing v = .ok false
  tif : timeInForce v.originalSignal.md ≠ "FOK" ∧ timeInForce v.originalSignal.md ≠ "IOC"

def orderOf (c : PaperTradingSettings) (v : ValidatedSignal) (ty : String) (qty : ℤ) : Order :=
  ⟨v, ty, timeInForce v.originalSignal.md, qty, slipped c v.originalSignal.signalType (basePrice v)⟩

theorem Order.Routed.eq {o : Order} (h : o.Routed c v) : o = orderOf c v o.orderType o.quantity := by
  obtain ⟨validated, ty, tif, quantity, fillPrice⟩ := o
  obtain ⟨hvalidated, htif, hprice, -⟩ := h
  simp only at hvalidated htif hprice
  rw [orderOf, hvalidated, htif, hprice]

theorem crossing_error_iff : (∃ e, crossing v = .error e) ↔
    namedPrice v.originalSignal "limit_price" = some .nan := by
  unfold crossing limitPrice namedPrice
  rcases (v.originalSignal.md.find "limit_price").bind Value.toDecimal with _ | (limit | _)
  · simp only
    split <;> simp [isCrossing, Decimal.ofRat]
  · simp [isCrossing]
  · simp [isCrossing]

theorem routePlain_full (hq : 1 ≤ v.validatedQuantity) (h : ty = "limit" → cross = true) :
    routePlain c rng v ty cross = .fillable (orderOf c v ty v.validatedQuantity) := by
  have hfill : fillableQuantity ty cross v.validatedQuantity = v.validatedQuantity :=
    if_neg fun hopen => by simp [h hopen.1] at hopen
  simp only [routePlain, fillQuantity_eq]
  rw [hfill, if_neg fun h => h.2.false, if_neg fun h => by omega]
  rfl

theorem routePlain_open
    (h : timeInForce v.originalSignal.md ≠ "FOK" ∧ timeInForce v.originalSignal.md ≠ "IOC") :
    routePlain c rng v "limit" false = .fillable (orderOf c v "limit" 0) := by
  simp only [routePlain, fillQuantity_eq]
  rw [if_neg fun hf => h.1 hf.1, if_neg fun hi => h.2 hi.1]
  rfl

theorem routePlain_refused (c : PaperTradingSettings) (rng : Rng) (hq : 1 ≤ v.validatedQuantity)
    (h : ¬(timeInForce v.originalSignal.md ≠ "FOK" ∧ timeInForce v.originalSignal.md ≠ "IOC")) :
    ∃ reason, routePlain c rng v "limit" false = .failed reason := by
  have hfill : fillableQuantity "limit" false v.validatedQuantity = 0 := rfl
  simp only [routePlain, hfill]
  by_cases hfok : timeInForce v.originalSignal.md = "FOK"
  · exact ⟨_, if_pos ⟨hfok, by omega⟩⟩
  · rw [if_neg fun h => hfok h.1, if_pos ⟨by_contra fun hioc => h ⟨hfok, hioc⟩, le_rfl⟩]
    exact ⟨_, rfl⟩

/-- What routing comes to, by the conditions on the signal. -/
inductive RouteSpec (c : PaperTradingSettings) (v : ValidatedSignal) : Except Exc Routed → Prop
  | incomparable (h : Incomparable v) (e : Exc) : RouteSpec c v (.error e)
  | full (h : FillsNow v) (ty : String) :
      RouteSpec c v (.ok (.fillable (orderOf c v ty v.validatedQuantity)))
  | leftOpen (h : LeftOpen v) : RouteSpec c v (.ok (.fillable (orderOf c v "limit" 0)))
  | other (h : ¬Incomparable v ∧ ¬FillsNow v ∧ ¬LeftOpen v) (r : Routed)
      (hr : ∀ o, r ≠ .fillable o) : RouteSpec c v (.ok r)

theorem crossing_nan (h : namedPrice v.originalSignal "limit_price" = some .nan) (b : Bool) :
    crossing v ≠ .ok b := by
  obtain ⟨e, he⟩ := crossing_error_iff.mpr h
  rw [he]
  intro h
  cases h

theorem Incomparable.not_fillsNow (h : Incomparable v) : ¬FillsNow v := by
  intro hnow
  obtain ⟨hstop, hnan⟩ | ⟨hlimit, hnan⟩ := h
  · obtain ⟨stop, hnum, -⟩ := hnow.stop hstop
    rw [hnan] at hnum
    cases hnum
  · exact crossing_nan hnan _ (hnow.limit (hlimit.imp_right And.left))

theorem LeftOpen.not_stop (h : LeftOpen v) : ¬IsStop v := by
  intro hstop
  rw [IsStop, h.limit] at hstop
  revert hstop
  decide

theorem LeftOpen.comparable (h : LeftOpen v) : ¬Incomparable v := by
  rintro (⟨hstop, -⟩ | ⟨-, hnan⟩)
  · exact h.not_stop hstop
  · exact crossing_nan hnan _ h.crossing

theorem LeftOpen.not_fillsNow (h : LeftOpen v) : ¬FillsNow v := by
  intro hnow
  have hcrossing := hnow.limit (.inl h.limit)
  rw [h.crossing] at hcrossing
  cases hcrossing

theorem routeStop_spec (c : PaperTradingSettings) (hstop : IsStop v) :
    RouteSpec c v (routeStop c v (orderType v.originalSignal.md)) := by
  have hopen : ¬LeftOpen v := fun h => h.not_stop hstop
  have hne : orderType v.originalSignal.md ≠ "limit" := by
    rcases hstop with h | h <;> rw [h] <;> decide
  -- Where the stop price is not reached the order is not filled, and no limit is looked at.
  have hother : ∀ r : Routed, (∀ o, r ≠ .fillable o) → ¬StopReached v →
      namedPrice v.originalSignal "stop_price" ≠ some .nan → RouteSpec c v (.ok r) := by
    intro r hr hreached hnan
    refine .other ⟨?_, fun h => hreached (h.stop hstop), hopen⟩ r hr
    rintro (⟨-, h⟩ | ⟨h | ⟨-, h⟩, -⟩)
    · exact hnan h
    · exact hne h
    · exact hreached h
  simp only [routeStop]
  rcases hnamed : (v.originalSignal.md.find "stop_price").bind Value.toDecimal with _ | (stop | _)
  · refine hother _ (by simp) ?_ (by simp [namedPrice, hnamed])
    rintro ⟨stop, h, -⟩
    simp [namedPrice, hnamed] at h
  · by_cases htrigger : stopTriggered v.originalSignal.signalType (.fin (basePrice v)) stop
    swap
    · have hreached : ¬StopReached v := by
        rintro ⟨stop', h, h'⟩
        obtain rfl : stop = stop' := by simpa [namedPrice, hnamed] using h
        exact htrigger h'
      have hnan : namedPrice v.originalSignal "stop_price" ≠ some .nan := by simp [namedPrice, hnamed]
      simp only [htrigger, Bool.not_false, if_true]
      split
      · exact hother _ (by simp) hreached hnan
      · exact hother _ (by simp) hreached hnan
    have hreached : StopReached v := ⟨stop, hnamed, htrigger⟩
    simp only [htrigger, Bool.not_true, Bool.false_eq_true, if_false]
    by_cases htype : orderType v.originalSignal.md = "stop"
    · rw [if_pos htype]
      refine .full ⟨fun _ => hreached, ?_⟩ "market"
      rintro (h | h)
      · exact absurd h hne
      · exact absurd (htype.symm.trans h) (by decide)
    · have hlimit : orderType v.originalSignal.md = "stop_limit" := hstop.resolve_left htype
      rw [if_neg htype]
      change RouteSpec c v ((crossing v).map _)
      rcases hcross : crossing v with e | (_ | _)
      · exact .incomparable (.inr ⟨.inr ⟨hlimit, hreached⟩, crossing_error_iff.mp ⟨e, hcross⟩⟩) e
      · refine .other ⟨?_, fun h => ?_, hopen⟩ _ (by simp)
        · rintro (⟨-, h⟩ | ⟨-, h⟩)
          · simp [namedPrice, hnamed] at h
          · exact crossing_nan h _ hcross
        · have := h.limit (.inr hlimit)
          rw [hcross] at this
          cases this
      · exact .full ⟨fun _ => hreached, fun _ => hcross⟩ "limit"
  · exact .incomparable (.inl ⟨hstop, hnamed⟩) _

theorem route_spec (c : PaperTradingSettings) (rng : Rng) (hq : 1 ≤ v.validatedQuantity)
    (hguard : guardrails c v.originalSignal (basePrice v) = none) :
    RouteSpec c v (route c rng v) := by
  simp only [route, hguard]
  split
  · rename_i hstop
    exact routeStop_spec c hstop
  rename_i hstop
  by_cases hlimit : orderType v.originalSignal.md = "limit"
  · rw [if_pos hlimit]
    change RouteSpec c v ((crossing v).map _)
    rcases hcross : crossing v with e | (_ | _)
    · exact .incomparable (.inr ⟨.inl hlimit, crossing_error_iff.mp ⟨e, hcross⟩⟩) e
    · rw [hlimit]
      by_cases htif : timeInForce v.originalSignal.md ≠ "FOK" ∧ timeInForce v.originalSignal.md ≠ "IOC"
      · change RouteSpec c v (.ok (routePlain c rng v "limit" false))
        rw [routePlain_open htif]
        exact .leftOpen ⟨hlimit, hcross, htif⟩
      · obtain ⟨reason, hreason⟩ := routePlain_refused c rng hq htif
        change RouteSpec c v (.ok (routePlain c rng v "limit" false))
        rw [hreason]
        refine .other ⟨?_, fun h => ?_, fun h => htif h.tif⟩ _ (by simp)
        · rintro (⟨h, -⟩ | ⟨-, h⟩)
          · exact hstop h
          · exact crossing_nan h _ hcross
        · have := h.limit (.inl hlimit)
          rw [hcross] at this
          cases this
    · change RouteSpec c v (.ok (routePlain c rng v _ true))
      rw [routePlain_full hq fun _ => rfl]
      exact .full ⟨fun h => absurd h hstop, fun _ => hcross⟩ _
  · rw [if_neg hlimit, routePlain_full hq fun _ => rfl]
    refine .full ⟨fun h => absurd h hstop, ?_⟩ _
    rintro (h | h)
    · exact absurd h hlimit
    · exact absurd (.inr h) hstop

end AlphaPanda.Paper
