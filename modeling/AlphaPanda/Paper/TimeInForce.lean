import AlphaPanda.Paper.Outcomes

/-!
# Time in force

What the fills of an order add up to, and how many there are, whatever the
cash, the cap and the holdings leave of it and however it is split.
-/

namespace AlphaPanda.Paper

open Coroutine

theorem drawParts_length (rng : Rng) (remaining : ℤ) (n : ℕ) :
    (drawParts rng remaining n).length = n + 1 := by
  induction n generalizing remaining with
  | zero => rfl
  | succ n ih => rw [drawParts, List.length_cons, ih]

theorem splitParts_length (c : PaperTradingSettings) (rng : Rng) (qty : ℤ) :
    ((splitParts c rng qty).length : ℤ) ≤ max 1 c.maxPartials := by
  unfold splitParts
  split
  · rename_i hsplit
    obtain ⟨hlo, hhi⟩ := rng.randint_mem (n := 0) (a := 2) (b := min (maxParts c) qty) (by omega)
    have hmax : maxParts c = c.maxPartials := by
      refine if_neg fun hzero => ?_
      have := hsplit.2.1
      rw [maxParts, if_pos hzero] at this
      exact this.false
    rw [drawParts_length]
    omega
  · exact le_max_left _ _

def totalQuantity (fs : List OrderFilled) : ℤ := (fs.map (·.quantity)).sum

/-- What may be filled of `q` units: all or none of them, or for IOC some, in
parts that are not empty and not too many. -/
structure ObeysTimeInForce (tif : String) (q maxPartials : ℤ) (fs : List OrderFilled) : Prop where
  allOrNone : tif ≠ "IOC" → totalQuantity fs = 0 ∨ totalQuantity fs = q
  bounds : 0 ≤ totalQuantity fs ∧ totalQuantity fs ≤ q
  parts : 1 ≤ totalQuantity fs →
    (∀ f ∈ fs, 1 ≤ f.quantity) ∧ (fs.length : ℤ) ≤ max 1 maxPartials

theorem obeysTimeInForce_nil (hq : 0 ≤ q) : ObeysTimeInForce tif q maxPartials [] :=
  ⟨fun _ => .inl rfl, ⟨le_rfl, hq⟩, fun h => absurd h (by decide)⟩

theorem totalQuantity_filled (c : PaperTradingSettings) (o : Order) (orderId : OrderId)
    (parts : List ℤ) : totalQuantity (parts.map (orderFilled c o orderId)) = parts.sum := by
  rw [totalQuantity, List.map_map]
  exact congrArg List.sum (List.map_id parts)

theorem partsOf_obeys (svc : Service) (o : Order) (orderId : OrderId)
    (hcut : CutTo o.tif o.quantity qty) (hquantity : o.quantity = q ∨ o.quantity = 0) (hq : 1 ≤ q) :
    ObeysTimeInForce o.tif q svc.settings.maxPartials
      ((partsOf svc o qty).map (orderFilled svc.settings o orderId)) := by
  have htotal : totalQuantity ((partsOf svc o qty).map (orderFilled svc.settings o orderId)) = qty :=
    (totalQuantity_filled ..).trans (partsOf_spec svc o qty).1
  refine ⟨fun htif => ?_, ?_, fun hpos => ⟨fun f hf => ?_, ?_⟩⟩
  · rw [htotal]
    obtain rfl | ⟨hioc, -⟩ := hcut
    · exact hquantity.symm
    · exact absurd hioc htif
  · rw [htotal]
    obtain rfl | ⟨-, hpos, hlt⟩ := hcut <;> omega
  · rw [htotal] at hpos
    obtain ⟨p, hp, rfl⟩ := List.mem_map.mp hf
    exact (partsOf_pos_iff svc o qty).mpr hpos p hp
  · rw [List.length_map]
    exact splitParts_length ..

/-- The fills of a signal obey its time in force, whatever is drawn and
whatever the account holds: an order that is not IOC, FOK and DAY among them,
is filled in full or not at all.

Premise: the signal is validated for its own quantity, and its events are
sent. It may have been seen before, and may be a stop order. -/
theorem fills_obey_time_in_force (hq : FullQuantity v) (hpos : 1 ≤ v.originalSignal.quantity)
    (hsent : AllSent (attempt svc v as s).world.log) :
    ObeysTimeInForce (timeInForce v.originalSignal.md) v.originalSignal.quantity
      svc.settings.maxPartials (fills (attempt svc v as s).world.log) := by
  by_cases hseen : idemKey v ∈ s.seen.keys
  · rw [attempt_seen hseen]
    exact obeysTimeInForce_nil (le_trans (by decide) hpos)
  have hends := attempt_ends hseen hsent
  by_cases hfills : (ending svc v s.portfolio).Fills
  · obtain ⟨o, qty, hending⟩ := hfills
    obtain ⟨hroute, hsized⟩ := ending_fills hending
    have hrouted := (route_fillable hroute).1
    rw [hending] at hends
    obtain ⟨orderId, hfilled, -⟩ := hends.fills_filled
    rw [hfilled, ← hrouted.tif]
    exact partsOf_obeys svc o orderId (sizeOrder_cut hsized).1 (hq ▸ hrouted.quantity) hpos
  · rw [hends.fills_nil hfills]
    exact obeysTimeInForce_nil (le_trans (by decide) hpos)

def iocBuy : ValidatedSignal :=
  signalOf .buy 3 400000 "09:30:00" (Dict.empty.set "tif" (.str "ioc"))

theorem iocBuy_obeys : ObeysTimeInForce "IOC" 3 Service.plain.settings.maxPartials
    (fills (attempt .plain iocBuy [] .init).world.log) := by
  have hquantity : FullQuantity iocBuy := rfl
  have htif : timeInForce iocBuy.originalSignal.md = "IOC" := by decide +kernel
  have hobeys : ObeysTimeInForce (timeInForce iocBuy.originalSignal.md) 3
      Service.plain.settings.maxPartials (fills (attempt .plain iocBuy [] .init).world.log) :=
    fills_obey_time_in_force hquantity (by decide) (by decide +kernel)
  rw [htif] at hobeys
  exact hobeys

end AlphaPanda.Paper
