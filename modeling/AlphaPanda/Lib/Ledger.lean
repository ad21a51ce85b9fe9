import Mathlib.Algebra.BigOperators.Group.List.Basic
import Mathlib.Algebra.Order.Field.Basic
import Mathlib.Logic.Function.Basic
import Mathlib.Tactic.FieldSimp
import Mathlib.Tactic.Ring

/-!
# Trading ledgers

What a list of trades does to cash and holdings, and how a holding is valued
at its average cost.
-/

-- ---------------------------------------------------------------------------
-- Cash and holdings
-- ---------------------------------------------------------------------------

/-- Account `α` buys or sells `qty` of instrument `ι`. -/
structure Trade (α ι K : Type) where
  account : α
  instrument : ι
  buys : Bool
  qty : ℤ
  price : K
  fees : K

@[ext] structure Ledger (α ι K : Type) where
  cash : α → K
  held : α × ι → ℤ

namespace Ledger

variable [DecidableEq α] [DecidableEq ι] [CommRing K]

/-- A purchase adds the quantity and costs its notional; a sale the reverse.
Fees are paid in both. -/
def post (l : Ledger α ι K) (t : Trade α ι K) : Ledger α ι K :=
  let sign : ℤ := if t.buys then 1 else -1
  { cash := Function.update l.cash t.account
      (l.cash t.account - sign * (t.price * t.qty) - t.fees)
    held := Function.update l.held (t.account, t.instrument)
      (l.held (t.account, t.instrument) + sign * t.qty) }

theorem post_cash_self (l : Ledger α ι K) (t : Trade α ι K) : (l.post t).cash t.account =
    l.cash t.account - (if t.buys then 1 else -1 : ℤ) * (t.price * t.qty) - t.fees :=
  Function.update_self ..

theorem post_cash_of_ne (l : Ledger α ι K) (t : Trade α ι K) (h : a ≠ t.account) :
    (l.post t).cash a = l.cash a := Function.update_of_ne h ..

theorem post_held_self (l : Ledger α ι K) (t : Trade α ι K) :
    (l.post t).held (t.account, t.instrument) =
      l.held (t.account, t.instrument) + (if t.buys then 1 else -1) * t.qty :=
  Function.update_self ..

theorem post_held_of_ne (l : Ledger α ι K) (t : Trade α ι K)
    (h : k ≠ (t.account, t.instrument)) : (l.post t).held k = l.held k :=
  Function.update_of_ne h ..

def postAll (l : Ledger α ι K) (ts : List (Trade α ι K)) : Ledger α ι K :=
  ts.foldl post l

@[simp] theorem postAll_nil (l : Ledger α ι K) : l.postAll [] = l := rfl

theorem postAll_concat (l : Ledger α ι K) (ts : List (Trade α ι K)) (t : Trade α ι K) :
    l.postAll (ts ++ [t]) = (l.postAll ts).post t := by
  simp [postAll]

end Ledger

structure Lot (K : Type) where
  qty : ℤ
  avg : K

namespace Lot

variable [Field K]

def cost (l : Lot K) : K := l.qty * l.avg

def buy (l : Lot K) (n : ℤ) (price : K) : Lot K :=
  ⟨l.qty + n, if 0 < l.qty + n then (l.avg * l.qty + price * n) / ((l.qty + n : ℤ) : K) else 0⟩

def sell (l : Lot K) (n : ℤ) : Lot K :=
  if max 0 (l.qty - n) = 0 then ⟨0, 0⟩ else ⟨max 0 (l.qty - n), l.avg⟩

theorem cost_buy [CharZero K] (l : Lot K) (hq : 0 ≤ l.qty) (hn : 0 ≤ n) (price : K) :
    (l.buy n price).cost = l.cost + price * n := by
  unfold cost buy
  simp only
  split
  · rename_i hpos
    have hne : ((l.qty + n : ℤ) : K) ≠ 0 := Int.cast_ne_zero.mpr hpos.ne'
    rw [mul_div_cancel₀ _ hne]
    ring
  · obtain ⟨h0, h0'⟩ : l.qty = 0 ∧ n = 0 := by omega
    simp [h0, h0']

theorem cost_sell (l : Lot K) (hn : n ≤ l.qty) : (l.sell n).cost = l.cost - n * l.avg := by
  unfold cost sell
  split
  · have hall : l.qty = n := by omega
    simp [hall]
  · rw [max_eq_right (by omega)]
    push_cast
    ring

end Lot
