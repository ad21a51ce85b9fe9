import AlphaPanda.Strategies.Rules
import Mathlib.Algebra.Order.BigOperators.Group.List
import Mathlib.Tactic.FieldSimp
import Mathlib.Tactic.Linarith
import Mathlib.Tactic.Ring

/-!
# The relative strength index

The RSI of a list of price changes, by what they gain and lose together, and
`_calculate_rsi` as the RSI of the last changes of its prices. Negating every
change mirrors the index, except where nothing changes: a list without losses
has the index 100, and so has a flat one.
-/

namespace AlphaPanda.Strategies

-- ---------------------------------------------------------------------------
-- The index of a list of changes
-- ---------------------------------------------------------------------------

def gain (c : ℚ) : ℚ := if 0 < c then c else 0

def loss (c : ℚ) : ℚ := if 0 < c then 0 else |c|

def gainSum (cs : List ℚ) : ℚ := (cs.map gain).sum

def lossSum (cs : List ℚ) : ℚ := (cs.map loss).sum

def rsiOf (cs : List ℚ) : ℚ :=
  if lossSum cs = 0 then 100 else 100 - 100 / (1 + gainSum cs / lossSum cs)

theorem gain_nonneg (c : ℚ) : 0 ≤ gain c := by
  unfold gain
  split
  · rename_i h
    exact h.le
  · exact le_rfl

theorem loss_nonneg (c : ℚ) : 0 ≤ loss c := by
  unfold loss
  split
  · exact le_rfl
  · exact abs_nonneg c

theorem gain_eq_zero : gain c = 0 ↔ c ≤ 0 := by
  unfold gain
  split
  · rename_i h
    exact iff_of_false h.ne' h.not_ge
  · rename_i h
    exact iff_of_true rfl (not_lt.mp h)

theorem loss_eq_zero : loss c = 0 ↔ 0 ≤ c := by
  unfold loss
  split
  · rename_i h
    exact iff_of_true rfl h.le
  · rename_i h
    rw [abs_eq_zero]
    exact ⟨fun hc => hc.ge, fun hc => le_antisymm (not_lt.mp h) hc⟩

theorem gain_neg (c : ℚ) : gain (-c) = loss c := by
  unfold gain loss
  rcases lt_trichotomy c 0 with h | rfl | h
  · rw [if_pos (neg_pos.mpr h), if_neg h.not_gt, abs_of_neg h]
  · simp
  · rw [if_neg (by linarith), if_pos h]

theorem loss_neg (c : ℚ) : loss (-c) = gain c := by
  rw [← gain_neg, neg_neg]

theorem sum_eq_zero {f : ℚ → ℚ} (hf : ∀ c, 0 ≤ f c) (cs : List ℚ) :
    (cs.map f).sum = 0 ↔ ∀ c ∈ cs, f c = 0 := by
  induction cs with
  | nil => simp
  | cons c cs ih =>
    have hrest : 0 ≤ (cs.map f).sum := List.sum_nonneg (by simpa using fun a _ => hf a)
    rw [List.map_cons, List.sum_cons, add_eq_zero_iff_of_nonneg (hf c) hrest, ih,
      List.forall_mem_cons]

theorem gainSum_nonneg (cs : List ℚ) : 0 ≤ gainSum cs :=
  List.sum_nonneg (by simpa using fun a _ => gain_nonneg a)

theorem lossSum_nonneg (cs : List ℚ) : 0 ≤ lossSum cs :=
  List.sum_nonneg (by simpa using fun a _ => loss_nonneg a)

theorem gainSum_eq_zero : gainSum cs = 0 ↔ ∀ c ∈ cs, c ≤ 0 := by
  simp only [gainSum, sum_eq_zero gain_nonneg, gain_eq_zero]

theorem lossSum_eq_zero : lossSum cs = 0 ↔ ∀ c ∈ cs, 0 ≤ c := by
  simp only [lossSum, sum_eq_zero loss_nonneg, loss_eq_zero]

theorem gainSum_neg (cs : List ℚ) : gainSum (cs.map Neg.neg) = lossSum cs := by
  simp only [gainSum, lossSum, List.map_map, Function.comp_def, gain_neg]

theorem lossSum_neg (cs : List ℚ) : lossSum (cs.map Neg.neg) = gainSum cs := by
  simp only [gainSum, lossSum, List.map_map, Function.comp_def, loss_neg]

theorem rsiOf_eq (h : lossSum cs ≠ 0) : rsiOf cs = 100 * gainSum cs / (gainSum cs + lossSum cs) := by
  have hloss : 0 < lossSum cs := lt_of_le_of_ne (lossSum_nonneg cs) h.symm
  have hgain := gainSum_nonneg cs
  have htotal : gainSum cs + lossSum cs ≠ 0 := by linarith
  have hone : 1 + gainSum cs / lossSum cs = (gainSum cs + lossSum cs) / lossSum cs := by
    field_simp
    ring
  rw [rsiOf, if_neg h, hone]
  field_simp
  ring

theorem rsiOf_bounds (cs : List ℚ) : 0 ≤ rsiOf cs ∧ rsiOf cs ≤ 100 := by
  by_cases h : lossSum cs = 0
  · rw [rsiOf, if_pos h]
    norm_num
  · have hloss : 0 < lossSum cs := lt_of_le_of_ne (lossSum_nonneg cs) (Ne.symm h)
    have hgain := gainSum_nonneg cs
    have htotal : 0 < gainSum cs + lossSum cs := by linarith
    rw [rsiOf_eq h]
    refine ⟨by positivity, ?_⟩
    rw [div_le_iff₀ htotal]
    linarith

theorem rsiOf_flat (h : ∀ c ∈ cs, c = 0) : rsiOf cs = 100 :=
  if_pos (lossSum_eq_zero.mpr fun c hc => (h c hc).ge)

theorem rsiOf_neg (h : ∃ c ∈ cs, c ≠ 0) : rsiOf (cs.map Neg.neg) = 100 - rsiOf cs := by
  have hgain := gainSum_nonneg cs
  have hloss := lossSum_nonneg cs
  by_cases hgains : gainSum cs = 0
  · have hlosses : lossSum cs ≠ 0 := by
      intro hzero
      obtain ⟨c, hc, hne⟩ := h
      exact hne (le_antisymm (gainSum_eq_zero.mp hgains c hc) (lossSum_eq_zero.mp hzero c hc))
    rw [rsiOf_eq hlosses, hgains, rsiOf, lossSum_neg, if_pos hgains]
    ring
  · have hmirror : lossSum (cs.map Neg.neg) ≠ 0 := by rwa [lossSum_neg]
    rw [rsiOf_eq hmirror, gainSum_neg, lossSum_neg]
    by_cases hlosses : lossSum cs = 0
    · rw [rsiOf, if_pos hlosses, hlosses]
      ring
    · have htotal : gainSum cs + lossSum cs ≠ 0 := by
        have : 0 < gainSum cs := lt_of_le_of_ne hgain (Ne.symm hgains)
        linarith
      rw [rsiOf_eq hlosses, add_comm (lossSum cs)]
      field_simp
      ring

-- ---------------------------------------------------------------------------
-- `_calculate_rsi`
-- ---------------------------------------------------------------------------

theorem lastItems_map (f : α → β) (n : ℕ) (xs : List α) :
    lastItems n (xs.map f) = (lastItems n xs).map f := by
  unfold lastItems
  split
  · rfl
  · simp [List.rtake]

theorem lastItems_ne_nil (hxs : xs ≠ []) (n : ℕ) : lastItems n xs ≠ [] := by
  unfold lastItems
  split
  · exact hxs
  · rename_i hn
    have hlength := List.length_pos_of_ne_nil hxs
    rw [← List.length_pos_iff_ne_nil, List.rtake, List.length_drop]
    omega

theorem changes_length (prices : List ℚ) : (changes prices).length = prices.length - 1 := by
  simp [changes]

theorem mean_map {f : ℚ → ℚ} (h : xs ≠ []) : mean (xs.map f) = some ((xs.map f).sum / xs.length) := by
  rw [mean, if_neg (by simpa using h), List.length_map]

/-- With enough prices, it is the RSI of their last changes. -/
theorem calculateRsi_eq (period : ℕ) (priceData : List MarketTick) (hlength : 2 ≤ priceData.length) :
    calculateRsi period priceData =
      if priceData.length - 1 < period then .ok none
      else .ok (some (rsiOf (lastItems period (changes (priceData.map (·.lastPrice)))))) := by
  have hchanges := changes_length (priceData.map (·.lastPrice))
  rw [List.length_map] at hchanges
  unfold calculateRsi
  rw [if_neg (by omega)]
  generalize changes (priceData.map (·.lastPrice)) = cs at hchanges ⊢
  simp only [List.length_map, hchanges]
  split
  · rfl
  have hcs : cs ≠ [] := List.ne_nil_of_length_pos (by omega)
  have hwindow := lastItems_ne_nil hcs period
  rw [lastItems_map, lastItems_map, mean_map hwindow, mean_map hwindow]
  generalize lastItems period cs = window at hwindow
  have hcount : (window.length : ℚ) ≠ 0 := by
    simpa using hwindow
  have hzero : (window.map loss).sum / (window.length : ℚ) = 0 ↔ lossSum window = 0 := by
    rw [div_eq_zero_iff, or_iff_left hcount, lossSum]
  have hratio : (window.map gain).sum / (window.length : ℚ) / ((window.map loss).sum / window.length) =
      gainSum window / lossSum window := by
    rw [div_div_div_cancel_right₀ hcount, gainSum, lossSum]
  have hpos : 1 + gainSum window / lossSum window ≠ 0 := by
    have := div_nonneg (gainSum_nonneg window) (lossSum_nonneg window)
    linarith
  change (if (window.map loss).sum / (window.length : ℚ) = 0 then _ else (divide 100 (1 +
    (window.map gain).sum / (window.length : ℚ) / ((window.map loss).sum / window.length))).map _) = _
  rw [hratio]
  unfold rsiOf divide
  by_cases h : lossSum window = 0
  · rw [if_pos (hzero.mpr h), if_pos h]
  · rw [if_neg (mt hzero.mp h), if_neg hpos, if_neg h]
    rfl

def mirror (priceData : List MarketTick) : List MarketTick :=
  priceData.map fun d =>
    { d with lastPrice := 2 * (priceData.head?.elim 0 (·.lastPrice)) - d.lastPrice }

theorem changes_mirror (q : ℚ) (prices : List ℚ) :
    changes (prices.map fun p => q - p) = (changes prices).map Neg.neg := by
  unfold changes
  rw [← List.map_tail, List.zipWith_map, List.map_zipWith]
  congr 1
  funext before now
  ring

theorem mirror_prices (priceData : List MarketTick) :
    changes ((mirror priceData).map (·.lastPrice)) =
      (changes (priceData.map (·.lastPrice))).map Neg.neg := by
  rw [← changes_mirror, mirror, List.map_map, List.map_map]
  rfl

def Flat (period : ℕ) (priceData : List MarketTick) : Prop :=
  ∀ c ∈ lastItems period (changes (priceData.map (·.lastPrice))), c = 0

instance (period : ℕ) (priceData : List MarketTick) : Decidable (Flat period priceData) :=
  inferInstanceAs (Decidable (∀ c ∈ _, c = 0))

/-- The index lies between 0 and 100, and mirroring the prices mirrors it,
except that a flat window has the index 100 and so has its mirror image. -/
theorem rsi_mirrored (period : ℕ) (priceData : List MarketTick)
    (henough : period + 1 ≤ priceData.length) (hlength : 2 ≤ priceData.length) :
    ∃ v, calculateRsi period priceData = .ok (some v) ∧ 0 ≤ v ∧ v ≤ 100 ∧
      calculateRsi period (mirror priceData) =
        .ok (some (if Flat period priceData then 100 else 100 - v)) ∧
      (Flat period priceData → v = 100) := by
  have hmirror : (mirror priceData).length = priceData.length := List.length_map _
  obtain ⟨hlow, hhigh⟩ := rsiOf_bounds (lastItems period (changes (priceData.map (·.lastPrice))))
  refine ⟨_, ?_, hlow, hhigh, ?_, rsiOf_flat⟩
  · rw [calculateRsi_eq period priceData hlength, if_neg (by omega)]
  · rw [calculateRsi_eq period _ (hmirror.symm ▸ hlength), hmirror, if_neg (by omega), mirror_prices,
      lastItems_map]
    congr 2
    split
    · rename_i hflat
      refine rsiOf_flat fun c hc => ?_
      obtain ⟨c', hc', rfl⟩ := List.mem_map.mp hc
      rw [hflat c' hc', neg_zero]
    · rename_i hmoves
      refine rsiOf_neg ?_
      unfold Flat at hmoves
      push Not at hmoves
      exact hmoves

def pricesAt (prices : List ℚ) : List MarketTick :=
  prices.map fun p => ⟨1, p, ⟨"2026-01-05", "09:30:00"⟩⟩

theorem rise_mirrored : ∃ v, calculateRsi 1 (pricesAt [10, 11]) = .ok (some v) ∧ 0 ≤ v ∧ v ≤ 100 ∧
    calculateRsi 1 (mirror (pricesAt [10, 11])) = .ok (some (100 - v)) := by
  obtain ⟨v, hv, hlow, hhigh, hmirror, -⟩ :=
    rsi_mirrored 1 (pricesAt [10, 11]) (by decide) (by decide)
  rw [if_neg (by decide +kernel)] at hmirror
  exact ⟨v, hv, hlow, hhigh, hmirror⟩

/-- Two equal prices are overbought, and so is their mirror image. -/
theorem flat_overbought : calculateRsi 1 (pricesAt [10, 10]) = .ok (some 100) ∧
    calculateRsi 1 (mirror (pricesAt [10, 10])) ≠ .ok (some (100 - 100)) := by
  decide +kernel

end AlphaPanda.Strategies
