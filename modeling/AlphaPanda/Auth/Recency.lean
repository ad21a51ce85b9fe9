import AlphaPanda.Auth.AuthManager
import Mathlib.Order.Preorder.Chain

/-!
# The newest session

With a clock that never stands still, of two active rows the one that was
updated later does not expire earlier. So a load that looks for no user in
particular finds the row that was updated last among all active rows, or none.
-/

namespace AlphaPanda.Auth

open Asking SessionManager TradingSessions

def StrictClock (env : Environment) : Prop := ∀ ⦃m n : ℕ⦄, m < n → env.now m < env.now n

/-- Updated earlier, and expiring no later. -/
def Older (r r' : TradingSession) : Prop := r.updatedAt < r'.updatedAt ∧ r.endTime ≤ r'.endTime

def active (t : TradingSessions) : Set TradingSession := {r | r ∈ t.rows ∧ r.isActive}

structure Newest (t : TradingSessions) (row : TradingSession) : Prop where
  mem : row ∈ active t
  older : ∀ r ∈ active t, r ≠ row → Older r row

/-- The rows were updated in the past, expire within 24 hours, and the active ones
form a chain. -/
structure Ordered (env : Environment) (s : Asked SessionManager) : Prop where
  chain : IsChain Older (active s.state.table)
  past : ∀ r ∈ s.state.table.rows, ∀ n, s.asked ≤ n → r.updatedAt < env.now n
  bounded : ∀ r ∈ s.state.table.rows, ∀ n, s.asked ≤ n → r.endTime ≤ env.now n + AuthManager.validity

section
variable {env : Environment} {s s' : Asked SessionManager} {t t' : TradingSessions}
  {r row : TradingSession}

theorem Newest.unique (h : Newest t row) (h' : Newest t r) : r = row := by
  by_contra hne
  have hle := (h.older r h'.mem hne).1
  have hge := (h'.older row h.mem (Ne.symm hne)).1
  exact lt_asymm hle hge

theorem Ordered.unchanged (h : Ordered env s) (htable : s'.state.table = s.state.table)
    (hasked : s.asked ≤ s'.asked) : Ordered env s' := by
  refine ⟨?_, ?_, ?_⟩ <;> rw [htable]
  · exact h.chain
  · exact fun r hr n hn => h.past r hr n (hasked.trans hn)
  · exact fun r hr n hn => h.bounded r hr n (hasked.trans hn)

theorem ordered_fresh : Ordered env ⟨.fresh, 0⟩ where
  chain := fun _ hr => absurd hr.1 List.not_mem_nil
  past := fun _ hr => absurd hr List.not_mem_nil
  bounded := fun _ hr => absurd hr List.not_mem_nil

theorem newest_of_renewed (hrow : row ∈ active t')
    (hothers : ∀ r ∈ active t', r = row ∨ (r ∈ active t ∧ Older r row)) : Newest t' row := by
  refine ⟨hrow, fun r hr hne => ?_⟩
  exact ((hothers r hr).resolve_left hne).2

theorem chain_of_renewed (hchain : IsChain Older (active t))
    (hothers : ∀ r ∈ active t', r = row ∨ (r ∈ active t ∧ Older r row)) : IsChain Older (active t') := by
  intro r hr r' hr' hne
  rcases hothers r hr with rfl | ⟨hmem, hold⟩ <;> rcases hothers r' hr' with rfl | ⟨hmem', hold'⟩
  · exact absurd rfl hne
  · exact .inr hold'
  · exact .inl hold
  · exact hchain hmem hmem' hne

-- ---------------------------------------------------------------------------
-- Loading
-- ---------------------------------------------------------------------------

theorem rel_of_head? {α : Type} {R : α → α → Prop} {l : List α} {a b : α} (h : l.Pairwise R)
    (hhead : l.head? = some a) (hb : b ∈ l) : b = a ∨ R a b := by
  cases l with
  | nil => cases hb
  | cons c l =>
    cases hhead
    rcases List.mem_cons.mp hb with rfl | hb
    · exact .inl rfl
    · exact .inr (List.rel_of_pairwise_cons h hb)

theorem newest_of_picked (h : Ordered env s) (hpicked : Picked env s none none row method) :
    Newest s.state.table row := by
  obtain ⟨hmem, heligible⟩ := hpicked.mem
  obtain ⟨hactive, hunexpired, _⟩ := eligible_iff.mp heligible
  refine ⟨⟨hmem, hactive⟩, fun r hr hne => ?_⟩
  refine (h.chain hr ⟨hmem, hactive⟩ hne).resolve_right fun holder => ?_
  -- A row updated later would be unexpired too, and come first.
  have hfound : r ∈ env.order (s.asked + 2)
      (s.state.table.rows.filter (eligible (env.now s.asked) none)) := by
    refine (env.order_perm _ _).mem_iff.mpr (List.mem_filter.mpr ⟨hr.1, eligible_iff.mpr ⟨hr.2, ?_, ?_⟩⟩)
    · exact lt_of_lt_of_le hunexpired holder.2
    · intro u hu
      cases hu
  have hsorted := env.order_sorted (s.asked + 2)
    (s.state.table.rows.filter (eligible (env.now s.asked) none))
  rcases rel_of_head? hsorted hpicked.pick hfound with heq | hlatest
  · exact hne heq
  · exact absurd holder.1 (not_lt_of_ge hlatest)

theorem Ordered.update (h : Ordered env s) (hclock : StrictClock env) {k n' : ℕ} (hk : k < n')
    (hn' : s.asked ≤ n') (p : TradingSession → Bool) {f : Columns → Columns}
    (hf : ∀ c, (f c).endTime = c.endTime ∧ (f c).updatedAt = env.now k) :
    ∀ r ∈ (s.state.table.update p f).rows, ∀ n, n' ≤ n →
      r.updatedAt < env.now n ∧ r.endTime ≤ env.now n + AuthManager.validity := by
  intro r hr n hn
  obtain ⟨r', hr', rfl⟩ := (s.state.table.mem_update p f).mp hr
  have hpast := h.past r' hr' n (hn'.trans hn)
  have hbounded := h.bounded r' hr' n (hn'.trans hn)
  split
  · rw [TradingSession.set_toColumns, (hf _).1, (hf _).2]
    exact ⟨hclock (lt_of_lt_of_le hk hn), hbounded⟩
  · exact ⟨hpast, hbounded⟩

theorem touched_others (hnewest : Newest s.state.table row) (hpast : row.updatedAt < now)
    (f : Columns → Columns) (hf : ∀ c, f c = { c with updatedAt := now }) :
    ∀ r ∈ active (s.state.table.update (·.sessionId = row.sessionId) f),
      r = row.set f ∨ (r ∈ active s.state.table ∧ Older r (row.set f)) := by
  rintro r ⟨hr, hactive⟩
  obtain ⟨r', hr', rfl⟩ := (s.state.table.mem_update _ f).mp hr
  by_cases hid : r'.sessionId = row.sessionId
  · rw [if_pos (by simpa using hid), s.state.table.eq_of_sessionId hr' hnewest.mem.1 hid]
    exact .inl rfl
  · rw [if_neg (by simpa using hid)] at hactive ⊢
    have holder := hnewest.older r' ⟨hr', hactive⟩ fun heq => hid (by rw [heq])
    refine .inr ⟨⟨hr', hactive⟩, ?_, ?_⟩
    · rw [TradingSession.set_toColumns, hf]
      exact holder.1.trans hpast
    · rw [TradingSession.set_toColumns, hf]
      exact holder.2

theorem load_ordered (hclock : StrictClock env) (h : Ordered env s)
    (hload : Loaded env s none none d s') : Ordered env s' ∧
      (∀ row, Newest s.state.table row →
        ∃ row', Newest s'.state.table row' ∧ accessToken row' = accessToken row) ∧
      ∀ d', d = some d' → ∃ row, Newest s'.state.table row ∧ accessToken row = d'.accessToken := by
  cases hload with
  | nothing hunchanged =>
    have htable : s'.state.table = s.state.table := by rw [hunchanged.state]
    refine ⟨h.unchanged htable hunchanged.asked, fun row hrow => ⟨row, ?_, rfl⟩, fun d' hd => by cases hd⟩
    rwa [htable]
  | uncommitted hpicked =>
    exact ⟨h.unchanged rfl (Nat.le_add_right _ _), fun row hrow => ⟨row, hrow, rfl⟩,
      fun d' hd => by cases hd⟩
  | committed hpicked =>
    rename_i row method
    have hnewest := newest_of_picked h hpicked
    have hothers := touched_others hnewest (h.past row hnewest.mem.1 (s.asked + 3) (by omega))
      (fun c => { c with updatedAt := env.now (s.asked + 3) }) fun _ => rfl
    have hmem : row.set (fun c => { c with updatedAt := env.now (s.asked + 3) }) ∈
        active (touched env s.asked s.state.table row) :=
      ⟨(s.state.table.mem_update _ _).mpr ⟨row, hnewest.mem.1, by simp⟩, hnewest.mem.2⟩
    have hbounds := h.update hclock (by omega : s.asked + 3 < s.asked + 6) (by omega)
      (·.sessionId = row.sessionId) (f := fun c => { c with updatedAt := env.now (s.asked + 3) })
      fun _ => ⟨rfl, rfl⟩
    have htouched := newest_of_renewed hmem hothers
    refine ⟨⟨chain_of_renewed h.chain hothers, fun r hr n hn => (hbounds r hr n hn).1,
      fun r hr n hn => (hbounds r hr n hn).2⟩, ?_, ?_⟩
    · intro row' hrow'
      rw [hnewest.unique hrow']
      exact ⟨_, htouched, rfl⟩
    · rintro d' ⟨⟩
      exact ⟨_, htouched, rfl⟩

theorem save_ordered (hclock : StrictClock env) (h : Ordered env s) (hsaved : Saved env s d s')
    (houtlives : ∀ r ∈ s.state.table.rows, r.endTime ≤ d.expiresAt)
    (hbound : ∀ n, s.asked ≤ n → d.expiresAt ≤ env.now n + AuthManager.validity) :
    Ordered env s' ∧ ∃ row, Newest s'.state.table row ∧ accessToken row = d.accessToken := by
  obtain ⟨q, hq⟩ := upsert_ok hsaved.table
  have hq' := written_of_upserted hq
  have hmem : q ∈ active s'.state.table := ⟨hq.mem, hq'.isActive⟩
  have hothers : ∀ r ∈ active s'.state.table, r = q ∨ (r ∈ active s.state.table ∧ Older r q) := by
    rintro r ⟨hr, hactive⟩
    rcases hq.others r hr with rfl | ⟨hr, _⟩
    · exact .inl rfl
    · refine .inr ⟨⟨hr, hactive⟩, ?_, ?_⟩
      · rw [hq'.updatedAt]
        exact h.past r hr s.asked (le_refl _)
      · rw [hq'.endTime]
        exact houtlives r hr
  refine ⟨⟨chain_of_renewed h.chain hothers, ?_, ?_⟩, q, newest_of_renewed hmem hothers, ?_⟩
  · intro r hr n hn
    rcases hq.others r hr with rfl | ⟨hr, _⟩
    · rw [hq'.updatedAt]
      exact hclock (lt_of_lt_of_le hsaved.asked hn)
    · exact h.past r hr n (hsaved.asked.le.trans hn)
  · intro r hr n hn
    rcases hq.others r hr with rfl | ⟨hr, _⟩
    · rw [hq'.endTime]
      exact hbound n (hsaved.asked.le.trans hn)
    · exact h.bounded r hr n (hsaved.asked.le.trans hn)
  · simp only [accessToken, hq'.sessionData]
    rfl

theorem invalidate_ordered (hclock : StrictClock env) (h : Ordered env s)
    (hinvalidated : Invalidated env s s') : Ordered env s' := by
  have htable : s'.state.table = s.state.invalidated (env.now s.asked) := by rw [hinvalidated.state]
  have hrows : ∀ r ∈ s'.state.table.rows, ∀ n, s'.asked ≤ n →
      r.updatedAt < env.now n ∧ r.endTime ≤ env.now n + AuthManager.validity := by
    rw [htable, invalidated]
    split
    · exact h.update hclock hinvalidated.asked hinvalidated.asked.le _ fun _ => ⟨rfl, rfl⟩
    · exact h.update hclock hinvalidated.asked hinvalidated.asked.le _ fun _ => ⟨rfl, rfl⟩
  refine ⟨h.chain.mono ?_, fun r hr n hn => (hrows r hr n hn).1, fun r hr n hn => (hrows r hr n hn).2⟩
  rintro r ⟨hr, hactive⟩
  rw [htable] at hr
  exact ⟨(mem_invalidated hr hactive).1, hactive⟩

end

end AlphaPanda.Auth
