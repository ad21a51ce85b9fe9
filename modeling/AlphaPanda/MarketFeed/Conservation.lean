import AlphaPanda.MarketFeed.Ticks
import Mathlib.Algebra.Order.Group.Multiset
import Mathlib.Tactic.Abel

/-!
# No tick is lost or counted twice

What a step adds to the formatted ticks it adds to those that are accounted for
or under way, except for the steps that lose a tick or count it twice.
-/

namespace AlphaPanda.MarketFeed.Ticks

open State

-- ---------------------------------------------------------------------------
-- Steps
-- ---------------------------------------------------------------------------

inductive Stepped {ρ τ : Type} [DecidableEq τ] (svc : Service ρ τ) (s : State ρ τ) :
    Act ρ τ → State ρ τ → Prop where
  | onTicks : Stepped svc s (.onTicks ticks) (Service.onTicks s ticks)
  | next (hfree : s.awaited = none) :
    Stepped svc s .next (svc.onTick { s with batch := rest } raw)
  | called (hcalls : s.calls = item :: rest) :
    Stepped svc s .called (svc.enqueueNowait { s with calls := rest } item)
  | stored (hawaited : s.awaited = some (item, .pending)) :
    Stepped svc s .stored ({ s with awaited := some (item, .stored) }.put item)
  | expired (hawaited : s.awaited = some (item, .pending)) :
    Stepped svc s .expired { s with awaited := some (item, .expired) }
  | answeredStored (hawaited : s.awaited = some (item, .stored)) :
    Stepped svc s .answered { s with awaited := none }
  | answeredExpired (hawaited : s.awaited = some (item, .expired)) :
    Stepped svc s .answered ({ s with awaited := none }.drop item)
  | gaveUpPending (hawaited : s.awaited = some (item, .pending)) :
    Stepped svc s .gaveUp
      ({ s with awaited := none, abandoned := item :: s.abandoned }.drop item)
  | gaveUpStored (hawaited : s.awaited = some (item, .stored)) :
    Stepped svc s .gaveUp ({ s with awaited := none }.drop item)
  | gaveUpExpired (hawaited : s.awaited = some (item, .expired)) :
    Stepped svc s .gaveUp ({ s with awaited := none }.drop item)
  | storedLate :
    Stepped svc s (.storedLate item) ({ s with abandoned := s.abandoned.erase item }.put item)
  | expiredLate :
    Stepped svc s (.expiredLate item) { s with abandoned := s.abandoned.erase item }
  | take (hqueue : s.queue = item :: rest) :
    Stepped svc s .take
      { s with
        queue := rest
        worker := .gathering item
        sending := item :: s.sending
        measuring := item :: s.measuring }
  | emitted (hmem : item ∈ s.sending) :
    Stepped svc s (.emitted item error) (svc.emitTick s item error)
  | measured : Stepped svc s (.measured item error) (Service.updateMetrics s item error)
  | stop : Stepped svc s .stop { s with running := false }
  | cancel : Stepped svc s (.cancel delivered) (Service.cancel s delivered)

section
variable {ρ τ : Type} [DecidableEq τ] {svc : Service ρ τ} {s s' : State ρ τ} {a : Act ρ τ}

theorem next_cases (h : svc.step s .next = some s') : Stepped svc s .next s' := by
  simp only [Service.step] at h
  split at h
  · rename_i hfree _
    cases h
    exact .next hfree
  · cases h

theorem called_cases (h : svc.step s .called = some s') : Stepped svc s .called s' := by
  simp only [Service.step] at h
  split at h
  · rename_i hcalls
    cases h
    exact .called hcalls
  · cases h

theorem stored_cases (h : svc.step s .stored = some s') : Stepped svc s .stored s' := by
  simp only [Service.step] at h
  split at h
  · rename_i hawaited
    obtain ⟨-, heq⟩ := Option.ite_none_left_eq_some.mp h
    cases heq
    exact .stored hawaited
  · cases h

theorem expired_cases (h : svc.step s .expired = some s') : Stepped svc s .expired s' := by
  simp only [Service.step] at h
  split at h
  · rename_i hawaited
    cases h
    exact .expired hawaited
  · cases h

theorem answered_cases (h : svc.step s .answered = some s') : Stepped svc s .answered s' := by
  simp only [Service.step] at h
  split at h
  · rename_i hawaited
    cases h
    exact .answeredStored hawaited
  · rename_i hawaited
    cases h
    exact .answeredExpired hawaited
  · cases h

theorem gaveUp_cases (h : svc.step s .gaveUp = some s') : Stepped svc s .gaveUp s' := by
  simp only [Service.step] at h
  split at h
  · rename_i hawaited
    cases h
    exact .gaveUpPending hawaited
  · rename_i hawaited
    cases h
    exact .gaveUpStored hawaited
  · rename_i hawaited
    cases h
    exact .gaveUpExpired hawaited
  · cases h

theorem take_cases (h : svc.step s .take = some s') : Stepped svc s .take s' := by
  simp only [Service.step] at h
  split at h
  · rename_i hqueue
    cases h
    exact .take hqueue
  · cases h

theorem step_cases (h : svc.step s a = some s') : Stepped svc s a s' := by
  cases a with
  | onTicks ticks =>
    obtain ⟨-, heq⟩ := Option.ite_none_right_eq_some.mp h
    cases heq
    exact .onTicks
  | next => exact next_cases h
  | called => exact called_cases h
  | stored => exact stored_cases h
  | expired => exact expired_cases h
  | answered => exact answered_cases h
  | gaveUp => exact gaveUp_cases h
  | storedLate item =>
    obtain ⟨-, heq⟩ := Option.ite_none_right_eq_some.mp h
    cases heq
    exact .storedLate
  | expiredLate item =>
    obtain ⟨-, heq⟩ := Option.ite_none_right_eq_some.mp h
    cases heq
    exact .expiredLate
  | take => exact take_cases h
  | emitted item error =>
    obtain ⟨hmem, heq⟩ := Option.ite_none_right_eq_some.mp h
    cases heq
    exact .emitted hmem
  | measured item error =>
    obtain ⟨-, heq⟩ := Option.ite_none_right_eq_some.mp h
    cases heq
    exact .measured
  | stop =>
    cases h
    exact .stop
  | cancel delivered =>
    obtain ⟨-, heq⟩ := Option.ite_none_left_eq_some.mp h
    cases heq
    exact .cancel

end

-- ---------------------------------------------------------------------------
-- The balance
-- ---------------------------------------------------------------------------

section
variable {ρ τ : Type} {s : State ρ τ} {item : Item τ}

theorem coe_cons (a : α) (l : List α) : ((a :: l : List α) : Multiset α) = {a} + (l : Multiset α) := by
  rw [Multiset.singleton_add, Multiset.cons_coe]

theorem coe_erase [DecidableEq α] {a : α} {l : List α} (h : a ∈ l) :
    (l : Multiset α) = {a} + (l.erase a : List α) := by
  rw [Multiset.singleton_add, Multiset.cons_coe]
  exact Multiset.coe_eq_coe.mpr (List.perm_cons_erase h)

def State.total (s : State ρ τ) : Multiset (Item τ) := s.accounted + s.inTransit

theorem total_drop (s : State ρ τ) (item : Item τ) : (s.drop item).total = {item} + s.total := by
  simp only [State.total, accounted, inTransit, State.drop, coe_cons]
  abel

theorem total_put (s : State ρ τ) (item : Item τ) : (s.put item).total = {item} + s.total := by
  simp only [State.total, accounted, inTransit, State.put, ← Multiset.coe_add, Multiset.coe_singleton]
  abel

variable [DecidableEq τ]

theorem finish_cases (s : State ρ τ) (item : Item τ) (error : Option Exc) :
    s.finish item error = { s with worker := .idle } ∨ s.finish item error = s := by
  unfold State.finish
  split
  · exact .inl rfl
  · exact .inr rfl

theorem finish_total (s : State ρ τ) (item : Item τ) (error : Option Exc) :
    (s.finish item error).total = s.total ∧ (s.finish item error).formatted = s.formatted := by
  obtain h | h := finish_cases s item error
  · rw [h]; exact ⟨rfl, rfl⟩
  · rw [h]; exact ⟨rfl, rfl⟩

theorem finish_balanced_iff (s : State ρ τ) (item : Item τ) (error : Option Exc) :
    (s.finish item error).Balanced ↔ s.Balanced := by
  obtain ⟨htotal, hformatted⟩ := finish_total s item error
  exact ⟨fun h => htotal.symm.trans (h.trans (congrArg _ hformatted)),
    fun h => htotal.trans (h.trans (congrArg _ hformatted.symm))⟩

end

section
variable {ρ τ : Type} {svc : Service ρ τ} {s s' : State ρ τ}

theorem enqueueNowait_total (svc : Service ρ τ) (s : State ρ τ) (item : Item τ) :
    (svc.enqueueNowait s item).total = {item} + s.total ∧
      (svc.enqueueNowait s item).formatted = s.formatted := by
  unfold Service.enqueueNowait
  split
  · exact ⟨total_drop s item, rfl⟩
  · exact ⟨total_put s item, rfl⟩

theorem enqueue_total (svc : Service ρ τ) (hfree : s.awaited = none) (item : Item τ) :
    (svc.enqueue s item).total = {item} + s.total ∧
      (svc.enqueue s item).formatted = s.formatted := by
  unfold Service.enqueue
  split
  · refine ⟨?_, rfl⟩
    simp only [State.total, accounted, inTransit, hfree, undecided]
    abel
  split
  · refine ⟨?_, rfl⟩
    simp only [State.total, accounted, inTransit, ← Multiset.coe_add, Multiset.coe_singleton]
    abel
  · exact enqueueNowait_total svc s item

theorem onTick_balanced (h : s.Balanced) (hfree : s.awaited = none) (raw : ρ) :
    (svc.onTick s raw).Balanced := by
  unfold Service.onTick
  split
  · exact h
  · rename_i tick _
    obtain ⟨htotal, hformatted⟩ := enqueue_total (s :=
      { s with
        ticksProcessed := s.ticksProcessed + 1
        formatted := ⟨s.ticksProcessed, tick⟩ :: s.formatted }) svc hfree ⟨s.ticksProcessed, tick⟩
    refine htotal.trans ?_
    rw [hformatted, coe_cons]
    exact congrArg ({_} + ·) h

theorem not_balanced_of_surplus (item : Item τ) (h : s.Balanced)
    (htotal : s'.total = {item} + s.total) (hformatted : s'.formatted = s.formatted) : ¬s'.Balanced := by
  intro h'
  have hbefore : s.total = s.formatted := h
  have hafter : s'.total = s'.formatted := h'
  have hcard := congrArg Multiset.card htotal
  rw [hafter, hformatted, hbefore, Multiset.card_add, Multiset.card_singleton] at hcard
  omega

theorem not_balanced_of_loss (item : Item τ) (h : s.Balanced) (htotal : s.total = {item} + s'.total)
    (hformatted : s'.formatted = s.formatted) : ¬s'.Balanced := by
  intro h'
  have hbefore : s.total = s.formatted := h
  have hafter : s'.total = s'.formatted := h'
  have hcard := congrArg Multiset.card htotal
  rw [hbefore, hafter, hformatted, Multiset.card_add, Multiset.card_singleton] at hcard
  omega

variable [DecidableEq τ]

theorem emitTick_balanced (h : s.Balanced) (hproducer : svc.producers ≠ 0) (hmem : item ∈ s.sending)
    (error : Option Exc) : (svc.emitTick s item error).Balanced := by
  unfold Service.emitTick
  simp only [if_neg hproducer]
  split
  · refine (finish_balanced_iff _ _ _).mpr (Eq.trans ?_ h)
    simp only [accounted, inTransit, coe_cons, coe_erase hmem]
    abel
  · refine (finish_balanced_iff _ _ _).mpr (Eq.trans ?_ h)
    simp only [accounted, inTransit, coe_cons, coe_erase hmem]
    abel

theorem updateMetrics_balanced (h : s.Balanced) (item : Item τ) (error : Option Exc) :
    (Service.updateMetrics s item error).Balanced := by
  unfold Service.updateMetrics
  simp only
  split
  · exact (finish_balanced_iff _ _ _).mpr h
  · exact (finish_balanced_iff _ _ _).mpr h

theorem cancel_balanced (h : s.Balanced)
    (hdelivered : ∀ item ∈ s.sending, s.worker = .gathering item → delivered = true) :
    (Service.cancel s delivered).Balanced := by
  unfold Service.cancel
  split
  · rename_i item hworker
    refine Eq.trans ?_ h
    by_cases hmem : item ∈ s.sending
    · simp only [accounted, inTransit, hmem, hdelivered item hmem hworker, and_self, if_true, coe_cons,
        coe_erase hmem]
      abel
    · simp only [accounted, inTransit, hmem, false_and, if_false, List.erase_of_not_mem hmem]
  · exact h
  · exact h

theorem step_balanced (h : s.Balanced) (horderly : svc.Orderly s a) (hstep : svc.step s a = some s') :
    s'.Balanced := by
  cases step_cases hstep with
  | onTicks =>
    unfold Service.onTicks
    split
    · exact h
    · exact h
  | @next rest _ hfree => exact onTick_balanced (s := { s with batch := rest }) h hfree _
  | @called item rest hcalls =>
    obtain ⟨htotal, hformatted⟩ := enqueueNowait_total svc { s with calls := rest } item
    refine htotal.trans ?_
    rw [hformatted]
    refine Eq.trans ?_ h
    simp only [State.total, accounted, inTransit, hcalls, coe_cons]
    abel
  | stored hawaited =>
    refine (total_put _ _).trans (Eq.trans ?_ h)
    simp only [State.total, accounted, inTransit, hawaited, undecided]
    abel
  | expired hawaited | answeredStored hawaited =>
    refine Eq.trans ?_ h
    simp only [accounted, inTransit, hawaited, undecided]
  | answeredExpired hawaited | gaveUpPending hawaited | gaveUpExpired hawaited =>
    refine (total_drop _ _).trans (Eq.trans ?_ h)
    simp only [State.total, accounted, inTransit, hawaited, undecided]
    abel
  | gaveUpStored hawaited => exact absurd (congrArg (Option.map Prod.snd) hawaited) horderly
  | storedLate => exact horderly.elim
  | take hqueue =>
    refine Eq.trans ?_ h
    simp only [accounted, inTransit, hqueue, coe_cons]
    abel
  | emitted hmem => exact emitTick_balanced h horderly hmem _
  | measured => exact updateMetrics_balanced h _ _
  | cancel => exact cancel_balanced h horderly
  | expiredLate | stop => exact h

theorem not_balanced_of_not_orderly (h : s.Balanced) (horderly : ¬svc.Orderly s a)
    (hstep : svc.step s a = some s') : ¬s'.Balanced := by
  cases step_cases hstep with
  | @gaveUpStored item hawaited =>
    refine not_balanced_of_surplus item h ((total_drop _ item).trans ?_) rfl
    simp only [State.total, accounted, inTransit, hawaited, undecided]
  | gaveUpPending hawaited | gaveUpExpired hawaited =>
    exact absurd (by simp [Service.Orderly, hawaited]) horderly
  | @storedLate item => exact not_balanced_of_surplus item h (total_put _ item) rfl
  | @emitted item _ hmem =>
    rw [Service.emitTick, if_pos (not_not.mp horderly), finish_balanced_iff]
    refine not_balanced_of_loss item h ?_ rfl
    simp only [State.total, accounted, inTransit, coe_erase hmem]
    abel
  | @cancel delivered =>
    simp only [Service.Orderly, not_forall] at horderly
    obtain ⟨item, hmem, hworker, hlost⟩ := horderly
    have hnone : ¬(item ∈ s.sending ∧ delivered = true) := fun h => hlost h.2
    simp only [Service.cancel, hworker, if_neg hnone]
    refine not_balanced_of_loss item h ?_ rfl
    simp only [State.total, accounted, inTransit, coe_erase hmem]
    abel
  | onTicks | next | called | stored | expired | answeredStored | answeredExpired | expiredLate |
    take | measured | stop => exact absurd trivial horderly

end

-- ---------------------------------------------------------------------------
-- The counters
-- ---------------------------------------------------------------------------

section
variable {ρ τ : Type} {svc : Service ρ τ} {s s' : State ρ τ}

theorem drop_counted (h : s.Counted) (item : Item τ) : (s.drop item).Counted :=
  { h with dropped := congrArg (· + 1) h.dropped }

theorem enqueueNowait_counted (h : s.Counted) (item : Item τ) :
    (svc.enqueueNowait s item).Counted := by
  unfold Service.enqueueNowait
  split
  · exact drop_counted h item
  · exact { h with }

theorem onTick_counted (h : s.Counted) (raw : ρ) : (svc.onTick s raw).Counted := by
  unfold Service.onTick
  split
  · exact h
  rename_i tick _
  have h : State.Counted { s with
      ticksProcessed := s.ticksProcessed + 1
      formatted := ⟨s.ticksProcessed, tick⟩ :: s.formatted } := by
    refine { h with processed := congrArg (· + 1) h.processed, numbered := ?_, distinct := ?_ }
    · intro item hitem
      obtain rfl | hitem := List.mem_cons.mp hitem
      · exact Nat.lt_succ_self s.ticksProcessed
      · exact (h.numbered item hitem).trans (Nat.lt_succ_self s.ticksProcessed)
    · refine List.nodup_cons.mpr ⟨fun hmem => ?_, h.distinct⟩
      obtain ⟨item, hitem, hnumber⟩ := List.mem_map.mp hmem
      exact (h.numbered item hitem).ne hnumber
  unfold Service.enqueue
  split
  · exact { h with }
  split
  · exact { h with }
  · exact enqueueNowait_counted h _

variable [DecidableEq τ]

theorem finish_counted (h : s.Counted) (item : Item τ) (error : Option Exc) :
    (s.finish item error).Counted := by
  obtain heq | heq := finish_cases s item error
  · rw [heq]; exact { h with }
  · rw [heq]; exact h

theorem emitTick_counted (h : s.Counted) (item : Item τ) (error : Option Exc) :
    (svc.emitTick s item error).Counted := by
  unfold Service.emitTick
  simp only
  split
  · refine finish_counted ?_ item none
    exact { h with }
  split
  · refine finish_counted ?_ item error
    exact { h with failed := congrArg (· + 1) h.failed }
  · refine finish_counted ?_ item none
    exact { h with }

theorem updateMetrics_counted (h : s.Counted) (item : Item τ) (error : Option Exc) :
    (Service.updateMetrics s item error).Counted := by
  unfold Service.updateMetrics
  simp only
  split
  · refine finish_counted ?_ item error
    exact { h with }
  · refine finish_counted ?_ item none
    exact { h with }

theorem step_counted (h : s.Counted) (hstep : svc.step s a = some s') : s'.Counted := by
  cases step_cases hstep with
  | onTicks =>
    unfold Service.onTicks
    split
    · exact { h with }
    · exact h
  | @next rest _ _ => exact onTick_counted (s := { s with batch := rest }) { h with } _
  | @called _ rest _ => exact enqueueNowait_counted (s := { s with calls := rest }) { h with } _
  | answeredExpired | gaveUpPending | gaveUpStored | gaveUpExpired =>
    exact { h with dropped := congrArg (· + 1) h.dropped }
  | emitted => exact emitTick_counted h _ _
  | measured => exact updateMetrics_counted h _ _
  | cancel =>
    unfold Service.cancel
    split
    · exact { h with }
    · exact { h with }
    · exact { h with }
  | stored | expired | answeredStored | storedLate | expiredLate | take | stop => exact { h with }

end

theorem conserved_of_balanced {s : State ρ τ} (hcounted : s.Counted) (h : s.Balanced)
    (hquiet : s.Quiescent) : Conserved s := by
  refine ⟨hcounted, ?_⟩
  rw [State.Balanced, inTransit, hquiet.awaited, hquiet.calls, hquiet.sending] at h
  exact (add_zero s.accounted).symm.trans h

/-- After an orderly run each formatted tick is accounted for exactly once as
soon as nothing is under way, and any other step leaves one that is neither on
its way nor accounted for, or that is twice. -/
theorem ticks_conserved {ρ τ : Type} [DecidableEq τ] (svc : Service ρ τ) (as : List (Act ρ τ))
    (s : State ρ τ) (hruns : Machine.Runs svc.step svc.Orderly {} as)
    (hrun : Machine.run svc.step {} as = some s) :
    (s.Quiescent → Conserved s) ∧
      ∀ a s', svc.step s a = some s' → (s'.Balanced ↔ svc.Orderly s a) := by
  obtain ⟨hcounted, hbalanced⟩ : s.Counted ∧ s.Balanced :=
    Machine.run_invariant (I := fun s => s.Counted ∧ s.Balanced)
      (fun _ _ _ h horderly hstep => ⟨step_counted h.1 hstep, step_balanced h.2 horderly hstep⟩)
      ⟨⟨rfl, rfl, rfl, fun _ h => absurd h List.not_mem_nil, List.nodup_nil⟩, rfl⟩ hruns hrun
  refine ⟨conserved_of_balanced hcounted hbalanced, fun a s' hstep => ⟨fun h => ?_, fun horderly => ?_⟩⟩
  · by_contra horderly
    exact not_balanced_of_not_orderly hbalanced horderly hstep h
  · exact step_balanced hbalanced horderly hstep

def narrow : Service ℤ ℤ where
  settings := { queueMaxsize := 1, enqueueBlockTimeoutMs := some 5 }
  format := .ok

/-- The queue is full for the second tick, whose put expires. -/
theorem expired_conserved :
    ∃ s, Machine.run narrow.step {} [.onTicks [100, 101], .next, .stored, .answered, .next, .expired,
        .gaveUp, .take, .measured ⟨0, 100⟩ none, .emitted ⟨0, 100⟩ none] = some s ∧ Conserved s :=
  ⟨_, rfl, (ticks_conserved narrow [.onTicks [100, 101], .next, .stored, .answered, .next, .expired,
    .gaveUp, .take, .measured ⟨0, 100⟩ none, .emitted ⟨0, 100⟩ none] _ (by decide +kernel) rfl).1
      ⟨rfl, rfl, rfl, rfl, rfl, rfl⟩⟩

/-- The callback gives up the put of the second tick, and then the worker takes
the first one, so that the second finds room: it is published and dropped. -/
theorem late_put_published :
    ∃ s, Machine.run narrow.step {} [.onTicks [100, 101], .next, .stored, .answered, .next, .gaveUp,
        .take, .storedLate ⟨1, 101⟩, .measured ⟨0, 100⟩ none, .emitted ⟨0, 100⟩ none, .take,
        .emitted ⟨1, 101⟩ none, .measured ⟨1, 101⟩ none] = some s ∧
      s.Quiescent ∧ ⟨1, 101⟩ ∈ s.published ∧ ⟨1, 101⟩ ∈ s.dropped ∧ ¬Conserved s := by
  refine ⟨_, rfl, ⟨rfl, rfl, rfl, rfl, rfl, rfl⟩, List.mem_cons_self, List.mem_cons_self, fun h => ?_⟩
  exact absurd h.once (by decide +kernel)

end AlphaPanda.MarketFeed.Ticks
