import AlphaPanda.MarketFeed.Conservation

/-!
# Ticks are published in the order they came

The ticks that are published, being sent, queued and on their way to the queue
stand in one line, newest last. A step takes ticks out of the line or adds the
next one at its end, unless a put is stored that the callback gave up, or the
worker goes on before its tick was sent because the metrics failed.
-/

namespace AlphaPanda.MarketFeed.Ticks

open State

section
variable {ρ τ : Type}

/-- The put that the callback waits for and that may still be stored. -/
def State.waiting (s : State ρ τ) : List (Item τ) :=
  match s.awaited with
  | some (item, .pending) => [item]
  | _ => []

/-- The ticks that are published or may still be, in order. -/
def State.line (s : State ρ τ) : List (Item τ) :=
  s.published.reverse ++ (s.sending ++ (s.queue ++ (s.calls ++ s.waiting)))

/-- No put is stored late, and the metrics of a tick fail only once it was sent. -/
def InTurn (s : State ρ τ) : Act ρ τ → Prop
  | .storedLate _ => False
  | .measured item error => error.isSome → item ∉ s.sending
  | _ => True

instance decidableInTurn [DecidableEq τ] (s : State ρ τ) : (a : Act ρ τ) → Decidable (InTurn s a)
  | .storedLate _ => isFalse id
  | .measured _ _ => inferInstanceAs (Decidable (_ → _))
  | .onTicks _ | .next | .called | .stored | .expired | .answered | .gaveUp | .expiredLate _ | .take |
    .emitted _ _ | .stop | .cancel _ => isTrue trivial

/-- Those in the line were formatted in this order; only the worker's tick is
being sent; and ticks come to the queue in one way. -/
structure State.InOrder (svc : Service ρ τ) (s : State ρ τ) : Prop where
  line : s.line.Sublist s.formatted.reverse
  busy : ∀ item ∈ s.sending, s.worker = .gathering item
  called : s.calls ≠ [] → svc.blocks = false ∧ svc.loop = true
  awaited : s.awaited ≠ none → svc.blocks = true

variable {svc : Service ρ τ} {s s' : State ρ τ}

theorem eq_singleton {l : List α} (hnodup : l.Nodup) (h : ∀ other ∈ l, other = a) (hmem : a ∈ l) :
    l = [a] := by
  rcases l with _ | ⟨first, _ | ⟨second, rest⟩⟩
  · cases hmem
  · rw [h first List.mem_cons_self]
  · have hsame : first = second := (h first (by simp)).trans (h second (by simp)).symm
    simp [hsame] at hnodup

theorem State.InOrder.sending_eq (h : s.InOrder svc) (hformatted : s.formatted.Nodup)
    (hmem : item ∈ s.sending) : s.sending = [item] := by
  have hline : s.line.Nodup := h.line.nodup (List.nodup_reverse.mpr hformatted)
  have hitem := h.busy item hmem
  refine eq_singleton (hline.sublist ((List.sublist_append_left _ _).trans
    (List.sublist_append_right _ _))) (fun other hother => ?_) hmem
  exact Worker.gathering.inj ((h.busy other hother).symm.trans hitem)

theorem State.InOrder.shorten (h : s.InOrder svc) (hline : s'.line.Sublist s.line)
    (hformatted : s'.formatted = s.formatted)
    (hbusy : ∀ item ∈ s'.sending, s'.worker = .gathering item)
    (hcalls : s'.calls ≠ [] → s.calls ≠ []) (hawaited : s'.awaited ≠ none → s.awaited ≠ none) :
    s'.InOrder svc where
  line := hformatted ▸ hline.trans h.line
  busy := hbusy
  called hne := h.called (hcalls hne)
  awaited hne := h.awaited (hawaited hne)

theorem State.InOrder.extend (h : s.InOrder svc) (hline : s'.line.Sublist (s.line ++ [item]))
    (hformatted : s'.formatted = item :: s.formatted)
    (hbusy : ∀ item ∈ s'.sending, s'.worker = .gathering item)
    (hcalled : s'.calls ≠ [] → svc.blocks = false ∧ svc.loop = true)
    (hawaited : s'.awaited ≠ none → svc.blocks = true) : s'.InOrder svc where
  line := by
    rw [hformatted, List.reverse_cons]
    exact hline.trans (h.line.append_right [item])
  busy := hbusy
  called := hcalled
  awaited := hawaited

theorem enqueueNowait_inOrder (h : s.InOrder svc) (hcalls : s.calls = item :: rest) :
    (svc.enqueueNowait { s with calls := rest } item).InOrder svc := by
  have hne : s.calls ≠ [] := by simp [hcalls]
  unfold Service.enqueueNowait
  split
  · refine h.shorten ?_ rfl h.busy (fun _ => hne) id
    simp only [line, waiting, drop, hcalls]
    simp
  · refine h.shorten ?_ rfl h.busy (fun _ => hne) id
    simp only [line, waiting, put, hcalls]
    simp

theorem onTick_inOrder (h : s.InOrder svc) (hfree : s.awaited = none) (raw : ρ) :
    (svc.onTick s raw).InOrder svc := by
  unfold Service.onTick
  split
  · exact h
  have hwaiting : s.waiting = [] := by simp [waiting, hfree]
  simp only [Service.enqueue]
  split
  · rename_i hblocks
    have hcalls : s.calls = [] := by
      by_contra hne
      exact absurd hblocks (by simp [(h.called hne).1])
    refine h.extend ?_ rfl h.busy (fun hne => absurd hcalls hne) fun _ => hblocks
    simp [line, waiting, hfree]
  · rename_i hblocks
    split
    · rename_i hloop
      refine h.extend ?_ rfl h.busy (fun _ => ⟨Bool.eq_false_iff.mpr hblocks, hloop⟩)
        fun hne => absurd hfree hne
      simp [line, waiting, hfree]
    · rename_i hloop
      have hcalls : s.calls = [] := by
        by_contra hne
        exact absurd (h.called hne).2 hloop
      unfold Service.enqueueNowait
      split
      · refine h.extend ?_ rfl h.busy (fun hne => absurd hcalls hne) fun hne => absurd hfree hne
        simp [line, waiting, drop]
      · refine h.extend ?_ rfl h.busy (fun hne => absurd hcalls hne) fun hne => absurd hfree hne
        simp [line, waiting, put, hfree, hcalls]

theorem State.InOrder.sending_nil (h : s.InOrder svc) (hsent : ∀ item, s.worker = .gathering item →
    item ∉ s.sending) : s.sending = [] :=
  List.eq_nil_iff_forall_not_mem.mpr fun item hmem => hsent item (h.busy item hmem) hmem

variable [DecidableEq τ]

theorem finish_inOrder (h : s.InOrder svc) (item : Item τ) (error : Option Exc)
    (hsent : error.isSome → item ∉ s.sending) : (s.finish item error).InOrder svc := by
  unfold finish
  split
  · rename_i hfinished
    obtain ⟨hworker, hover⟩ := hfinished
    have hsending : s.sending = [] := by
      refine h.sending_nil fun other hother => ?_
      obtain rfl := Worker.gathering.inj (hother.symm.trans hworker)
      exact hover.elim hsent And.left
    exact h.shorten (List.Sublist.refl _) rfl (by simp [hsending]) id id
  · exact h

theorem emitTick_inOrder (h : s.InOrder svc) (hformatted : s.formatted.Nodup)
    (hmem : item ∈ s.sending) (error : Option Exc) :
    (svc.emitTick s item error).InOrder svc := by
  have hsending := h.sending_eq hformatted hmem
  have herase : s.sending.erase item = [] := by simp [hsending]
  unfold Service.emitTick
  simp only [herase]
  split
  · refine finish_inOrder ?_ item none fun _ => List.not_mem_nil
    refine h.shorten ?_ rfl (fun _ hother => absurd hother List.not_mem_nil) id id
    simp only [line, waiting, hsending]
    simp
  split
  · refine finish_inOrder ?_ item error fun _ => List.not_mem_nil
    refine h.shorten ?_ rfl (fun _ hother => absurd hother List.not_mem_nil) id id
    simp only [line, waiting, hsending]
    simp
  · refine finish_inOrder ?_ item none fun _ => List.not_mem_nil
    refine h.shorten ?_ rfl (fun _ hother => absurd hother List.not_mem_nil) id id
    simp [line, waiting, hsending]

theorem updateMetrics_inOrder (h : s.InOrder svc) (item : Item τ) (error : Option Exc)
    (hsent : error.isSome → item ∉ s.sending) : (Service.updateMetrics s item error).InOrder svc := by
  unfold Service.updateMetrics
  simp only
  split
  · refine finish_inOrder ?_ item error hsent
    exact h.shorten (List.Sublist.refl _) rfl h.busy id id
  · refine finish_inOrder ?_ item none fun hnone => by cases hnone
    exact h.shorten (List.Sublist.refl _) rfl h.busy id id

theorem cancel_inOrder (h : s.InOrder svc) (hformatted : s.formatted.Nodup) (delivered : Bool) :
    (Service.cancel s delivered).InOrder svc := by
  unfold Service.cancel
  split
  · rename_i item hworker
    by_cases hmem : item ∈ s.sending
    · have hsending := h.sending_eq hformatted hmem
      refine h.shorten ?_ rfl (by simp [hsending]) id id
      simp only [line, waiting, hsending]
      cases delivered
      · simp
      · simp
    · have hsending : s.sending = [] := by
        refine h.sending_nil fun other hother => ?_
        exact Worker.gathering.inj (hworker.symm.trans hother) ▸ hmem
      refine h.shorten ?_ rfl (by simp [hsending]) id id
      simp [line, waiting, hsending]
  · rename_i hworker
    have hsending := h.sending_nil fun item hitem => by cases hworker.symm.trans hitem
    exact h.shorten (List.Sublist.refl _) rfl (by simp [hsending]) id id
  · rename_i hworker
    have hsending := h.sending_nil fun item hitem => by cases hworker.symm.trans hitem
    exact h.shorten (List.Sublist.refl _) rfl (by simp [hsending]) id id

theorem idle_of_take (h : svc.step s .take = some s') : s.worker = .idle := by
  simp only [Service.step] at h
  split at h
  · assumption
  · cases h

theorem step_inOrder (h : s.InOrder svc) (hformatted : s.formatted.Nodup) (hturn : InTurn s a)
    (hstep : svc.step s a = some s') : s'.InOrder svc := by
  cases step_cases hstep with
  | onTicks =>
    unfold Service.onTicks
    split
    · exact h.shorten (List.Sublist.refl _) rfl h.busy id id
    · exact h
  | @next rest raw hfree =>
    have hbatch : ({ s with batch := rest } : State ρ τ).InOrder svc :=
      h.shorten (List.Sublist.refl _) rfl h.busy id id
    exact onTick_inOrder hbatch hfree raw
  | called hcalls => exact enqueueNowait_inOrder h hcalls
  | stored hawaited =>
    have hne : s.awaited ≠ none := by simp [hawaited]
    have hcalls : s.calls = [] := by
      by_contra hcalls
      exact absurd (h.awaited hne) (by simp [(h.called hcalls).1])
    refine h.shorten ?_ rfl h.busy id fun _ => hne
    simp [line, waiting, put, hawaited, hcalls]
  | expired hawaited =>
    have hne : s.awaited ≠ none := by simp [hawaited]
    refine h.shorten ?_ rfl h.busy id fun _ => hne
    simp only [line, waiting]
    simp
  | answeredStored | answeredExpired | gaveUpPending | gaveUpStored | gaveUpExpired =>
    refine h.shorten ?_ rfl h.busy id fun hne => absurd rfl hne
    simp only [line, waiting, drop]
    simp
  | storedLate => exact hturn.elim
  | expiredLate => exact h.shorten (List.Sublist.refl _) rfl h.busy id id
  | take hqueue =>
    have hworker := idle_of_take hstep
    have hsending := h.sending_nil fun item hitem => by cases hworker.symm.trans hitem
    refine h.shorten ?_ rfl (by simp [hsending]) id id
    simp [line, waiting, hsending, hqueue]
  | emitted hmem => exact emitTick_inOrder h hformatted hmem _
  | measured => exact updateMetrics_inOrder h _ _ hturn
  | stop => exact h.shorten (List.Sublist.refl _) rfl h.busy id id
  | cancel => exact cancel_inOrder h hformatted _

/-- In a run in which no put is stored that the callback gave up, and the metrics
of no tick fail before it was sent, the ticks are published in the order in
which they came. -/
theorem published_in_order (svc : Service ρ τ) (as : List (Act ρ τ))
    (hruns : Machine.Runs svc.step InTurn {} as) (hrun : Machine.run svc.step {} as = some s) :
    s.published.Sublist s.formatted := by
  have hstart : State.InOrder svc ({} : State ρ τ) :=
    ⟨List.Sublist.refl _, by simp, by simp, by simp⟩
  have hcounted : State.Counted ({} : State ρ τ) :=
    ⟨rfl, rfl, rfl, fun _ h => absurd h List.not_mem_nil, List.nodup_nil⟩
  obtain ⟨-, horder⟩ := Machine.run_invariant (I := fun s => s.Counted ∧ s.InOrder svc)
    (fun _ _ _ h hturn hstep => ⟨step_counted h.1 hstep,
      step_inOrder h.2 (List.Nodup.of_map _ h.1.distinct) hturn hstep⟩) ⟨hcounted, hstart⟩ hruns hrun
  exact List.reverse_sublist.mp ((List.sublist_append_left _ _).trans horder.line)

end

/-- The queue is full for the second tick, whose put expires. -/
theorem expired_in_order :
    ∃ s, Machine.run narrow.step {} [.onTicks [100, 101, 102], .next, .stored, .answered, .next, .expired,
        .gaveUp, .take, .next, .stored, .answered, .emitted ⟨0, 100⟩ none, .measured ⟨0, 100⟩ none,
        .take, .emitted ⟨2, 102⟩ none] = some s ∧
      s.published.map Item.tick = [102, 100] ∧ s.published.Sublist s.formatted :=
  ⟨_, rfl, rfl, published_in_order narrow [.onTicks [100, 101, 102], .next, .stored, .answered, .next,
    .expired, .gaveUp, .take, .next, .stored, .answered, .emitted ⟨0, 100⟩ none,
    .measured ⟨0, 100⟩ none, .take, .emitted ⟨2, 102⟩ none] (by decide +kernel) rfl⟩

/-- The metrics of the first tick fail while it is being sent, and the second is
published before it. -/
example :
    ∃ s, Machine.run (⟨{}, true, 1, .ok⟩ : Service ℤ ℤ).step {} [.onTicks [100, 101], .next, .called,
        .next, .called, .take, .measured ⟨0, 100⟩ (some ⟨"ConnectionError", "", .builtin⟩), .take,
        .emitted ⟨1, 101⟩ none, .emitted ⟨0, 100⟩ none] = some s ∧
      s.published.map Item.tick = [100, 101] ∧ ¬s.published.Sublist s.formatted :=
  ⟨_, rfl, rfl, by decide +kernel⟩

end AlphaPanda.MarketFeed.Ticks
