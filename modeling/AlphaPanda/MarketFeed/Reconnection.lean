import AlphaPanda.Exceptions
import AlphaPanda.Lib.Machine
import Mathlib.Order.Nat
import Mathlib.Algebra.Order.Ring.Rat
import Mathlib.Data.Finset.Basic

/-!
# Reconnecting the market feed

Close callbacks schedule attempts, which wait for one lock. An attempt sleeps,
closes the ticker it finds connected, fetches a new one, connects it and polls
until it is connected. Tickers are numbered; what happens to their connections,
and when callbacks come, is up to the environment.
-/

namespace AlphaPanda.MarketFeed

structure ReconnectionConfig where
  maxAttempts : ℤ := 5
  baseDelay : ℤ := 1
  maxDelay : ℤ := 60
  backoffMultiplier : ℚ := 2
  timeout : ℤ := 30

inductive Stage where
  | sleeping (delay : ℚ)
  | fetching
  | polling
  deriving DecidableEq

/-- The service, its tickers and its attempts: those that wait for the lock and
the one that holds it. The history has the tickers that an attempt closed or
replaced while they were connected. -/
structure Feed where
  running : Bool
  reconnectionAttempts : ℤ
  kws : ℕ
  connected : Finset ℕ
  opened : Finset ℕ
  next : ℕ
  pending : ℕ
  holder : Option Stage
  disrupted : List ℕ

def Feed.started : Feed where
  running := true
  reconnectionAttempts := 0
  kws := 0
  connected := ∅
  opened := {0}
  next := 1
  pending := 0
  holder := none
  disrupted := []

def Feed.isConnected (s : Feed) : Prop := s.kws ∈ s.connected

instance (s : Feed) : Decidable s.isConnected := inferInstanceAs (Decidable (s.kws ∈ s.connected))

def ReconnectionConfig.delay (c : ReconnectionConfig) (attempts : ℤ) : ℚ :=
  min (c.baseDelay * c.backoffMultiplier ^ (attempts - 1)) c.maxDelay

/-- What happens next: a ticker is connected, or loses its connection; a close
callback comes; an attempt gets the lock, or goes on after its delay, after the
new ticker was fetched and connected, and after a poll; the service is stopped. -/
inductive Act where
  | established (ticker : ℕ)
  | dropped (ticker : ℕ)
  | onClose
  | acquire
  | slept
  | fetched (ticker connect : Option Exc)
  | polled (elapsed : ℚ)
  | stop

namespace Feed

def onClose (s : Feed) : Feed := if s.running then { s with pending := s.pending + 1 } else s

def begin (c : ReconnectionConfig) (s : Feed) : Feed :=
  if ¬s.running then s
  else if c.maxAttempts ≤ s.reconnectionAttempts then { s with running := false }
  else
    { s with
      reconnectionAttempts := s.reconnectionAttempts + 1
      holder := some (.sleeping (c.delay (s.reconnectionAttempts + 1))) }

def closeExisting (s : Feed) : Feed :=
  if s.isConnected then
    { s with
      connected := s.connected.erase s.kws
      opened := s.opened.erase s.kws
      disrupted := s.kws :: s.disrupted }
  else s

def failed (s : Feed) : Feed :=
  { s with holder := none, pending := if s.running then s.pending + 1 else s.pending }

def replace (s : Feed) : Feed :=
  { s with
    kws := s.next
    next := s.next + 1
    disrupted := if s.isConnected then s.kws :: s.disrupted else s.disrupted }

def fetched (s : Feed) (ticker connect : Option Exc) : Feed :=
  if ticker.isSome then s.failed
  else if connect.isSome then s.replace.failed
  else
    let s := s.replace
    { s with opened := insert s.kws s.opened, holder := some .polling }

def polled (c : ReconnectionConfig) (s : Feed) (elapsed : ℚ) : Feed :=
  if s.isConnected then { s with holder := none, reconnectionAttempts := 0 }
  else if ¬s.running then s.failed
  else if c.timeout < elapsed then s.failed
  else s

def step (c : ReconnectionConfig) (s : Feed) : Act → Option Feed
  | .established t => if t ∈ s.opened then some { s with connected := insert t s.connected } else none
  | .dropped t => some { s with connected := s.connected.erase t }
  | .onClose => some s.onClose
  | .acquire =>
    if s.holder = none ∧ 0 < s.pending then some (begin c { s with pending := s.pending - 1 }) else none
  | .slept =>
    match s.holder with
    | some (.sleeping _) => some { s.closeExisting with holder := some .fetching }
    | _ => none
  | .fetched ticker connect => if s.holder = some .fetching then some (s.fetched ticker connect) else none
  | .polled elapsed => if s.holder = some .polling then some (s.polled c elapsed) else none
  | .stop => some { s with running := false }

/-- An attempt is on its way that will close or replace the ticker should it be
connected: it sleeps or fetches, or it will get the lock before any other change. -/
def Threatened (c : ReconnectionConfig) (s : Feed) : Prop :=
  match s.holder with
  | some (.sleeping _) | some .fetching => True
  | some .polling => s.running ∧ 0 < s.pending
  | none => s.running ∧ 0 < s.pending ∧ s.reconnectionAttempts < c.maxAttempts

instance decidableThreatened (c : ReconnectionConfig) : (s : Feed) → Decidable (s.Threatened c)
  | ⟨_, _, _, _, _, _, _, some (.sleeping _), _⟩ => isTrue trivial
  | ⟨_, _, _, _, _, _, _, some .fetching, _⟩ => isTrue trivial
  | ⟨_, _, _, _, _, _, _, some .polling, _⟩ => inferInstanceAs (Decidable (_ ∧ _))
  | ⟨_, _, _, _, _, _, _, none, _⟩ => inferInstanceAs (Decidable (_ ∧ _))

/-- The current ticker is not connected while it is threatened, and no callback
threatens it while it is connected. -/
def Orderly (c : ReconnectionConfig) (s : Feed) : Act → Prop
  | .established ticker => ticker = s.kws → ¬s.Threatened c
  | .onClose => s.isConnected → ¬s.onClose.Threatened c
  | _ => True

instance decidableOrderly (c : ReconnectionConfig) (s : Feed) : (a : Act) → Decidable (s.Orderly c a)
  | .established _ => inferInstanceAs (Decidable (_ = _ → ¬_))
  | .onClose => inferInstanceAs (Decidable (s.isConnected → ¬_))
  | .dropped _ | .acquire | .slept | .fetched _ _ | .polled _ | .stop => isTrue trivial

end Feed

open Feed

/-- No attempt closed or replaced a connected ticker, and there were not more
attempts than configured. -/
structure Undisturbed (c : ReconnectionConfig) (s : Feed) : Prop where
  undisrupted : s.disrupted = []
  bounded : s.reconnectionAttempts ≤ c.maxAttempts

structure Safe (c : ReconnectionConfig) (s : Feed) : Prop extends Undisturbed c s where
  nonneg : 0 ≤ s.reconnectionAttempts
  retries : s.holder.isSome → 0 < c.maxAttempts
  fresh : ∀ t ∈ s.opened, t < s.next
  connected : s.connected ⊆ s.opened
  calm : s.isConnected → ¬s.Threatened c

-- ---------------------------------------------------------------------------
-- Steps
-- ---------------------------------------------------------------------------

section
variable {c : ReconnectionConfig} {s s' : Feed}

theorem Safe.established (h : Safe c s) (hopened : t ∈ s.opened)
    (horderly : t = s.kws → ¬s.Threatened c) :
    Safe c { s with connected := insert t s.connected } where
  undisrupted := h.undisrupted
  bounded := h.bounded
  nonneg := h.nonneg
  retries := h.retries
  fresh := h.fresh
  connected := Finset.insert_subset hopened h.connected
  calm := by
    intro hconnected
    obtain heq | hconnected := Finset.mem_insert.mp hconnected
    · exact horderly heq.symm
    · exact h.calm hconnected

theorem Safe.dropped (h : Safe c s) (t : ℕ) :
    Safe c { s with connected := s.connected.erase t } where
  undisrupted := h.undisrupted
  bounded := h.bounded
  nonneg := h.nonneg
  retries := h.retries
  fresh := h.fresh
  connected := (Finset.erase_subset t s.connected).trans h.connected
  calm := fun hconnected => h.calm (Finset.mem_of_mem_erase hconnected)

theorem onClose_isConnected (s : Feed) : s.onClose.isConnected ↔ s.isConnected := by
  unfold Feed.onClose
  split
  · exact Iff.rfl
  · exact Iff.rfl

theorem Safe.onClose (h : Safe c s) (horderly : s.isConnected → ¬s.onClose.Threatened c) :
    Safe c s.onClose := by
  have hcalm : s.onClose.isConnected → ¬s.onClose.Threatened c :=
    fun hconnected => horderly ((onClose_isConnected s).mp hconnected)
  unfold Feed.onClose at hcalm ⊢
  split
  · rename_i hrunning
    rw [if_pos hrunning] at hcalm
    exact ⟨⟨h.undisrupted, h.bounded⟩, h.nonneg, h.retries, h.fresh, h.connected, hcalm⟩
  · exact h

theorem Safe.begin (h : Safe c s) (hfree : s.holder = none) (hpending : 0 < s.pending) :
    Safe c (Feed.begin c { s with pending := s.pending - 1 }) := by
  have hcalm : s.isConnected → s.running → c.maxAttempts ≤ s.reconnectionAttempts := by
    intro hconnected hrunning
    have hcalm := h.calm hconnected
    rw [Threatened, hfree] at hcalm
    exact not_lt.mp fun hbelow => hcalm ⟨hrunning, hpending, hbelow⟩
  unfold Feed.begin
  split
  · rename_i hstopped
    refine ⟨⟨h.undisrupted, h.bounded⟩, h.nonneg, h.retries, h.fresh, h.connected, fun _ => ?_⟩
    rw [Threatened, hfree]
    exact fun hthreat => hstopped hthreat.1
  rename_i hrunning
  split
  · refine ⟨⟨h.undisrupted, h.bounded⟩, h.nonneg, h.retries, h.fresh, h.connected, fun _ => ?_⟩
    rw [Threatened, hfree]
    exact fun hthreat => Bool.false_ne_true hthreat.1
  · rename_i hbelow
    have hbelow : s.reconnectionAttempts < c.maxAttempts := not_le.mp hbelow
    refine ⟨⟨h.undisrupted, Int.add_one_le_iff.mpr hbelow⟩, ?_, fun _ => h.nonneg.trans_lt hbelow,
      h.fresh, h.connected, fun hconnected => ?_⟩
    · exact Int.add_nonneg h.nonneg Int.one_nonneg
    · exact absurd hbelow (not_lt.mpr (hcalm hconnected (not_not.mp hrunning)))

theorem Safe.failed (h : Safe c s) (hconnected : ¬s.isConnected) : Safe c s.failed :=
  ⟨⟨h.undisrupted, h.bounded⟩, h.nonneg, fun hsome => absurd hsome Bool.false_ne_true, h.fresh,
    h.connected, fun h => absurd h hconnected⟩

theorem Safe.disconnected (h : Safe c s) (hholder : s.holder = some (.sleeping d) ∨
    s.holder = some .fetching) : ¬s.isConnected := by
  intro hconnected
  refine h.calm hconnected ?_
  rw [Threatened]
  obtain hholder | hholder := hholder
  · rw [hholder]; trivial
  · rw [hholder]; trivial

theorem Safe.replace (h : Safe c s) (hconnected : ¬s.isConnected) :
    Safe c s.replace ∧ ¬s.replace.isConnected := by
  have hnew : ¬s.replace.isConnected :=
    fun hmem => absurd (h.fresh s.next (h.connected hmem)) (lt_irrefl s.next)
  refine ⟨⟨⟨?_, h.bounded⟩, h.nonneg, h.retries, ?_, h.connected, fun h => absurd h hnew⟩, hnew⟩
  · rw [Feed.replace, if_neg hconnected]
    exact h.undisrupted
  · exact fun t ht => (h.fresh t ht).trans (Nat.lt_succ_self s.next)

theorem Safe.fetched (h : Safe c s) (hholder : s.holder = some .fetching)
    (ticker connect : Option Exc) : Safe c (s.fetched ticker connect) := by
  have hconnected : ¬s.isConnected := h.disconnected (d := 0) (.inr hholder)
  obtain ⟨hreplaced, hnew⟩ := h.replace hconnected
  unfold Feed.fetched
  split
  · exact h.failed hconnected
  split
  · exact hreplaced.failed hnew
  · refine ⟨⟨hreplaced.undisrupted, h.bounded⟩, h.nonneg,
      fun _ => h.retries (hholder ▸ rfl), fun t ht => ?_, ?_, fun h => absurd h hnew⟩
    · obtain rfl | ht := Finset.mem_insert.mp ht
      · exact Nat.lt_succ_self s.next
      · exact hreplaced.fresh t ht
    · exact h.connected.trans (Finset.subset_insert _ _)

theorem Safe.polled (h : Safe c s) (hmax : 0 ≤ c.maxAttempts) (hholder : s.holder = some .polling)
    (elapsed : ℚ) : Safe c (s.polled c elapsed) := by
  unfold Feed.polled
  split
  · rename_i hconnected
    refine ⟨⟨h.undisrupted, hmax⟩, le_rfl, fun hsome => absurd hsome Bool.false_ne_true, h.fresh,
      h.connected, fun _ hthreat => h.calm hconnected ?_⟩
    rw [Threatened, hholder]
    exact ⟨hthreat.1, hthreat.2.1⟩
  rename_i hconnected
  split
  · exact h.failed hconnected
  split
  · exact h.failed hconnected
  · exact h

theorem Safe.step (hmax : 0 ≤ c.maxAttempts) (h : Safe c s) (horderly : s.Orderly c a)
    (hstep : s.step c a = some s') : Safe c s' := by
  cases a with
  | established t =>
    obtain ⟨hopened, heq⟩ := Option.ite_none_right_eq_some.mp hstep
    cases heq
    exact h.established hopened horderly
  | dropped t => cases hstep; exact h.dropped t
  | onClose => cases hstep; exact h.onClose horderly
  | acquire =>
    obtain ⟨⟨hfree, hpending⟩, heq⟩ := Option.ite_none_right_eq_some.mp hstep
    cases heq
    exact h.begin hfree hpending
  | slept =>
    simp only [Feed.step] at hstep
    split at hstep
    · rename_i delay hholder
      cases hstep
      have hconnected := h.disconnected (.inl hholder)
      rw [closeExisting, if_neg hconnected]
      exact ⟨⟨h.undisrupted, h.bounded⟩, h.nonneg, fun _ => h.retries (hholder ▸ rfl), h.fresh,
        h.connected, fun h => absurd h hconnected⟩
    · cases hstep
  | fetched ticker connect =>
    obtain ⟨hholder, heq⟩ := Option.ite_none_right_eq_some.mp hstep
    cases heq
    exact h.fetched hholder ticker connect
  | polled elapsed =>
    obtain ⟨hholder, heq⟩ := Option.ite_none_right_eq_some.mp hstep
    cases heq
    exact h.polled hmax hholder elapsed
  | stop =>
    cases hstep
    refine ⟨⟨h.undisrupted, h.bounded⟩, h.nonneg, h.retries, h.fresh, h.connected,
      fun hconnected hthreat => h.calm hconnected ?_⟩
    unfold Threatened at hthreat ⊢
    split
    · trivial
    · trivial
    · rename_i hholder
      simp only [hholder] at hthreat
      exact absurd hthreat.1 Bool.false_ne_true
    · rename_i hholder
      simp only [hholder] at hthreat
      exact absurd hthreat.1 Bool.false_ne_true

theorem started_safe (hmax : 0 ≤ c.maxAttempts) : Safe c .started :=
  ⟨⟨rfl, hmax⟩, le_rfl, fun hsome => absurd hsome Bool.false_ne_true,
    fun _ ht => Finset.mem_singleton.mp ht ▸ Nat.zero_lt_one, Finset.empty_subset _,
    fun hconnected => absurd hconnected (Finset.notMem_empty 0)⟩

-- ---------------------------------------------------------------------------
-- Threats
-- ---------------------------------------------------------------------------

/-- Some continuation closes or replaces a connected ticker. -/
def Disrupts (c : ReconnectionConfig) (s : Feed) : Prop :=
  ∃ as s', Machine.run (Feed.step c) s as = some s' ∧ s'.disrupted ≠ []

theorem Disrupts.of_step (hstep : s.step c a = some s') (h : Disrupts c s') : Disrupts c s := by
  obtain ⟨as, s'', hrun, hdisrupted⟩ := h
  exact ⟨a :: as, s'', Machine.run_cons.mpr ⟨s', hstep, hrun⟩, hdisrupted⟩

theorem disrupts_of_sleeping (hholder : s.holder = some (.sleeping d)) (hconnected : s.isConnected) :
    Disrupts c s := by
  have hstep : s.step c .slept = some { s.closeExisting with holder := some .fetching } := by
    rw [Feed.step, hholder]
  refine Disrupts.of_step hstep ⟨[], _, rfl, ?_⟩
  rw [closeExisting, if_pos hconnected]
  exact List.cons_ne_nil _ _

theorem disrupts_of_free (hfree : s.holder = none) (hrunning : s.running) (hpending : 0 < s.pending)
    (hbelow : s.reconnectionAttempts < c.maxAttempts) (hconnected : s.isConnected) :
    Disrupts c s := by
  have hstep : s.step c .acquire = some (Feed.begin c { s with pending := s.pending - 1 }) :=
    if_pos ⟨hfree, hpending⟩
  rw [Feed.begin, if_neg (not_not.mpr hrunning), if_neg (not_le.mpr hbelow)] at hstep
  exact Disrupts.of_step hstep (disrupts_of_sleeping rfl hconnected)

theorem disrupts_of_threatened (h : s.Threatened c) (hretries : s.holder.isSome → 0 < c.maxAttempts)
    (hconnected : s.isConnected) : Disrupts c s := by
  unfold Threatened at h
  split at h
  · rename_i delay hholder
    exact disrupts_of_sleeping hholder hconnected
  · rename_i hholder
    have hstep : s.step c (.fetched none none) = some (s.fetched none none) := if_pos hholder
    refine Disrupts.of_step hstep ⟨[], _, rfl, ?_⟩
    simp only [Feed.fetched, Feed.replace, if_pos hconnected]
    exact List.cons_ne_nil _ _
  · rename_i hholder
    -- The attempt ends, and the counter starts again.
    have hstep : s.step c (.polled 0) = some { s with holder := none, reconnectionAttempts := 0 } := by
      rw [Feed.step, if_pos hholder, Feed.polled, if_pos hconnected]
    exact Disrupts.of_step hstep
      (disrupts_of_free rfl h.1 h.2 (hretries (hholder ▸ rfl)) hconnected)
  · rename_i hholder
    exact disrupts_of_free hholder h.1 h.2.1 h.2.2 hconnected

theorem disrupts_of_not_orderly (h : Safe c s) (hstep : s.step c a = some s')
    (horderly : ¬s.Orderly c a) : Disrupts c s' := by
  cases a with
  | established t =>
    obtain ⟨_, heq⟩ := Option.ite_none_right_eq_some.mp hstep
    cases heq
    obtain ⟨rfl, hthreat⟩ := Classical.not_imp.mp horderly
    exact disrupts_of_threatened (not_not.mp hthreat) h.retries (Finset.mem_insert_self _ _)
  | onClose =>
    cases hstep
    obtain ⟨hconnected, hthreat⟩ := Classical.not_imp.mp horderly
    refine disrupts_of_threatened (not_not.mp hthreat) ?_ ((onClose_isConnected s).mpr hconnected)
    intro hsome
    refine h.retries ?_
    unfold Feed.onClose at hsome
    split at hsome
    · exact hsome
    · exact hsome
  | dropped _ | acquire | slept | fetched _ _ | polled _ | stop => exact absurd trivial horderly

/-- No orderly run closes or replaces a connected ticker or takes the counter
beyond the maximum, and after any step that is not orderly some run does. -/
theorem reconnection_safe (c : ReconnectionConfig) (hmax : 0 ≤ c.maxAttempts) (as : List Act)
    (s : Feed) (hruns : Machine.Runs (Feed.step c) (Feed.Orderly c) .started as)
    (hrun : Machine.run (Feed.step c) .started as = some s) :
    Undisturbed c s ∧ ∀ a s', s.step c a = some s' → ¬s.Orderly c a →
      ∃ bs s'', Machine.run (Feed.step c) s' bs = some s'' ∧ ¬Undisturbed c s'' := by
  have hsafe : Safe c s := Machine.run_invariant
    (fun _ _ _ h horderly hstep => h.step hmax horderly hstep) (started_safe hmax) hruns hrun
  refine ⟨hsafe.toUndisturbed, fun a s' hstep horderly => ?_⟩
  obtain ⟨bs, s'', hrun, hdisrupted⟩ := disrupts_of_not_orderly hsafe hstep horderly
  exact ⟨bs, s'', hrun, fun h => hdisrupted h.undisrupted⟩

theorem single_attempt_safe :
    ∃ s, Machine.run (Feed.step {}) .started [.established 0, .dropped 0, .onClose, .acquire, .slept,
        .fetched none none, .polled 0, .established 1, .polled 1] = some s ∧ Undisturbed {} s :=
  ⟨_, rfl, (reconnection_safe {} (by decide) [.established 0, .dropped 0, .onClose, .acquire, .slept,
    .fetched none none, .polled 0, .established 1, .polled 1] _ (by decide +kernel) rfl).1⟩

/-- The ticker reconnects by itself once, and both close callbacks schedule an
attempt: the first connects ticker 1, and the second closes it. -/
theorem second_attempt_disrupts :
    ∃ s, Machine.run (Feed.step {}) .started [.established 0, .dropped 0, .onClose, .established 0,
        .dropped 0, .onClose, .acquire, .slept, .fetched none none, .polled 0, .established 1,
        .polled 1, .acquire, .slept, .onClose] = some s ∧ s.disrupted = [1] ∧ ¬Undisturbed {} s :=
  ⟨_, rfl, rfl, fun h => List.cons_ne_nil 1 [] h.undisrupted⟩

end

end AlphaPanda.MarketFeed
