import AlphaPanda.Api.RateLimiting

/-!
# The two limiters compared

The deque keeps what it admits, so no window holds more of that than the limit.
The sorted set keeps one member for each time a request came at, admitted or
not.
-/

namespace AlphaPanda.Api

open SlidingWindow

def Request.countsFor (r : Request) (client : String) : Bool :=
  decide (r.clientIp = client) && !r.isHealthCheck

def times (client : String) (rs : List Request) : List ℚ :=
  (rs.filter (·.countsFor client)).map (·.now)

structure Timeline (ts : List ℚ) : Prop where
  ordered : ts.Pairwise (· ≥ ·)
  nonneg : ∀ t ∈ ts, 0 ≤ t

def answers (m : RateLimiting) (path : Path κ) (client : String) (rs : List Request) :
    List (Request × Option HttpException) :=
  (serve m path rs).1.filter (·.1.countsFor client)

def admitted (m : RateLimiting) (path : Path κ) (client : String) (rs : List Request) : List ℚ :=
  ((answers m path client rs).filter (·.2 = none)).map (·.1.now)

/-- Both paths answer a client alike, and neither admits more than the limit in
a window. -/
structure Equivalent (m : RateLimiting) (client : String) (rs : List Request) : Prop where
  same : answers m (redisPath m) client rs = answers m (memoryPath m) client rs
  redis : ∀ u, (within (m.period : ℚ) u (admitted m (redisPath m) client rs)).length ≤ m.calls
  memory : ∀ u, (within (m.period : ℚ) u (admitted m (memoryPath m) client rs)).length ≤ m.calls

-- ---------------------------------------------------------------------------
-- Times alone
-- ---------------------------------------------------------------------------

def Path.after (path : Path κ) : List ℚ → κ
  | [] => path.fresh
  | t :: past => (path.check t (path.after past)).2

def Path.admits (path : Path κ) (t : ℚ) (past : List ℚ) : Bool := (path.check t (path.after past)).1

def Path.admitted (path : Path κ) : List ℚ → List ℚ
  | [] => []
  | t :: past => if path.admits t past then t :: path.admitted past else path.admitted past

def Path.Agrees (path : Path κ) (path' : Path κ') : List ℚ → Prop
  | [] => True
  | t :: past => path.admits t past = path'.admits t past ∧ path.Agrees path' past

section
variable {m : RateLimiting} {path : Path κ} {client : String} {r : Request} {past : List Request}

theorem times_cons_of_counts (h : r.countsFor client) :
    times client (r :: past) = r.now :: times client past := by
  simp [times, h]

theorem times_cons_of_not (h : ¬r.countsFor client) : times client (r :: past) = times client past := by
  simp [times, h]

theorem countsFor_iff : r.countsFor client ↔ r.clientIp = client ∧ ¬r.isHealthCheck := by
  simp [Request.countsFor]

theorem serve_counted (rs : List Request) :
    ((serve m path rs).2.get? client).getD path.fresh = path.after (times client rs) := by
  induction rs with
  | nil => rfl
  | cons r past ih =>
    rw [serve]
    dsimp only
    rw [dispatch]
    by_cases hhealth : r.isHealthCheck
    · rw [if_pos hhealth, times_cons_of_not (by simp [countsFor_iff, hhealth])]
      exact ih
    · rw [if_neg hhealth]
      dsimp only
      rw [Dict.get?_set]
      by_cases hclient : r.clientIp = client
      · subst hclient
        rw [if_pos rfl, Option.getD_some, ih,
          times_cons_of_counts (countsFor_iff.mpr ⟨rfl, hhealth⟩), Path.after]
      · rw [if_neg (Ne.symm hclient), times_cons_of_not (by simp [countsFor_iff, hclient])]
        exact ih

theorem answers_cons_of_counts (h : r.countsFor client) : answers m path client (r :: past) =
    (r, if path.admits r.now (times client past) then none else some m.exceeded) ::
      answers m path client past := by
  obtain ⟨rfl, hhealth⟩ := countsFor_iff.mp h
  rw [answers, serve]
  dsimp only
  simp only [List.filter_cons, h, if_true]
  rw [dispatch, if_neg hhealth, serve_counted, Path.admits]
  rfl

theorem answers_cons_of_not (h : ¬r.countsFor client) :
    answers m path client (r :: past) = answers m path client past := by
  simp [answers, serve, h]

theorem admitted_eq (rs : List Request) :
    admitted m path client rs = path.admitted (times client rs) := by
  induction rs with
  | nil => rfl
  | cons r past ih =>
    by_cases h : r.countsFor client
    · rw [admitted, answers_cons_of_counts h, times_cons_of_counts h, Path.admitted, ← ih, admitted]
      by_cases hadmits : path.admits r.now (times client past) <;> simp [hadmits]
    · rw [admitted, answers_cons_of_not h, times_cons_of_not h, ← ih, admitted]

theorem answers_eq_iff {path' : Path κ'} (rs : List Request) :
    answers m path client rs = answers m path' client rs ↔
      path.Agrees path' (times client rs) := by
  induction rs with
  | nil => exact iff_of_true rfl trivial
  | cons r past ih =>
    by_cases h : r.countsFor client
    · rw [answers_cons_of_counts h, answers_cons_of_counts h, times_cons_of_counts h, List.cons_eq_cons,
        ih, Path.Agrees, Prod.mk_inj, and_iff_right rfl]
      refine and_congr_left fun _ => ?_
      cases path.admits r.now (times client past) <;>
        cases path'.admits r.now (times client past) <;> simp
    · rw [answers_cons_of_not h, answers_cons_of_not h, times_cons_of_not h]
      exact ih

end

-- ---------------------------------------------------------------------------
-- Memory
-- ---------------------------------------------------------------------------

theorem dropWhile_eq_filter {cutoff : ℚ} {q : List ℚ} (h : q.Pairwise (· ≤ ·)) :
    q.dropWhile (· ≤ cutoff) = q.filter (cutoff < ·) := by
  induction q with
  | nil => rfl
  | cons t rest ih =>
    rw [List.pairwise_cons] at h
    by_cases ht : t ≤ cutoff
    · rw [List.dropWhile_cons_of_pos (by simpa using ht), ih h.2,
        List.filter_cons_of_neg (by simpa using ht)]
    · rw [List.dropWhile_cons_of_neg (by simpa using ht), List.filter_eq_self.mpr]
      intro s hs
      rcases List.mem_cons.mp hs with rfl | hs
      · simpa using ht
      · simpa using (not_le.mp ht).trans_le (h.1 s hs)

/-- The deque, latest first, stands for what was admitted. -/
structure Stands (p : ℚ) (q ts admitted : List ℚ) : Prop where
  ordered : q.Pairwise (· ≤ ·)
  bounded : ∀ s ∈ q, ∃ t ∈ ts, s ≤ t
  same : ∀ t, (∀ s ∈ ts, s ≤ t) → recent p t q.reverse = recent p t admitted

theorem recent_reverse (p t : ℚ) (q : List ℚ) :
    (recent p t q.reverse) = (q.filter (t - p < ·)).reverse := by
  rw [recent, List.filter_reverse]

theorem memory_admits_of {m : RateLimiting} {q ts admitted : List ℚ}
    (h : Stands m.period q ts admitted) (ht : ∀ s ∈ ts, s ≤ t) :
    (checkMemoryRateLimit m t q).1 = decide ((recent (m.period : ℚ) t admitted).length < m.calls) := by
  rw [← h.same t ht, recent_reverse, List.length_reverse, checkMemoryRateLimit,
    dropWhile_eq_filter h.ordered]
  split
  · rename_i hfull
    exact (decide_eq_false (not_lt.mpr hfull)).symm
  · rename_i hroom
    exact (decide_eq_true (not_le.mp hroom)).symm

theorem memory_stands (m : RateLimiting) {ts : List ℚ} (h : ts.Pairwise (· ≥ ·)) :
    Stands m.period ((memoryPath m).after ts) ts ((memoryPath m).admitted ts) := by
  induction ts with
  | nil =>
    refine ⟨List.Pairwise.nil, fun s hs => ?_, fun _ _ => rfl⟩
    cases hs
  | cons t past ih =>
    rw [List.pairwise_cons] at h
    have hpast := ih h.2
    have hsame := hpast.same t h.1
    generalize hq : (memoryPath m).after past = q at hpast hsame
    have hkept : recent (m.period : ℚ) t (q.filter (t - m.period < ·)).reverse =
        recent (m.period : ℚ) t ((memoryPath m).admitted past) := by
      rw [← recent_reverse, recent_recent _ le_rfl, hsame]
    have hordered : (q.filter (t - m.period < ·)).Pairwise (· ≤ ·) :=
      hpast.ordered.sublist List.filter_sublist
    have hbounded : ∀ s ∈ q.filter (t - m.period < ·), ∃ t' ∈ past, s ≤ t' := fun s hs =>
      hpast.bounded s (List.mem_filter.mp hs).1
    rw [Path.after, Path.admitted, Path.admits, hq]
    show Stands _ (checkMemoryRateLimit m t q).2 _ (if (checkMemoryRateLimit m t q).1 then _ else _)
    rw [checkMemoryRateLimit, dropWhile_eq_filter hpast.ordered]
    split
    · -- Rejected, and not recorded.
      refine ⟨hordered, fun s hs => ?_, fun t' ht' => ?_⟩
      · obtain ⟨t', ht', hle⟩ := hbounded s hs
        exact ⟨t', List.mem_cons_of_mem _ ht', hle⟩
      · exact recent_congr (ht' t List.mem_cons_self) hkept
    · refine ⟨?_, fun s hs => ?_, fun t' ht' => ?_⟩
      · refine List.pairwise_append.mpr ⟨hordered, List.pairwise_singleton _ _, fun s hs s' hs' => ?_⟩
        obtain ⟨t', ht', hle⟩ := hbounded s hs
        rw [List.mem_singleton.mp hs']
        exact hle.trans (h.1 t' ht')
      · rcases List.mem_append.mp hs with hs | hs
        · obtain ⟨t', ht', hle⟩ := hbounded s hs
          exact ⟨t', List.mem_cons_of_mem _ ht', hle⟩
        · exact ⟨t, List.mem_cons_self, (List.mem_singleton.mp hs).le⟩
      · have hrest := recent_congr (ht' t List.mem_cons_self) hkept
        rw [List.reverse_append, List.reverse_singleton, List.singleton_append, if_pos rfl]
        simp only [recent, List.filter_cons] at hrest ⊢
        rw [hrest]

theorem memory_admits (m : RateLimiting) {past : List ℚ} (h : (t :: past).Pairwise (· ≥ ·)) :
    (memoryPath m).admits t past =
      decide ((recent (m.period : ℚ) t ((memoryPath m).admitted past)).length < m.calls) := by
  rw [List.pairwise_cons] at h
  exact memory_admits_of (memory_stands m h.2) h.1

theorem memory_limited (m : RateLimiting) {ts : List ℚ} (h : ts.Pairwise (· ≥ ·)) :
    Limited m.calls (m.period : ℚ) ((memoryPath m).admitted ts) := by
  induction ts with
  | nil => trivial
  | cons t past ih =>
    have hadmits := memory_admits m h
    have hpast := ih (List.pairwise_cons.mp h).2
    rw [Path.admitted]
    split
    · rename_i hyes
      exact ⟨of_decide_eq_true (hadmits ▸ hyes), hpast⟩
    · exact hpast

-- ---------------------------------------------------------------------------
-- Redis
-- ---------------------------------------------------------------------------

def crowd (p t : ℚ) (past : List ℚ) : ℕ := (insert t (recent p t past).toFinset).card

/-- The members of the key stand for all the times. -/
structure Records (p : ℚ) (key : Key) (ts : List ℚ) : Prop where
  members : key.members ⊆ ts.toFinset
  same : ∀ t, (∀ s ∈ ts, s ≤ t) →
    (key.live t).members.filter (t - p < ·) = (recent p t ts).toFinset

theorem live_subset (key : Key) (t : ℚ) : (key.live t).members ⊆ key.members := by
  unfold Key.live
  split
  · split
    · exact Finset.empty_subset _
    · exact Finset.Subset.refl _
  · exact Finset.Subset.refl _

theorem members_zremrangebyscore (key : Key) (min max : ℚ) :
    (key.zremrangebyscore min max).members = key.members.filter fun s => ¬(min ≤ s ∧ s ≤ max) := by
  unfold Key.zremrangebyscore
  dsimp only
  split
  · rename_i h
    exact h.symm
  · rfl

theorem added_members {p : ℚ} {key : Key} {ts : List ℚ} (h : Records p key ts)
    (hnonneg : ∀ t ∈ ts, 0 ≤ t) (ht : ∀ s ∈ ts, s ≤ t) :
    (((key.live t).zremrangebyscore 0 (t - p)).zadd t).members =
      insert t (recent p t ts).toFinset := by
  have hkept : (key.live t).members.filter (fun s => ¬(0 ≤ s ∧ s ≤ t - p)) =
      (key.live t).members.filter (t - p < ·) := by
    refine Finset.filter_congr fun s hs => ?_
    have hs : 0 ≤ s := hnonneg s (List.mem_toFinset.mp (h.members (live_subset key t hs)))
    rw [not_and, not_le]
    exact ⟨fun himp => himp hs, fun hlt _ => hlt⟩
  rw [Key.zadd, members_zremrangebyscore, hkept, h.same t ht]

theorem recent_eq_nil {p t : ℚ} {ts : List ℚ} (h : ∀ s ∈ ts, s ≤ t - p) : recent p t ts = [] :=
  List.filter_eq_nil_iff.mpr fun s hs => by simpa using h s hs

theorem redis_records (m : RateLimiting) {ts : List ℚ} (h : Timeline ts) :
    Records m.period ((redisPath m).after ts) ts := by
  obtain ⟨hordered, hnonneg⟩ := h
  induction ts with
  | nil => exact ⟨Finset.empty_subset _, fun _ _ => rfl⟩
  | cons t past ih =>
    rw [List.pairwise_cons] at hordered
    rw [List.forall_mem_cons] at hnonneg
    have hadded := added_members (ih hordered.2 hnonneg.2) hnonneg.2 hordered.1
    show Records _ (checkRedisRateLimit m t ((redisPath m).after past)).2 _
    rw [checkRedisRateLimit, Key.expire]
    dsimp only
    split
    · rename_i hperiod
      have hperiod : (m.period : ℚ) + 1 ≤ 0 := by exact_mod_cast hperiod
      refine ⟨Finset.empty_subset _, fun t' ht' => ?_⟩
      rw [recent_eq_nil fun s hs => by linarith [ht' s hs]]
      rfl
    · refine ⟨?_, fun t' ht' => ?_⟩
      · rw [hadded, List.toFinset_cons]
        refine Finset.insert_subset_insert t fun s hs => ?_
        rw [List.mem_toFinset] at hs ⊢
        exact (List.mem_filter.mp hs).1
      · have hle := ht' t List.mem_cons_self
        rw [Key.live]
        dsimp only
        split
        · -- The key expired, and so had everything in it.
          rename_i hexpired
          push_cast at hexpired
          rw [recent_eq_nil]
          · rfl
          · intro s hs
            rcases List.mem_cons.mp hs with rfl | hs
            · linarith
            · linarith [hordered.1 s hs]
        · rw [hadded]
          ext s
          simp only [recent, Finset.mem_filter, Finset.mem_insert, List.mem_toFinset, List.mem_filter,
            List.mem_cons, decide_eq_true_eq]
          constructor
          · rintro ⟨rfl | ⟨hs, -⟩, hlt⟩
            · exact ⟨.inl rfl, hlt⟩
            · exact ⟨.inr hs, hlt⟩
          · rintro ⟨rfl | hs, hlt⟩
            · exact ⟨.inl rfl, hlt⟩
            · exact ⟨.inr ⟨hs, by linarith⟩, hlt⟩

theorem redis_admits (m : RateLimiting) (hcalls : 1 ≤ m.calls) {past : List ℚ}
    (h : Timeline (t :: past)) :
    (redisPath m).admits t past = decide (crowd m.period t past ≤ m.calls) := by
  obtain ⟨hordered, hnonneg⟩ := h
  rw [List.pairwise_cons] at hordered
  rw [List.forall_mem_cons] at hnonneg
  have hadded := added_members (redis_records m ⟨hordered.2, hnonneg.2⟩) hnonneg.2 hordered.1
  show (checkRedisRateLimit m t ((redisPath m).after past)).1 = _
  rw [checkRedisRateLimit, Key.expire, Key.zcard]
  dsimp only
  split
  · rename_i hperiod
    have hperiod : (m.period : ℚ) + 1 ≤ 0 := by exact_mod_cast hperiod
    rw [crowd, recent_eq_nil fun s hs => by linarith [hordered.1 s hs]]
    simp [Key.absent, hcalls]
  · rw [hadded, crowd]

-- ---------------------------------------------------------------------------
-- Both
-- ---------------------------------------------------------------------------

def uncrowded (c : ℕ) (p : ℚ) : List ℚ → List ℚ
  | [] => []
  | t :: past => if crowd p t past ≤ c then t :: uncrowded c p past else uncrowded c p past

/-- A request is crowded exactly where as many uncrowded ones as the limit are
in its window before it. -/
def Calm (c : ℕ) (p : ℚ) : List ℚ → Prop
  | [] => True
  | t :: past => (crowd p t past ≤ c ↔ (recent p t (uncrowded c p past)).length < c) ∧ Calm c p past

theorem redis_admitted (m : RateLimiting) (hcalls : 1 ≤ m.calls) {ts : List ℚ} (h : Timeline ts) :
    (redisPath m).admitted ts = uncrowded m.calls m.period ts := by
  induction ts with
  | nil => rfl
  | cons t past ih =>
    have hpast : Timeline past :=
      ⟨(List.pairwise_cons.mp h.ordered).2, (List.forall_mem_cons.mp h.nonneg).2⟩
    rw [Path.admitted, redis_admits m hcalls h, uncrowded, ih hpast]
    simp only [decide_eq_true_eq]

theorem Path.Agrees.admitted {path : Path κ} {path' : Path κ'} {ts : List ℚ}
    (h : path.Agrees path' ts) : path.admitted ts = path'.admitted ts := by
  induction ts with
  | nil => rfl
  | cons t past ih => rw [Path.admitted, Path.admitted, h.1, ih h.2]

theorem agrees_iff_calm (m : RateLimiting) (hcalls : 1 ≤ m.calls) {ts : List ℚ} (h : Timeline ts) :
    (redisPath m).Agrees (memoryPath m) ts ↔ Calm m.calls m.period ts := by
  induction ts with
  | nil => exact Iff.rfl
  | cons t past ih =>
    have hpast : Timeline past :=
      ⟨(List.pairwise_cons.mp h.ordered).2, (List.forall_mem_cons.mp h.nonneg).2⟩
    rw [Path.Agrees, Calm, ← ih hpast]
    refine and_congr_left fun hagrees => ?_
    -- Up to here both admitted the uncrowded requests.
    rw [redis_admits m hcalls h, memory_admits m h.ordered, ← hagrees.admitted,
      redis_admitted m hcalls hpast, decide_eq_decide]

/-- The two paths are equivalent and keep to the limit exactly on calm
timelines. -/
theorem equivalent_iff (m : RateLimiting) (client : String) (rs : List Request)
    (hcalls : 1 ≤ m.calls) (h : Timeline (times client rs)) :
    Equivalent m client rs ↔ Calm m.calls m.period (times client rs) := by
  rw [← agrees_iff_calm m hcalls h, ← answers_eq_iff]
  constructor
  · exact Equivalent.same
  · intro hsame
    have hagrees := (answers_eq_iff rs).mp hsame
    have hcapped := (memory_limited m h.ordered).capped
    refine ⟨hsame, ?_, ?_⟩
    · rw [admitted_eq, hagrees.admitted]
      exact hcapped
    · rw [admitted_eq]
      exact hcapped

def requestsAt (ts : List ℚ) : List Request := ts.map fun t => { host := some "10.0.0.7", now := t }

/-- Three requests, of which the last finds the window full, and one when it is
empty again. -/
theorem slow_equivalent :
    Equivalent { calls := 2, period := 60 } "10.0.0.7" (requestsAt [200, 102, 101, 100]) ↔
      Calm 2 (60 : ℤ) (times "10.0.0.7" (requestsAt [200, 102, 101, 100])) :=
  equivalent_iff { calls := 2, period := 60 } "10.0.0.7" (requestsAt [200, 102, 101, 100])
    (by decide) ⟨by decide +kernel, by decide +kernel⟩

/-- Two requests at one reading of the clock are one member of the set. -/
theorem tied_requests : ¬∀ (m : RateLimiting) client rs, 1 ≤ m.calls → Timeline (times client rs) →
    Equivalent m client rs := by
  intro hclaim
  have hequivalent := hclaim { calls := 1, period := 60 } "10.0.0.7" (requestsAt [100, 100])
    (by decide) ⟨by decide +kernel, by decide +kernel⟩
  exact absurd hequivalent.same (by decide +kernel)

end AlphaPanda.Api
