import AlphaPanda.Lib.Expiry
import AlphaPanda.Streaming.EffectivelyOnce

/-!
# Deduplication

A deduplication manager over a Redis whose keys expire. The local cache only
holds keys that were marked, and is bounded; a mark is found again for as long
as Redis keeps it, whatever the cache has dropped.
-/

namespace AlphaPanda.Streaming

open Coroutine DeduplicationManager

-- ---------------------------------------------------------------------------
-- Sequences of calls
-- ---------------------------------------------------------------------------

inductive Operation where
  | isDuplicate (eventId broker : String)
  | markProcessed (eventId broker : String)

def Operation.key : Operation → String
  | .isDuplicate eventId broker | .markProcessed eventId broker => cacheKey eventId broker

def Operation.isMark : Operation → Bool
  | .isDuplicate .. => false
  | .markProcessed .. => true

def Operation.program (d : DeduplicationManager) : Operation → Layer Unit Unit Unit (Option Bool)
  | .isDuplicate eventId broker => some <$> d.isDuplicate eventId broker
  | .markProcessed eventId broker => do
    d.markProcessed eventId broker
    pure none

/-- A call some time after the one before it: what `set.pop` picks during it,
and how Redis answers. -/
structure Call where
  operation : Operation
  elapsed : ℚ≥0
  pop : List String → String
  pop_mem : l ≠ [] → pop l ∈ l
  answer : Option Exc

def Call.manager (c : Call) (d : DeduplicationManager) : DeduplicationManager :=
  { d with pop := c.pop, pop_mem := c.pop_mem }

structure Clocked where
  now : ℚ≥0
  redis : Expiry String
  localCache : List String

def setexAt (now : ℚ≥0) (redis : Expiry String) : Op Unit Unit × Option Exc → Expiry String
  | (.setex key ttl, none) => redis.setex key now ttl
  | _ => redis

namespace Clocked

def start (redis : Expiry String) : Clocked := ⟨0, redis, []⟩

variable (d : DeduplicationManager)

def outcome (s : Clocked) (c : Call) : Outcome (State Unit) (Op Unit Unit) Exc (Option Bool) :=
  (c.operation.program (c.manager d)).exec [c.answer]
    (World.start ⟨(), s.redis.live (s.now + c.elapsed), s.localCache, .empty⟩)

def next (s : Clocked) (c : Call) : Clocked where
  now := s.now + c.elapsed
  redis := (s.outcome d c).world.log.foldl (setexAt (s.now + c.elapsed)) s.redis
  localCache := (s.outcome d c).world.st.localCache

def after (s : Clocked) (calls : List Call) : Clocked := calls.foldl (next d) s

theorem after_concat (s : Clocked) (calls : List Call) (c : Call) :
    s.after d (calls ++ [c]) = (s.after d calls).next d c := by
  simp [after]

theorem after_append (s : Clocked) (calls later : List Call) :
    s.after d (calls ++ later) = (s.after d calls).after d later := by
  simp [after]

end Clocked

-- ---------------------------------------------------------------------------
-- One call
-- ---------------------------------------------------------------------------

section
variable {d : DeduplicationManager} {s : Clocked} {c : Call}

/-- What a call returns and does. -/
inductive Called (d : DeduplicationManager) (s : Clocked) (c : Call) :
    Except Exc (Option Bool) → Clocked → Prop
  | cached (hcheck : c.operation.isMark = false) (hcache : c.operation.key ∈ s.localCache) :
    Called d s c (.ok (some true)) { s with now := s.now + c.elapsed }
  | found (hcheck : c.operation.isMark = false)
    (hredis : d.redisKey c.operation.key ∈ s.redis.live (s.now + c.elapsed)) :
    Called d s c (.ok (some true)) { s with
      now := s.now + c.elapsed
      localCache := (c.manager d).addToLocalCache c.operation.key s.localCache }
  | missed (hcheck : c.operation.isMark = false)
    (hredis : d.redisKey c.operation.key ∉ s.redis.live (s.now + c.elapsed)) :
    Called d s c (.ok (some false)) { s with now := s.now + c.elapsed }
  | marked (hmark : c.operation.isMark = true) :
    Called d s c (.ok none) {
      now := s.now + c.elapsed
      redis := s.redis.setex (d.redisKey c.operation.key) (s.now + c.elapsed) d.ttlSeconds
      localCache := (c.manager d).addToLocalCache c.operation.key s.localCache }
  | failed (hanswer : c.answer = some e) :
    Called d s c (.error e) { s with now := s.now + c.elapsed }

theorem isDuplicate_cached {s : State Unit} (h : cacheKey eventId broker ∈ s.localCache) :
    (d.isDuplicate eventId broker : Layer Unit Unit Unit Bool).exec as (World.start s) =
      ⟨.ok true, World.start s, as⟩ := by
  simp [isDuplicate, World.start, h]

theorem isDuplicate_failed {s : State Unit} (h : cacheKey eventId broker ∉ s.localCache) :
    (d.isDuplicate eventId broker : Layer Unit Unit Unit Bool).exec [some e] (World.start s) =
      ⟨.error e, ⟨s, [(.exists (d.redisKey (cacheKey eventId broker)), some e)]⟩, []⟩ := by
  simp [isDuplicate, World.start, World.record, h]

theorem isDuplicate_found {s : State Unit} (h : cacheKey eventId broker ∉ s.localCache)
    (hredis : d.redisKey (cacheKey eventId broker) ∈ s.redis) :
    (d.isDuplicate eventId broker : Layer Unit Unit Unit Bool).exec [none] (World.start s) =
      ⟨.ok true,
        ⟨{ s with localCache := d.addToLocalCache (cacheKey eventId broker) s.localCache },
          [(.exists (d.redisKey (cacheKey eventId broker)), none)]⟩, []⟩ := by
  simp [isDuplicate, World.start, World.record, h, hredis]

theorem isDuplicate_missed {s : State Unit} (h : cacheKey eventId broker ∉ s.localCache)
    (hredis : d.redisKey (cacheKey eventId broker) ∉ s.redis) :
    (d.isDuplicate eventId broker : Layer Unit Unit Unit Bool).exec [none] (World.start s) =
      ⟨.ok false, ⟨s, [(.exists (d.redisKey (cacheKey eventId broker)), none)]⟩, []⟩ := by
  simp [isDuplicate, World.start, World.record, h, hredis]

theorem called (d : DeduplicationManager) (s : Clocked) (c : Call) :
    Called d s c (s.outcome d c).result (s.next d c) := by
  obtain ⟨operation, elapsed, pop, pop_mem, answer⟩ := c
  cases operation with
  | isDuplicate eventId broker =>
    unfold Clocked.next Clocked.outcome Operation.program
    dsimp only
    rw [exec_map]
    by_cases hcache : cacheKey eventId broker ∈ s.localCache
    · rw [isDuplicate_cached hcache]
      exact .cached rfl hcache
    cases answer with
    | some e =>
      rw [isDuplicate_failed hcache]
      exact .failed rfl
    | none =>
      by_cases hredis : d.redisKey (cacheKey eventId broker) ∈ s.redis.live (s.now + elapsed)
      · rw [isDuplicate_found hcache hredis]
        exact .found rfl hredis
      · rw [isDuplicate_missed hcache hredis]
        exact .missed rfl hredis
  | markProcessed eventId broker =>
    cases answer with
    | some e => exact .failed rfl
    | none => exact .marked rfl

theorem next_now (d : DeduplicationManager) (s : Clocked) (c : Call) :
    (s.next d c).now = s.now + c.elapsed := rfl

end

theorem redisKey_inj {d : DeduplicationManager} : d.redisKey k = d.redisKey k' ↔ k = k' := by
  constructor
  · intro h
    have hlist := congrArg String.toList h
    simp only [redisKey, String.toList_append, List.append_assoc, List.append_cancel_left_eq] at hlist
    exact String.toList_inj.mp hlist
  · rintro rfl
    rfl

theorem length_evict (d : DeduplicationManager) (n : ℕ) (cache : List String) :
    (d.evict n cache).length = cache.length - n := by
  induction n generalizing cache with
  | zero => rfl
  | succ n ih =>
    cases cache with
    | nil => exact (Nat.zero_sub _).symm
    | cons k cache =>
      have hpop : d.pop (k :: cache) ∈ k :: cache := d.pop_mem (List.cons_ne_nil k cache)
      change (d.evict n ((k :: cache).erase (d.pop (k :: cache)))).length = _
      rw [ih, List.length_erase_of_mem hpop, List.length_cons]
      omega

theorem nodup_evict (d : DeduplicationManager) (h : cache.Nodup) : (d.evict n cache).Nodup := by
  induction n generalizing cache with
  | zero => exact h
  | succ n ih =>
    cases cache with
    | nil => exact h
    | cons k cache => exact ih (h.erase _)

theorem length_addToLocalCache (d : DeduplicationManager) (k : String)
    (h : cache.length ≤ cacheMaxSize) : (d.addToLocalCache k cache).length ≤ cacheMaxSize := by
  have hinsert : ∀ l : List String, (l.insert k).length ≤ l.length + 1 := by
    intro l
    by_cases hk : k ∈ l
    · rw [List.insert_of_mem hk]
      exact Nat.le_succ _
    · rw [List.insert_of_not_mem hk, List.length_cons]
  rw [addToLocalCache]
  split
  · have hevict := hinsert (d.evict (cacheMaxSize / 4) cache)
    rw [length_evict] at hevict
    refine hevict.trans ?_
    unfold cacheMaxSize at *
    omega
  · exact (hinsert cache).trans (by omega)

theorem nodup_addToLocalCache (d : DeduplicationManager) (k : String) (h : cache.Nodup) :
    (d.addToLocalCache k cache).Nodup := by
  rw [addToLocalCache]
  refine List.Nodup.insert ?_
  split
  · exact nodup_evict d h
  · exact h

-- ---------------------------------------------------------------------------
-- Nothing but marks
-- ---------------------------------------------------------------------------

def MarkedBy (calls : List Call) (key : String) : Prop :=
  ∃ c ∈ calls, c.operation.isMark ∧ c.operation.key = key

/-- The local cache is a set of at most 1000 keys, and it and Redis know only
keys that were marked. -/
structure Faithful (d : DeduplicationManager) (calls : List Call) (s : Clocked) : Prop where
  bounded : s.localCache.length ≤ cacheMaxSize
  distinct : s.localCache.Nodup
  cached : ∀ k ∈ s.localCache, MarkedBy calls k
  stored : ∀ k, s.redis.Knows (d.redisKey k) → MarkedBy calls k

section
variable {d : DeduplicationManager} {s : Clocked} {calls : List Call} {redis : Expiry String}

theorem MarkedBy.append (h : MarkedBy calls key) (later : List Call) : MarkedBy (calls ++ later) key := by
  obtain ⟨c, hc, hmark, hkey⟩ := h
  exact ⟨c, List.mem_append_left _ hc, hmark, hkey⟩

theorem Faithful.cache (h : Faithful d calls s) (c : Call) (hmarked : MarkedBy calls k) :
    Faithful d calls { s with
      now := s.now + c.elapsed
      localCache := (c.manager d).addToLocalCache k s.localCache } where
  bounded := length_addToLocalCache _ _ h.bounded
  distinct := nodup_addToLocalCache _ _ h.distinct
  cached k' hk := by
    rcases mem_addToLocalCache _ hk with rfl | hk
    · exact hmarked
    · exact h.cached k' hk
  stored := h.stored

theorem Faithful.mono (h : Faithful d calls s) (later : List Call) (now : ℚ≥0) :
    Faithful d (calls ++ later) { s with now := now } where
  bounded := h.bounded
  distinct := h.distinct
  cached k hk := (h.cached k hk).append later
  stored k hk := (h.stored k hk).append later

theorem Faithful.next (h : Faithful d calls s) (c : Call) : Faithful d (calls ++ [c]) (s.next d c) := by
  have hlater := h.mono [c] s.now
  have hcalled := called d s c
  generalize (s.outcome d c).result = result, s.next d c = s' at hcalled
  cases hcalled with
  | cached _ _ => exact h.mono [c] _
  | found _ hredis => exact hlater.cache c (hlater.stored _ (Expiry.knows_of_live hredis))
  | missed _ _ => exact h.mono [c] _
  | marked hmark =>
    have hmarked : MarkedBy (calls ++ [c]) c.operation.key := ⟨c, by simp, hmark, rfl⟩
    obtain ⟨hbounded, hdistinct, hcached, hstored⟩ := hlater.cache c hmarked
    refine ⟨hbounded, hdistinct, hcached, fun k hk => ?_⟩
    rcases Expiry.knows_setex.mp hk with heq | hk
    · exact redisKey_inj.mp heq ▸ hmarked
    · exact hstored k hk
  | failed _ => exact h.mono [c] _

theorem faithful_after (hredis : ∀ k, ¬redis.Knows (d.redisKey k)) (calls : List Call) :
    Faithful d calls ((Clocked.start redis).after d calls) := by
  induction calls using List.reverseRecOn with
  | nil =>
    exact ⟨Nat.zero_le _, List.nodup_nil, fun _ hk => absurd hk List.not_mem_nil,
      fun k hk => absurd hk (hredis k)⟩
  | append_singleton calls c ih =>
    rw [Clocked.after_concat]
    exact ih.next c

theorem marked_of_duplicate (h : Faithful d calls s)
    (hresult : (s.outcome d c).result = .ok (some true)) : MarkedBy calls c.operation.key := by
  have hcalled := called d s c
  rw [hresult] at hcalled
  generalize s.next d c = s' at hcalled
  cases hcalled with
  | cached _ hcache => exact h.cached _ hcache
  | found _ hredis => exact h.stored _ (Expiry.knows_of_live hredis)

-- ---------------------------------------------------------------------------
-- No mark lost
-- ---------------------------------------------------------------------------

theorem after_now (d : DeduplicationManager) (s : Clocked) (calls : List Call) :
    (s.after d calls).now = s.now + (calls.map (·.elapsed)).sum := by
  induction calls generalizing s with
  | nil => exact (add_zero _).symm
  | cons c calls ih =>
    change ((s.next d c).after d calls).now = _
    rw [ih, next_now, List.map_cons, List.sum_cons, add_assoc]

theorem until_next (h : s.redis.Until key t) (ht : t ≤ s.now + d.ttlSeconds) (c : Call) :
    (s.next d c).redis.Until key t := by
  have hcalled := called d s c
  generalize (s.outcome d c).result = result, s.next d c = s' at hcalled
  cases hcalled with
  | cached _ _ | found _ _ | missed _ _ | failed _ => exact h
  | marked _ => exact h.setex _ (ht.trans (add_le_add_left (le_add_of_nonneg_right c.elapsed.2) _))

theorem until_after (h : s.redis.Until key t) (ht : t ≤ s.now + d.ttlSeconds) (calls : List Call) :
    (s.after d calls).redis.Until key t := by
  induction calls generalizing s with
  | nil => exact h
  | cons c calls ih =>
    refine ih (until_next h ht c) (ht.trans ?_)
    rw [next_now]
    exact add_le_add_left (le_add_of_nonneg_right c.elapsed.2) _

theorem until_marked (hresult : (s.outcome d m).result = .ok none) :
    (s.next d m).redis.Until (d.redisKey m.operation.key) ((s.next d m).now + d.ttlSeconds) := by
  have hcalled := called d s m
  rw [hresult] at hcalled
  rw [next_now]
  generalize s.next d m = s' at hcalled
  cases hcalled with
  | marked _ => exact Expiry.until_setex_self _ _ _ _

theorem duplicate_of_live (hcheck : c.operation.isMark = false)
    (hlive : d.redisKey c.operation.key ∈ s.redis.live (s.now + c.elapsed)) (hanswer : c.answer = none) :
    (s.outcome d c).result = .ok (some true) := by
  have hcalled := called d s c
  generalize hresult : (s.outcome d c).result = result at hcalled ⊢
  generalize s.next d c = s' at hcalled
  cases hcalled with
  | cached _ _ => rfl
  | found _ _ => rfl
  | missed _ hredis => exact absurd hlive hredis
  | marked hmark => rw [hmark] at hcheck; cases hcheck
  | failed hfail => rw [hanswer] at hfail; cases hfail

/-- The local cache is a set of at most 1000 keys; what is found to be a
duplicate was marked before; and a mark is found until Redis drops it. -/
theorem deduplication_correct (hredis : ∀ k, ¬redis.Knows (d.redisKey k)) :
    (∀ calls, ((Clocked.start redis).after d calls).localCache.Nodup ∧
      ((Clocked.start redis).after d calls).localCache.length ≤ 1000) ∧
    (∀ before c, (((Clocked.start redis).after d before).outcome d c).result = .ok (some true) →
        ∃ m ∈ before, m.operation.isMark ∧ m.operation.key = c.operation.key) ∧
    ∀ before m between c, m.operation.isMark →
      (((Clocked.start redis).after d before).outcome d m).result = .ok none →
        c.operation.isMark = false → c.operation.key = m.operation.key → c.answer = none →
          ((between.map (·.elapsed)).sum + c.elapsed : ℚ≥0) < d.ttlSeconds →
            (((Clocked.start redis).after d (before ++ m :: between)).outcome d c).result =
              .ok (some true) := by
  refine ⟨fun calls => ?_, fun before c => ?_, ?_⟩
  · obtain ⟨hbounded, hdistinct, -, -⟩ := faithful_after hredis calls
    exact ⟨hdistinct, hbounded⟩
  · exact marked_of_duplicate (faithful_after hredis before)
  · intro before m between c _ hresult hcheck hkey hanswer hage
    have hkept := until_after (until_marked hresult) le_rfl between
    rw [Clocked.after_append]
    change ((((Clocked.start redis).after d before).next d m).after d between |>.outcome d c).result = _
    refine duplicate_of_live hcheck (hkey ▸ hkept.live ?_) hanswer
    rw [after_now, add_assoc]
    exact add_lt_add_right hage _

end

def calledAfter (operation : Operation) (elapsed : ℚ≥0) : Call where
  operation := operation
  elapsed := elapsed
  pop := popsFirst.pop
  pop_mem := popsFirst.pop_mem
  answer := none

/-- Redis still holds what was marked an hour, but a second, ago. -/
theorem still_marked :
    (((Clocked.start .empty).after popsFirst [calledAfter (.markProcessed "e1" "paper") 0]).outcome
      popsFirst (calledAfter (.isDuplicate "e1" "paper") 3599)).result = .ok (some true) := by
  obtain ⟨-, -, hkept⟩ := deduplication_correct (d := popsFirst)
    fun k => Expiry.not_knows_empty
  exact hkept [] (calledAfter (.markProcessed "e1" "paper") 0) [] (calledAfter (.isDuplicate "e1" "paper") 3599)
    rfl rfl rfl rfl rfl (by decide +kernel)

end AlphaPanda.Streaming
