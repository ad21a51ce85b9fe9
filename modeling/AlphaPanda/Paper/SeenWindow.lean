import AlphaPanda.Lib.Deque
import AlphaPanda.Paper.Retry

/-!
# The idempotence window

`_seen_keys` and `_seen_queue` stay in step over any number of signals, and
hold the keys accepted last: 1999 of them, since the one that makes 2000 drops
the oldest.
-/

namespace AlphaPanda.Paper

open Coroutine

theorem SeenKeys.record_queue {key : String} (s : SeenKeys) (h : key ∉ s.keys) :
    (s.record key h).queue = (s.queue ++ [key]).rtake 1999 := by
  have hbounded := s.bounded
  unfold record
  split
  · rename_i hlen
    change (s.queue ++ [key]).tail = _
    rw [List.rtake, List.length_append, List.length_singleton, hlen, ← List.drop_one]
  · rename_i hlen
    change s.queue ++ [key] = _
    rw [List.rtake, List.length_append, List.length_singleton, Nat.sub_eq_zero_of_le (by omega),
      List.drop_zero]

def acceptedKey (s : State) (v : ValidatedSignal) : List String :=
  if idemKey v ∈ s.seen.keys then [] else [idemKey v]

def handleAll (svc : Service) (s : State) : List (ValidatedSignal × List (Option Exc)) → State
  | [] => s
  | (v, as) :: rest => handleAll svc (attempt svc v as s).world.st rest

def acceptedKeys (svc : Service) (s : State) : List (ValidatedSignal × List (Option Exc)) → List String
  | [] => []
  | (v, as) :: rest => acceptedKey s v ++ acceptedKeys svc (attempt svc v as s).world.st rest

theorem attempt_queue (svc : Service) (v : ValidatedSignal) (as : List (Option Exc)) {s : State}
    (h : s.seen.queue = accepted.rtake 1999) :
    (attempt svc v as s).world.st.seen.queue = (accepted ++ acceptedKey s v).rtake 1999 := by
  unfold acceptedKey
  split
  · rename_i hseen
    rw [attempt_seen hseen, List.append_nil]
    exact h
  · rename_i hnew
    rw [attempt_new hnew, executeSignal_keeps_seen.eq]
    change (s.seen.record (idemKey v) hnew).queue = _
    rw [SeenKeys.record_queue, h, List.rtake_append_singleton_rtake]

theorem handleAll_queue (svc : Service) (signals : List (ValidatedSignal × List (Option Exc)))
    {s : State} (h : s.seen.queue = accepted.rtake 1999) :
    (handleAll svc s signals).seen.queue = (accepted ++ acceptedKeys svc s signals).rtake 1999 := by
  induction signals generalizing s accepted with
  | nil => rw [acceptedKeys, List.append_nil]; exact h
  | cons signal rest ih =>
    rw [handleAll, acceptedKeys, ← List.append_assoc]
    exact ih (attempt_queue svc signal.1 signal.2 h)

/-- The set and the queue hold the same keys, without repetition: the last
1999 accepted. A signal of one of them changes nothing and publishes nothing. -/
structure IdempotenceWindow (svc : Service) (s : State) (accepted : List String) : Prop where
  mem_iff : ∀ k, k ∈ s.seen.keys ↔ k ∈ s.seen.queue
  nodup : s.seen.queue.Nodup
  bounded : s.seen.queue.length ≤ 1999
  last : s.seen.queue = accepted.rtake 1999
  ignores : ∀ v as, idemKey v ∈ accepted.rtake 1999 → (attempt svc v as s).world = World.start s

/-- After any sequence of signals the window holds, whatever their sends and
other awaits came to. -/
theorem idempotence_window (svc : Service) (signals : List (ValidatedSignal × List (Option Exc))) :
    IdempotenceWindow svc (handleAll svc .init signals) (acceptedKeys svc .init signals) := by
  have hstart : State.init.seen.queue = ([] : List String).rtake 1999 := (List.rtake_nil _).symm
  have hlast : (handleAll svc .init signals).seen.queue =
      (acceptedKeys svc .init signals).rtake 1999 := by
    rw [handleAll_queue svc signals hstart, List.nil_append]
  refine ⟨SeenKeys.mem_iff _, SeenKeys.nodup _, Nat.le_of_lt_succ (SeenKeys.bounded _), hlast, ?_⟩
  intro v as hrecent
  rw [← hlast, ← SeenKeys.mem_iff] at hrecent
  rw [attempt_seen hrecent]

end AlphaPanda.Paper
