import AlphaPanda.Lib.Decimal
import AlphaPanda.Lib.Dict
import AlphaPanda.Lib.SlidingWindow
import Mathlib.Algebra.Order.Ring.Rat

/-!
# The rate limiting middleware

Both of its paths: a sorted set of Redis, which records every request, and a
deque in memory, which records those it admits. A reading of the clock is also
the member that stands for it, since `str` tells readings apart; Redis counts
the same time.
-/

namespace AlphaPanda.Api

structure RateLimiting where
  calls : ℕ := 100
  period : ℤ := 60

/-- A key with a sorted set; without members there is no key. -/
structure Key where
  members : Finset ℚ
  expiresAt : Option ℚ

def Key.absent : Key := ⟨∅, none⟩

def Key.live (key : Key) (now : ℚ) : Key :=
  match key.expiresAt with
  | some t => if t ≤ now then .absent else key
  | none => key

def Key.zremrangebyscore (key : Key) (min max : ℚ) : Key :=
  let members := key.members.filter fun s => ¬(min ≤ s ∧ s ≤ max)
  if members = ∅ then .absent else { key with members := members }

def Key.zadd (key : Key) (score : ℚ) : Key := { key with members := insert score key.members }

/-- A time to live that is not positive deletes the key. -/
def Key.expire (key : Key) (now : ℚ) (seconds : ℤ) : Key :=
  if seconds ≤ 0 then .absent else { key with expiresAt := some (now + seconds) }

def Key.zcard (key : Key) : ℕ := key.members.card

def checkRedisRateLimit (m : RateLimiting) (now : ℚ) (key : Key) : Bool × Key :=
  let key := (key.live now).zremrangebyscore 0 (now - m.period)
  let key := key.zadd now
  let key := key.expire now (m.period + 1)
  (decide (key.zcard ≤ m.calls), key)

def checkMemoryRateLimit (m : RateLimiting) (now : ℚ) (clientRequests : List ℚ) : Bool × List ℚ :=
  let clientRequests := clientRequests.dropWhile (· ≤ now - m.period)
  if m.calls ≤ clientRequests.length then (false, clientRequests)
  else (true, clientRequests ++ [now])

structure Request where
  path : String := "/api/v1/portfolios"
  forwardedFor : Option String := none
  realIp : Option String := none
  host : Option String
  now : ℚ
  deriving DecidableEq

structure HttpException where
  statusCode : ℕ
  detail : String
  retryAfter : String
  deriving DecidableEq

def Request.clientIp (r : Request) : String :=
  match r.forwardedFor.filter (· ≠ ""), r.realIp.filter (· ≠ "") with
  | some forwardedFor, _ => stripped (forwardedFor.toList.takeWhile (· ≠ ','))
  | none, some realIp => stripped realIp.toList
  | none, none => r.host.getD "unknown"
where
  stripped (cs : List Char) : String := String.ofList (Decimal.strip cs)

def Request.isHealthCheck (r : Request) : Bool :=
  r.path ∈ ["/health", "/api/v1/monitoring/health"]

def RateLimiting.exceeded (m : RateLimiting) : HttpException where
  statusCode := 429
  detail := "Rate limit exceeded: " ++ toString m.calls ++ " requests per " ++ toString m.period ++
    " seconds"
  retryAfter := toString m.period

/-- A way to count the requests of a client: what it starts from, and a check. -/
structure Path (κ : Type) where
  fresh : κ
  check : ℚ → κ → Bool × κ

def redisPath (m : RateLimiting) : Path Key := ⟨.absent, checkRedisRateLimit m⟩

def memoryPath (m : RateLimiting) : Path (List ℚ) := ⟨[], checkMemoryRateLimit m⟩

/-- The exception that `dispatch` raises, or none where it calls the next
handler. -/
def dispatch (m : RateLimiting) (path : Path κ) (r : Request) (clients : Dict String κ) :
    Option HttpException × Dict String κ :=
  if r.isHealthCheck then (none, clients)
  else
    let (allowed, counted) := path.check r.now ((clients.get? r.clientIp).getD path.fresh)
    (if allowed then none else some m.exceeded, clients.set r.clientIp counted)

def serve (m : RateLimiting) (path : Path κ) :
    List Request → List (Request × Option HttpException) × Dict String κ
  | [] => ([], .empty)
  | r :: past =>
    let (answers, clients) := serve m path past
    let (answer, clients) := dispatch m path r clients
    ((r, answer) :: answers, clients)

end AlphaPanda.Api
