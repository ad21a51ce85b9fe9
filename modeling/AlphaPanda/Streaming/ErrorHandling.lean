import AlphaPanda.Exceptions
import Mathlib.Algebra.Order.Ring.Rat
import Mathlib.Data.List.Infix

/-!
# Classifying errors

`ErrorClassifier` of `core/streaming/error_handling.py`, and what
`handle_processing_error` decides from the class of an error: a retry or the
dead letter queue.
-/

namespace AlphaPanda.Streaming

inductive ErrorType where
  | transient
  | poison
  | business
  | infrastructure
  | authentication
  | rateLimit
  deriving DecidableEq, Repr

def ErrorType.value : ErrorType → String
  | .transient => "transient"
  | .poison => "poison"
  | .business => "business"
  | .infrastructure => "infrastructure"
  | .authentication => "authentication"
  | .rateLimit => "rate_limit"

structure RetryConfig where
  maxAttempts : ℤ := 5
  baseDelay : ℚ := 1
  maxDelay : ℚ := 60
  exponentialBase : ℚ := 2
  jitter : Bool := true
  deriving DecidableEq

/-- The delay before an attempt; `random` is what `random.random()` draws. -/
def RetryConfig.getDelay (c : RetryConfig) (attempt : ℕ) (random : ℚ) : ℚ :=
  let delay := min (c.baseDelay * c.exponentialBase ^ attempt) c.maxDelay
  if c.jitter then delay * (1 / 2 + 1 / 2 * random) else delay

def getRetryDelay (retryCount : ℤ) : ℚ := 2 ^ retryCount

namespace ErrorClassifier

def errorMappings : List (String × ErrorType) :=
  [("ConnectionError", .transient), ("TimeoutError", .transient),
   ("KafkaTimeoutError", .transient), ("CommitFailedError", .transient),
   ("RebalanceInProgressError", .transient),
   ("BrokerConnectionError", .transient), ("BrokerAPIError", .transient),
   ("MarketDataError", .transient), ("MarketDataConnectionError", .transient),
   ("StaleDataError", .transient), ("StrategyExecutionError", .transient),
   ("DatabaseError", .infrastructure), ("RedisError", .infrastructure),
   ("StreamingError", .infrastructure), ("PortfolioStateError", .infrastructure),
   ("OrderTimeoutError", .transient),
   ("ValidationError", .poison), ("ValueError", .poison), ("KeyError", .poison),
   ("JSONDecodeError", .poison), ("TypeError", .poison), ("UnicodeDecodeError", .poison),
   ("MessageDeserializationError", .poison), ("ConfigurationError", .poison),
   ("InstrumentNotFoundError", .poison), ("StrategyConfigurationError", .poison),
   ("RiskValidationError", .poison), ("PositionLimitError", .poison),
   ("InsufficientFundsError", .poison), ("OrderRejectionError", .poison),
   ("AuthorizationError", .poison),
   ("SQLAlchemyError", .infrastructure), ("RedisConnectionError", .infrastructure),
   ("DatabaseConnectionError", .infrastructure), ("InfrastructureError", .infrastructure),
   ("AuthenticationError", .authentication), ("TokenExpiredError", .authentication),
   ("UnauthorizedError", .authentication),
   ("RateLimitError", .rateLimit), ("TooManyRequestsError", .rateLimit)]

def rateLimitPatterns : List String := ["rate limit", "too many requests"]

def transientPatterns : List String :=
  ["connection refused", "connection reset", "timeout", "temporary failure",
   "service unavailable", "network unreachable"]

def poisonPatterns : List String :=
  ["invalid format", "malformed", "parse error", "schema validation", "unknown field",
   "missing required"]

def authPatterns : List String :=
  ["unauthorized", "authentication failed", "invalid token", "access denied", "forbidden",
   "credentials"]

/-- `str.lower()` as far as it matters for ASCII patterns: the Kelvin sign is
also a `K`. -/
def lower (s : String) : String := s.map fun c => if c = '\u212a' then 'k' else c.toLower

def anyPattern (patterns : List String) (text : String) : Bool :=
  patterns.any fun p => p.toList <:+: (lower text).toList

def classifyError (e : Exc) : ErrorType :=
  match e.kind with
  | .permanent => .poison
  | .transient .authentication _ _ => .authentication
  | .transient .broker _ _ => if anyPattern rateLimitPatterns e.message then .rateLimit else .transient
  | .transient .infrastructure _ _ => .infrastructure
  | .transient .other _ _ => .transient
  | .builtin | .alphaPanda =>
    match errorMappings.lookup e.name with
    | some errorType => errorType
    | none =>
      if anyPattern transientPatterns e.message then .transient
      else if anyPattern poisonPatterns e.message then .poison
      else if anyPattern authPatterns e.message then .authentication
      else .business

def shouldRetry (t : ErrorType) : Bool :=
  t ∈ [.transient, .infrastructure, .rateLimit, .business]

def getRetryConfig : ErrorType → RetryConfig
  | .transient => { maxAttempts := 5, baseDelay := 1, maxDelay := 30 }
  | .infrastructure => { maxAttempts := 3, baseDelay := 2, maxDelay := 60 }
  | .rateLimit => { maxAttempts := 8, baseDelay := 5, maxDelay := 300 }
  | .business => { maxAttempts := 2, baseDelay := 1, maxDelay := 10 }
  | .authentication => { maxAttempts := 1, baseDelay := 60, maxDelay := 60 }
  | .poison => { maxAttempts := 0, baseDelay := 0, maxDelay := 0 }

end ErrorClassifier

open ErrorClassifier

inductive Plan where
  | dlq (reason : String)
  | retry (config : RetryConfig)
  deriving DecidableEq

/-- The retry limits of an error: those of its class, and its own. -/
def retryConfig (e : Exc) : RetryConfig :=
  let config := getRetryConfig (classifyError e)
  match e.kind with
  | .transient _ _ maxRetries => { config with maxAttempts := min config.maxAttempts maxRetries }
  | _ => config

/-- The decision of `handle_processing_error` after `retryCount` retries. -/
def plan (e : Exc) (retryCount : ℕ) : Plan :=
  if classifyError e = .poison then .dlq "processing_failed"
  else if !(shouldRetry (classifyError e) && (!e.isAlphaPanda || isRetryableError e)) then
    .dlq "processing_failed"
  else if (retryConfig e).maxAttempts ≤ (retryCount : ℤ) then .dlq "max_retries_exceeded"
  else .retry (retryConfig e)

def retryDelay (e : Exc) (config : RetryConfig) (retryCount : ℕ) (random : ℚ) : ℚ :=
  match e.kind with
  | .transient _ errorRetryCount _ => getRetryDelay errorRetryCount
  | _ => config.getDelay retryCount random

example : plan ⟨"CommitFailedError", "", .builtin⟩ 0 = .retry { maxDelay := 30 } := by
  decide +kernel

end AlphaPanda.Streaming
