import Mathlib.Data.Int.Notation

/-!
# Topics and keys

The names of `core/schemas/topics.py`.
-/

namespace AlphaPanda

structure TopicMap where
  broker : String

namespace TopicMap

def signalsRaw (t : TopicMap) : String := t.broker ++ ".signals.raw"
def signalsValidated (t : TopicMap) : String := t.broker ++ ".signals.validated"
def signalsRejected (t : TopicMap) : String := t.broker ++ ".signals.rejected"
def ordersFilled (t : TopicMap) : String := t.broker ++ ".orders.filled"
def ordersFailed (t : TopicMap) : String := t.broker ++ ".orders.failed"
def ordersSubmitted (t : TopicMap) : String := t.broker ++ ".orders.submitted"
def pnlSnapshots (t : TopicMap) : String := t.broker ++ ".pnl.snapshots"

/-- The broker that a topic starts with, if it is a known one. -/
def getBrokerFromTopic (topic : String) : String :=
  let first := String.ofList (topic.toList.takeWhile (· ≠ '.'))
  if '.' ∈ topic.toList ∧ first ∈ ["paper", "zerodha"] then first else "unknown"

end TopicMap

def validateBrokerTopicPair (topic broker : String) : Bool :=
  (broker ++ ".").toList.isPrefixOf topic.toList ||
    topic ∈ ["market.ticks", "market.equity.ticks", "market.crypto.ticks"]

namespace PartitioningKeys

def tradingSignalKey (strategyId instrumentToken : String) : String :=
  s!"{strategyId}:{instrumentToken}"

def orderKey (strategyId : String) (instrumentToken : ℤ) (timestamp : String) : String :=
  s!"{strategyId}:{instrumentToken}:{timestamp}"

end PartitioningKeys

end AlphaPanda
