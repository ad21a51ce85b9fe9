import AlphaPanda.Strategies.Exact

/-!
# Hybrid processors

`HybridMomentumProcessor` and `HybridMeanReversionProcessor`: the signal of a
rule-based processor and the signal of an ML processor, put together by a
decision policy. Every exception on the way ends in no signal.
-/

namespace AlphaPanda.Strategies

-- ---------------------------------------------------------------------------
-- ML processors
-- ---------------------------------------------------------------------------

/-- `MLMomentumProcessor` or `MLMeanReversionProcessor`. The features `F`, and
what is read from them, are whatever the installation's numbers make them. A
model gives a prediction and its greatest probability. -/
structure MLProcessor (F : Type) (K : Type := ℚ) where
  lookbackPeriods : ℤ := 20
  confidenceThreshold : ℚ := 6 / 10
  positionSize : ℚ := 100
  model : Option (F → Except Exc (ℤ × K))
  extractFeatures : MarketTick → List MarketTick → Except Exc F
  price : F → Except Exc Decimal
  metadata : F → ℤ → K → Metadata

namespace MLProcessor

variable [Field K] [LinearOrder K]

def signal (m : MLProcessor F K) (signalType : String) (features : F) (prediction : ℤ) (maxProb : K) :
    Option (SignalResult K) :=
  match m.price features with
  | .error _ => none
  | .ok price => some {
      signalType := signalType
      confidence := maxProb
      quantity := m.positionSize
      price := price
      metadata := some (m.metadata features prediction maxProb) }

def predictSignal (m : MLProcessor F K) (features : F) : Option (SignalResult K) :=
  match m.model with
  | none => none
  | some model =>
    match model features with
    | .error _ => none
    | .ok (prediction, maxProb) =>
      if prediction = 1 ∧ (m.confidenceThreshold : K) < maxProb then
        m.signal "BUY" features prediction maxProb
      else if prediction = 0 ∧ (m.confidenceThreshold : K) < maxProb then
        m.signal "SELL" features prediction maxProb
      else none

def processTick (m : MLProcessor F K) (tick : MarketTick) (history : List MarketTick) :
    Except Exc (Option (SignalResult K)) :=
  (m.extractFeatures tick history).map m.predictSignal

end MLProcessor

inductive DecisionPolicy where
  | majorityVote (minMlConfidence : ℚ)
  | conservative

namespace DecisionPolicy

/-- Any other type of policy is the majority vote. -/
def ofType (policyType : String) (minMlConfidence : ℚ) : DecisionPolicy :=
  if policyType = "conservative" then .conservative else .majorityVote minMlConfidence

variable [Field K] [LinearOrder K]

def agree (rules ml : SignalResult K) (bonus : K) (quantity : ℚ) (price : Decimal) : SignalResult K where
  signalType := rules.signalType
  confidence := min 1 ((rules.confidence + ml.confidence) / 2 + bonus)
  quantity := quantity
  price := price

def decide : DecisionPolicy → Option (SignalResult K) → Option (SignalResult K) →
    Option (SignalResult K)
  | .majorityVote minMlConfidence, rules, ml =>
    match rules, ml with
    | some rules, some ml =>
      if rules.signalType = ml.signalType then
        some (agree rules ml (1 / 10) (max rules.quantity ml.quantity) ml.price)
      else if (minMlConfidence : K) ≤ ml.confidence then some { ml with metadata := none }
      else some { rules with metadata := none }
    | none, some ml =>
      if (minMlConfidence : K) ≤ ml.confidence then some { ml with metadata := none }
      else some { ml with confidence := ml.confidence * (8 / 10), metadata := none }
    | some rules, none => some { rules with metadata := none }
    | none, none => none
  | .conservative, rules, ml =>
    match rules, ml with
    | some rules, some ml =>
      if rules.signalType = ml.signalType then
        some (agree rules ml (2 / 10) (min rules.quantity ml.quantity) rules.price)
      else none
    | _, _ => none

end DecisionPolicy

structure HybridProcessor (F : Type) (K : Type := ℚ) where
  rulesProcessor : RulesProcessor
  mlProcessor : MLProcessor F K
  policy : DecisionPolicy

def HybridMomentumProcessor (rules : RulesMomentumProcessor) (ml : MLProcessor F K)
    (policy : DecisionPolicy) : HybridProcessor F K :=
  ⟨.momentum rules, ml, policy⟩

def HybridMeanReversionProcessor (rules : RulesMeanReversionProcessor) (ml : MLProcessor F K)
    (policy : DecisionPolicy) : HybridProcessor F K :=
  ⟨.meanReversion rules, ml, policy⟩

namespace HybridProcessor

section
variable [Field K] [LinearOrder K]

def combine (h : HybridProcessor F K) (tick : MarketTick) (history : List MarketTick) :
    Except Exc (Option (SignalResult K)) → Option (SignalResult K)
  | .error _ => none
  | .ok rulesSignal =>
    match h.mlProcessor.processTick tick history with
    | .error _ => h.policy.decide rulesSignal none
    | .ok mlSignal => h.policy.decide rulesSignal mlSignal

end

def processTick (h : HybridProcessor F) (tick : MarketTick) (history : List MarketTick) :
    Except Exc (Option SignalResult) :=
  .ok (h.combine tick history (h.rulesProcessor.processTick tick history))

def requiredHistoryLength (h : HybridProcessor F K) : ℕ :=
  max h.rulesProcessor.requiredHistoryLength h.mlProcessor.lookbackPeriods.toNat

def toProcessor (h : HybridProcessor F) : StrategyProcessor Unit where
  processTick tick history _ := (h.processTick tick history, ())
  requiredHistoryLength := h.requiredHistoryLength
  supportsInstrument _ := true

def executor (h : HybridProcessor F) (validator : StandardStrategyValidator) (config : StrategyConfig) :
    StrategyExecutor Unit :=
  .init h.toProcessor validator config ()

noncomputable def toExact (h : HybridProcessor F ℝ) : StrategyProcessor Unit ℝ where
  processTick tick history _ :=
    (.ok (h.combine tick history (h.rulesProcessor.exactTick tick history)), ())
  requiredHistoryLength := h.requiredHistoryLength
  supportsInstrument _ := true

noncomputable def exactExecutor (h : HybridProcessor F ℝ) (validator : StandardStrategyValidator)
    (config : StrategyConfig) : StrategyExecutor Unit ℝ :=
  .init h.toExact validator config ()

end HybridProcessor

end AlphaPanda.Strategies
