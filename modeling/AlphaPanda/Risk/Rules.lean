import AlphaPanda.Events
import AlphaPanda.Exceptions

/-!
# Risk rules

`services/risk_manager/rules.py`. The rules read the fields of a raw signal
as JSON has them, before it is parsed.
-/

namespace AlphaPanda.Risk

abbrev Fields := Dict String Value

namespace Fields

def getD (f : Fields) (name : String) (default : Value) : Value := (f.get? name).getD default

def get (f : Fields) (name : String) : Value := f.getD name .null

end Fields

/-- What `get_state` reads from Redis. -/
structure RiskState where
  positions : Dict String Value
  dailyTrades : Dict String ℤ
  recentPrices : Dict String Decimal

/-- How Python writes a float: `repr(x)` and `f"{x:.2%}"`. -/
structure FloatFormat where
  repr : Decimal → String
  percent : Decimal → String

-- ---------------------------------------------------------------------------
-- Numbers
-- ---------------------------------------------------------------------------

inductive Number where
  | int (n : ℤ)
  | float (x : Decimal)

namespace Number

def ofValue : Value → Option Number
  | .bool b => some (.int (if b then 1 else 0))
  | .int n => some (.int n)
  | .float repr => (Decimal.ofText repr).map .float
  | .null | .str _ | .container .. => none

def toDecimal : Number → Decimal
  | .int n => .ofRat n
  | .float x => x

def neg : Number → Number
  | .int n => .int (-n)
  | .float x => .float x.neg

def add : Number → Number → Number
  | .int m, .int n => .int (m + n)
  | a, b => .float (a.toDecimal.add b.toDecimal)

def abs : Number → Number
  | .int n => .int |n|
  | .float x => .float x.abs

def text (format : FloatFormat) : Number → String
  | .int n => toString n
  | .float x => format.repr x

end Number

def operandError (operator : String) (a b : Value) : Exc :=
  let message := match operator, a, b with
    | "+", .str _, .str _ => "bad operand type for abs(): 'str'"
    | "+", .str _, _ => s!"can only concatenate str (not \"{b.typeName}\") to str"
    | _, _, _ => s!"unsupported operand type(s) for {operator}: '{a.typeName}' and '{b.typeName}'"
  ⟨"TypeError", message, .builtin⟩

def floatError : Value → Exc
  | .str s => ⟨"ValueError", s!"could not convert string to float: '{s}'", .builtin⟩
  | v => ⟨"TypeError",
      s!"float() argument must be a string or a real number, not '{v.typeName}'", .builtin⟩

def toFloat (v : Value) : Except Exc Decimal :=
  match v.toFloat with
  | some x => .ok x
  | none => .error (floatError v)

abbrev Check := Except Exc (Bool × String)

structure MaxPositionSizeRule where
  maxPosition : ℤ := 1000

/-- The position after the signal: anything but a BUY counts as a SELL. -/
def newPosition (signal : Fields) (riskState : RiskState) : Except Exc Number :=
  let token := signal.get "instrument_token"
  let quantity := signal.getD "quantity" (.int 0)
  let current := (riskState.positions.get? token.text).getD (.int 0)
  let buy := signal.get "signal_type" = .str "BUY"
  match Number.ofValue current, Number.ofValue quantity with
  | some a, some b => .ok (if buy then a.add b else a.add b.neg)
  | _, _ => .error (operandError (if buy then "+" else "-") current quantity)

def MaxPositionSizeRule.check (rule : MaxPositionSizeRule) (format : FloatFormat) (signal : Fields)
    (riskState : RiskState) : Check := do
  let size := (← newPosition signal riskState).abs
  if size.toDecimal.gt (.ofRat rule.maxPosition) then
    pure (false, s!"Position size {size.text format} exceeds maximum {rule.maxPosition}")
  else pure (true, "Position size within limits")

structure MaxDailyTradesRule where
  maxDailyTrades : ℤ := 50

def MaxDailyTradesRule.check (rule : MaxDailyTradesRule) (today : String) (signal : Fields)
    (riskState : RiskState) : Check :=
  let strategyId := (signal.get "strategy_id").text
  let dailyTrades := (riskState.dailyTrades.get? s!"daily_trades_{strategyId}_{today}").getD 0
  if rule.maxDailyTrades ≤ dailyTrades then
    pure (false, s!"Daily trade limit {rule.maxDailyTrades} exceeded for strategy {strategyId}")
  else pure (true, "Daily trade limit not exceeded")

structure PriceLimitRule where
  maxPriceDeviation : ℚ := 10 / 100

def PriceLimitRule.check (rule : PriceLimitRule) (format : FloatFormat) (signal : Fields)
    (riskState : RiskState) : Check :=
  let price := signal.get "price"
  let token := (signal.get "instrument_token").text
  if !price.truthy then pure (true, "No price specified in signal")
  else
    match riskState.recentPrices.get? s!"recent_price_{token}" with
    | none => pure (true, "No recent price available for comparison")
    | some recent =>
      if !recent.truthy then pure (true, "No recent price available for comparison")
      else do
        let signalPrice ← toFloat price
        let deviation := (signalPrice.add recent.neg).abs.div recent
        if deviation.gt (.ofRat rule.maxPriceDeviation) then
          let limit := format.percent (.ofRat rule.maxPriceDeviation)
          pure (false, s!"Price deviation {format.percent deviation} exceeds limit {limit}")
        else pure (true, "Price within acceptable deviation")

structure ValidationResult where
  passed : Bool := true
  ruleResults : List (String × Bool) := []
  rejectionReasons : List String := []

def ValidationResult.add (r : ValidationResult) (name : String) (passed : Bool) (reason : String) :
    ValidationResult :=
  { passed := r.passed && passed
    ruleResults := r.ruleResults ++ [(name, passed)]
    rejectionReasons := if passed then r.rejectionReasons
      else r.rejectionReasons ++ [s!"{name}: {reason}"] }

def rules (format : FloatFormat) (today : String) :
    List (String × (Fields → RiskState → Check)) :=
  [("MaxPositionSize", ({} : MaxPositionSizeRule).check format),
   ("MaxDailyTrades", ({} : MaxDailyTradesRule).check today),
   ("PriceLimit", ({} : PriceLimitRule).check format)]

def evaluateSignal (format : FloatFormat) (today : String) (signal : Fields)
    (riskState : RiskState) : Except Exc ValidationResult :=
  (rules format today).foldlM (fun r (name, check) => do
    let (passed, reason) ← check signal riskState
    pure (r.add name passed reason)) {}

-- ---------------------------------------------------------------------------
-- What passes
-- ---------------------------------------------------------------------------

def Passes (check : Check) : Prop := ∃ reason, check = .ok (true, reason)

instance (check : Check) : Decidable (Passes check) :=
  decidable_of_iff (check.toOption.map Prod.fst = some true) <| by
    rcases check with e | ⟨passed, reason⟩ <;> simp [Passes, Except.toOption]

def dailyTradesOf (today : String) (signal : Fields) (riskState : RiskState) : ℤ :=
  let strategyId := (signal.get "strategy_id").text
  (riskState.dailyTrades.get? s!"daily_trades_{strategyId}_{today}").getD 0

theorem MaxDailyTradesRule.passes_iff (rule : MaxDailyTradesRule) (today : String)
    (signal : Fields) (riskState : RiskState) :
    Passes (rule.check today signal riskState) ↔
      dailyTradesOf today signal riskState < rule.maxDailyTrades := by
  rw [← not_le]
  unfold Passes MaxDailyTradesRule.check dailyTradesOf
  dsimp only
  split <;> simp_all [pure, Except.pure]

theorem MaxPositionSizeRule.passes_iff (rule : MaxPositionSizeRule) (format : FloatFormat)
    (signal : Fields) (riskState : RiskState) :
    Passes (rule.check format signal riskState) ↔ ∃ position,
      newPosition signal riskState = .ok position ∧
        position.abs.toDecimal.gt (.ofRat rule.maxPosition) = false := by
  unfold Passes MaxPositionSizeRule.check
  cases newPosition signal riskState with
  | error e => simp [bind, Except.bind]
  | ok position =>
    simp only [bind, Except.bind, pure, Except.pure]
    split <;> simp_all

theorem evaluateSignal_passes (format : FloatFormat) (today : String) (signal : Fields)
    (riskState : RiskState) :
    (∃ result, evaluateSignal format today signal riskState = .ok result ∧ result.passed) ↔
      Passes (({} : MaxPositionSizeRule).check format signal riskState) ∧
      Passes (({} : MaxDailyTradesRule).check today signal riskState) ∧
      Passes (({} : PriceLimitRule).check format signal riskState) := by
  have hfold : ∀ (rules : List (String × (Fields → RiskState → Check))) (r : ValidationResult),
      (∃ result, rules.foldlM (fun r (name, check) => do
          let (passed, reason) ← check signal riskState
          pure (r.add name passed reason)) r = Except.ok result ∧ result.passed) ↔
        r.passed ∧ ∀ rule ∈ rules, Passes (rule.2 signal riskState) := by
    intro rules
    induction rules with
    | nil => simp [pure, Except.pure]
    | cons rule rest ih =>
      intro r
      rw [List.foldlM_cons]
      dsimp only
      cases hcheck : rule.2 signal riskState with
      | error e =>
        refine iff_of_false ?_ ?_
        · rintro ⟨result, h, -⟩
          cases h
        · rintro ⟨-, hall⟩
          obtain ⟨reason, hpasses⟩ := hall rule List.mem_cons_self
          rw [hcheck] at hpasses
          cases hpasses
      | ok verdict =>
        obtain ⟨passed, reason⟩ := verdict
        simp only [bind, Except.bind, pure, Except.pure] at ih ⊢
        rw [ih]
        simp [ValidationResult.add, Passes, hcheck, and_assoc]
  unfold evaluateSignal
  rw [hfold]
  simp [rules]

-- ---------------------------------------------------------------------------
-- What the rules raise
-- ---------------------------------------------------------------------------

/-- An error about the type or the text of a field. -/
def IsTypeFault (e : Exc) : Prop :=
  e.kind = .builtin ∧ e.name ∈ ["TypeError", "ValueError", "ValidationError"]

def OnlyTypeFaults (p : Except Exc α) : Prop := ∀ e, p = .error e → IsTypeFault e

theorem onlyTypeFaults_ok (a : α) : OnlyTypeFaults (.ok a) := by
  intro e h
  cases h

theorem OnlyTypeFaults.bind {p : Except Exc α} {f : α → Except Exc β} (hp : OnlyTypeFaults p)
    (hf : ∀ a, OnlyTypeFaults (f a)) : OnlyTypeFaults (p >>= f) := by
  intro e h
  cases p with
  | error e' =>
    cases h
    exact hp _ rfl
  | ok a => exact hf a e h

theorem newPosition_onlyTypeFaults (signal : Fields) (riskState : RiskState) :
    OnlyTypeFaults (newPosition signal riskState) := by
  intro e h
  unfold newPosition at h
  simp only at h
  split at h
  · cases h
  · cases h
    exact ⟨rfl, by simp [operandError]⟩

theorem toFloat_onlyTypeFaults (v : Value) : OnlyTypeFaults (toFloat v) := by
  intro e h
  unfold toFloat at h
  split at h
  · cases h
  · cases h
    cases v <;> exact ⟨rfl, by simp [floatError]⟩

theorem verdict_onlyTypeFaults (c : Prop) [Decidable c] (a b : Bool × String) :
    OnlyTypeFaults (if c then pure a else pure b) := by
  split
  · exact onlyTypeFaults_ok a
  · exact onlyTypeFaults_ok b

theorem PriceLimitRule.check_onlyTypeFaults (rule : PriceLimitRule) (format : FloatFormat)
    (signal : Fields) (riskState : RiskState) :
    OnlyTypeFaults (rule.check format signal riskState) := by
  unfold PriceLimitRule.check
  simp only
  split
  · exact onlyTypeFaults_ok _
  split
  · exact onlyTypeFaults_ok _
  split
  · exact onlyTypeFaults_ok _
  · exact (toFloat_onlyTypeFaults _).bind fun _ => verdict_onlyTypeFaults _ _ _

theorem evaluateSignal_onlyTypeFaults (format : FloatFormat) (today : String) (signal : Fields)
    (riskState : RiskState) : OnlyTypeFaults (evaluateSignal format today signal riskState) := by
  have hrules : ∀ rule ∈ rules format today, OnlyTypeFaults (rule.2 signal riskState) := by
    intro rule hrule
    simp only [rules, List.mem_cons, List.not_mem_nil, or_false] at hrule
    rcases hrule with rfl | rfl | rfl
    · exact (newPosition_onlyTypeFaults signal riskState).bind fun _ => verdict_onlyTypeFaults _ _ _
    · exact verdict_onlyTypeFaults _ _ _
    · exact PriceLimitRule.check_onlyTypeFaults _ format signal riskState
  unfold evaluateSignal
  generalize ({} : ValidationResult) = result
  generalize rules format today = rules at hrules
  induction rules generalizing result with
  | nil => exact onlyTypeFaults_ok _
  | cons rule rest ih =>
    rw [List.foldlM_cons]
    refine OnlyTypeFaults.bind ?_ fun result => ih result fun r hr => ?_
    · exact (hrules rule List.mem_cons_self).bind fun _ => onlyTypeFaults_ok _
    · exact hrules r (List.mem_cons_of_mem _ hr)

end AlphaPanda.Risk
