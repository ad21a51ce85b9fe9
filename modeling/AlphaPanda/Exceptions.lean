/-!
# Exceptions

An exception as the error handling sees it: its class name, its text, and
where its class stands in the hierarchy of `core/utils/exceptions.py`.
-/

namespace AlphaPanda

inductive TransientFamily where
  | authentication
  | broker
  | infrastructure
  | other
  deriving DecidableEq, Repr

inductive ExcKind where
  /-- Not an `AlphaPandaException`. -/
  | builtin
  | alphaPanda
  | permanent
  | transient (family : TransientFamily) (retryCount maxRetries : Int)
  deriving DecidableEq, Repr

structure Exc where
  name : String
  message : String
  kind : ExcKind := .builtin
  deriving DecidableEq, Repr

def isRetryableError (e : Exc) : Bool :=
  match e.kind with
  | .transient _ retryCount maxRetries => retryCount < maxRetries
  | _ => false

def Exc.isAlphaPanda (e : Exc) : Bool := e.kind ≠ .builtin

/-- `ValidationError(message, field, value)`; its text is the message. -/
def Exc.validation (message : String) : Exc := ⟨"ValidationError", message, .permanent⟩

/-- What is raised in a task, which others may cancel. -/
inductive Fault where
  | raised (e : Exc)
  | cancelled

/-- What comparing a NaN raises. -/
def Exc.invalidOperation : Exc :=
  ⟨"InvalidOperation", "[<class 'decimal.InvalidOperation'>]", .builtin⟩

theorem bind_ok {x : Except ε α} {f : α → Except ε β} :
    x >>= f = .ok b ↔ ∃ a, x = .ok a ∧ f a = .ok b := by
  cases x <;> simp [bind, Except.bind]

theorem pure_ok {a b : α} : (pure a : Except ε α) = .ok b ↔ a = b := by
  simp [pure, Except.pure]

theorem map_ok {x : Except ε α} {f : α → β} :
    x.map f = .ok b ↔ ∃ a, x = .ok a ∧ f a = b := by
  cases x <;> simp [Except.map]

end AlphaPanda
