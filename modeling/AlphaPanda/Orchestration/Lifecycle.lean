import AlphaPanda.Exceptions
import AlphaPanda.Lib.Dict
import AlphaPanda.Lib.Oracle
import Mathlib.Data.Finset.Prod

/-!
# Orchestrators and their coordinator

Producers and consumers are objects, known by a number; the state says which of
them are running. A consumption task is known by its service and its place
among the flows of the service. What `asyncio.gather` awaits together is done
one after the other.
-/

namespace AlphaPanda.Orchestration

open Coroutine

inductive Component where
  | producer (id : ℕ)
  | consumer (id : ℕ)
  deriving DecidableEq

/-- A `ServiceOrchestrator`; each consumer comes with its reliability layer. -/
structure ServiceOrchestrator where
  serviceName : String
  producers : List ℕ
  consumers : List ℕ

def ServiceOrchestrator.components (o : ServiceOrchestrator) : List Component :=
  o.producers.map .producer ++ o.consumers.map .consumer

abbrev Flow := String × ℕ

def ServiceOrchestrator.flows (o : ServiceOrchestrator) : Finset Flow :=
  {o.serviceName} ×ˢ Finset.range o.consumers.length

/-- The `_running` of each component, orchestrator and the coordinator, and the
consumption tasks that were created and not cancelled since. -/
@[ext]
structure State where
  components : Finset Component
  tasks : Finset Flow
  orchestrators : Finset String
  coordinator : Bool

def State.initial : State := ⟨∅, ∅, ∅, false⟩

inductive Op where
  | hook (i : ℕ)
  | start (c : Component)
  | join (serviceName : String)
  | flush (producer : ℕ)
  | stop (c : Component)
  deriving DecidableEq

abbrev Handler := Prog State Op Exc

def Component.start (c : Component) : Handler Unit := do
  let s ← get
  if c ∈ s.components then pure ()
  else do
    Prog.perform (.start c)
    modify fun s => { s with components := insert c s.components }

def Component.stopped (c : Component) : Handler Unit :=
  modify fun s => { s with components := s.components.erase c }

def stopProducer (id : ℕ) : Handler Unit := do
  let s ← get
  if .producer id ∉ s.components then pure ()
  else do
    suppress do
      Prog.perform (.flush id)
      Prog.perform (.stop (.producer id))
    (Component.producer id).stopped

def stopConsumer (id : ℕ) : Handler Unit := do
  let s ← get
  if .consumer id ∉ s.components then pure ()
  else do
    Prog.perform (.stop (.consumer id))
    (Component.consumer id).stopped

def ServiceOrchestrator.start (o : ServiceOrchestrator) : Handler Unit := do
  let s ← get
  if o.serviceName ∈ s.orchestrators then pure ()
  else do
    Prog.each Component.start o.components
    modify fun s => { s with tasks := s.tasks ∪ o.flows }
    modify fun s => { s with orchestrators := insert o.serviceName s.orchestrators }

/-- The tasks were cancelled, and are done once they are joined. -/
def ServiceOrchestrator.cancelTasks (o : ServiceOrchestrator) : Handler Unit := do
  let s ← get
  if s.tasks.filter (·.1 = o.serviceName) = ∅ then pure ()
  else do
    Prog.perform (.join o.serviceName)
    modify fun s => { s with tasks := s.tasks.filter (·.1 ≠ o.serviceName) }

def ServiceOrchestrator.stop (o : ServiceOrchestrator) : Handler Unit := do
  let s ← get
  if o.serviceName ∉ s.orchestrators then pure ()
  else do
    o.cancelTasks
    Prog.each stopConsumer o.consumers
    Prog.each stopProducer o.producers
    modify fun s => { s with orchestrators := s.orchestrators.erase o.serviceName }

/-- A `LifecycleCoordinator`: the orchestrators under their names. -/
structure LifecycleCoordinator where
  orchestrators : Dict String ServiceOrchestrator
  startupHooks : ℕ
  named : ∀ name o, orchestrators.get? name = some o → o.serviceName = name

def LifecycleCoordinator.empty (startupHooks : ℕ) : LifecycleCoordinator where
  orchestrators := .empty
  startupHooks := startupHooks
  named _ _ h := by cases h

def LifecycleCoordinator.registerOrchestrator (c : LifecycleCoordinator) (o : ServiceOrchestrator) :
    LifecycleCoordinator where
  orchestrators := c.orchestrators.set o.serviceName o
  startupHooks := c.startupHooks
  named name o' h := by
    rw [Dict.get?_set] at h
    split at h
    · rename_i hname
      cases h
      exact hname.symm
    · exact c.named name o' h

def LifecycleCoordinator.names (c : LifecycleCoordinator) : List String :=
  c.orchestrators.entries.map (·.1)

def LifecycleCoordinator.values (c : LifecycleCoordinator) : List ServiceOrchestrator :=
  c.orchestrators.entries.map (·.2)

def LifecycleCoordinator.orchestratorNames (c : LifecycleCoordinator) (startOrder : List String) :
    List String :=
  if startOrder = [] then c.names.mergeSort (· ≤ ·)
  else
    let specified := startOrder.filter (· ∈ c.names)
    specified ++ c.names.filter (· ∉ specified)

def LifecycleCoordinator.inOrder (c : LifecycleCoordinator) (startOrder : List String) :
    List ServiceOrchestrator :=
  (c.orchestratorNames startOrder).filterMap c.orchestrators.get?

def LifecycleCoordinator.emergencyShutdown (c : LifecycleCoordinator) : Handler Unit := do
  let s ← get
  Prog.each (fun o => suppress o.stop) (c.values.filter (·.serviceName ∈ s.orchestrators))
  modify fun s => { s with coordinator := false }

/-- `start_all`; no start order is the empty one. -/
def LifecycleCoordinator.startAll (c : LifecycleCoordinator) (startOrder : List String) :
    Handler Unit := do
  let s ← get
  if s.coordinator then pure ()
  else do
    Prog.each (fun i => Prog.perform (.hook i)) (List.range c.startupHooks)
    Prog.each (fun o => rescued o.start c.emergencyShutdown) (c.inOrder startOrder)
    modify fun s => { s with coordinator := true }

end AlphaPanda.Orchestration
