import AlphaPanda.Exceptions
import AlphaPanda.Lib.Machine
import Mathlib.Data.Multiset.AddSub

/-!
# Ticks from the callback to Kafka

The callback runs in the ticker's thread and hands each tick to the event loop;
a worker takes it from the queue, and sends it and updates the metrics in two
tasks. Any time-out may expire, and any task fail, whenever it is waited for.
-/

namespace AlphaPanda.MarketFeed.Ticks

structure Settings where
  queueMaxsize : ℤ := 10000
  enqueueBlockTimeoutMs : Option ℤ := none

/-- `format` is the formatter and the schema of ticks. -/
structure Service (ρ τ : Type) where
  settings : Settings
  loop : Bool := true
  producers : ℕ := 1
  format : ρ → Except Exc τ

structure Item (τ : Type) where
  number : ℕ
  tick : τ
  deriving DecidableEq

/-- A put that the callback waits for, before its future is seen. -/
inductive Put where
  | pending
  | stored
  | expired
  deriving DecidableEq

inductive Worker (τ : Type) where
  | idle
  | gathering (item : Item τ)
  | stopped
  deriving DecidableEq

/-- The service; the callback's rest of a batch and the put it waits for; the
puts it gave up and the calls scheduled in the loop; the queue, the worker and
its tasks. The history has what was formatted, published and counted. -/
structure State (ρ τ : Type) where
  running : Bool := true
  ticksReceived : ℕ := 0
  ticksProcessed : ℕ := 0
  droppedTicks : ℕ := 0
  failedSends : ℕ := 0
  failedMetrics : ℕ := 0
  batch : List ρ := []
  awaited : Option (Item τ × Put) := none
  abandoned : List (Item τ) := []
  calls : List (Item τ) := []
  queue : List (Item τ) := []
  worker : Worker τ := .idle
  sending : List (Item τ) := []
  measuring : List (Item τ) := []
  formatted : List (Item τ) := []
  published : List (Item τ) := []
  dropped : List (Item τ) := []
  failed : List (Item τ) := []

/-- What happens next: a batch comes, or the callback goes on with it; a
scheduled call runs; the put that the callback waits for finds room or expires
in the loop, is answered or expires in the callback, and likewise one that it
gave up; the worker takes a tick, and one of its tasks ends; the service is
stopped and its worker cancelled, whose message may have been delivered. -/
inductive Act (ρ τ : Type) where
  | onTicks (ticks : List ρ)
  | next
  | called
  | stored
  | expired
  | answered
  | gaveUp
  | storedLate (item : Item τ)
  | expiredLate (item : Item τ)
  | take
  | emitted (item : Item τ) (error : Option Exc)
  | measured (item : Item τ) (error : Option Exc)
  | stop
  | cancel (delivered : Bool)

namespace State

variable {ρ τ : Type}

def drop (s : State ρ τ) (item : Item τ) : State ρ τ :=
  { s with droppedTicks := s.droppedTicks + 1, dropped := item :: s.dropped }

def put (s : State ρ τ) (item : Item τ) : State ρ τ := { s with queue := s.queue ++ [item] }

/-- The worker goes on when a task of its tick raises, or when both are done. -/
def finish [DecidableEq τ] (s : State ρ τ) (item : Item τ) (error : Option Exc) : State ρ τ :=
  if s.worker = .gathering item ∧ (error.isSome ∨ item ∉ s.sending ∧ item ∉ s.measuring) then
    { s with worker := .idle }
  else s

end State

namespace Service

variable {ρ τ : Type} (svc : Service ρ τ)

def full (s : State ρ τ) : Prop :=
  0 < svc.settings.queueMaxsize ∧ svc.settings.queueMaxsize ≤ s.queue.length

instance decidableFull (s : State ρ τ) : Decidable (svc.full s) := inferInstanceAs (Decidable (_ ∧ _))

def blocks : Bool := svc.settings.enqueueBlockTimeoutMs.any (0 < ·) && svc.loop

def enqueueNowait (s : State ρ τ) (item : Item τ) : State ρ τ :=
  if svc.full s then s.drop item else s.put item

def onTicks (s : State ρ τ) (ticks : List ρ) : State ρ τ :=
  if s.running then { s with ticksReceived := s.ticksReceived + ticks.length, batch := ticks } else s

def enqueue (s : State ρ τ) (item : Item τ) : State ρ τ :=
  if svc.blocks then { s with awaited := some (item, .pending) }
  else if svc.loop then { s with calls := s.calls ++ [item] }
  else svc.enqueueNowait s item

def onTick (s : State ρ τ) (raw : ρ) : State ρ τ :=
  match svc.format raw with
  | .error _ => s
  | .ok tick =>
    let item := ⟨s.ticksProcessed, tick⟩
    svc.enqueue
      { s with ticksProcessed := s.ticksProcessed + 1, formatted := item :: s.formatted } item

variable [DecidableEq τ]

def emitTick (s : State ρ τ) (item : Item τ) (error : Option Exc) : State ρ τ :=
  let s := { s with sending := s.sending.erase item }
  if svc.producers = 0 then s.finish item none
  else if error.isSome then
    { s with failedSends := s.failedSends + 1, failed := item :: s.failed }.finish item error
  else { s with published := item :: s.published }.finish item none

def updateMetrics (s : State ρ τ) (item : Item τ) (error : Option Exc) : State ρ τ :=
  let s := { s with measuring := s.measuring.erase item }
  if error.isSome then { s with failedMetrics := s.failedMetrics + 1 }.finish item error
  else s.finish item none

def cancel (s : State ρ τ) (delivered : Bool) : State ρ τ :=
  match s.worker with
  | .gathering item =>
    { s with
      worker := .stopped
      sending := s.sending.erase item
      measuring := s.measuring.erase item
      published := if item ∈ s.sending ∧ delivered then item :: s.published else s.published }
  | .idle | .stopped => { s with worker := .stopped }

def step (s : State ρ τ) : Act ρ τ → Option (State ρ τ)
  | .onTicks ticks => if s.batch.isEmpty ∧ s.awaited.isNone then some (onTicks s ticks) else none
  | .next =>
    match s.awaited, s.batch with
    | none, raw :: rest => some (svc.onTick { s with batch := rest } raw)
    | _, _ => none
  | .called =>
    match s.calls with
    | item :: rest => some (svc.enqueueNowait { s with calls := rest } item)
    | [] => none
  | .stored =>
    match s.awaited with
    | some (item, .pending) =>
      if svc.full s then none else some ({ s with awaited := some (item, .stored) }.put item)
    | _ => none
  | .expired =>
    match s.awaited with
    | some (item, .pending) => some { s with awaited := some (item, .expired) }
    | _ => none
  | .answered =>
    match s.awaited with
    | some (_, .stored) => some { s with awaited := none }
    | some (item, .expired) => some ({ s with awaited := none }.drop item)
    | _ => none
  | .gaveUp =>
    match s.awaited with
    | some (item, .pending) =>
      some ({ s with awaited := none, abandoned := item :: s.abandoned }.drop item)
    | some (item, .stored) | some (item, .expired) => some ({ s with awaited := none }.drop item)
    | none => none
  | .storedLate item =>
    if item ∈ s.abandoned ∧ ¬svc.full s then
      some ({ s with abandoned := s.abandoned.erase item }.put item)
    else none
  | .expiredLate item =>
    if item ∈ s.abandoned then some { s with abandoned := s.abandoned.erase item } else none
  | .take =>
    match s.worker, s.queue with
    | .idle, item :: rest =>
      some { s with
        queue := rest
        worker := .gathering item
        sending := item :: s.sending
        measuring := item :: s.measuring }
    | _, _ => none
  | .emitted item error => if item ∈ s.sending then some (svc.emitTick s item error) else none
  | .measured item error => if item ∈ s.measuring then some (updateMetrics s item error) else none
  | .stop => some { s with running := false }
  | .cancel delivered => if s.running then none else some (cancel s delivered)

/-- The callback does not give up a put that was stored, nor is one stored that
it gave up; no tick is taken without a producer; and no send is cancelled before
its message was delivered. -/
def Orderly (s : State ρ τ) : Act ρ τ → Prop
  | .gaveUp => s.awaited.map Prod.snd ≠ some .stored
  | .storedLate _ => False
  | .emitted _ _ => svc.producers ≠ 0
  | .cancel delivered => ∀ item ∈ s.sending, s.worker = .gathering item → delivered
  | _ => True

instance decidableOrderly (s : State ρ τ) : (a : Act ρ τ) → Decidable (svc.Orderly s a)
  | .gaveUp => inferInstanceAs (Decidable (_ ≠ _))
  | .storedLate _ => isFalse id
  | .emitted _ _ => inferInstanceAs (Decidable (_ ≠ _))
  | .cancel _ => inferInstanceAs (Decidable (∀ item ∈ s.sending, _))
  | .onTicks _ | .next | .called | .stored | .expired | .answered | .expiredLate _ | .take |
    .measured _ _ | .stop => isTrue trivial

end Service

section
variable {ρ τ : Type}

def undecided : Option (Item τ × Put) → Multiset (Item τ)
  | some (item, .pending) | some (item, .expired) => {item}
  | some (_, .stored) | none => 0

def State.accounted (s : State ρ τ) : Multiset (Item τ) :=
  s.queue + s.published + s.dropped + s.failed

def State.inTransit (s : State ρ τ) : Multiset (Item τ) :=
  undecided s.awaited + s.calls + s.sending

def State.Balanced (s : State ρ τ) : Prop := s.accounted + s.inTransit = (s.formatted : Multiset _)

structure State.Quiescent (s : State ρ τ) : Prop where
  batch : s.batch = []
  awaited : s.awaited = none
  abandoned : s.abandoned = []
  calls : s.calls = []
  sending : s.sending = []
  measuring : s.measuring = []

/-- The counters count what was formatted, dropped and failed, and the formatted
ticks have different numbers. -/
structure State.Counted (s : State ρ τ) : Prop where
  processed : s.ticksProcessed = s.formatted.length
  dropped : s.droppedTicks = s.dropped.length
  failed : s.failedSends = s.failed.length
  numbered : ∀ item ∈ s.formatted, item.number < s.ticksProcessed
  distinct : (s.formatted.map Item.number).Nodup

structure Conserved (s : State ρ τ) : Prop extends s.Counted where
  once : s.accounted = (s.formatted : Multiset _)

end

end AlphaPanda.MarketFeed.Ticks
