import AlphaPanda.Exceptions
import Mathlib.Data.List.Count
import Mathlib.Data.List.Nodup

/-!
# Broadcasting to WebSockets

A set is a table of slots. An iterator walks the slots and first checks that the
set still has the size it began with; where a socket is placed that connects,
and whether the table is rebuilt, is up to the hashes. A broadcast is suspended
while it sends, and sockets come and go.
-/

namespace AlphaPanda.Api

-- ---------------------------------------------------------------------------
-- Sets
-- ---------------------------------------------------------------------------

structure Table (α : Type) where
  slots : List (Option α)
  nodup : (slots.filterMap id).Nodup

namespace Table

variable [DecidableEq α]

def members (t : Table α) : List α := t.slots.filterMap id

theorem filterMap_clear (x : α) (slots : List (Option α)) :
    (slots.map fun slot => if slot = some x then none else slot).filterMap id =
      (slots.filterMap id).filter (· ≠ x) := by
  induction slots with
  | nil => rfl
  | cons slot rest ih =>
    cases slot with
    | none => simpa using ih
    | some y =>
      by_cases h : y = x
      · simpa [h] using ih
      · simpa [h] using ih

/-- `discard` leaves the other slots as they are. -/
def discard (t : Table α) (x : α) : Table α where
  slots := t.slots.map fun slot => if slot = some x then none else slot
  nodup := by
    rw [filterMap_clear]
    exact t.nodup.filter _

end Table

structure Placement (α : Type) where
  place : Table α → α → Table α
  members : ∀ t x, x ∉ t.members → (place t x).members.Perm (x :: t.members)

def Table.add [DecidableEq α] (t : Table α) (p : Placement α) (x : α) : Table α :=
  if x ∈ t.members then t else p.place t x

/-- An iterator over a set: the next slot, and the size of the set at first. -/
structure Iter where
  pos : ℕ
  used : ℕ
  deriving DecidableEq

def Table.iter (t : Table α) : Iter := ⟨0, t.members.length⟩

def seek (i : ℕ) : List (Option α) → Option (ℕ × α)
  | [] => none
  | some x :: _ => some (i, x)
  | none :: rest => seek (i + 1) rest

def Iter.next (it : Iter) (t : Table α) : Except Exc (Option (α × Iter)) :=
  if t.members.length ≠ it.used then
    .error ⟨"RuntimeError", "Set changed size during iteration", .builtin⟩
  else .ok ((seek it.pos (t.slots.drop it.pos)).map fun (i, x) => (x, { it with pos := i + 1 }))

-- ---------------------------------------------------------------------------
-- The manager
-- ---------------------------------------------------------------------------

/-- Where a broadcast is: sending to a socket, with those that failed before, or
at its end. -/
inductive Phase (α : Type) where
  | sending (it : Iter) (disconnected : List α) (websocket : α)
  | returned
  | raised (e : Exc)

/-- The connections and the broadcast, with a history of it: what it has sent and
with what result, and which sockets were disconnected while it ran. -/
structure Manager (α : Type) where
  activeConnections : Table α
  phase : Phase α
  sends : List (α × Option Exc)
  departed : List α

section
variable [DecidableEq α]

def Manager.loop (m : Manager α) (it : Iter) (disconnected : List α) : Manager α :=
  match it.next m.activeConnections with
  | .error e => { m with phase := .raised e }
  | .ok none =>
    { m with
      activeConnections := disconnected.foldl Table.discard m.activeConnections
      phase := .returned }
  | .ok (some (websocket, it)) => { m with phase := .sending it disconnected websocket }

def broadcast (activeConnections : Table α) : Manager α :=
  Manager.loop ⟨activeConnections, .returned, [], []⟩ activeConnections.iter []

def Manager.disconnect (m : Manager α) (websocket : α) : Manager α :=
  { m with
    activeConnections := m.activeConnections.discard websocket
    departed := match m.phase with
      | .sending .. => websocket :: m.departed
      | _ => m.departed }

/-- What happens on the event loop: the send of the broadcast is over, a socket
was accepted, a socket is disconnected, by itself or since sending to it failed
elsewhere. -/
inductive Act (α : Type) where
  | sent (r : Option Exc)
  | connect (websocket : α)
  | disconnect (websocket : α)

def Manager.step (p : Placement α) (m : Manager α) : Act α → Option (Manager α)
  | .sent r =>
    match m.phase with
    | .sending it disconnected websocket =>
      let m := { m with sends := m.sends ++ [(websocket, r)] }
      some (m.loop it (if r.isSome then websocket :: disconnected else disconnected))
    | _ => none
  | .connect websocket =>
    some { m with activeConnections := m.activeConnections.add p websocket }
  | .disconnect websocket => some (m.disconnect websocket)

def Manager.run (p : Placement α) (m : Manager α) : List (Act α) → Option (Manager α)
  | [] => some m
  | a :: as => (m.step p a).bind fun m => m.run p as

end

end AlphaPanda.Api
