import AlphaPanda.Lib.Confined
import AlphaPanda.Streaming.Service
import AlphaPanda.Zerodha.Service

/-!
# What the Zerodha trading service places

An order that it publishes as placed is for the signal of its message.
-/

namespace AlphaPanda.Zerodha

open Coroutine

def OfSignal (m : SignalMessage) (p : OrderPlaced) : Prop :=
  m.type = .str EventType.validatedSignal.value ∧ ∃ v orderId, m.data = .ok v ∧ p = orderPlaced v orderId

/-- An order that is sent is for the signal of the message. -/
def PlacesOnly (m : SignalMessage) (op : Op) : Prop :=
  ∀ r p, op = .send r → r.data = .placed p → OfSignal m p

def Op.placed : Op × Option Exc → Option OrderPlaced
  | (.send ⟨_, _, .placed p, _, _⟩, none) => some p
  | _ => none

def placed (log : List (Op × Option Exc)) : List OrderPlaced := log.filterMap Op.placed

theorem mem_placed (h : p ∈ placed log) : ∃ r, (.send r, none) ∈ log ∧ r.data = .placed p := by
  obtain ⟨x, hx, hp⟩ := List.mem_filterMap.mp h
  unfold Op.placed at hp
  split at hp
  · cases hp
    exact ⟨_, hx, rfl⟩
  · cases hp

theorem handleValidatedSignal_confined (m : SignalMessage) :
    (handleValidatedSignal m).Confined (PlacesOnly m) := by
  unfold handleValidatedSignal
  split
  · exact confined_pure
  rename_i htype
  split
  · exact confined_pure
  rename_i v hdata
  refine confined_bind (confined_bind confined_get fun s => confined_bind confined_set fun _ =>
    confined_pure) fun orderId => ?_
  refine confined_suppress (confined_bind (confined_perform ?_) fun _ =>
    confined_bind (confined_perform ?_) fun _ => confined_bind (confined_perform ?_) fun _ =>
      confined_bind (confined_suppress (confined_perform ?_)) fun _ =>
        confined_suppress (confined_perform ?_))
  case refine_2 =>
    rintro r p ⟨rfl⟩ hp
    cases hp
    exact ⟨not_ne_iff.mp htype, v, orderId, hdata, rfl⟩
  all_goals
    intro r p hop hp
    cases hop
  cases hp

theorem placed_ofSignal (m : SignalMessage) (as : List (Option Exc)) (s : State) :
    ∀ p ∈ placed ((handleValidatedSignal m).exec as (World.start s)).world.log, OfSignal m p := by
  intro p hp
  obtain ⟨l, hlog, hl⟩ := (handleValidatedSignal_confined m).exec as (World.start s)
  obtain ⟨r, hmem, hdata⟩ := mem_placed hp
  rw [hlog, World.start, List.nil_append] at hmem
  exact hl _ hmem r p rfl hdata

end AlphaPanda.Zerodha
