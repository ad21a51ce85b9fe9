import AlphaPanda.Api.ConnectionManager
import Mathlib.Order.Nat

/-!
# What a broadcast delivers

The loop walks the set itself, not a copy. It is reliable as long as the set has
its first size whenever it goes on, and no connect rebuilds the table under it.
-/

namespace AlphaPanda.Api

section
variable {α : Type} [DecidableEq α]

def Act.isSent : Act α → Bool
  | .sent _ => true
  | _ => false

/-- The broadcast does not raise, is over once it has sent as often as the set
has slots, and when it has returned, each socket that stayed connected and that
no send failed for was sent to once. -/
structure Reliable (connections : Table α) (as : List (Act α)) (m : Manager α) : Prop where
  silent : ∀ e, m.phase ≠ .raised e
  ends : connections.slots.length ≤ as.countP Act.isSent → m.phase = .returned
  once : m.phase = .returned → ∀ x ∈ connections.members, x ∉ m.departed →
    (∀ e, (x, some e) ∉ m.sends) → m.sends.count (x, none) = 1

/-- The new member took a free slot, and nothing else moved. -/
def InPlace (t t' : Table α) (x : α) : Prop :=
  ∃ i, t.slots[i]? = some none ∧ t'.slots = t.slots.set i (some x)

/-- While the broadcast runs, its next step finds the set with its first size,
and a connect does not rebuild the table. -/
def Settled (p : Placement α) (m : Manager α) (a : Act α) : Prop :=
  ∀ it disconnected websocket, m.phase = .sending it disconnected websocket →
    match a with
    | .sent _ => m.activeConnections.members.length = it.used
    | .connect x => x ∉ m.activeConnections.members →
        InPlace m.activeConnections (p.place m.activeConnections x) x
    | .disconnect _ => True

def AllSettled (p : Placement α) (m : Manager α) : List (Act α) → Prop
  | [] => True
  | a :: as => Settled p m a ∧ ∀ m', m.step p a = some m' → AllSettled p m' as

end

-- ---------------------------------------------------------------------------
-- Walking the table
-- ---------------------------------------------------------------------------

section
variable {α : Type}

theorem seek_some {i : ℕ} {slots : List (Option α)} (h : seek i slots = some (j, x)) :
    i ≤ j ∧ slots[j - i]? = some (some x) ∧ ∀ k, i ≤ k → k < j → slots[k - i]? = some none := by
  induction slots generalizing i with
  | nil => cases h
  | cons slot rest ih =>
    cases slot with
    | some y =>
      cases h
      exact ⟨le_rfl, by simp, fun k hk hlt => absurd hlt (not_lt.mpr hk)⟩
    | none =>
      obtain ⟨hle, hx, hbefore⟩ := ih h
      have hsucc : ∀ k, i + 1 ≤ k → (none :: rest)[k - i]? = rest[k - (i + 1)]? := by
        intro k hk
        obtain ⟨d, rfl⟩ := Nat.exists_eq_add_of_le hk
        rw [show i + 1 + d - i = d + 1 by omega, Nat.add_sub_cancel_left, List.getElem?_cons_succ]
      refine ⟨by omega, (hsucc j hle).trans hx, fun k hk hlt => ?_⟩
      rcases Nat.eq_or_lt_of_le hk with rfl | hk
      · simp
      · exact (hsucc k hk).trans (hbefore k hk hlt)

theorem seek_none {i : ℕ} {slots : List (Option α)} (h : seek i slots = none) (k : ℕ) (x : α) :
    slots[k]? ≠ some (some x) := by
  induction slots generalizing i k with
  | nil => simp
  | cons slot rest ih =>
    cases slot with
    | some y => cases h
    | none =>
      cases k with
      | zero => simp
      | succ k => exact ih h k

theorem next_some {it it' : Iter} {t : Table α} (h : it.next t = .ok (some (x, it'))) :
    ∃ i, it.pos ≤ i ∧ it' = { it with pos := i + 1 } ∧ t.slots[i]? = some (some x) ∧
      ∀ k, it.pos ≤ k → k < i → t.slots[k]? = some none := by
  unfold Iter.next at h
  split at h
  · cases h
  rw [Except.ok.injEq, Option.map_eq_some_iff] at h
  obtain ⟨⟨i, y⟩, hseek, heq⟩ := h
  obtain ⟨hle, hx, hbefore⟩ := seek_some hseek
  cases heq
  refine ⟨i, hle, rfl, ?_, fun k hk hlt => ?_⟩
  · rw [List.getElem?_drop, Nat.add_sub_cancel' hle] at hx
    exact hx
  · have hfree := hbefore k hk hlt
    rw [List.getElem?_drop, Nat.add_sub_cancel' hk] at hfree
    exact hfree

theorem next_none {it : Iter} {t : Table α} (h : it.next t = .ok none) (k : ℕ) (hk : it.pos ≤ k)
    (x : α) : t.slots[k]? ≠ some (some x) := by
  unfold Iter.next at h
  split at h
  · cases h
  rw [Except.ok.injEq, Option.map_eq_none_iff] at h
  have hnone := seek_none h (k - it.pos) x
  rw [List.getElem?_drop, Nat.add_sub_cancel' hk] at hnone
  exact hnone

theorem next_error {it : Iter} {t : Table α} (h : it.next t = .error e) :
    t.members.length ≠ it.used := by
  unfold Iter.next at h
  split at h
  · assumption
  · cases h

theorem Table.slot_unique {t : Table α} {i j : ℕ} (hi : t.slots[i]? = some (some x))
    (hj : t.slots[j]? = some (some x)) : i = j := by
  obtain ⟨slots, hnodup⟩ := t
  dsimp only at hi hj hnodup
  induction slots generalizing i j with
  | nil => simp at hi
  | cons slot rest ih =>
    have hmem : ∀ k : ℕ, rest[k]? = some (some x) → x ∈ rest.filterMap id := fun k hk =>
      List.mem_filterMap.mpr ⟨some x, List.mem_of_getElem? hk, rfl⟩
    cases i with
    | zero =>
      cases j with
      | zero => rfl
      | succ j =>
        rw [List.getElem?_cons_zero, Option.some.injEq] at hi
        subst hi
        exact absurd (hmem j hj) (List.nodup_cons.mp hnodup).1
    | succ i =>
      cases j with
      | zero =>
        rw [List.getElem?_cons_zero, Option.some.injEq] at hj
        subst hj
        exact absurd (hmem i hi) (List.nodup_cons.mp hnodup).1
      | succ j =>
        have hrest : (rest.filterMap id).Nodup := by
          cases slot with
          | none => exact hnodup
          | some y => exact (List.nodup_cons.mp hnodup).2
        exact congrArg (· + 1) (ih hrest hi hj)

theorem Table.exists_slot {t : Table α} (h : x ∈ t.members) : ∃ i : ℕ, t.slots[i]? = some (some x) := by
  obtain ⟨slot, hslot, rfl⟩ := List.mem_filterMap.mp h
  exact List.mem_iff_getElem?.mp hslot

end

-- ---------------------------------------------------------------------------
-- The broadcast
-- ---------------------------------------------------------------------------

section
variable {α : Type} [DecidableEq α]

def Manager.timesSent (m : Manager α) (x : α) : ℕ := m.sends.countP (·.1 = x)

structure Kept (c : Table α) (m : Manager α) : Prop where
  length : m.activeConnections.slots.length = c.slots.length
  slot : ∀ (j : ℕ) x, c.slots[j]? = some (some x) → x ∉ m.departed →
    m.activeConnections.slots[j]? = some (some x)

/-- Of the members that stay, the broadcast has been sent to those before slot
`i`, once. -/
structure Upto (c : Table α) (m : Manager α) (i : ℕ) : Prop where
  before : ∀ (j : ℕ) x, c.slots[j]? = some (some x) → x ∉ m.departed → j < i → m.timesSent x = 1
  after : ∀ (j : ℕ) x, c.slots[j]? = some (some x) → x ∉ m.departed → i ≤ j → m.timesSent x = 0
  sends : m.sends.length ≤ i

/-- It is sending to what is in slot `i`. -/
structure At (c : Table α) (m : Manager α) (it : Iter) (websocket : α) (i : ℕ) : Prop
    extends Kept c m, Upto c m i where
  pos : it.pos = i + 1
  used : it.used = c.members.length
  bound : i < c.slots.length
  here : ∀ (j : ℕ) x, c.slots[j]? = some (some x) → x ∉ m.departed → (j = i ↔ x = websocket)

def Inv (c : Table α) (m : Manager α) : Prop :=
  match m.phase with
  | .sending it _ websocket => ∃ i, At c m it websocket i
  | .returned => ∀ x ∈ c.members, x ∉ m.departed → m.timesSent x = 1
  | .raised _ => False

theorem loop_inv {c : Table α} {m : Manager α} {it : Iter} (hkept : Kept c m)
    (hupto : Upto c m it.pos) (hused : it.used = c.members.length)
    (hsize : m.activeConnections.members.length = it.used) (disconnected : List α) :
    Inv c (m.loop it disconnected) := by
  unfold Manager.loop
  cases hnext : it.next m.activeConnections with
  | error e => exact absurd hsize (next_error hnext)
  | ok o =>
    cases o with
    | none =>
      -- No slot is left, so that of each member that stayed has been passed.
      intro x hx hstays
      obtain ⟨j, hj⟩ := Table.exists_slot hx
      refine hupto.before j x hj hstays (not_le.mp fun hle => ?_)
      exact next_none hnext j hle x (hkept.slot j x hj hstays)
    | some next =>
      obtain ⟨websocket, it'⟩ := next
      obtain ⟨i, hle, rfl, hslot, hfree⟩ := next_some hnext
      have hnot : ∀ (j : ℕ) x, c.slots[j]? = some (some x) → x ∉ m.departed → it.pos ≤ j → i ≤ j := by
        intro j x hj hstays hpos
        refine not_lt.mp fun hlt => ?_
        cases (hfree j hpos hlt).symm.trans (hkept.slot j x hj hstays)
      refine ⟨i, ⟨hkept.length, hkept.slot⟩, ⟨fun j x hj hstays hlt => ?_, fun j x hj hstays hij => ?_,
        hupto.sends.trans hle⟩, rfl, hused, ?_, fun j x hj hstays => ⟨?_, ?_⟩⟩
      · refine hupto.before j x hj hstays (not_le.mp fun hpos => ?_)
        exact absurd hlt (not_lt.mpr (hnot j x hj hstays hpos))
      · exact hupto.after j x hj hstays (hle.trans hij)
      · rw [← hkept.length]
        exact (List.getElem?_eq_some_iff.mp hslot).1
      · rintro rfl
        have hsame := (hkept.slot j x hj hstays).symm.trans hslot
        exact Option.some.inj (Option.some.inj hsame)
      · rintro rfl
        exact Table.slot_unique (hkept.slot j x hj hstays) hslot

theorem broadcast_inv (c : Table α) : Inv c (broadcast c) := by
  refine loop_inv ⟨rfl, fun j x hj _ => hj⟩ ⟨fun j x _ _ hlt => ?_, fun _ _ _ _ _ => rfl, le_rfl⟩ rfl rfl []
  exact absurd hlt (Nat.not_lt_zero j)

theorem sent_inv {c : Table α} {m : Manager α} {it : Iter} {websocket : α} {i : ℕ}
    (h : At c m it websocket i) (hsize : m.activeConnections.members.length = it.used)
    (r : Option Exc) (disconnected : List α) :
    Inv c (Manager.loop { m with sends := m.sends ++ [(websocket, r)] } it disconnected) := by
  have hcount : ∀ x, Manager.timesSent { m with sends := m.sends ++ [(websocket, r)] } x =
      m.timesSent x + if websocket = x then 1 else 0 := by
    intro x
    simp [Manager.timesSent, List.countP_append, List.countP_cons]
  refine loop_inv (m := { m with sends := m.sends ++ [(websocket, r)] }) ⟨h.length, h.slot⟩ ?_ h.used
    hsize disconnected
  rw [h.pos]
  refine ⟨fun j x hj hstays hlt => ?_, fun j x hj hstays hle => ?_, ?_⟩
  · rw [hcount]
    rcases Nat.lt_succ_iff_lt_or_eq.mp hlt with hlt | rfl
    · have hne : websocket ≠ x := fun heq => absurd ((h.here j x hj hstays).mpr heq.symm) hlt.ne
      rw [h.before j x hj hstays hlt, if_neg hne]
    · rw [h.after j x hj hstays le_rfl, if_pos ((h.here j x hj hstays).mp rfl).symm]
  · have hlt : i < j := hle
    have hne : websocket ≠ x := fun heq => absurd ((h.here j x hj hstays).mpr heq.symm) hlt.ne'
    rw [hcount, h.after j x hj hstays hlt.le, if_neg hne]
  · rw [List.length_append, List.length_singleton]
    exact Nat.succ_le_succ h.sends

theorem At.other {c : Table α} {m m' : Manager α} {it : Iter} {websocket : α} {i : ℕ}
    (h : At c m it websocket i) (hkept : Kept c m') (hsends : m'.sends = m.sends)
    (hdeparted : m.departed ⊆ m'.departed) : At c m' it websocket i := by
  have hstays : ∀ x, x ∉ m'.departed → x ∉ m.departed := fun x hx hmem => hx (hdeparted hmem)
  have htimes : ∀ x, m'.timesSent x = m.timesSent x := fun x => by
    rw [Manager.timesSent, hsends, Manager.timesSent]
  refine ⟨hkept, ⟨fun j x hj hx hlt => ?_, fun j x hj hx hle => ?_, ?_⟩, h.pos, h.used, h.bound,
    fun j x hj hx => h.here j x hj (hstays x hx)⟩
  · rw [htimes]
    exact h.before j x hj (hstays x hx) hlt
  · rw [htimes]
    exact h.after j x hj (hstays x hx) hle
  · rw [hsends]
    exact h.sends

theorem connect_kept {p : Placement α} {c : Table α} {m : Manager α} (h : Kept c m)
    (hplace : y ∉ m.activeConnections.members →
      InPlace m.activeConnections (p.place m.activeConnections y) y) :
    Kept c { m with activeConnections := m.activeConnections.add p y } := by
  unfold Table.add
  split
  · exact h
  · rename_i hnew
    obtain ⟨i, hfree, hslots⟩ := hplace hnew
    refine ⟨?_, fun j x hj hstays => ?_⟩
    · rw [hslots, List.length_set]
      exact h.length
    · have hkept := h.slot j x hj hstays
      have hne : i ≠ j := by
        rintro rfl
        cases hfree.symm.trans hkept
      rw [hslots, List.getElem?_set_ne hne]
      exact hkept

theorem disconnect_kept {c : Table α} {m : Manager α} (h : Kept c m) (y : α) :
    Kept c { m with
      activeConnections := m.activeConnections.discard y
      departed := y :: m.departed } := by
  refine ⟨?_, fun j x hj hstays => ?_⟩
  · rw [Table.discard, List.length_map]
    exact h.length
  · obtain ⟨hne, hstays⟩ := not_or.mp (List.mem_cons.not.mp hstays)
    rw [Table.discard, List.getElem?_map, h.slot j x hj hstays]
    simp [hne]

theorem step_sent {p : Placement α} {m : Manager α}
    (hphase : m.phase = .sending it disconnected websocket) (r : Option Exc) :
    m.step p (.sent r) = some (Manager.loop { m with sends := m.sends ++ [(websocket, r)] } it
      (if r.isSome then websocket :: disconnected else disconnected)) := by
  rw [Manager.step, hphase]

theorem step_inv {p : Placement α} {c : Table α} {m m' : Manager α} {a : Act α} (h : Inv c m)
    (hsettled : Settled p m a) (hstep : m.step p a = some m') : Inv c m' := by
  cases hphase : m.phase with
  | raised e => rw [Inv, hphase] at h; exact h.elim
  | returned =>
    -- It is over, and what comes and goes no longer counts.
    rw [Inv, hphase] at h
    cases a with
    | sent r => rw [Manager.step, hphase] at hstep; cases hstep
    | connect y =>
      cases hstep
      rw [Inv, hphase]
      exact h
    | disconnect y =>
      cases hstep
      rw [Inv, Manager.disconnect, hphase]
      exact h
  | sending it disconnected websocket =>
    have hsettled := hsettled it disconnected websocket hphase
    cases a with
    | sent r =>
      rw [Inv, hphase] at h
      obtain ⟨i, hat⟩ := h
      rw [step_sent hphase] at hstep
      cases hstep
      exact sent_inv hat hsettled r _
    | connect y =>
      obtain ⟨t, phase, sends, departed⟩ := m
      dsimp only at hphase
      subst hphase
      obtain ⟨i, hat⟩ := h
      cases hstep
      exact ⟨i, hat.other (connect_kept hat.toKept hsettled) rfl (List.Subset.refl _)⟩
    | disconnect y =>
      obtain ⟨t, phase, sends, departed⟩ := m
      dsimp only at hphase
      subst hphase
      obtain ⟨i, hat⟩ := h
      cases hstep
      exact ⟨i, hat.other (disconnect_kept hat.toKept y) rfl (List.subset_cons_self _ _)⟩

theorem run_inv {p : Placement α} {c : Table α} {m m' : Manager α} {as : List (Act α)} (h : Inv c m)
    (hsettled : AllSettled p m as) (hrun : m.run p as = some m') : Inv c m' := by
  induction as generalizing m with
  | nil =>
    cases hrun
    exact h
  | cons a as ih =>
    obtain ⟨m₁, hstep, hrest⟩ := Option.bind_eq_some_iff.mp hrun
    exact ih (step_inv h hsettled.1 hstep) (hsettled.2 m₁ hstep) hrest

theorem loop_sends (m : Manager α) (it : Iter) (disconnected : List α) :
    (m.loop it disconnected).sends = m.sends := by
  unfold Manager.loop
  split <;> rfl

theorem run_sends {p : Placement α} {m m' : Manager α} {as : List (Act α)}
    (hrun : m.run p as = some m') : m'.sends.length = m.sends.length + as.countP Act.isSent := by
  induction as generalizing m with
  | nil => cases hrun; rfl
  | cons a as ih =>
    obtain ⟨m₁, hstep, hrest⟩ := Option.bind_eq_some_iff.mp hrun
    rw [ih hrest, List.countP_cons]
    cases a with
    | sent r =>
      cases hphase : m.phase with
      | returned => rw [Manager.step, hphase] at hstep; cases hstep
      | raised e => rw [Manager.step, hphase] at hstep; cases hstep
      | sending it disconnected websocket =>
        rw [step_sent hphase] at hstep
        cases hstep
        rw [loop_sends, List.length_append]
        simp only [Act.isSent, List.length_singleton, if_true]
        omega
    | connect y => cases hstep; rfl
    | disconnect y => cases hstep; rfl

/-- In a settled run the broadcast is reliable. -/
theorem broadcast_reliable (p : Placement α) (connections : Table α) (as : List (Act α))
    (m : Manager α) (hrun : (broadcast connections).run p as = some m)
    (hsettled : AllSettled p (broadcast connections) as) : Reliable connections as m := by
  have hinv := run_inv (broadcast_inv connections) hsettled hrun
  have hsends := run_sends hrun
  rw [broadcast, loop_sends, List.length_nil, Nat.zero_add] at hsends
  refine ⟨fun e he => ?_, fun hlong => ?_, fun hreturned x hx hstays hfails => ?_⟩
  · rw [Inv, he] at hinv
    exact hinv
  · cases hphase : m.phase with
    | returned => rfl
    | raised e => rw [Inv, hphase] at hinv; exact hinv.elim
    | sending it disconnected websocket =>
      rw [Inv, hphase] at hinv
      obtain ⟨i, hat⟩ := hinv
      have hle := hat.sends
      have hlt := hat.bound
      omega
  · rw [Inv, hreturned] at hinv
    rw [← hinv x hx hstays, Manager.timesSent, List.count]
    refine List.countP_congr fun send hsend => ?_
    obtain ⟨y, r⟩ := send
    cases r with
    | none => simp
    | some e =>
      have hne : y ≠ x := by
        rintro rfl
        exact hfails e hsend
      simp [hne]

/-- Where the size has changed, the next step raises. -/
theorem sent_raises {p : Placement α} {m : Manager α} (hphase : m.phase = .sending it disconnected websocket)
    (hsize : m.activeConnections.members.length ≠ it.used) (r : Option Exc) :
    ∃ m' e, m.step p (.sent r) = some m' ∧ m'.phase = .raised e := by
  refine ⟨_, ⟨"RuntimeError", "Set changed size during iteration", .builtin⟩, step_sent hphase r, ?_⟩
  rw [Manager.loop, Iter.next, if_pos hsize]

end

-- ---------------------------------------------------------------------------
-- Sockets that hash to their number
-- ---------------------------------------------------------------------------

theorem perm_set {slots : List (Option ℕ)} {i : ℕ} (h : slots[i]? = some none) (x : ℕ) :
    ((slots.set i (some x)).filterMap id).Perm (x :: slots.filterMap id) := by
  induction slots generalizing i with
  | nil => simp at h
  | cons slot rest ih =>
    cases i with
    | zero =>
      rw [List.getElem?_cons_zero, Option.some.injEq] at h
      subst h
      exact List.Perm.refl _
    | succ i =>
      have hrest := ih (i := i) h
      cases slot with
      | none => exact hrest
      | some y => exact (hrest.cons y).trans (List.Perm.swap x y _)

/-- In the slot of its hash if that is free, and else in a larger table. -/
def placeHashed (t : Table ℕ) (x : ℕ) : Table ℕ :=
  if hnew : x ∈ t.members then t
  else if hfree : t.slots[x % 8]? = some none then
    { slots := t.slots.set (x % 8) (some x)
      nodup := (perm_set hfree x).nodup_iff.mpr (List.nodup_cons.mpr ⟨hnew, t.nodup⟩) }
  else
    { slots := some x :: t.slots
      nodup := List.nodup_cons.mpr ⟨hnew, t.nodup⟩ }

def hashed : Placement ℕ where
  place := placeHashed
  members t x h := by
    unfold placeHashed
    rw [dif_neg h]
    split
    · rename_i hfree
      exact perm_set hfree x
    · exact List.Perm.refl _

def twoSockets : Table ℕ where
  slots := [none, some 1, some 2, none, none, none, none, none]
  nodup := by decide

/-- One socket comes and goes while the first send is awaited. -/
theorem visitor_reliable : ∃ m,
    (broadcast twoSockets).run hashed [.connect 3, .disconnect 3, .sent none, .sent none] = some m ∧
      Reliable twoSockets [.connect 3, .disconnect 3, .sent none, .sent none] m := by
  refine ⟨_, rfl, broadcast_reliable hashed twoSockets [.connect 3, .disconnect 3, .sent none, .sent none]
    _ rfl ?_⟩
  refine ⟨fun it d ws h => ?_, fun m h => ?_⟩
  · exact fun _ => ⟨3, rfl, rfl⟩
  cases h
  refine ⟨fun it d ws h => trivial, fun m h => ?_⟩
  cases h
  refine ⟨fun it d ws h => ?_, fun m h => ?_⟩
  · cases h
    rfl
  cases h
  refine ⟨fun it d ws h => ?_, fun m h => trivial⟩
  cases h
  rfl

/-- A socket connects while the first send is awaited. -/
theorem connect_raises : ¬∀ (p : Placement ℕ) connections as m,
    (broadcast connections).run p as = some m → Reliable connections as m := by
  intro hclaim
  have hreliable := hclaim hashed twoSockets [.connect 3, .sent none] _ rfl
  exact hreliable.silent ⟨"RuntimeError", "Set changed size during iteration", .builtin⟩ rfl

end AlphaPanda.Api
