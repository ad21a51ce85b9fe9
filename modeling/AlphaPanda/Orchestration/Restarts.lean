import AlphaPanda.Lib.Precondition
import AlphaPanda.Orchestration.Startup

/-!
# Starting, stopping and restarting services

What is left after any calls of the coordinator. As long as no consumer fails to
stop, the consumption tasks that were created and not cancelled since are those
of the services whose `_running` is set, so that the coordinator can be thought
of as the names of these services and its own flag (`Control`). Whether a task
has ended by an exception is seen nowhere. A consumer that does fail leaves a
service that says it is running and has no task, which no later start repairs.
-/

namespace AlphaPanda.Orchestration

open Coroutine

-- ---------------------------------------------------------------------------
-- The calls
-- ---------------------------------------------------------------------------

/-- The shutdown handlers are numbered on from the startup hooks. -/
structure Coordinator extends LifecycleCoordinator where
  shutdownHandlers : ℕ

namespace Coordinator

variable (c : Coordinator)

def stopNames (stopOrder : List String) : List String :=
  if stopOrder = [] then (c.orchestratorNames []).reverse else c.orchestratorNames stopOrder

def stopAll (stopOrder : List String) : Handler Unit := do
  let s ← get
  if s.coordinator = false then pure ()
  else do
    Prog.each (fun o => suppress o.stop) ((c.stopNames stopOrder).filterMap c.orchestrators.get?)
    Prog.each (fun i => suppress (Prog.perform (.hook (c.startupHooks + i))))
      (List.range c.shutdownHandlers)
    modify fun s => { s with coordinator := false }

def restartOrchestrator (serviceName : String) : Handler Bool :=
  match c.orchestrators.get? serviceName with
  | none => pure false
  | some o =>
    tryCatch (do
      o.stop
      o.start
      pure true) fun _ => pure false

end Coordinator

inductive Call where
  | startAll (startOrder : List String)
  | stopAll (stopOrder : List String)
  | restart (serviceName : String)

def Call.run (c : Coordinator) : Call → Handler Bool
  | .startAll startOrder => do
    c.startAll startOrder
    pure true
  | .stopAll stopOrder => do
    c.stopAll stopOrder
    pure true
  | .restart serviceName => c.restartOrchestrator serviceName

abbrev Attempt := Call × List (Option Exc)

def Attempt.exec (c : Coordinator) (a : Attempt) (s : State) : Outcome State Op Exc Bool :=
  (a.1.run c).exec a.2 (World.start s)

def Coordinator.after (c : Coordinator) (s : State) : List Attempt → State
  | [] => s
  | a :: as => c.after (a.exec c s).world.st as

def Coordinator.ended (c : Coordinator) (s : State) : List Attempt → List (Call × Except Exc Bool)
  | [] => []
  | a :: as => (a.1, (a.exec c s).result) :: c.ended (a.exec c s).world.st as

/-- No consumer raises when it is stopped; `gather` returns the exceptions. -/
def Stops : Op → Option Exc → Prop
  | .stop (.consumer _), r | .join _, r => r.isNone
  | _, _ => True

def Coordinator.Stopping (c : Coordinator) (s : State) : List Attempt → Prop
  | [] => True
  | a :: as => (∀ x ∈ (a.exec c s).world.log, Stops x.1 x.2) ∧
    c.Stopping (a.exec c s).world.st as

/-- The names of the services that run, and whether the coordinator says so. -/
structure Control where
  running : Finset String
  coordinator : Bool

/-- What a call does, by how it ended; `names` are those registered. -/
inductive Control.Step (names : Finset String) : Control → Call → Except Exc Bool → Control → Prop where
  | startedAlready : Step names ⟨up, true⟩ (.startAll order) (.ok true) ⟨up, true⟩
  | started : Step names ⟨up, false⟩ (.startAll order) (.ok true) ⟨names, true⟩
  | hookFailed : Step names ⟨up, false⟩ (.startAll order) (.error e) ⟨up, false⟩
  | startFailed : Step names ⟨up, false⟩ (.startAll order) (.error e) ⟨∅, false⟩
  | stoppedAlready : Step names ⟨up, false⟩ (.stopAll order) (.ok true) ⟨up, false⟩
  | stopped : Step names ⟨up, true⟩ (.stopAll order) (.ok true) ⟨∅, false⟩
  | restarted (h : name ∈ names) : Step names ⟨up, flag⟩ (.restart name) (.ok true) ⟨insert name up, flag⟩
  | restartFailed (h : name ∈ names) :
      Step names ⟨up, flag⟩ (.restart name) (.ok false) ⟨up.erase name, flag⟩
  | unknown (h : name ∉ names) : Step names ⟨up, flag⟩ (.restart name) (.ok false) ⟨up, flag⟩

inductive Control.Runs (names : Finset String) :
    Control → List (Call × Except Exc Bool) → Control → Prop where
  | nil : Runs names t [] t
  | cons (h : Step names t call result t') (hrest : Runs names t' trace t'') :
      Runs names t ((call, result) :: trace) t''

/-- The services that say they run have their components and tasks; no others
have a task. -/
structure Models (c : LifecycleCoordinator) (t : Control) (s : State) : Prop where
  running : s.orchestrators = t.running
  coordinator : s.coordinator = t.coordinator
  registered : ∀ name ∈ t.running, name ∈ c.names
  components : ∀ o ∈ c.values, o.serviceName ∈ t.running → ∀ x ∈ o.components, x ∈ s.components
  tasks : ∀ flow, flow ∈ s.tasks ↔ ∃ o ∈ c.values, o.serviceName ∈ t.running ∧ flow ∈ o.flows

def LifecycleCoordinator.Apart (c : LifecycleCoordinator) : Prop :=
  ∀ o ∈ c.values, ∀ o' ∈ c.values, ∀ x ∈ o.components, x ∈ o'.components → o = o'

theorem models_initial (c : LifecycleCoordinator) : Models c ⟨∅, false⟩ .initial where
  running := rfl
  coordinator := rfl
  registered _ h := absurd h (Finset.notMem_empty _)
  components _ _ h := absurd h (Finset.notMem_empty _)
  tasks flow := by simp [State.initial]

theorem mem_flows {o : ServiceOrchestrator} (h : flow ∈ o.flows) : flow.1 = o.serviceName :=
  Finset.mem_singleton.mp (Finset.mem_product.mp h).1

-- ---------------------------------------------------------------------------
-- One service
-- ---------------------------------------------------------------------------

section
variable {c : LifecycleCoordinator} {s : State}

theorem Models.plus (h : Models c t s) (cs : List Component) : Models c t (s.plus cs) where
  running := h.running
  coordinator := h.coordinator
  registered := h.registered
  components o ho hup x hx := Finset.mem_union_left _ (h.components o ho hup x hx)
  tasks := h.tasks

theorem mem_names (h : o ∈ c.values) : o.serviceName ∈ c.names := by
  obtain ⟨⟨name, o⟩, hmem, rfl⟩ := List.mem_map.mp h
  rw [c.named name o (Dict.mem_entries.mp hmem)]
  exact List.mem_map.mpr ⟨(name, o), hmem, rfl⟩

theorem Models.adding (h : Models c ⟨up, flag⟩ s) (ho : o ∈ c.values) :
    Models c ⟨insert o.serviceName up, flag⟩ (s.adding o) where
  running := congrArg (insert o.serviceName) h.running
  coordinator := h.coordinator
  registered name hname := by
    rcases Finset.mem_insert.mp hname with rfl | hname
    · exact mem_names ho
    · exact h.registered name hname
  components o' ho' hup x hx := by
    rcases Finset.mem_insert.mp hup with hname | hup
    · obtain rfl := values_named c o' ho' o ho hname
      exact Finset.mem_union_right _ (List.mem_toFinset.mpr hx)
    · exact Finset.mem_union_left _ (h.components o' ho' hup x hx)
  tasks flow := by
    rw [State.adding, Finset.mem_union, h.tasks]
    constructor
    · rintro (⟨o', ho', hup, hflow⟩ | hflow)
      · exact ⟨o', ho', Finset.mem_insert_of_mem hup, hflow⟩
      · exact ⟨o, ho, Finset.mem_insert_self _ _, hflow⟩
    · rintro ⟨o', ho', hup, hflow⟩
      rcases Finset.mem_insert.mp hup with hname | hup
      · exact .inr (values_named c o' ho' o ho hname ▸ hflow)
      · exact .inl ⟨o', ho', hup, hflow⟩

theorem Models.removing (h : Models c ⟨up, flag⟩ s) (hapart : c.Apart) (ho : o ∈ c.values) :
    Models c ⟨up.erase o.serviceName, flag⟩ (s.removing o) where
  running := congrArg (Finset.erase · o.serviceName) h.running
  coordinator := h.coordinator
  registered name hname := h.registered name (Finset.mem_of_mem_erase hname)
  components o' ho' hup x hx := by
    obtain ⟨hne, hup⟩ := Finset.mem_erase.mp hup
    refine Finset.mem_sdiff.mpr ⟨h.components o' ho' hup x hx, fun hmem => hne ?_⟩
    rw [hapart o' ho' o ho x hx (List.mem_toFinset.mp hmem)]
  tasks flow := by
    rw [State.removing, Finset.mem_filter, h.tasks]
    constructor
    · rintro ⟨⟨o', ho', hup, hflow⟩, hne⟩
      exact ⟨o', ho', Finset.mem_erase.mpr ⟨mem_flows hflow ▸ hne, hup⟩, hflow⟩
    · rintro ⟨o', ho', hup, hflow⟩
      obtain ⟨hne, hup⟩ := Finset.mem_erase.mp hup
      exact ⟨⟨o', ho', hup, hflow⟩, mem_flows hflow ▸ hne⟩

theorem component_wp (x : Component) (s : State) :
    x.start.Wp Stops (Onward (· = s.plus [x]) fun _ s' => s' = s) s := by
  rw [Component.start, wp_get_bind]
  split
  · rename_i hmem
    have hsame : s.plus [x] = s := by
      rw [State.plus, List.toFinset_cons, List.toFinset_nil, Finset.union_eq_left.mpr]
      simpa using hmem
    exact hsame.symm
  · refine wp_bind (wp_perform (fun _ => ?_) fun _ _ => rfl)
    simp only [Returning, wp_modify, Onward, State.plus, List.toFinset_cons, List.toFinset_nil,
      Finset.union_insert, Finset.union_empty]

theorem components_wp (cs : List Component) (s : State) :
    (Prog.each Component.start cs).Wp Stops (Onward (· = s.plus cs) fun _ s' => ∃ pre, s' = s.plus pre)
      s := by
  refine wp_each (fun pre s' => s' = s.plus pre) s.plus_nil.symm ?_ fun _ h => h
  rintro pre x post _ - rfl
  refine (component_wp x _).mono ?_
  rintro (e | _) s' hend
  · exact ⟨pre, hend⟩
  · exact Eq.trans hend (State.plus_plus s pre [x])

theorem start_wp (h : Models c ⟨up, flag⟩ s) (ho : o ∈ c.values) :
    o.start.Wp Stops (Onward (Models c ⟨insert o.serviceName up, flag⟩) fun _ => Models c ⟨up, flag⟩)
      s := by
  rw [ServiceOrchestrator.start, wp_get_bind]
  split
  · rename_i hrunning
    rw [h.running] at hrunning
    rw [wp_pure, Onward, Finset.insert_eq_of_mem hrunning]
    exact h
  · refine (components_wp o.components s).bind ?_ ?_
    · rintro _ _ rfl
      exact h.adding ho
    · rintro _ _ ⟨pre, rfl⟩
      exact h.plus pre

theorem State.minus_singleton (s : State) (x : Component) :
    s.minus [x] = { s with components := s.components.erase x } := by
  rw [State.minus, List.toFinset_cons, List.toFinset_nil, Finset.insert_empty,
    Finset.sdiff_singleton_eq_erase]

theorem stopConsumer_wp (id : ℕ) (s : State) :
    (stopConsumer id).Wp Stops (fun r s' => r = .ok () ∧ s' = s.minus [.consumer id]) s := by
  rw [stopConsumer, wp_get_bind]
  split
  · rename_i hnot
    exact ⟨rfl, (State.minus_of_not_mem hnot).symm⟩
  · refine wp_bind (wp_perform (fun _ => ?_) fun _ hraises => ?_)
    · exact ⟨rfl, (s.minus_singleton _).symm⟩
    · cases hraises

theorem stopProducer_wp (id : ℕ) (s : State) :
    (stopProducer id).Wp Stops (fun r s' => r = .ok () ∧ s' = s.minus [.producer id]) s := by
  rw [stopProducer, wp_get_bind]
  split
  · rename_i hnot
    exact ⟨rfl, (State.minus_of_not_mem hnot).symm⟩
  · have hsame : (do
        Prog.perform (.flush id)
        Prog.perform (.stop (.producer id)) : Handler Unit).Wp Stops (fun _ s' => s' = s) s := by
      refine wp_bind (wp_perform (fun _ => ?_) fun _ _ => rfl)
      exact wp_perform (fun _ => rfl) fun _ _ => rfl
    refine (hsame.suppress (Q := fun r s' => r = .ok () ∧ s' = s) fun _ _ h => ⟨rfl, h⟩).bind ?_ ?_
    · rintro _ s' ⟨-, rfl⟩
      exact ⟨rfl, (s'.minus_singleton _).symm⟩
    · rintro _ _ ⟨hraises, -⟩
      cases hraises

theorem each_stop_wp {stop : ℕ → Handler Unit} {g : ℕ → Component}
    (h : ∀ id s, (stop id).Wp Stops (fun r s' => r = .ok () ∧ s' = s.minus [g id]) s) (ids : List ℕ)
    (s : State) :
    (Prog.each stop ids).Wp Stops (fun r s' => r = .ok () ∧ s' = s.minus (ids.map g)) s := by
  refine wp_each (fun pre s' => s' = s.minus (pre.map g)) s.minus_nil.symm ?_ fun _ h => ⟨rfl, h⟩
  rintro pre id post _ - rfl
  refine (h id _).mono ?_
  rintro _ _ ⟨rfl, rfl⟩
  rw [Onward, State.minus_minus, List.map_append, List.map_singleton]

theorem cancelTasks_wp (o : ServiceOrchestrator) (s : State) :
    o.cancelTasks.Wp Stops (fun r s' => r = .ok () ∧
      s' = { s with tasks := s.tasks.filter (·.1 ≠ o.serviceName) }) s := by
  rw [ServiceOrchestrator.cancelTasks, wp_get_bind]
  split
  · rename_i hnone
    have hsame : s.tasks.filter (·.1 ≠ o.serviceName) = s.tasks :=
      Finset.filter_true_of_mem (Finset.filter_eq_empty_iff.mp hnone)
    rw [wp_pure, hsame]
    exact ⟨rfl, rfl⟩
  · refine wp_bind (wp_perform (fun _ => ⟨rfl, rfl⟩) fun _ hraises => ?_)
    cases hraises

theorem stop_wp (hapart : c.Apart) (h : Models c ⟨up, flag⟩ s) (ho : o ∈ c.values) :
    o.stop.Wp Stops (fun r s' => r = .ok () ∧ Models c ⟨up.erase o.serviceName, flag⟩ s') s := by
  rw [ServiceOrchestrator.stop, wp_get_bind]
  split
  · rename_i hnot
    rw [h.running] at hnot
    rw [wp_pure, Finset.erase_eq_of_notMem hnot]
    exact ⟨rfl, h⟩
  · refine (cancelTasks_wp o s).bind ?_ (by simp)
    rintro _ s₁ ⟨-, hs₁⟩
    refine (each_stop_wp stopConsumer_wp o.consumers s₁).bind ?_ (by simp)
    rintro _ s₂ ⟨-, hs₂⟩
    refine (each_stop_wp stopProducer_wp o.producers s₂).bind ?_ (by simp)
    rintro _ s₃ ⟨-, hs₃⟩
    have hremoved : { s₃ with orchestrators := s₃.orchestrators.erase o.serviceName } = s.removing o := by
      rw [hs₃, hs₂, hs₁, State.minus_minus, State.removing, ServiceOrchestrator.components,
        List.toFinset_append, Finset.union_comm, ← List.toFinset_append]
      rfl
    rw [wp_modify, hremoved]
    exact ⟨rfl, h.removing hapart ho⟩

-- ---------------------------------------------------------------------------
-- All of them
-- ---------------------------------------------------------------------------

theorem stops_wp (hapart : c.Apart) (h : Models c ⟨up, flag⟩ s) {os : List ServiceOrchestrator}
    (hos : ∀ o ∈ os, o ∈ c.values) :
    (Prog.each (fun o => suppress o.stop) os).Wp Stops (fun r s' => r = .ok () ∧
      Models c ⟨up \ (os.map (·.serviceName)).toFinset, flag⟩ s') s := by
  refine wp_each (fun pre => Models c ⟨up \ (pre.map (·.serviceName)).toFinset, flag⟩) (by simpa using h)
    ?_ fun _ h => ⟨rfl, h⟩
  intro pre o post s' hsplit hpre
  refine (stop_wp hapart hpre (hos o (by simp [hsplit]))).suppress ?_
  rintro _ s'' ⟨-, h⟩
  rw [Onward, List.map_append, List.map_singleton, List.toFinset_append, List.toFinset_cons,
    List.toFinset_nil, Finset.union_insert, Finset.union_empty, Finset.sdiff_insert]
  exact h

/-- What is up is registered, so nothing is up that was not stopped. -/
theorem Models.none_left (h : Models c ⟨up, flag⟩ s) {os : List ServiceOrchestrator}
    (hall : ∀ o ∈ c.values, o.serviceName ∈ up → o ∈ os) : up \ (os.map (·.serviceName)).toFinset = ∅ := by
  rw [Finset.sdiff_eq_empty_iff_subset]
  intro name hname
  obtain ⟨⟨_, o⟩, hmem, rfl⟩ := List.mem_map.mp (h.registered name hname)
  have ho : o ∈ c.values := List.mem_map.mpr ⟨_, hmem, rfl⟩
  have hnamed := c.named _ o (Dict.mem_entries.mp hmem)
  exact List.mem_toFinset.mpr (List.mem_map.mpr ⟨o, hall o ho (hnamed ▸ hname), hnamed⟩)

theorem emergencyShutdown_wp (hapart : c.Apart) (h : Models c ⟨up, flag⟩ s) :
    c.emergencyShutdown.Wp Stops (fun r s' => r = .ok () ∧ Models c ⟨∅, false⟩ s') s := by
  rw [LifecycleCoordinator.emergencyShutdown, wp_get_bind]
  refine (stops_wp hapart h fun o ho => List.mem_of_mem_filter ho).bind ?_ (by simp)
  rintro _ s' ⟨-, hstopped⟩
  rw [h.none_left fun o ho hup => List.mem_filter.mpr ⟨ho, by simpa [h.running] using hup⟩] at hstopped
  exact ⟨rfl, { hstopped with coordinator := rfl }⟩

theorem get?_of_mem (ho : o ∈ c.values) : c.orchestrators.get? o.serviceName = some o := by
  obtain ⟨⟨name, o⟩, hmem, rfl⟩ := List.mem_map.mp ho
  have hheld := Dict.mem_entries.mp hmem
  exact (c.named name o hheld).symm ▸ hheld

theorem mem_orchestratorNames (hname : name ∈ c.names) (startOrder : List String) :
    name ∈ c.orchestratorNames startOrder := by
  rw [LifecycleCoordinator.orchestratorNames]
  split
  · exact List.mem_mergeSort.mpr hname
  · by_cases hspecified : name ∈ startOrder.filter (· ∈ c.names)
    · exact List.mem_append_left _ hspecified
    · exact List.mem_append_right _ (List.mem_filter.mpr ⟨hname, decide_eq_true hspecified⟩)

theorem mem_inOrder (ho : o ∈ c.values) (startOrder : List String) : o ∈ c.inOrder startOrder :=
  List.mem_filterMap.mpr ⟨o.serviceName, mem_orchestratorNames (mem_names ho) startOrder, get?_of_mem ho⟩

theorem hooks_wp (is : List ℕ) (s : State) :
    (Prog.each (fun i => Prog.perform (.hook i)) is : Handler Unit).Wp Stops (fun _ s' => s' = s) s := by
  refine wp_each (fun _ s' => s' = s) rfl ?_ fun _ h => h
  rintro pre i post _ - rfl
  exact wp_perform (fun _ => rfl) fun _ _ => rfl

theorem starts_wp (hapart : c.Apart) (h : Models c ⟨up, flag⟩ s) {os : List ServiceOrchestrator}
    (hos : ∀ o ∈ os, o ∈ c.values) :
    (Prog.each (fun o => rescued o.start c.emergencyShutdown) os).Wp Stops
      (Onward (Models c ⟨up ∪ (os.map (·.serviceName)).toFinset, flag⟩) fun _ => Models c ⟨∅, false⟩)
      s := by
  refine wp_each (fun pre => Models c ⟨up ∪ (pre.map ServiceOrchestrator.serviceName).toFinset, flag⟩)
    (by simpa using h) ?_ fun _ h => h
  intro pre o post s' hsplit hpre
  refine (start_wp hpre (hos o (by simp [hsplit]))).rescued ?_ ?_
  · intro _ s'' hstarted
    rw [Onward, List.map_append, List.map_singleton, List.toFinset_append, List.toFinset_cons,
      List.toFinset_nil, Finset.union_insert, Finset.union_empty, Finset.union_insert]
    exact hstarted
  · intro e s'' hfailed
    exact emergencyShutdown_wp hapart hfailed

def LifecycleCoordinator.registered (c : LifecycleCoordinator) : Finset String := c.names.toFinset

theorem Models.all_up (h : Models c ⟨up, flag⟩ s) {os : List ServiceOrchestrator}
    (hos : ∀ o ∈ os, o ∈ c.values) (hall : ∀ o ∈ c.values, o ∈ os) :
    up ∪ (os.map (·.serviceName)).toFinset = c.registered := by
  ext name
  simp only [LifecycleCoordinator.registered, Finset.mem_union, List.mem_toFinset, List.mem_map]
  constructor
  · rintro (hup | ⟨o, ho, rfl⟩)
    · exact h.registered name hup
    · exact mem_names (hos o ho)
  · intro hname
    obtain ⟨⟨_, o⟩, hmem, rfl⟩ := List.mem_map.mp hname
    exact .inr ⟨o, hall o (List.mem_map.mpr ⟨_, hmem, rfl⟩), c.named _ o (Dict.mem_entries.mp hmem)⟩

theorem startAll_wp (hapart : c.Apart) (h : Models c ⟨up, false⟩ s) (startOrder : List String) :
    (c.startAll startOrder).Wp Stops (Onward (Models c ⟨c.registered, true⟩) fun _ s' =>
      Models c ⟨up, false⟩ s' ∨ Models c ⟨∅, false⟩ s') s := by
  rw [LifecycleCoordinator.startAll, wp_get_bind, if_neg (by simp [h.coordinator])]
  refine (hooks_wp _ s).bind ?_ ?_
  · rintro _ _ rfl
    have hmem : ∀ o ∈ c.inOrder startOrder, o ∈ c.values := fun o => mem_values_of_inOrder
    refine (starts_wp hapart h hmem).bind ?_ fun _ s' hfailed => .inr hfailed
    intro _ s' hstarted
    rw [h.all_up hmem fun o ho => mem_inOrder ho startOrder] at hstarted
    exact { hstarted with coordinator := rfl }
  · rintro _ _ rfl
    exact .inl h

end

section
variable {c : Coordinator} {s : State}

theorem mem_stopNames (hname : name ∈ c.names) (stopOrder : List String) :
    name ∈ c.stopNames stopOrder := by
  rw [Coordinator.stopNames]
  split
  · exact List.mem_reverse.mpr (mem_orchestratorNames hname [])
  · exact mem_orchestratorNames hname stopOrder

theorem stopAll_wp (hapart : c.Apart) (h : Models c.toLifecycleCoordinator ⟨up, true⟩ s)
    (stopOrder : List String) :
    (c.stopAll stopOrder).Wp Stops (fun r s' => r = .ok () ∧
      Models c.toLifecycleCoordinator ⟨∅, false⟩ s') s := by
  rw [Coordinator.stopAll, wp_get_bind, if_neg (by simp [h.coordinator])]
  have hmem : ∀ o ∈ (c.stopNames stopOrder).filterMap c.orchestrators.get?, o ∈ c.values := by
    intro o ho
    obtain ⟨name, -, hget⟩ := List.mem_filterMap.mp ho
    exact List.mem_map.mpr ⟨(name, o), Dict.mem_entries.mpr hget, rfl⟩
  have hall : ∀ o ∈ c.values, o ∈ (c.stopNames stopOrder).filterMap c.orchestrators.get? := fun o ho =>
    List.mem_filterMap.mpr ⟨o.serviceName, mem_stopNames (mem_names ho) stopOrder, get?_of_mem ho⟩
  refine (stops_wp hapart h hmem).bind ?_ (by simp)
  rintro _ s' ⟨-, hstopped⟩
  rw [h.none_left fun o ho _ => hall o ho] at hstopped
  have hhandlers : (Prog.each (fun i => suppress (Prog.perform (.hook (c.startupHooks + i))))
      (List.range c.shutdownHandlers) : Handler Unit).Wp Stops (fun r s'' => r = .ok () ∧ s'' = s') s' := by
    refine wp_each (fun _ s'' => s'' = s') rfl ?_ fun _ h => ⟨rfl, h⟩
    intro pre i post s'' _ hsame
    exact (wp_perform (Q := fun _ s'' => s'' = s') (fun _ => hsame) fun _ _ => hsame).suppress
      fun _ _ h => h
  refine hhandlers.bind ?_ (by simp)
  rintro _ _ ⟨-, rfl⟩
  exact ⟨rfl, { hstopped with coordinator := rfl }⟩

theorem restart_wp (hapart : c.Apart) (h : Models c.toLifecycleCoordinator ⟨up, flag⟩ s)
    (hget : c.orchestrators.get? name = some o) :
    (c.restartOrchestrator name).Wp Stops (fun r s' =>
      r = .ok true ∧ Models c.toLifecycleCoordinator ⟨insert name up, flag⟩ s' ∨
        r = .ok false ∧ Models c.toLifecycleCoordinator ⟨up.erase name, flag⟩ s') s := by
  have ho : o ∈ c.values := List.mem_map.mpr ⟨(name, o), Dict.mem_entries.mpr hget, rfl⟩
  obtain rfl := c.named name o hget
  rw [Coordinator.restartOrchestrator, hget]
  refine wp_tryCatch ((stop_wp hapart h ho).bind ?_ (by simp))
  rintro _ s₁ ⟨-, hstopped⟩
  refine (start_wp hstopped ho).bind ?_ ?_
  · intro _ s₂ hstarted
    have hback : insert o.serviceName (up.erase o.serviceName) = insert o.serviceName up := by
      ext name
      simp [or_and_left, em]
    exact .inl ⟨rfl, hback ▸ hstarted⟩
  · intro e s₂ hfailed
    exact .inr ⟨rfl, hfailed⟩

/-- Every call does what it should, by how it ended. -/
theorem call_wp (hapart : c.Apart) (h : Models c.toLifecycleCoordinator t s) (call : Call) :
    (call.run c).Wp Stops (fun r s' => ∃ t', Control.Step c.registered t call r t' ∧
      Models c.toLifecycleCoordinator t' s') s := by
  obtain ⟨up, flag⟩ := t
  cases call with
  | startAll startOrder =>
    cases flag with
    | true =>
      rw [Call.run, LifecycleCoordinator.startAll, bind_assoc, wp_get_bind, if_pos h.coordinator]
      exact ⟨_, .startedAlready, h⟩
    | false =>
      refine (startAll_wp hapart h startOrder).bind ?_ ?_
      · intro _ s' hstarted
        exact ⟨_, .started, hstarted⟩
      · rintro e s' (hsame | hnone)
        · exact ⟨_, .hookFailed, hsame⟩
        · exact ⟨_, .startFailed, hnone⟩
  | stopAll stopOrder =>
    cases flag with
    | true =>
      refine (stopAll_wp hapart h stopOrder).bind ?_ (by simp)
      rintro _ s' ⟨-, hstopped⟩
      exact ⟨_, .stopped, hstopped⟩
    | false =>
      rw [Call.run, Coordinator.stopAll, bind_assoc, wp_get_bind, if_pos h.coordinator]
      exact ⟨_, .stoppedAlready, h⟩
  | restart name =>
    cases hget : c.orchestrators.get? name with
    | none =>
      rw [Call.run, Coordinator.restartOrchestrator, hget]
      exact ⟨_, .unknown (mt List.mem_toFinset.mp (Dict.lookup_eq_none.mp hget)), h⟩
    | some o =>
      have hname : name ∈ c.registered :=
        List.mem_toFinset.mpr (List.mem_map.mpr ⟨(name, o), Dict.mem_entries.mpr hget, rfl⟩)
      refine (restart_wp hapart h hget).mono ?_
      rintro _ s' (⟨rfl, hup⟩ | ⟨rfl, hdown⟩)
      · exact ⟨_, .restarted hname, hup⟩
      · exact ⟨_, .restartFailed hname, hdown⟩

end

-- ---------------------------------------------------------------------------
-- One call after the other
-- ---------------------------------------------------------------------------

/-- While the coordinator says that it runs, so does each service that was not
left stopped by a restart. -/
def Control.Complete (names : Finset String) (t : Control) (before : List (Call × Except Exc Bool)) :
    Prop :=
  t.coordinator = true → ∀ name ∈ names, name ∈ t.running ∨ (.restart name, .ok false) ∈ before

theorem Control.Step.complete (hstep : Control.Step names t call result t')
    (h : t.Complete names before) : t'.Complete names (before ++ [(call, result)]) := by
  intro hflag name hname
  cases hstep with
  | startedAlready => exact (h hflag name hname).imp_right (List.mem_append_left _)
  | started => exact .inl hname
  | hookFailed | startFailed | stoppedAlready | stopped => cases hflag
  | restarted => exact (h hflag name hname).imp (Finset.mem_insert_of_mem ·) (List.mem_append_left _)
  | @restartFailed failed up flag =>
    by_cases hsame : name = failed
    · subst hsame
      exact .inr (List.mem_append_right _ (List.mem_singleton.mpr rfl))
    · exact (h hflag name hname).imp (Finset.mem_erase_of_ne_of_mem hsame) (List.mem_append_left _)
  | unknown => exact (h hflag name hname).imp_right (List.mem_append_left _)

theorem Control.Runs.complete (hruns : Control.Runs names t trace t') (h : t.Complete names before) :
    t'.Complete names (before ++ trace) := by
  induction hruns generalizing before with
  | nil => simpa using h
  | cons hstep hrest ih => simpa using ih (hstep.complete h)

section
variable {c : Coordinator} {s : State}

theorem attempt_models (hapart : c.Apart) (h : Models c.toLifecycleCoordinator t s) (a : Attempt)
    (hstops : ∀ x ∈ (a.exec c s).world.log, Stops x.1 x.2) :
    ∃ t', Control.Step c.registered t a.1 (a.exec c s).result t' ∧
      Models c.toLifecycleCoordinator t' (a.exec c s).world.st := by
  obtain ⟨new, hnew, hends⟩ := (call_wp hapart h a.1).exec a.2 []
  rw [List.nil_append] at hnew
  exact hends fun x hx => hstops x (hnew ▸ hx)

theorem attempts_model (hapart : c.Apart) (h : Models c.toLifecycleCoordinator t s)
    (attempts : List Attempt) (hstops : c.Stopping s attempts) :
    ∃ t', Control.Runs c.registered t (c.ended s attempts) t' ∧
      Models c.toLifecycleCoordinator t' (c.after s attempts) := by
  induction attempts generalizing t s with
  | nil => exact ⟨t, .nil, h⟩
  | cons a attempts ih =>
    obtain ⟨t₁, hstep, hmodels⟩ := attempt_models hapart h a hstops.1
    obtain ⟨t', hruns, hend⟩ := ih hmodels hstops.2
    exact ⟨t', .cons hstep hruns, hend⟩

/-- Whatever is called and whatever fails but the stop of a consumer, each call
does what its end says it did. The components of the services that say they run
are running, and the tasks not cancelled are theirs. -/
theorem restarts_refine (hapart : c.Apart) (attempts : List Attempt)
    (hstops : c.Stopping .initial attempts) :
    ∃ t, Control.Runs c.registered ⟨∅, false⟩ (c.ended .initial attempts) t ∧
      Models c.toLifecycleCoordinator t (c.after .initial attempts) ∧
      t.Complete c.registered (c.ended .initial attempts) := by
  obtain ⟨t, hruns, hmodels⟩ := attempts_model hapart (models_initial _) attempts hstops
  have hstart : Control.Complete c.registered ⟨∅, false⟩ [] := fun hflag => by cases hflag
  exact ⟨t, hruns, hmodels, hruns.complete hstart⟩

end

instance decidableStops : (op : Op) → (r : Option Exc) → Decidable (Stops op r)
  | .stop (.consumer _), r | .join _, r => inferInstanceAs (Decidable (r.isNone = true))
  | .stop (.producer _), _ | .hook _, _ | .start _, _ | .flush _, _ => inferInstanceAs (Decidable True)

def unreachable : Exc := ⟨"KafkaConnectionError", "Unable to bootstrap", .builtin⟩

def twoServices : Coordinator where
  toLifecycleCoordinator := ((LifecycleCoordinator.empty 0).registerOrchestrator
    ⟨"risk_manager", [0], [0]⟩).registerOrchestrator ⟨"paper_trading", [1], [1]⟩
  shutdownHandlers := 1

theorem twoServices_apart : twoServices.Apart := by
  have hvalues : twoServices.values = [⟨"risk_manager", [0], [0]⟩, ⟨"paper_trading", [1], [1]⟩] := rfl
  simp only [LifecycleCoordinator.Apart, hvalues, ServiceOrchestrator.components]
  simp only [List.forall_mem_cons, List.map_cons, List.map_nil, List.cons_append, List.nil_append]
  simp

def bothStarted : Attempt := (.startAll ["risk_manager", "paper_trading"], [])

def failedRestart : List Attempt :=
  [bothStarted, (.restart "risk_manager", [none, none, none, none, none, some unreachable])]

theorem failedRestart_refines :
    ∃ t, Control.Runs twoServices.registered ⟨∅, false⟩ (twoServices.ended .initial failedRestart) t ∧
      Models twoServices.toLifecycleCoordinator t (twoServices.after .initial failedRestart) ∧
      t.Complete twoServices.registered (twoServices.ended .initial failedRestart) :=
  restarts_refine twoServices_apart failedRestart ⟨by decide +kernel, by decide +kernel, trivial⟩

/-- The consumer fails to stop. The next start finds its service running, and
nothing is consumed any more. -/
example :
    let s := twoServices.after .initial
      [bothStarted, (.stopAll ["risk_manager"], [none, some unreachable]), bothStarted]
    s.coordinator = true ∧ "risk_manager" ∈ s.orchestrators ∧ ∀ flow ∈ s.tasks, flow.1 ≠ "risk_manager" := by
  decide +kernel

end AlphaPanda.Orchestration
