import AlphaPanda.Orchestration.Lifecycle

/-!
# Whether a failed start leaves something running

The orchestrator whose component fails has not set its `_running` yet, so the
emergency shutdown passes it over, with what it started before.
-/

namespace AlphaPanda.Orchestration

open Coroutine

/-- What the startup hooks and the starts of components raise. -/
structure Failures where
  hook : ℕ → Option Exc := fun _ => none
  start : Component → Option Exc := fun _ => none

def Failures.outcome (f : Failures) : Op → Option Exc
  | .hook i => f.hook i
  | .start c => f.start c
  | _ => none

/-- No component or consumption task of a registered orchestrator is running. -/
def AllStopped (c : LifecycleCoordinator) (s : State) : Prop :=
  ∀ o ∈ c.values, (∀ x ∈ o.components, x ∉ s.components) ∧ ∀ flow ∈ o.flows, flow ∉ s.tasks

def AllOrNothing (c : LifecycleCoordinator) (startOrder : List String) (f : Failures) : Prop :=
  ∀ e, ((c.startAll startOrder).under f.outcome .initial).1 = .error e →
    AllStopped c ((c.startAll startOrder).under f.outcome .initial).2

-- ---------------------------------------------------------------------------
-- Starting
-- ---------------------------------------------------------------------------

def State.adding (s : State) (o : ServiceOrchestrator) : State where
  components := s.components ∪ o.components.toFinset
  tasks := s.tasks ∪ o.flows
  orchestrators := insert o.serviceName s.orchestrators
  coordinator := s.coordinator

def reached (done : List ServiceOrchestrator) : State := done.foldl State.adding .initial

theorem reached_concat (done : List ServiceOrchestrator) (o : ServiceOrchestrator) :
    reached (done ++ [o]) = (reached done).adding o := by
  rw [reached, List.foldl_append]
  rfl

theorem mem_reached_components {done : List ServiceOrchestrator} :
    x ∈ (reached done).components ↔ ∃ o ∈ done, x ∈ o.components := by
  induction done using List.reverseRecOn with
  | nil => simp [reached, State.initial]
  | append_singleton done o ih =>
    rw [reached_concat, State.adding]
    simp [ih, or_and_right, exists_or]

theorem mem_reached_tasks {done : List ServiceOrchestrator} :
    flow ∈ (reached done).tasks ↔ ∃ o ∈ done, flow ∈ o.flows := by
  induction done using List.reverseRecOn with
  | nil => simp [reached, State.initial]
  | append_singleton done o ih =>
    rw [reached_concat, State.adding]
    simp [ih, or_and_right, exists_or]

theorem mem_reached_orchestrators {done : List ServiceOrchestrator} :
    name ∈ (reached done).orchestrators ↔ ∃ o ∈ done, o.serviceName = name := by
  induction done using List.reverseRecOn with
  | nil => simp [reached, State.initial]
  | append_singleton done o ih =>
    rw [reached_concat, State.adding]
    simp [ih, or_and_right, exists_or, or_comm, eq_comm]

def State.plus (s : State) (cs : List Component) : State :=
  { s with components := s.components ∪ cs.toFinset }

theorem State.plus_nil (s : State) : s.plus [] = s := by
  rw [plus, List.toFinset_nil, Finset.union_empty]

theorem State.plus_plus (s : State) (cs cs' : List Component) :
    (s.plus cs).plus cs' = s.plus (cs ++ cs') := by
  simp only [plus, List.toFinset_append, Finset.union_assoc]

section
variable {f : Failures}

theorem component_start (s : State) {x : Component} (h : f.start x = none) :
    x.start.under f.outcome s = (.ok (), s.plus [x]) := by
  rw [Component.start, under_get_bind]
  split
  · rename_i hmem
    have hsame : s.plus [x] = s := by
      rw [State.plus, List.toFinset_cons, List.toFinset_nil, Finset.union_eq_left.mpr]
      simpa using hmem
    rw [under_pure, hsame]
  · have hop : (Prog.perform (.start x) : Handler Unit).under f.outcome s = (.ok (), s) := by
      rw [under_perform, Failures.outcome, h]
    rw [under_bind_ok _ hop, under_modify, State.plus, List.toFinset_cons, List.toFinset_nil,
      Finset.union_insert, Finset.union_empty]

theorem components_start (s : State) {cs : List Component} (h : ∀ x ∈ cs, f.start x = none) :
    (Prog.each Component.start cs).under f.outcome s = (.ok (), s.plus cs) := by
  have hall := under_each_ok s.plus cs fun pre x post hcs =>
    show x.start.under f.outcome (s.plus pre) = _ by
      rw [component_start _ (h x (by simp [hcs])), State.plus_plus]
  rw [State.plus_nil] at hall
  exact hall

theorem components_start_fails (s : State) {pre : List Component} (post : List Component)
    (hpre : ∀ x ∈ pre, f.start x = none) (hx : f.start x = some e) (hnew : x ∉ s.components) :
    (Prog.each Component.start (pre ++ x :: post)).under f.outcome s = (.error e, s.plus pre) := by
  have hnot : x ∉ (s.plus pre).components := by
    rw [State.plus, Finset.mem_union, List.mem_toFinset, not_or]
    refine ⟨hnew, fun hmem => ?_⟩
    cases (hpre x hmem).symm.trans hx
  have hstart : x.start.under f.outcome (s.plus pre) = (.error e, s.plus pre) := by
    rw [Component.start, under_get_bind, if_neg hnot]
    refine under_bind_error _ ?_
    rw [under_perform, Failures.outcome, hx]
  rw [under_each_append, under_bind_ok _ (components_start s hpre), Prog.each]
  exact under_bind_error _ hstart

def Named (os : List ServiceOrchestrator) : Prop :=
  ∀ o ∈ os, ∀ o' ∈ os, o.serviceName = o'.serviceName → o = o'

theorem orchestrator_start {done : List ServiceOrchestrator} {o : ServiceOrchestrator}
    (hnamed : Named (done ++ [o])) (h : ∀ x ∈ o.components, f.start x = none) :
    o.start.under f.outcome (reached done) = (.ok (), reached (done ++ [o])) := by
  rw [ServiceOrchestrator.start, under_get_bind]
  split
  · rename_i hrunning
    -- It is running already, so it is one of those done.
    obtain ⟨o', ho', hname⟩ := mem_reached_orchestrators.mp hrunning
    have hsame := hnamed o' (List.mem_append_left _ ho') o (by simp) hname
    subst hsame
    have hadded : (reached done).adding o' = reached done := by
      ext y
      · simp only [State.adding, Finset.mem_union, List.mem_toFinset, or_iff_left_iff_imp]
        exact fun hy => mem_reached_components.mpr ⟨o', ho', hy⟩
      · simp only [State.adding, Finset.mem_union, or_iff_left_iff_imp]
        exact fun hy => mem_reached_tasks.mpr ⟨o', ho', hy⟩
      · simp only [State.adding, Finset.mem_insert, or_iff_right_iff_imp]
        rintro rfl
        exact hrunning
      · rfl
    rw [under_pure, reached_concat, hadded]
  · rw [under_bind_ok _ (components_start _ h), reached_concat]
    rfl

theorem orchestrators_start {c : LifecycleCoordinator} {done : List ServiceOrchestrator}
    (hnamed : Named done) (h : ∀ o ∈ done, ∀ x ∈ o.components, f.start x = none) :
    (Prog.each (fun o => rescued o.start c.emergencyShutdown) done).under f.outcome (reached []) =
      (.ok (), reached done) := by
  refine under_each_ok reached done fun pre o post hdone => under_rescued_ok _ ?_
  refine orchestrator_start (fun o₁ h₁ o₂ h₂ => hnamed o₁ ?_ o₂ ?_) (h o (by simp [hdone]))
  · rw [hdone]
    grind
  · rw [hdone]
    grind

end

-- ---------------------------------------------------------------------------
-- Stopping
-- ---------------------------------------------------------------------------

def State.minus (s : State) (cs : List Component) : State :=
  { s with components := s.components \ cs.toFinset }

def State.removing (s : State) (o : ServiceOrchestrator) : State where
  components := s.components \ o.components.toFinset
  tasks := s.tasks.filter (·.1 ≠ o.serviceName)
  orchestrators := s.orchestrators.erase o.serviceName
  coordinator := s.coordinator

theorem State.minus_nil (s : State) : s.minus [] = s := by
  rw [minus, List.toFinset_nil, Finset.sdiff_empty]

theorem State.minus_minus (s : State) (cs cs' : List Component) :
    (s.minus cs).minus cs' = s.minus (cs ++ cs') := by
  simp only [minus, List.toFinset_append, Finset.sdiff_sdiff_left']
  rw [Finset.sdiff_union_distrib]

theorem State.minus_of_not_mem {s : State} {x : Component} (h : x ∉ s.components) :
    s.minus [x] = s := by
  rw [minus, List.toFinset_cons, List.toFinset_nil, Finset.sdiff_eq_self_iff_disjoint.mpr]
  simpa using h

section
variable {f : Failures}

theorem stopConsumer_under (s : State) (id : ℕ) :
    (stopConsumer id).under f.outcome s = (.ok (), s.minus [.consumer id]) := by
  rw [stopConsumer, under_get_bind]
  split
  · rename_i hnot
    rw [under_pure, State.minus_of_not_mem hnot]
  · rw [State.minus, List.toFinset_cons, List.toFinset_nil, Finset.insert_empty,
      Finset.sdiff_singleton_eq_erase]
    rfl

theorem stopProducer_under (s : State) (id : ℕ) :
    (stopProducer id).under f.outcome s = (.ok (), s.minus [.producer id]) := by
  rw [stopProducer, under_get_bind]
  split
  · rename_i hnot
    rw [under_pure, State.minus_of_not_mem hnot]
  · rw [State.minus, List.toFinset_cons, List.toFinset_nil, Finset.insert_empty,
      Finset.sdiff_singleton_eq_erase]
    rfl

theorem each_stop {stop : ℕ → Handler Unit} {g : ℕ → Component}
    (h : ∀ s id, (stop id).under f.outcome s = (.ok (), s.minus [g id])) (s : State) (ids : List ℕ) :
    (Prog.each stop ids).under f.outcome s = (.ok (), s.minus (ids.map g)) := by
  have hall := under_each_ok (fun ids => s.minus (ids.map g)) ids fun pre id post _ =>
    show (stop id).under f.outcome (s.minus (pre.map g)) = _ by
      rw [h, State.minus_minus, List.map_append, List.map_singleton]
  rw [List.map_nil, State.minus_nil] at hall
  exact hall

theorem cancelTasks_under (o : ServiceOrchestrator) (s : State) :
    o.cancelTasks.under f.outcome s =
      (.ok (), { s with tasks := s.tasks.filter (·.1 ≠ o.serviceName) }) := by
  rw [ServiceOrchestrator.cancelTasks, under_get_bind]
  split
  · rename_i hnone
    have hsame : s.tasks.filter (·.1 ≠ o.serviceName) = s.tasks :=
      Finset.filter_true_of_mem (Finset.filter_eq_empty_iff.mp hnone)
    rw [under_pure, hsame]
  · rfl

theorem orchestrator_stop {o : ServiceOrchestrator} {s : State}
    (h : o.serviceName ∈ s.orchestrators) :
    o.stop.under f.outcome s = (.ok (), s.removing o) := by
  rw [ServiceOrchestrator.stop, under_get_bind, if_neg (not_not.mpr h),
    under_bind_ok _ (cancelTasks_under o s), under_bind_ok _ (each_stop stopConsumer_under _ _),
    under_bind_ok _ (each_stop stopProducer_under _ _), under_modify, State.minus_minus, State.removing,
    ServiceOrchestrator.components, List.toFinset_append, Finset.union_comm, ← List.toFinset_append]
  rfl

theorem orchestrators_stop {os : List ServiceOrchestrator} (hos : (os.map (·.serviceName)).Nodup)
    {s : State} (h : ∀ o ∈ os, o.serviceName ∈ s.orchestrators) :
    (Prog.each (fun o => suppress o.stop) os).under f.outcome s =
      (.ok (), os.foldl State.removing s) := by
  induction os generalizing s with
  | nil => rfl
  | cons o os ih =>
    rw [List.map_cons, List.nodup_cons] at hos
    have hstop : (suppress o.stop).under f.outcome s = (.ok (), s.removing o) := by
      rw [suppress, under_tryCatch, orchestrator_stop (h o List.mem_cons_self)]
    rw [Prog.each, under_bind_ok _ hstop, List.foldl_cons]
    refine ih hos.2 fun o' ho' => ?_
    refine Finset.mem_erase.mpr ⟨fun hname => hos.1 ?_, h o' (List.mem_cons_of_mem _ ho')⟩
    rw [← hname]
    exact List.mem_map_of_mem ho'

end

theorem mem_removing_components {os : List ServiceOrchestrator} (s : State) :
    x ∈ (os.foldl State.removing s).components ↔
      x ∈ s.components ∧ ∀ o ∈ os, x ∉ o.components := by
  induction os generalizing s with
  | nil => simp
  | cons o os ih =>
    rw [List.foldl_cons, ih, State.removing]
    simp [and_assoc]

theorem mem_removing_tasks {os : List ServiceOrchestrator} (s : State) :
    flow ∈ (os.foldl State.removing s).tasks ↔
      flow ∈ s.tasks ∧ ∀ o ∈ os, flow.1 ≠ o.serviceName := by
  induction os generalizing s with
  | nil => simp
  | cons o os ih =>
    rw [List.foldl_cons, ih, State.removing]
    simp [and_assoc]

-- ---------------------------------------------------------------------------
-- The whole start
-- ---------------------------------------------------------------------------

/-- The start of `x` is the first thing that fails, when the orchestrators
`done` have started and the components `pre` of the next one. -/
structure FailsFirst (c : LifecycleCoordinator) (startOrder : List String) (f : Failures)
    (done : List ServiceOrchestrator) (pre : List Component) (x : Component) : Prop where
  reached : ∃ o rest post, c.inOrder startOrder = done ++ o :: rest ∧ o.components = pre ++ x :: post
  hooks : ∀ i < c.startupHooks, f.hook i = none
  done : ∀ o ∈ done, ∀ y ∈ o.components, f.start y = none
  pre : ∀ y ∈ pre, f.start y = none
  fails : (f.start x).isSome

/-- Wherever a start fails first, the components its orchestrator has started
are shared with one that was done before. -/
def Covered (c : LifecycleCoordinator) (startOrder : List String) (f : Failures) : Prop :=
  ∀ done pre x, FailsFirst c startOrder f done pre x →
    ∀ y ∈ pre, ∃ o ∈ done, y ∈ o.components

section
variable {c : LifecycleCoordinator} {f : Failures}

theorem values_named (c : LifecycleCoordinator) : Named c.values := by
  intro o ho o' ho' hname
  obtain ⟨⟨n, _⟩, h, rfl⟩ := List.mem_map.mp ho
  obtain ⟨⟨n', _⟩, h', rfl⟩ := List.mem_map.mp ho'
  have hn := c.named n _ (Dict.mem_entries.mp h)
  have hn' := c.named n' _ (Dict.mem_entries.mp h')
  have hget := Dict.mem_entries.mp h
  rw [← hn, hname, hn'] at hget
  exact Option.some.inj (hget.symm.trans (Dict.mem_entries.mp h'))

theorem mem_values_of_inOrder (h : o ∈ c.inOrder startOrder) : o ∈ c.values := by
  obtain ⟨name, -, hget⟩ := List.mem_filterMap.mp h
  exact List.mem_map.mpr ⟨(name, o), Dict.mem_entries.mpr hget, rfl⟩

theorem inOrder_named (c : LifecycleCoordinator) (startOrder : List String) :
    Named (c.inOrder startOrder) := fun o ho o' ho' =>
  values_named c o (mem_values_of_inOrder ho) o' (mem_values_of_inOrder ho')

theorem values_nodup (c : LifecycleCoordinator) : (c.values.map (·.serviceName)).Nodup := by
  have hnames : c.values.map (·.serviceName) = c.orchestrators.entries.map Prod.fst := by
    rw [LifecycleCoordinator.values, List.map_map]
    refine List.map_congr_left fun e he => ?_
    exact c.named e.1 e.2 (Dict.mem_entries.mp he)
  rw [hnames]
  exact c.orchestrators.nodup

theorem hooks_under (f : Failures) (is : List ℕ) (s : State) :
    ∃ r, (Prog.each (fun i => Prog.perform (.hook i)) is : Handler Unit).under f.outcome s = (r, s) ∧
      (r = .ok () ↔ ∀ i ∈ is, f.hook i = none) := by
  induction is with
  | nil => exact ⟨.ok (), rfl, by simp⟩
  | cons i is ih =>
    obtain ⟨r, hr, hiff⟩ := ih
    cases hi : f.hook i with
    | none =>
      refine ⟨r, ?_, by simp [hi, hiff]⟩
      rw [Prog.each, under_bind, under_perform, Failures.outcome, hi]
      exact hr
    | some e =>
      refine ⟨.error e, ?_, by simp [hi]⟩
      rw [Prog.each, under_bind, under_perform, Failures.outcome, hi]

theorem startAll_under (c : LifecycleCoordinator) (startOrder : List String)
    (hhooks : ∀ i < c.startupHooks, f.hook i = none) :
    (c.startAll startOrder).under f.outcome .initial =
      (Prog.each (fun o => rescued o.start c.emergencyShutdown) (c.inOrder startOrder) >>= fun _ =>
        modify fun s => { s with coordinator := true }).under f.outcome (reached []) := by
  obtain ⟨r, hr, hiff⟩ := hooks_under f (List.range c.startupHooks) .initial
  obtain rfl := hiff.mpr fun i hi => hhooks i (List.mem_range.mp hi)
  exact under_bind_ok _ hr

theorem startAll_hook_fails (c : LifecycleCoordinator) (startOrder : List String)
    (hhooks : ¬∀ i < c.startupHooks, f.hook i = none) :
    ((c.startAll startOrder).under f.outcome .initial).2 = .initial := by
  obtain ⟨r, hr, hiff⟩ := hooks_under f (List.range c.startupHooks) .initial
  cases r with
  | ok u => exact absurd (fun i hi => hiff.mp rfl i (List.mem_range.mpr hi)) hhooks
  | error e => exact congrArg Prod.snd (under_bind_error _ hr)

theorem orchestrator_start_fails {done : List ServiceOrchestrator} {o : ServiceOrchestrator}
    {pre post : List Component} (hnamed : Named (done ++ [o])) (ho : o.components = pre ++ x :: post)
    (hdone : ∀ o' ∈ done, ∀ y ∈ o'.components, f.start y = none) (hpre : ∀ y ∈ pre, f.start y = none)
    (hx : f.start x = some e) :
    o.start.under f.outcome (reached done) = (.error e, (reached done).plus pre) := by
  have hidle : o.serviceName ∉ (reached done).orchestrators := by
    intro hrunning
    obtain ⟨o', ho', hname⟩ := mem_reached_orchestrators.mp hrunning
    have hsame := hnamed o' (List.mem_append_left _ ho') o (by simp) hname
    subst hsame
    cases (hdone o' ho' x (by simp [ho])).symm.trans hx
  have hnew : x ∉ (reached done).components := by
    rw [mem_reached_components]
    rintro ⟨o', ho', hmem⟩
    cases (hdone o' ho' x hmem).symm.trans hx
  rw [ServiceOrchestrator.start, under_get_bind, if_neg hidle, ho]
  exact under_bind_error _ (components_start_fails _ post hpre hx hnew)

theorem emergencyShutdown_under (hdone : ∀ o ∈ done, o ∈ c.values) (pre : List Component) :
    ∃ s, c.emergencyShutdown.under f.outcome ((reached done).plus pre) = (.ok (), s) ∧
      (∀ y, y ∈ s.components ↔ y ∈ pre ∧ ∀ o ∈ done, y ∉ o.components) ∧ s.tasks = ∅ := by
  have hmem : ∀ o, o ∈ c.values.filter (·.serviceName ∈ ((reached done).plus pre).orchestrators) ↔
      o ∈ done := by
    intro o
    rw [List.mem_filter, decide_eq_true_eq]
    constructor
    · rintro ⟨ho, hrunning⟩
      obtain ⟨o', ho', hname⟩ := mem_reached_orchestrators.mp hrunning
      exact values_named c o' (hdone o' ho') o ho hname ▸ ho'
    · exact fun ho => ⟨hdone o ho, mem_reached_orchestrators.mpr ⟨o, ho, rfl⟩⟩
  have hstop := orchestrators_stop (f := f) ((values_nodup c).sublist (List.filter_sublist.map _))
    (s := (reached done).plus pre) fun o ho => of_decide_eq_true (List.mem_filter.mp ho).2
  generalize hstops : c.values.filter (·.serviceName ∈ ((reached done).plus pre).orchestrators) = stops
    at hmem hstop
  refine ⟨{ stops.foldl State.removing ((reached done).plus pre) with coordinator := false }, ?_,
    fun y => ?_, Finset.eq_empty_of_forall_notMem fun flow hflow => ?_⟩
  · rw [LifecycleCoordinator.emergencyShutdown, under_get_bind, hstops, under_bind_ok _ hstop,
      under_modify]
  · simp only [mem_removing_components, hmem, State.plus, Finset.mem_union, List.mem_toFinset,
      mem_reached_components]
    constructor
    · rintro ⟨⟨o, ho, hy⟩ | hy, hnot⟩
      · exact absurd hy (hnot o ho)
      · exact ⟨hy, hnot⟩
    · exact fun ⟨hy, hnot⟩ => ⟨.inr hy, hnot⟩
  · simp only [mem_removing_tasks, hmem, State.plus, mem_reached_tasks] at hflow
    obtain ⟨⟨o, ho, hin⟩, hnot⟩ := hflow
    refine hnot o ho ?_
    exact Finset.mem_singleton.mp (Finset.mem_product.mp hin).1

theorem startAll_fails (h : FailsFirst c startOrder f done pre x) :
    ∃ e s, (c.startAll startOrder).under f.outcome .initial = (.error e, s) ∧
      (∀ y, y ∈ s.components ↔ y ∈ pre ∧ ∀ o ∈ done, y ∉ o.components) ∧ s.tasks = ∅ := by
  obtain ⟨o, rest, post, horder, hcomponents⟩ := h.reached
  obtain ⟨e, he⟩ := Option.isSome_iff_exists.mp h.fails
  have hnamed := inOrder_named c startOrder
  rw [horder] at hnamed
  have hdone : ∀ o ∈ done, o ∈ c.values := by
    intro o ho
    have hmem : o ∈ c.inOrder startOrder := by simp [horder, ho]
    exact mem_values_of_inOrder hmem
  have hstart := orchestrator_start_fails (fun o₁ h₁ o₂ h₂ => hnamed o₁ (by grind) o₂ (by grind))
    hcomponents h.done h.pre he
  obtain ⟨s, hshutdown, hleft⟩ := emergencyShutdown_under (f := f) hdone pre
  have hall := orchestrators_start (c := c)
    (fun o₁ h₁ o₂ h₂ => hnamed o₁ (by grind) o₂ (by grind)) h.done
  refine ⟨e, s, ?_, hleft⟩
  rw [startAll_under c startOrder h.hooks, horder]
  refine under_bind_error _ ?_
  rw [under_each_append]
  refine (under_bind_ok _ hall).trans ?_
  rw [Prog.each]
  exact under_bind_error _ (under_rescued_error hstart hshutdown)

theorem startAll_ok (hhooks : ∀ i < c.startupHooks, f.hook i = none)
    (h : ∀ o ∈ c.inOrder startOrder, ∀ x ∈ o.components, f.start x = none) :
    ((c.startAll startOrder).under f.outcome .initial).1 = .ok () := by
  have hall := orchestrators_start (c := c) (inOrder_named c startOrder) h
  rw [startAll_under c startOrder hhooks, under_bind_ok _ hall]
  rfl

end

theorem exists_first {l : List α} {p : α → Prop} (h : ¬∀ x ∈ l, p x) :
    ∃ pre x post, l = pre ++ x :: post ∧ (∀ y ∈ pre, p y) ∧ ¬p x := by
  induction l with
  | nil => exact absurd (List.forall_mem_nil _) h
  | cons x xs ih =>
    by_cases hx : p x
    · obtain ⟨pre, y, post, hxs, hpre, hy⟩ := ih fun hall => h (List.forall_mem_cons.mpr ⟨hx, hall⟩)
      exact ⟨x :: pre, y, post, by rw [hxs, List.cons_append], List.forall_mem_cons.mpr ⟨hx, hpre⟩, hy⟩
    · exact ⟨[], x, xs, rfl, List.forall_mem_nil _, hx⟩

theorem exists_failsFirst {c : LifecycleCoordinator} {f : Failures}
    (hhooks : ∀ i < c.startupHooks, f.hook i = none)
    (h : ¬∀ o ∈ c.inOrder startOrder, ∀ x ∈ o.components, f.start x = none) :
    ∃ done pre x, FailsFirst c startOrder f done pre x := by
  obtain ⟨done, o, rest, horder, hdone, ho⟩ := exists_first h
  obtain ⟨pre, x, post, hcomponents, hpre, hx⟩ := exists_first ho
  refine ⟨done, pre, x, ⟨o, rest, post, horder, hcomponents⟩, hhooks, hdone, hpre, ?_⟩
  exact Option.isSome_iff_ne_none.mpr hx

/-- A failed start leaves nothing running exactly where the failing orchestrator
had started nothing of its own. -/
theorem allOrNothing_iff (c : LifecycleCoordinator) (startOrder : List String) (f : Failures) :
    AllOrNothing c startOrder f ↔ Covered c startOrder f := by
  constructor
  · intro h done pre x hfirst y hy
    obtain ⟨e, s, hrun, hleft, -⟩ := startAll_fails hfirst
    obtain ⟨o, rest, post, horder, hcomponents⟩ := hfirst.reached
    have hstopped := h e (by rw [hrun])
    rw [hrun] at hstopped
    have hmem : o ∈ c.inOrder startOrder := by simp [horder]
    have ho : o ∈ c.values := mem_values_of_inOrder hmem
    by_contra hnone
    refine (hstopped o ho).1 y (by simp [hcomponents, hy]) ((hleft y).mpr ⟨hy, fun o' ho' hmem => ?_⟩)
    exact hnone ⟨o', ho', hmem⟩
  · intro h e he
    by_cases hhooks : ∀ i < c.startupHooks, f.hook i = none
    · by_cases hall : ∀ o ∈ c.inOrder startOrder, ∀ x ∈ o.components, f.start x = none
      · rw [startAll_ok hhooks hall] at he
        cases he
      · obtain ⟨done, pre, x, hfirst⟩ := exists_failsFirst hhooks hall
        obtain ⟨e', s, hrun, hleft, htasks⟩ := startAll_fails hfirst
        rw [hrun]
        refine fun o _ => ⟨fun y _ hrunning => ?_, fun flow _ hflow => ?_⟩
        · obtain ⟨hy, hnot⟩ := (hleft y).mp hrunning
          obtain ⟨o', ho', hmem⟩ := h done pre x hfirst y hy
          exact hnot o' ho' hmem
        · rw [htasks] at hflow
          cases hflow
    · rw [startAll_hook_fails c startOrder hhooks]
      refine fun o _ => ⟨fun y _ hrunning => ?_, fun flow _ hflow => ?_⟩
      · cases hrunning
      · cases hflow

def oneService : LifecycleCoordinator :=
  (LifecycleCoordinator.empty 0).registerOrchestrator ⟨"paper_trading", [0], [0]⟩

def consumerFails : Failures where
  start
    | .consumer _ => some ⟨"KafkaConnectionError", "Unable to bootstrap", .builtin⟩
    | .producer _ => none

/-- The consumer fails, and the producer is left running. -/
theorem producer_left : ¬∀ c startOrder f, AllOrNothing c startOrder f := by
  intro hclaim
  have hnothing := hclaim oneService [] consumerFails
  rw [AllOrNothing] at hnothing
  generalize hrun : (oneService.startAll []).under consumerFails.outcome .initial = ended at hnothing
  have hfails : ended.1.toOption = none ∧ .producer 0 ∈ ended.2.components := by
    rw [← hrun]
    decide +kernel
  rcases ended with ⟨_ | _, s⟩
  · rename_i e
    have hstopped := hnothing e rfl ⟨"paper_trading", [0], [0]⟩ List.mem_cons_self
    exact hstopped.1 (.producer 0) (by decide) hfails.2
  · cases hfails.1

end AlphaPanda.Orchestration
