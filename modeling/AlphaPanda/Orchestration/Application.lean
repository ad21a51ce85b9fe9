import AlphaPanda.Exceptions
import AlphaPanda.Lib.Confined
import AlphaPanda.Lib.Session

/-!
# The application

`app/main.py`: what is checked before any service is started, which services
are started in which order, and what a shutdown stops. What `asyncio.gather`
calls together is one operation: it is awaited until all have ended or the first
raises, so the others may still run after it.
-/

namespace AlphaPanda.Orchestration

open Coroutine

inductive AppService where
  | auth
  | instrumentRegistry
  | marketFeed
  | strategyRunner
  | riskManager
  | paperTrading
  | zerodhaTrading
  | pipelineMonitor
  deriving DecidableEq

def lifespanServices : List AppService :=
  [.auth, .instrumentRegistry, .marketFeed, .strategyRunner, .riskManager, .paperTrading,
    .zerodhaTrading, .pipelineMonitor]

/-- The settings that the application reads; `zerodhaEnabled` is `none` where
there are no settings of that broker. -/
structure AppSettings where
  production : Bool
  secretKey : String
  activeBrokers : List String
  tradingPaperEnabled : Option Bool := none
  tradingZerodhaEnabled : Option Bool := none
  zerodhaEnabled : Option Bool := some true

def AppSettings.isPaperTradingEnabled (settings : AppSettings) : Bool :=
  settings.tradingPaperEnabled.getD true

def AppSettings.isZerodhaTradingEnabled (settings : AppSettings) : Bool :=
  settings.tradingZerodhaEnabled.getD (settings.zerodhaEnabled.getD false)

inductive AppOp where
  | validateStartupConfiguration
  | dbInit
  | dbWaitForReady
  | start (service : AppService)
  | runChecks
  | awaitShutdownEvent
  | stop (service : AppService)
  | gatherStops (services : List AppService)
  | gatherCleanup (services : List AppService)
  | shutdownStreaming
  | dbShutdown
  deriving DecidableEq

/-- What ends a coroutine: an exception, a cancellation, or `sys.exit(1)`. -/
inductive AppFault where
  | raised (e : Exc)
  | cancelled
  | exit

abbrev AppTask := Prog (List AppService) AppOp AppFault

/-- An orchestrator, with what the validation and the checks find. -/
structure ApplicationOrchestrator where
  settings : AppSettings
  configValid : Bool
  isHealthy : Bool

-- ---------------------------------------------------------------------------
-- Stopping
-- ---------------------------------------------------------------------------

def AppOp.stops : AppOp → List AppService
  | .stop service => [service]
  | .gatherStops services | .gatherCleanup services => services
  | _ => []

/-- `_cleanup_partial_initialization`: each `_safe_service_stop` and the
`_safe_db_shutdown`, with a timeout. -/
def cleanupPartialInitialization : AppTask Unit :=
  tryCatch (Prog.perform (.gatherCleanup lifespanServices.reverse)) fun
    | .raised _ => pure ()
    | e => throw e

def forceStops : List AppService → AppTask Unit
  | [] => pure ()
  | service :: rest => do
    tryCatch (Prog.perform (.stop service)) fun
      | .raised _ => pure ()
      | e => throw e
    forceStops rest

def stopServices (services : List AppService) : AppTask Unit :=
  tryCatch (Prog.perform (.gatherStops services.reverse)) fun
    | .raised _ => pure ()
    | .cancelled => forceStops services.reverse
    | .exit => throw .exit

def closeShared : AppTask Unit :=
  tryCatch
    (do
      Prog.perform .shutdownStreaming
      Prog.perform .dbShutdown)
    fun
      | .raised _ => pure ()
      | e => throw e

def toStop (started : List AppService) : List AppService :=
  if started = [] then lifespanServices else started

def shutdown : AppTask Unit := do
  let started ← get
  finallyDo (stopServices (toStop started)) closeShared

-- ---------------------------------------------------------------------------
-- Starting
-- ---------------------------------------------------------------------------

section
variable (app : ApplicationOrchestrator)

def ApplicationOrchestrator.allow : AppService → Bool
  | .paperTrading => app.settings.isPaperTradingEnabled && app.settings.activeBrokers.contains "paper"
  | .zerodhaTrading =>
    app.settings.isZerodhaTradingEnabled && app.settings.activeBrokers.contains "zerodha"
  | _ => true

def ApplicationOrchestrator.remainingServices : List AppService :=
  (lifespanServices.filter app.allow).filter (· ≠ .auth)

def startServices : List AppService → AppTask Unit
  | [] => pure ()
  | service :: rest => do
    Prog.perform (.start service)
    modify (· ++ [service])
    startServices rest

def ApplicationOrchestrator.validateConfiguration : AppTask Unit :=
  tryCatch
    (do
      Prog.perform .validateStartupConfiguration
      if app.configValid then pure () else
        cleanupPartialInitialization
        throw .exit)
    fun
      | .raised _ => do
        cleanupPartialInitialization
        throw .exit
      | e => throw e

def ApplicationOrchestrator.refuseDefaultSecret : AppTask Unit :=
  if app.settings.production && app.settings.secretKey = "your-secret-key-change-in-production" then
    throw .exit
  else pure ()

def ApplicationOrchestrator.requireHealthy : AppTask Unit :=
  if app.isHealthy then pure () else do
    cleanupPartialInitialization
    throw .exit

/-- What comes before the services are started, but for the one of the sessions. -/
def ApplicationOrchestrator.preflight : AppTask Unit := do
  app.refuseDefaultSecret
  app.validateConfiguration
  Prog.perform .dbInit
  Prog.perform .dbWaitForReady
  Prog.perform (.start .auth)
  Prog.perform .runChecks
  app.requireHealthy

def ApplicationOrchestrator.startup : AppTask Unit := do
  app.preflight
  startServices app.remainingServices

def ApplicationOrchestrator.run : AppTask Unit :=
  finallyDo
    (do
      app.startup
      Prog.perform .awaitShutdownEvent)
    shutdown

end

-- ---------------------------------------------------------------------------
-- Before the services
-- ---------------------------------------------------------------------------

abbrev AppCall := AppOp × Option AppFault

/-- No service is started but the one of the sessions. -/
def Early (c : AppCall) : Prop := ∀ service, c.1 = .start service → service = .auth

/-- It awaits `ops` and returns, where `C` holds, or it raises; either way it
starts none of the later services. -/
def Passes (ops : List AppOp) (C : Prop) (p : AppTask Unit) : Prop :=
  ∀ (as : List (Option AppFault)) (w : World (List AppService) AppOp AppFault), ∃ calls,
    (p.exec as w).world = { w with log := w.log ++ calls } ∧ (∀ c ∈ calls, Early c) ∧
      ((p.exec as w).result = .ok () → C ∧ calls = ops.map (·, none))

theorem passes_pure {C : Prop} (h : C) : Passes [] C (pure ()) := by
  intro as w
  exact ⟨[], by simp, by simp, fun _ => ⟨h, rfl⟩⟩

theorem Passes.mono {p : AppTask Unit} {C C' : Prop} (h : Passes ops C p) (hC : C → C') :
    Passes ops C' p := by
  intro as w
  obtain ⟨calls, hworld, hearly, hreturns⟩ := h as w
  exact ⟨calls, hworld, hearly, fun hok => ⟨hC (hreturns hok).1, (hreturns hok).2⟩⟩

theorem passes_throw (ops : List AppOp) (C : Prop) (e : AppFault) : Passes ops C (throw e) := by
  intro as w
  exact ⟨[], by simp, by simp, fun h => by cases h⟩

theorem passes_perform {op : AppOp} (h : ∀ r, Early (op, r)) : Passes [op] True (Prog.perform op) := by
  intro as w
  rw [exec_perform]
  refine ⟨[(op, as.headD none)], rfl, by simpa using h _, ?_⟩
  cases as.headD none with
  | none => exact fun _ => ⟨trivial, rfl⟩
  | some e => exact fun h => by cases h

theorem passes_bind {p : AppTask Unit} {k : Unit → AppTask Unit} {C C' : Prop} (hp : Passes ops C p)
    (hk : Passes ops' C' (k ())) : Passes (ops ++ ops') (C ∧ C') (p >>= k) := by
  intro as w
  obtain ⟨calls, hworld, hearly, hreturns⟩ := hp as w
  rw [exec_bind]
  generalize p.exec as w = o at hworld hreturns ⊢
  obtain ⟨result, world, rest⟩ := o
  obtain rfl : world = _ := hworld
  cases result with
  | error e => exact ⟨calls, rfl, hearly, fun h => by cases h⟩
  | ok u =>
    obtain ⟨hC, rfl⟩ := hreturns rfl
    obtain ⟨calls', hworld', hearly', hreturns'⟩ := hk rest { w with log := w.log ++ ops.map (·, none) }
    refine ⟨ops.map (·, none) ++ calls', hworld'.trans (by rw [List.append_assoc]), ?_, ?_⟩
    · intro c hc
      exact (List.mem_append.mp hc).elim (hearly c) (hearly' c)
    · intro h
      obtain ⟨hC', rfl⟩ := hreturns' h
      exact ⟨⟨hC, hC'⟩, List.map_append.symm⟩

theorem passes_cons {op : AppOp} {k : Unit → AppTask Unit} {C : Prop} (h : ∀ r, Early (op, r))
    (hk : Passes ops C (k ())) : Passes (op :: ops) C (Prog.perform op >>= k) :=
  (passes_bind (passes_perform h) hk).mono And.right

theorem passes_tryCatch {p : AppTask Unit} {h : AppFault → AppTask Unit} {C : Prop}
    (hp : Passes ops C p) (hh : ∀ e, Passes [] False (h e)) : Passes ops C (tryCatch p h) := by
  intro as w
  obtain ⟨calls, hworld, hearly, hreturns⟩ := hp as w
  rw [exec_tryCatch]
  generalize p.exec as w = o at hworld hreturns ⊢
  obtain ⟨result, world, rest⟩ := o
  obtain rfl : world = _ := hworld
  cases result with
  | ok u => exact ⟨calls, rfl, hearly, hreturns⟩
  | error e =>
    obtain ⟨calls', hworld', hearly', hreturns'⟩ := hh e rest { w with log := w.log ++ calls }
    refine ⟨calls ++ calls', hworld'.trans (by rw [List.append_assoc]), ?_, fun h => (hreturns' h).1.elim⟩
    intro c hc
    exact (List.mem_append.mp hc).elim (hearly c) (hearly' c)

theorem passes_exit {p : AppTask Unit} (hp : p.Ends Early Early fun _ => True) (ops : List AppOp)
    (C : Prop) : Passes ops C (do p; throw .exit) := by
  intro as w
  obtain ⟨calls, hworld, hending⟩ := hp as w
  have hearly := hending.all
  rw [exec_bind]
  generalize p.exec as w = o at hworld ⊢
  obtain ⟨result, world, rest⟩ := o
  obtain rfl : world = _ := hworld
  cases result with
  | error e => exact ⟨calls, rfl, hearly, fun h => by cases h⟩
  | ok u => exact ⟨calls, rfl, hearly, fun h => by cases h⟩

theorem swallow_ends {P : AppCall → Prop} {op : AppOp} (h : ∀ r, P (op, r)) :
    (tryCatch (Prog.perform op) (fun
      | .raised _ => pure ()
      | e => throw e) : AppTask Unit).Ends P P fun _ => True := by
  refine ends_tryCatch (Q := fun c => P c) (ends_perform (h _) (fun e => h (some e)) trivial) ?_
  rintro op (e | _ | _) hop
  · exact .inl ⟨hop, ends_pure trivial⟩
  · exact .inr ⟨hop, rfl⟩
  · exact .inr ⟨hop, rfl⟩

theorem cleanup_ends : cleanupPartialInitialization.Ends Early Early fun _ => True :=
  swallow_ends fun _ _ h => by cases h

section
variable {app : ApplicationOrchestrator}

theorem validateConfiguration_passes :
    Passes [.validateStartupConfiguration] app.configValid app.validateConfiguration := by
  refine passes_tryCatch (passes_cons (fun _ _ h => by cases h) ?_) ?_
  · split
    · rename_i h
      exact passes_pure h
    · exact passes_exit cleanup_ends _ _
  · rintro (e | _ | _)
    · exact passes_exit cleanup_ends _ _
    · exact passes_throw _ _ _
    · exact passes_throw _ _ _

/-- The secret is not the default one in production, the configuration is valid
and the checks have passed. -/
structure ApplicationOrchestrator.Sound (app : ApplicationOrchestrator) : Prop where
  secretKey : app.settings.production → app.settings.secretKey ≠ "your-secret-key-change-in-production"
  configValid : app.configValid
  isHealthy : app.isHealthy

theorem refuseDefaultSecret_passes :
    Passes [] (app.settings.production →
      app.settings.secretKey ≠ "your-secret-key-change-in-production") app.refuseDefaultSecret := by
  unfold ApplicationOrchestrator.refuseDefaultSecret
  split
  · exact passes_throw _ _ _
  · rename_i h
    exact passes_pure (by simpa using h)

theorem requireHealthy_passes : Passes [] (app.isHealthy = true) app.requireHealthy := by
  unfold ApplicationOrchestrator.requireHealthy
  split
  · rename_i h
    exact passes_pure h
  · exact passes_exit cleanup_ends _ _

def preflightOps : List AppOp :=
  [.validateStartupConfiguration, .dbInit, .dbWaitForReady, .start .auth, .runChecks]

theorem preflight_passes : Passes preflightOps app.Sound app.preflight := by
  refine Passes.mono (passes_bind refuseDefaultSecret_passes (passes_bind validateConfiguration_passes
    (passes_cons ?_ (passes_cons ?_ (passes_cons ?_ (passes_cons ?_ requireHealthy_passes))))))
    fun h => ⟨h.1, h.2.1, h.2.2⟩
  all_goals
    intro r service h
    cases h
  rfl

-- ---------------------------------------------------------------------------
-- A whole run
-- ---------------------------------------------------------------------------

theorem startServices_exec (services : List AppService) (as : List (Option AppFault))
    (w : World (List AppService) AppOp AppFault) :
    ∃ before after last, services = before ++ after ∧
      ((startServices services).exec as w).world =
        ⟨w.st ++ before, w.log ++ (before.map (.start ·, none) ++ last)⟩ ∧
      (last = [] ∨ ∃ service rest e, after = service :: rest ∧ last = [(.start service, some e)]) := by
  induction services generalizing as w with
  | nil => exact ⟨[], [], [], rfl, by simp [startServices], .inl rfl⟩
  | cons service services ih =>
    rw [startServices, exec_bind, exec_perform]
    cases as.headD none with
    | some e =>
      exact ⟨[], service :: services, [(.start service, some e)], rfl, by simp [World.record],
        .inr ⟨service, services, e, rfl, rfl⟩⟩
    | none =>
      obtain ⟨before, after, last, rfl, hworld, hlast⟩ := ih as.tail
        { w.record (.start service) none with st := w.st ++ [service] }
      refine ⟨service :: before, after, last, rfl, ?_, hlast⟩
      simpa [World.record] using hworld

/-- How a start goes: what it calls and which services it has started. -/
inductive Startup (app : ApplicationOrchestrator) : List AppCall → List AppService → Prop where
  | refused (h : ∀ c ∈ calls, Early c) : Startup app calls []
  | reached (hsound : app.Sound) (hservices : app.remainingServices = before ++ after)
      (hlast : last = [] ∨ ∃ service rest e, after = service :: rest ∧ last = [(.start service, some e)]) :
      Startup app (preflightOps.map (·, none) ++ (before.map (.start ·, none) ++ last)) before

theorem startup_exec (as : List (Option AppFault)) :
    ∃ calls started, (app.startup.exec as (World.start [])).world = ⟨started, calls⟩ ∧
      Startup app calls started := by
  obtain ⟨calls, hworld, hearly, hreturns⟩ := @preflight_passes app as (World.start [])
  rw [ApplicationOrchestrator.startup, exec_bind]
  generalize app.preflight.exec as (World.start []) = o at hworld hreturns ⊢
  obtain ⟨result, world, rest⟩ := o
  obtain rfl : world = _ := hworld
  cases result with
  | error e => exact ⟨calls, [], rfl, .refused hearly⟩
  | ok u =>
    obtain ⟨hsound, rfl⟩ := hreturns rfl
    obtain ⟨before, after, last, hservices, hworld, hlast⟩ :=
      startServices_exec app.remainingServices rest ⟨[], preflightOps.map (·, none)⟩
    exact ⟨_, _, hworld, .reached hsound hservices hlast⟩

theorem forceStops_ends {P : AppCall → Prop} {services : List AppService}
    (h : ∀ service ∈ services, ∀ r, P (.stop service, r)) :
    (forceStops services).Ends P P fun _ => True := by
  induction services with
  | nil => exact ends_pure trivial
  | cons service services ih =>
    have hstop := h service List.mem_cons_self
    exact ends_bind (R := fun _ => True) (swallow_ends hstop) fun _ _ =>
      ih fun s hs => h s (List.mem_cons_of_mem _ hs)

inductive Closing : List AppCall → Prop where
  | broken : Closing [(.shutdownStreaming, some e)]
  | closed : Closing [(.shutdownStreaming, none), (.dbShutdown, r)]

theorem closeShared_exec (as : List (Option AppFault)) (w : World (List AppService) AppOp AppFault) :
    ∃ calls, (closeShared.exec as w).world = { w with log := w.log ++ calls } ∧ Closing calls := by
  rw [closeShared, exec_tryCatch, exec_bind, exec_perform]
  cases as.headD none with
  | some e => exact ⟨[(.shutdownStreaming, some e)], by cases e <;> rfl, .broken⟩
  | none =>
    refine ⟨[(.shutdownStreaming, none), (.dbShutdown, as.tail.headD none)], ?_, .closed⟩
    rw [Outcome.andThen_ok, exec_perform]
    cases as.tail.headD none with
    | none => simp [World.record]
    | some e => cases e <;> simp [World.record]

/-- The calls that stop the services: all are called together, and again one
after the other where that was cancelled. -/
structure Stopping (services : List AppService) (calls : List AppCall) : Prop where
  all : ∃ r, (.gatherStops services.reverse, r) ∈ calls
  only : ∀ c ∈ calls, c.1 = .gatherStops services.reverse ∨ ∃ service ∈ services, c.1 = .stop service

theorem stopServices_exec (services : List AppService) (as : List (Option AppFault))
    (w : World (List AppService) AppOp AppFault) :
    ∃ calls, ((stopServices services).exec as w).world = { w with log := w.log ++ calls } ∧
      Stopping services calls := by
  have hone : ∀ r, Stopping services [(.gatherStops services.reverse, r)] := fun r =>
    ⟨⟨r, List.mem_singleton_self _⟩, fun c hc => .inl (by rw [List.mem_singleton.mp hc])⟩
  rw [stopServices, exec_tryCatch, exec_perform]
  rcases as.headD none with _ | (e | _ | _)
  · exact ⟨_, rfl, hone none⟩
  · exact ⟨_, rfl, hone (some (.raised e))⟩
  · have hends : (forceStops services.reverse).Ends
        (fun c => ∃ service ∈ services, c.1 = .stop service) _ _ :=
      forceStops_ends fun service hs _ => ⟨service, List.mem_reverse.mp hs, rfl⟩
    obtain ⟨forced, hworld, hending⟩ := hends as.tail
      (w.record (.gatherStops services.reverse) (some .cancelled))
    refine ⟨(.gatherStops services.reverse, some .cancelled) :: forced,
      hworld.trans (by simp [World.record]), ⟨_, List.mem_cons_self⟩, fun c hc => ?_⟩
    rcases List.mem_cons.mp hc with rfl | hc
    · exact .inl rfl
    · exact .inr (hending.all c hc)
  · exact ⟨_, rfl, hone (some .exit)⟩

theorem shutdown_exec (as : List (Option AppFault)) (w : World (List AppService) AppOp AppFault) :
    ∃ stops closing, (shutdown.exec as w).world = { w with log := w.log ++ (stops ++ closing) } ∧
      Stopping (toStop w.st) stops ∧ Closing closing := by
  obtain ⟨stops, hworld, hstops⟩ := stopServices_exec (toStop w.st) as w
  rw [shutdown, exec_bind, exec_get, Outcome.andThen_ok, finallyDo_world, hworld]
  obtain ⟨closing, hclosed, hclosing⟩ := closeShared_exec _ { w with log := w.log ++ stops }
  exact ⟨stops, closing, hclosed.trans (by simp), hstops, hclosing⟩

theorem run_log (as : List (Option AppFault)) :
    ∃ startup started waiting stops closing,
      (app.run.exec as (World.start [])).world.log = startup ++ (waiting ++ (stops ++ closing)) ∧
      Startup app startup started ∧ (∀ c ∈ waiting, c.1 = .awaitShutdownEvent) ∧
      Stopping (toStop started) stops ∧ Closing closing := by
  obtain ⟨calls, started, hworld, hstartup⟩ := @startup_exec app as
  have hbody : ∃ waiting : List AppCall, ((do
      app.startup
      Prog.perform .awaitShutdownEvent : AppTask Unit).exec as (World.start [])).world =
        ⟨started, calls ++ waiting⟩ ∧ ∀ c ∈ waiting, c.1 = .awaitShutdownEvent := by
    rw [exec_bind]
    generalize app.startup.exec as (World.start []) = o at hworld ⊢
    obtain ⟨result, world, rest⟩ := o
    obtain rfl : world = _ := hworld
    cases result with
    | error e => exact ⟨[], by simp, by simp⟩
    | ok u =>
      rw [Outcome.andThen_ok, exec_perform]
      exact ⟨[(.awaitShutdownEvent, rest.headD none)], rfl, by simp⟩
  obtain ⟨waiting, hworld, hwaiting⟩ := hbody
  rw [ApplicationOrchestrator.run, finallyDo_world, hworld]
  obtain ⟨stops, closing, hstopped, hstops, hclosing⟩ := shutdown_exec _ ⟨started, calls ++ waiting⟩
  refine ⟨calls, started, waiting, stops, closing, ?_, hstartup, hwaiting, hstops, hclosing⟩
  rw [hstopped]
  simp

theorem split_right {pre post l l' : List α} (h : pre ++ x :: post = l ++ l') (hx : x ∉ l) :
    ∃ rest, pre = l ++ rest ∧ l' = rest ++ x :: post := by
  rcases List.append_eq_append_iff.mp h with ⟨rest, rfl, hrest⟩ | ⟨rest, rfl, hrest⟩
  · cases rest with
    | nil => exact ⟨[], by simp, by simpa using hrest.symm⟩
    | cons y rest =>
      obtain ⟨rfl, -⟩ := List.cons.inj hrest
      exact absurd (by simp) hx
  · exact ⟨rest, rfl, hrest⟩

theorem split_left {pre post l l' : List α} (h : pre ++ x :: post = l ++ l') (hx : x ∉ l') :
    ∃ rest, l = pre ++ x :: rest := by
  rcases List.append_eq_append_iff.mp h with ⟨rest, rfl, hrest⟩ | ⟨rest, rfl, rfl⟩
  · cases rest with
    | nil =>
      have hmem : x ∈ [] ++ l' := hrest ▸ List.mem_cons_self
      exact absurd hmem hx
    | cons y rest =>
      obtain ⟨rfl, -⟩ := List.cons.inj hrest
      exact ⟨rest, rfl⟩
  · exact absurd (by simp) hx

theorem Startup.in_order {service : AppService}
    (h : Startup app (pre ++ (.start service, r) :: post) started) (hservice : service ≠ .auth) :
    app.Sound ∧ ∃ before after, app.remainingServices = before ++ service :: after ∧
      pre = preflightOps.map (·, none) ++ before.map (.start ·, none) := by
  generalize hcalls : pre ++ (.start service, r) :: post = calls at h
  cases h with
  | refused hearly =>
    exact absurd (hearly (.start service, r) (hcalls ▸ by simp) service rfl) hservice
  | @reached before after last hsound hservices hlast =>
    refine ⟨hsound, ?_⟩
    obtain ⟨rest, rfl, hrest⟩ := split_right hcalls (by simp [preflightOps, hservice])
    cases r with
    | none =>
      -- It was started, so it is one of those before the one that failed, if any.
      have hne : (.start service, none) ∉ last := by
        rcases hlast with rfl | ⟨_, _, _, -, rfl⟩ <;> simp
      obtain ⟨more, hmore⟩ := split_left hrest.symm hne
      obtain ⟨first, second, rfl, rfl, hsecond⟩ := List.map_eq_append_iff.mp hmore
      obtain ⟨_, later, rfl, heq, -⟩ := List.map_eq_cons_iff.mp hsecond
      cases heq
      exact ⟨first, later ++ after, by simp [hservices], rfl⟩
    | some e =>
      obtain ⟨more, rfl, hmore⟩ := split_right hrest.symm (by simp)
      rcases hlast with rfl | ⟨failed, later, e', rfl, rfl⟩
      · simp at hmore
      · obtain ⟨rfl, heq⟩ : more = [] ∧ _ :=
          List.singleton_eq_append_iff.mp hmore |>.resolve_right (by simp)
        cases heq
        exact ⟨started, later, hservices, by simp⟩

theorem Closing.ops (h : Closing calls) : ∀ c ∈ calls, c.1 = .shutdownStreaming ∨ c.1 = .dbShutdown := by
  cases h <;> simp

theorem after_startup {waiting stops closing : List AppCall}
    (hwaiting : ∀ c ∈ waiting, c.1 = .awaitShutdownEvent)
    (hstops : Stopping (toStop started) stops)
    (hclosing : Closing closing) : (.start service, r) ∉ waiting ++ (stops ++ closing) := by
  intro hmem
  rcases List.mem_append.mp hmem with hmem | hmem
  · cases hwaiting _ hmem
  rcases List.mem_append.mp hmem with hmem | hmem
  · rcases hstops.only _ hmem with h | ⟨other, -, h⟩ <;> cases h
  · rcases hclosing.ops _ hmem with h | h <;> cases h

/-- In every run, a service is started only after the configuration was found
valid, the database was ready, the sessions were started and the checks had
passed, and after each of those that come before it has started. -/
theorem services_start_in_order (as : List (Option AppFault)) {pre post : List AppCall}
    (h : (app.run.exec as (World.start [])).world.log = pre ++ (.start service, r) :: post)
    (hservice : service ≠ .auth) :
    app.Sound ∧ app.allow service ∧ ∃ before after,
      app.remainingServices = before ++ service :: after ∧
      pre = preflightOps.map (·, none) ++ before.map (.start ·, none) := by
  obtain ⟨startup, started, waiting, stops, closing, hlog, hstartup, hwaiting, hstops, hclosing⟩ :=
    @run_log app as
  obtain ⟨rest, rfl⟩ := split_left (h.symm.trans hlog) (after_startup hwaiting hstops hclosing)
  obtain ⟨hsound, before, after, hservices, hpre⟩ := hstartup.in_order hservice
  refine ⟨hsound, ?_, before, after, hservices, hpre⟩
  have hmem : service ∈ app.remainingServices := hservices ▸ by simp
  simp only [ApplicationOrchestrator.remainingServices, List.mem_filter] at hmem
  exact hmem.1.2

theorem Startup.stops (h : Startup app calls started) (hstarted : started ≠ []) :
    ∀ c ∈ calls, c.1.stops = [] := by
  cases h with
  | refused hearly => exact absurd rfl hstarted
  | reached hsound hservices hlast =>
    intro c hc
    have hop : c.1 ∈ preflightOps ∨ ∃ service, c.1 = .start service := by
      rcases hlast with rfl | ⟨failed, _, e, -, rfl⟩
      · simp only [List.append_nil, List.mem_append, List.mem_map] at hc
        rcases hc with ⟨op, hop, rfl⟩ | ⟨service, -, rfl⟩
        · exact .inl hop
        · exact .inr ⟨service, rfl⟩
      · simp only [List.mem_append, List.mem_map, List.mem_singleton] at hc
        rcases hc with ⟨op, hop, rfl⟩ | ⟨service, -, rfl⟩ | rfl
        · exact .inl hop
        · exact .inr ⟨service, rfl⟩
        · exact .inr ⟨failed, rfl⟩
    rcases hop with hop | ⟨service, hop⟩
    · exact (by decide : ∀ op ∈ preflightOps, op.stops = []) c.1 hop
    · rw [hop]
      rfl

end

def paperApplication : ApplicationOrchestrator where
  settings := { production := false, secretKey := "secret", activeBrokers := ["paper"] }
  configValid := true
  isHealthy := true

theorem paperApplication_in_order :
    paperApplication.Sound ∧ paperApplication.allow .marketFeed ∧ ∃ before after,
      paperApplication.remainingServices = before ++ .marketFeed :: after ∧
      preflightOps.map (·, (none : Option AppFault)) ++ [(.start .instrumentRegistry, none)] =
        preflightOps.map (·, none) ++ before.map (.start ·, none) := by
  let after : List AppOp := [.start .strategyRunner, .start .riskManager, .start .paperTrading,
    .start .pipelineMonitor, .awaitShutdownEvent,
    .gatherStops [.pipelineMonitor, .paperTrading, .riskManager, .strategyRunner, .marketFeed,
      .instrumentRegistry],
    .shutdownStreaming, .dbShutdown]
  have hlog : (paperApplication.run.exec [] (World.start [])).world.log =
      (preflightOps.map (·, none) ++ [(.start .instrumentRegistry, none)]) ++
        (.start .marketFeed, none) :: after.map (·, none) := rfl
  exact services_start_in_order [] hlog (by decide)

end AlphaPanda.Orchestration
