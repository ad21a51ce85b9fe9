import AlphaPanda.Auth.Recency
import AlphaPanda.Lib.History

/-!
# Consistent logins

Status, profile, client token and sessions table are set at different points of
a login. While the status says `AUTHENTICATED` they agree: the token of the
client is the one of the newest row, and the profile was fetched with it.
-/

namespace AlphaPanda.Auth

open Asking AuthManager SessionManager

def sessionsOf (s : Asked AuthManager) : Asked SessionManager := ⟨s.state.sessions, s.asked⟩

abbrev InOrder (env : AuthEnvironment) (s : Asked AuthManager) : Prop :=
  Ordered env.toEnvironment (sessionsOf s)

/-- The client has the token, and the profile is the one fetched last, with it. -/
structure Agrees (m : AuthManager) (accessToken : String) : Prop where
  kiteToken : m.kiteToken = some accessToken
  profile : ∃ data profile, m.fetched.getLast? = some (some accessToken, data) ∧
    UserProfile.fromKiteResponse data = .ok profile ∧ m.userProfile = some profile

structure LoggedIn (m : AuthManager) (t : String) : Prop where
  agrees : Agrees m t
  newest : ∃ row, Newest m.sessions.table row ∧ accessToken row = t

structure Consistent (env : AuthEnvironment) (s : Asked AuthManager) : Prop where
  inOrder : InOrder env s
  loggedIn : s.state.status = .authenticated → ∃ t, LoggedIn s.state t

-- ---------------------------------------------------------------------------
-- Steps
-- ---------------------------------------------------------------------------

section
variable {env : AuthEnvironment} {s s' : Asked AuthManager}

theorem InOrder.of (h : InOrder env s) (hsessions : s'.state.sessions = s.state.sessions)
    (hasked : s.asked ≤ s'.asked) : InOrder env s' :=
  Ordered.unchanged h (congrArg (·.table) hsessions) hasked

section
variable {Q : α → Asked AuthManager → Prop} {E : Exc → Asked AuthManager → Prop}

@[simp] theorem triple_onSessions (p : Sessions α) : Triple (onSessions p) s Q E ↔
    Triple p (sessionsOf s) (fun a s' => Q a ⟨{ s.state with sessions := s'.state }, s'.asked⟩)
      fun e s' => E e ⟨{ s.state with sessions := s'.state }, s'.asked⟩ :=
  triple_within _ _ _ _

@[simp] theorem triple_orRaise_ok : Triple (orRaise (.ok a)) s Q E ↔ Q a s := Iff.rfl

@[simp] theorem triple_orRaise_error : Triple (orRaise (.error e)) s Q E ↔ E e s := Iff.rfl

theorem triple_requireInitialized {Q : Unit → Asked AuthManager → Prop} (hQ : Q () s) (hE : ∀ e, E e s) :
    Triple (requireInitialized env) s Q E := by
  unfold requireInitialized
  split
  · exact hQ
  · exact hE _

end

theorem setAccessToken_spec (t : String) (s : Asked AuthManager) : Triple (setAccessToken env t) s
    (fun _ s' => s' = ⟨{ s.state with kiteToken := some t }, s.asked⟩) fun _ s' => s' = s := by
  rw [setAccessToken, triple_bind]
  exact triple_requireInitialized rfl fun _ => rfl

theorem getProfile_spec (s : Asked AuthManager) : Triple (getProfile env) s
    (fun data s' => s' = ⟨{ s.state with fetched := s.state.fetched ++ [(s.state.kiteToken, data)] },
      s.asked + 1⟩)
    fun _ s' => s'.state = s.state ∧ s.asked ≤ s'.asked := by
  rw [getProfile, triple_bind]
  refine triple_requireInitialized ?_ fun _ => ⟨rfl, le_refl _⟩
  simp only [triple_bind, triple_read, triple_ask]
  cases env.profile s.asked s.state.kiteToken with
  | ok data => simp [Asked.next]
  | error e => simp

theorem newSession_spec (profile : UserProfile) (t : String) (method : LoginMethod)
    (s : Asked AuthManager) : Triple (newSession env profile t method) s
    (fun d s' => s' = ⟨s.state, s.asked + 7⟩ ∧ d.accessToken = t ∧
      d.expiresAt = env.now s.asked + validity)
    fun _ _ => False := ⟨rfl, rfl, rfl⟩

theorem establish_spec (hclock : StrictClock env.toEnvironment) (h : InOrder env s) (t : String)
    (method : LoginMethod) : Triple (establish env t method) s
    (fun _ s' => InOrder env s' ∧ LoggedIn s'.state t) fun _ s' => InOrder env s' := by
  unfold establish
  refine Triple.bind ((setAccessToken_spec t s).mono (fun _ _ => id) ?_) ?_
  · rintro _ s' rfl
    exact h
  rintro _ s₁ rfl
  refine Triple.bind ((getProfile_spec _).mono (fun _ _ => id) ?_) ?_
  · rintro _ s' ⟨hstate, hasked⟩
    exact h.of (congrArg (·.sessions) hstate) hasked
  rintro data s₂ rfl
  cases hprofile : UserProfile.fromKiteResponse data with
  | error e =>
    simp only [triple_bind, triple_orRaise_error]
    exact h.of rfl (Nat.le_succ _)
  | ok profile =>
    simp only [triple_bind, triple_orRaise_ok, triple_change]
    refine (newSession_spec profile t method _).mono ?_ fun _ _ => False.elim
    rintro d s₃ ⟨rfl, htoken, hexpires⟩
    rw [triple_onSessions]
    refine (saveSession_spec d _).mono ?_ ?_
    · rintro _ sessions ⟨-, hsaved⟩
      -- No row outlives a session whose 24 hours begin now.
      have houtlives : ∀ r ∈ s.state.sessions.table.rows, r.endTime ≤ d.expiresAt := by
        intro r hr
        rw [hexpires]
        exact h.bounded r hr (s.asked + 1) (Nat.le_succ _)
      have hbound : ∀ n, s.asked + 8 ≤ n → d.expiresAt ≤ env.now n + validity := by
        intro n hn
        have hlater : env.now (s.asked + 1) < env.now n := hclock (by omega)
        rw [hexpires]
        exact Int.add_le_add_right hlater.le validity
      have hbefore : InOrder env ⟨s.state, s.asked + 8⟩ := h.of rfl (Nat.le_add_right _ _)
      obtain ⟨hordered, row, hnewest, hrow⟩ := save_ordered hclock hbefore hsaved houtlives hbound
      refine ⟨hordered, ⟨rfl, data, profile, ?_, hprofile, rfl⟩, row, hnewest, hrow.trans htoken⟩
      exact List.getLast?_concat
    · rintro e sessions hunchanged
      exact h.of hunchanged.state
        ((Nat.le_add_right s.asked 8).trans hunchanged.asked)

structure Failed (env : AuthEnvironment) (s s' : Asked AuthManager) : Prop where
  consistent : Consistent env s'
  status : s'.state.status = .authenticated → s.state.status = .authenticated

theorem loginWithToken_spec (hclock : StrictClock env.toEnvironment) (h : Consistent env s) (t : String) :
    Triple (loginWithToken env t) s (fun _ s' => Consistent env s') fun _ s' => Failed env s s' := by
  unfold loginWithToken
  split
  · simp only [triple_tryCatch, triple_bind, setStatus, triple_change, triple_pure, triple_throw]
    refine (establish_spec hclock h.inOrder t .externalToken).mono ?_ ?_
    · rintro d s' ⟨hordered, hlogged⟩
      exact ⟨hordered.of rfl (le_refl _), fun _ => ⟨t, ⟨hlogged.agrees.kiteToken, hlogged.agrees.profile⟩,
        hlogged.newest⟩⟩
    · intro e s' hordered
      exact ⟨⟨hordered.of rfl (le_refl _), fun hstatus => by cases hstatus⟩, fun hstatus => by cases hstatus⟩
  · exact ⟨h, id⟩

theorem generateSession_spec (hclock : StrictClock env.toEnvironment) (h : InOrder env s) (requestToken : String) :
    Triple (generateSession env requestToken) s
      (fun _ s' => InOrder env s' ∧ ∃ t, LoggedIn s'.state t) fun _ s' => InOrder env s' := by
  simp only [generateSession, triple_tryCatch, triple_throw]
  split
  · exact h
  · rw [triple_bind]
    refine triple_requireInitialized ?_ fun _ => h
    simp only [triple_bind, triple_ask]
    have hasked : InOrder env s.next := h.of rfl (Nat.le_succ _)
    cases env.generateSession s.asked requestToken with
    | error e => exact hasked
    | ok answer =>
      rw [triple_orRaise_ok]
      cases answer with
      | none => exact hasked
      | some accessToken =>
        refine (establish_spec hclock hasked accessToken .oauth).mono ?_ fun _ _ => id
        exact fun _ _ hlogged => ⟨hlogged.1, _, hlogged.2⟩

theorem promptForInput_spec (h : InOrder env s) : Triple (promptForInput env) s
    (fun _ s' => InOrder env s' ∧ s'.state.status = s.state.status) fun _ s' => InOrder env s' := by
  simp only [promptForInput, triple_bind, triple_ask]
  have hasked : InOrder env s.next := h.of rfl (Nat.le_succ _)
  cases env.prompt s.asked with
  | input text =>
    simp only [triple_bind, triple_read]
    split
    · exact hasked
    · exact ⟨hasked, rfl⟩
  | shutdown => exact hasked.of rfl (le_refl _)
  | raised e => exact hasked

structure Ended (env : AuthEnvironment) (success : Bool) (s' : Asked AuthManager) : Prop where
  consistent : Consistent env s'
  status : success = false → s'.state.status ≠ .authenticated

theorem ended_of_status (h : InOrder env s') (hstatus : s'.state.status ≠ .authenticated) :
    Ended env success s' := ⟨⟨h, fun hauthenticated => absurd hauthenticated hstatus⟩, fun _ => hstatus⟩

theorem interactiveLogin_spec (hclock : StrictClock env.toEnvironment) (h : InOrder env s) :
    Triple (interactiveLogin env) s (Ended env) fun _ s' => InOrder env s' := by
  simp only [interactiveLogin, triple_bind, setStatus, triple_change]
  have hset : InOrder env ⟨{ s.state with status := .authenticating }, s.asked⟩ := h
  split
  · simp only [triple_bind, triple_ask]
    have hasked : InOrder env (Asked.next ⟨{ s.state with status := .authenticating }, s.asked⟩) :=
      hset.of rfl (Nat.le_succ _)
    cases env.loginUrl s.asked with
    | error e => exact ended_of_status hasked (by simp [Asked.next])
    | ok url =>
      simp only [triple_bind, triple_read]
      refine (promptForInput_spec hasked).mono ?_ fun _ _ => id
      rintro requestToken s' ⟨hprompted, hstatus⟩
      split
      · exact ended_of_status hprompted (by simp [hstatus])
      split
      · exact hprompted
      · simp only [triple_bind, triple_change, triple_pure]
        -- Nothing depends on which token was typed: `strip` is not to be evaluated.
        generalize strip requestToken = token
        refine (generateSession_spec hclock hprompted token).mono ?_ fun _ _ => id
        rintro d s'' ⟨hordered, t, hlogged⟩
        refine ⟨⟨hordered.of rfl (le_refl _), fun _ => ⟨t, ?_⟩⟩, fun hfalse => by cases hfalse⟩
        exact ⟨⟨hlogged.agrees.kiteToken, hlogged.agrees.profile⟩, hlogged.newest⟩
  · exact ended_of_status hset (by simp)

theorem interactiveAuthentication_spec (hclock : StrictClock env.toEnvironment) (h : InOrder env s) :
    Triple (interactiveAuthentication env) s (Ended env) fun _ _ => False := by
  simp only [interactiveAuthentication, triple_tryCatch, triple_bind, setStatus, triple_change]
  refine (interactiveLogin_spec hclock h).mono (fun _ _ => id) ?_
  intro e s' hordered
  split
  · exact ended_of_status (hordered.of rfl (le_refl _)) (by simp)
  · exact ended_of_status (hordered.of rfl (le_refl _)) (by simp)

/-- What a load of the newest session leaves, `d` being what it returns. -/
structure Reloaded (env : AuthEnvironment) (s : Asked AuthManager) (d : Option SessionData)
    (s' : Asked AuthManager) : Prop where
  inOrder : InOrder env s'
  frame : s'.state = { s.state with sessions := s'.state.sessions }
  newest : ∀ row, Newest s.state.sessions.table row →
    ∃ row', Newest s'.state.sessions.table row' ∧ accessToken row' = accessToken row
  found : ∀ d', d = some d' → ∃ row, Newest s'.state.sessions.table row ∧ accessToken row = d'.accessToken

theorem Reloaded.later (h : Reloaded env s d s') : Reloaded env s d s'.next :=
  ⟨h.inOrder.of rfl (Nat.le_succ _), h.frame, h.newest, h.found⟩

theorem loadUnexpired_spec (hclock : StrictClock env.toEnvironment) (h : InOrder env s) :
    Triple (loadUnexpired env) s (Reloaded env s) fun _ _ => False := by
  simp only [loadUnexpired, triple_bind, triple_onSessions]
  refine (loadSession_spec none none (sessionsOf s)).mono ?_ fun _ _ => id
  intro d sessions hload
  obtain ⟨hordered, hnewest, hfound⟩ := load_ordered hclock h hload
  have hreloaded : Reloaded env s d ⟨{ s.state with sessions := sessions.state }, sessions.asked⟩ :=
    ⟨hordered, rfl, hnewest, hfound⟩
  cases d with
  | none => exact hreloaded
  | some d =>
    simp only [triple_bind, triple_ask, triple_pure]
    split
    · exact ⟨hreloaded.later.inOrder, rfl, hnewest, fun d' hd => by cases hd⟩
    · exact hreloaded.later

theorem Reloaded.loggedIn (h : Reloaded env s d s') (hlogged : LoggedIn s.state t) :
    LoggedIn s'.state t := by
  obtain ⟨row, hrow, htoken⟩ := hlogged.newest
  obtain ⟨row', hrow', htoken'⟩ := h.newest row hrow
  refine ⟨?_, row', hrow', htoken'.trans htoken⟩
  rw [h.frame]
  exact ⟨hlogged.agrees.kiteToken, hlogged.agrees.profile⟩

theorem Reloaded.token {d : SessionData} (h : Reloaded env s (some d) s') (hlogged : LoggedIn s.state t) :
    d.accessToken = t := by
  obtain ⟨row, hrow, htoken⟩ := (h.loggedIn hlogged).newest
  obtain ⟨row', hrow', htoken'⟩ := h.found d rfl
  rw [← htoken', hrow.unique hrow', htoken]

theorem invalidate_spec (hclock : StrictClock env.toEnvironment) (h : InOrder env s) :
    Triple (onSessions (invalidateSession env.toEnvironment)) s
      (fun success s' => InOrder env s' ∧ s'.state = { s.state with sessions := s'.state.sessions } ∧
        (success = false → s'.state = s.state))
      fun _ _ => False := by
  rw [triple_onSessions]
  refine (invalidateSession_spec (sessionsOf s)).mono ?_ fun _ _ => id
  intro success sessions hspec
  cases success with
  | true => exact ⟨invalidate_ordered hclock h hspec, rfl, fun hfalse => by cases hfalse⟩
  | false =>
    have hsame : { s.state with sessions := sessions.state } = s.state := by rw [hspec.state]; rfl
    exact ⟨h.of hspec.state hspec.asked, rfl, fun _ => hsame⟩

theorem restore_spec (hinitialized : env.kiteInitialized) (hclock : StrictClock env.toEnvironment)
    (h : InOrder env s) (d : SessionData)
    (hnewest : ∃ row, Newest s.state.sessions.table row ∧ accessToken row = d.accessToken) :
    Triple (restore env d) s
      (fun restored s' => InOrder env s' ∧ (restored → LoggedIn s'.state d.accessToken))
      fun _ _ => False := by
  simp only [restore, setAccessToken, requireInitialized, hinitialized, if_true, triple_bind, triple_pure,
    triple_change, triple_tryCatch]
  have hfailed : ∀ s', InOrder env s' → Triple (onSessions (invalidateSession env.toEnvironment)) s'
      (fun _ s' => InOrder env s' ∧ (false = true → LoggedIn s'.state d.accessToken)) fun _ _ => False :=
    fun s' hordered => (invalidate_spec hclock hordered).mono
      (fun _ _ hinvalidated => ⟨hinvalidated.1, fun hfalse => by cases hfalse⟩) fun _ _ => id
  refine (getProfile_spec _).mono ?_ ?_
  · rintro data s' rfl
    have hfetched : InOrder env ⟨s.state, s.asked + 1⟩ := h.of rfl (Nat.le_succ _)
    cases data with
    | other typeName => exact hfailed _ (hfetched.of rfl (le_refl _))
    | dict data =>
      refine ⟨hfetched.of rfl (le_refl _), fun _ => ⟨⟨rfl, .dict data, _, ?_, rfl, rfl⟩, hnewest⟩⟩
      exact List.getLast?_concat
  · rintro e s' ⟨hstate, hasked⟩
    exact hfailed s' (h.of (congrArg (·.sessions) hstate) hasked)

theorem restoreStored_spec (hinitialized : env.kiteInitialized) (hclock : StrictClock env.toEnvironment)
    (h : InOrder env s) : Triple (restoreStored env) s
      (fun restored s' => InOrder env s' ∧ (restored → ∃ t, LoggedIn s'.state t)) fun _ _ => False := by
  rw [restoreStored, triple_bind]
  refine (loadUnexpired_spec hclock h).mono ?_ fun _ _ => id
  intro d s' hreloaded
  cases d with
  | none => exact ⟨hreloaded.inOrder, fun hfalse => by cases hfalse⟩
  | some d =>
    refine (restore_spec hinitialized hclock hreloaded.inOrder d (hreloaded.found d rfl)).mono ?_
      fun _ _ => id
    exact fun _ _ hrestored => ⟨hrestored.1, fun hok => ⟨_, hrestored.2 hok⟩⟩

theorem authenticate_spec (hinitialized : env.kiteInitialized) (hclock : StrictClock env.toEnvironment)
    (h : InOrder env s) : Triple (authenticate env) s (Ended env) fun _ _ => False := by
  rw [authenticate, triple_bind]
  refine (restoreStored_spec hinitialized hclock h).mono ?_ fun _ _ => id
  rintro restored s' ⟨hordered, hlogged⟩
  cases restored with
  | true => exact ⟨⟨hordered, fun _ => hlogged rfl⟩, fun hfalse => by cases hfalse⟩
  | false =>
    simp only [Bool.false_eq_true, if_false, triple_bind]
    refine (interactiveAuthentication_spec hclock hordered).mono ?_ fun _ _ => id
    intro success s'' hended
    cases success with
    | true => exact hended
    | false =>
      refine ended_of_status (hended.consistent.inOrder.of rfl (le_refl _)) ?_
      exact fun hstatus => by cases hstatus

theorem initializeManager_spec (hclock : StrictClock env.toEnvironment) (h : Consistent env s) :
    Triple (initializeManager env) s (Ended env) fun _ _ => False := by
  unfold initializeManager
  split
  · refine ended_of_status (h.inOrder.of rfl (le_refl _)) ?_
    exact fun hstatus => by cases hstatus
  · rename_i hconfigured
    have hinitialized : env.kiteInitialized := by
      simp only [Bool.or_eq_true, Bool.not_eq_true', not_or, Bool.not_eq_false] at hconfigured
      exact hconfigured.2
    exact authenticate_spec hinitialized hclock h.inOrder

theorem logout_spec (hclock : StrictClock env.toEnvironment) (h : Consistent env s) : Triple (logout env) s
    (fun loggedOut s' => Failed env s s' ∧ (loggedOut → s'.state.status = .unauthenticated))
    fun _ _ => False := by
  rw [logout, triple_bind]
  refine (invalidate_spec hclock h.inOrder).mono ?_ fun _ _ => id
  rintro success s' ⟨hordered, _, hfailed⟩
  cases success with
  | true =>
    refine ⟨⟨⟨hordered.of rfl (le_refl _), fun hstatus => by cases hstatus⟩, fun hstatus => by cases hstatus⟩,
      fun _ => rfl⟩
  | false =>
    have hsame := hfailed rfl
    refine ⟨⟨⟨hordered, ?_⟩, ?_⟩, fun hfalse => by cases hfalse⟩
    · rw [hsame]
      exact h.loggedIn
    · rw [hsame]
      exact id

theorem getAccessToken_spec (hclock : StrictClock env.toEnvironment) (h : Consistent env s) :
    Triple (getAccessToken env) s
      (fun token s' => Failed env s s' ∧
        ∀ t, token = some t → s.state.status = .authenticated ∧ Agrees s'.state t)
      fun _ _ => False := by
  rw [getAccessToken, triple_bind, triple_read]
  split
  · rename_i hstatus
    rw [triple_bind]
    refine (loadUnexpired_spec hclock h.inOrder).mono ?_ fun _ _ => id
    intro d s' hreloaded
    obtain ⟨t, hlogged⟩ := h.loggedIn hstatus
    have hlogged' := hreloaded.loggedIn hlogged
    refine ⟨⟨⟨hreloaded.inOrder, fun _ => ⟨t, hlogged'⟩⟩, fun _ => hstatus⟩, ?_⟩
    intro t' ht'
    obtain ⟨d', rfl, rfl⟩ := Option.map_eq_some_iff.mp ht'
    rw [hreloaded.token hlogged]
    exact ⟨hstatus, hlogged'.agrees⟩
  · exact ⟨⟨h, id⟩, fun t ht => by cases ht⟩

end

-- ---------------------------------------------------------------------------
-- Histories
-- ---------------------------------------------------------------------------

inductive LoginCall where
  | initializeManager
  | loginWithToken (accessToken : String)
  | logout
  | getAccessToken

inductive LoginAnswer where
  | initialized (success : Bool)
  | session (d : SessionData)
  | loggedOut (success : Bool)
  | token (t : Option String)
  deriving DecidableEq

def performLogin (env : AuthEnvironment) : LoginCall → Logins LoginAnswer
  | .initializeManager => do
    let success ← initializeManager env
    pure (.initialized success)
  | .loginWithToken accessToken => do
    let d ← loginWithToken env accessToken
    pure (.session d)
  | .logout => do
    let success ← logout env
    pure (.loggedOut success)
  | .getAccessToken => do
    let t ← getAccessToken env
    pure (.token t)

abbrev LoginEvent := Event LoginCall AuthManager Exc LoginAnswer

namespace LoginEvent

def LogsIn (e : LoginEvent) : Prop :=
  (∃ d, e.answer = .ok (.session d)) ∨ e.answer = .ok (.initialized true)

def LogsOut (e : LoginEvent) : Prop := e.answer = .ok (.loggedOut true)

end LoginEvent

/-- A logout succeeded, and no login since. -/
def LoggedOut (past : List LoginEvent) : Prop := past.Since (·.LogsOut) fun e => ¬e.LogsIn

structure ValidLogin (past : List LoginEvent) (e : LoginEvent) : Prop where
  agrees : ∀ t, e.answer = .ok (.token (some t)) → Agrees e.after.state t
  loggedOut : LoggedOut past → ∀ t, e.answer = .ok (.token t) → t = none

/-- The stores are consistent, and the status does not outlast a logout. -/
structure LoginInvariant (env : AuthEnvironment) (past : List LoginEvent) (s : Asked AuthManager) : Prop where
  consistent : Consistent env s
  loggedOut : LoggedOut past → s.state.status ≠ .authenticated

section
variable {env : AuthEnvironment} {past : List LoginEvent} {e : LoginEvent} {s s' : Asked AuthManager}

theorem validLogin_of_not_token (h : ∀ t, e.answer ≠ .ok (.token t)) : ValidLogin past e :=
  ⟨fun _ ht => absurd ht (h _), fun _ _ ht => absurd ht (h _)⟩

theorem LoginInvariant.failed (h : LoginInvariant env past s) (hfailed : Failed env s s') (hlogout : ¬e.LogsOut) :
    LoginInvariant env (past ++ [e]) s' := by
  refine ⟨hfailed.consistent, fun hpast hstatus => ?_⟩
  rcases (List.since_concat past e).mp hpast with hout | ⟨_, hsince⟩
  · exact hlogout hout
  · exact h.loggedOut hsince (hfailed.status hstatus)

theorem LoginInvariant.loggedIn (hconsistent : Consistent env s') (hlogin : e.LogsIn) (hlogout : ¬e.LogsOut) :
    LoginInvariant env (past ++ [e]) s' := by
  refine ⟨hconsistent, fun hpast => ?_⟩
  rcases (List.since_concat past e).mp hpast with hout | ⟨hnot, _⟩
  · exact absurd hout hlogout
  · exact absurd hlogin hnot

theorem performLogin_keeps (hclock : StrictClock env.toEnvironment) :
    Keeps (performLogin env) (LoginInvariant env) ValidLogin := by
  intro past s c h
  cases c with
  | initializeManager =>
    simp only [performLogin, triple_bind, triple_pure]
    refine (initializeManager_spec hclock h.consistent).mono ?_ fun _ _ => False.elim
    intro success s' hended
    refine ⟨?_, validLogin_of_not_token fun t => by simp⟩
    cases success with
    | true => exact .loggedIn hended.consistent (.inr rfl) (by simp [LoginEvent.LogsOut])
    | false => exact ⟨hended.consistent, fun _ => hended.status rfl⟩
  | loginWithToken accessToken =>
    simp only [performLogin, triple_bind, triple_pure]
    refine (loginWithToken_spec hclock h.consistent accessToken).mono ?_ ?_
    · intro d s' hconsistent
      exact ⟨.loggedIn hconsistent (.inl ⟨d, rfl⟩) (by simp [LoginEvent.LogsOut]),
        validLogin_of_not_token fun t => by simp⟩
    · intro e s' hfailed
      exact ⟨h.failed hfailed (by simp [LoginEvent.LogsOut]), validLogin_of_not_token fun t => by simp⟩
  | logout =>
    simp only [performLogin, triple_bind, triple_pure]
    refine (logout_spec hclock h.consistent).mono ?_ fun _ _ => False.elim
    rintro success s' ⟨hfailed, hstatus⟩
    refine ⟨?_, validLogin_of_not_token fun t => by simp⟩
    cases success with
    | true =>
      refine ⟨hfailed.consistent, fun _ hauthenticated => ?_⟩
      rw [hstatus rfl] at hauthenticated
      cases hauthenticated
    | false => exact h.failed hfailed (by simp [LoginEvent.LogsOut])
  | getAccessToken =>
    simp only [performLogin, triple_bind, triple_pure]
    refine (getAccessToken_spec hclock h.consistent).mono ?_ fun _ _ => False.elim
    rintro token s' ⟨hfailed, htoken⟩
    refine ⟨h.failed hfailed (by simp [LoginEvent.LogsOut]), ?_, ?_⟩
    · rintro _ ⟨⟩
      exact (htoken _ rfl).2
    · rintro hpast _ ⟨⟩
      cases token with
      | none => rfl
      | some t => exact absurd (htoken t rfl).1 (h.loggedOut hpast)

theorem fresh_standing (kiteToken : Option String) : LoginInvariant env [] ⟨.fresh kiteToken, 0⟩ where
  consistent := ⟨ordered_fresh, fun hstatus => by cases hstatus⟩
  loggedOut := fun hpast => absurd hpast List.since_nil

end

/-- Whatever is called and whatever fails: a token that is returned is the one of
the client, the profile was fetched with it, and after a logout none is returned
until a login succeeds. -/
theorem logins_consistent (env : AuthEnvironment) (hclock : StrictClock env.toEnvironment)
    (kiteToken : Option String) (calls : List LoginCall) (pre post : List LoginEvent) (e : LoginEvent)
    (hsplit : history (performLogin env) ⟨.fresh kiteToken, 0⟩ calls = pre ++ e :: post) :
    ValidLogin pre e := by
  have hvalid : ValidLogin ([] ++ pre) e :=
    (performLogin_keeps hclock).history (fresh_standing kiteToken) calls hsplit
  exact hvalid

def oneUser : AuthEnvironment where
  toEnvironment := ticking
  apiKey := "key"
  apiSecret := "secret"
  kiteInitialized := true
  loginUrl _ := .ok "https://kite.zerodha.com/connect/login"
  prompt _ := .input "request-token"
  generateSession _ _ := .ok (some "token")
  profile _ _ := .ok (.dict (.ofList [("user_id", "AB1234"), ("user_name", "A B")]))

def oneLogin : LoginEvent := event (performLogin oneUser) ⟨.fresh none, 0⟩ (.loginWithToken "token")

def oneToken : LoginEvent := event (performLogin oneUser) oneLogin.after .getAccessToken

theorem logins_consistent_token :
    oneToken.answer = .ok (.token (some "token")) ∧ ValidLogin [oneLogin] oneToken :=
  ⟨rfl, logins_consistent oneUser (fun _ _ h => Int.ofNat_lt.mpr h) none
    [.loginWithToken "token", .getAccessToken] [oneLogin] [] oneToken rfl⟩

end AlphaPanda.Auth
