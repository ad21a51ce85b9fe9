import AlphaPanda.Exceptions
import AlphaPanda.Lib.Asking
import AlphaPanda.Lib.Dict
import Mathlib.Data.List.Sort

/-!
# The session manager

`SessionManager` over the table `trading_sessions`: a transaction works on what
it read, and a commit stores it. Times are in microseconds.
-/

namespace AlphaPanda.Auth

open Asking

-- ---------------------------------------------------------------------------
-- Sessions
-- ---------------------------------------------------------------------------

inductive LoginMethod where
  | externalToken
  | storedSession
  | oauth
  deriving DecidableEq, Repr

def LoginMethod.value : LoginMethod → String
  | .externalToken => "external_token"
  | .storedSession => "stored_session"
  | .oauth => "oauth"

def LoginMethod.ofValue (value : String) : Except Exc LoginMethod :=
  if value = "external_token" then .ok .externalToken
  else if value = "stored_session" then .ok .storedSession
  else if value = "oauth" then .ok .oauth
  else .error ⟨"ValueError", s!"'{value}' is not a valid LoginMethod", .builtin⟩

@[simp] theorem LoginMethod.ofValue_value (m : LoginMethod) : ofValue m.value = .ok m := by
  cases m <;> rfl

structure SessionData where
  userId : String
  accessToken : String
  expiresAt : ℤ
  loginTimestamp : ℤ
  lastActivityTimestamp : ℤ
  loginMethod : LoginMethod
  userName : Option String := none
  userShortname : Option String := none
  broker : Option String := none
  email : Option String := none
  ipAddress : Option String := none
  userAgent : Option String := none
  sessionId : String
  createdAt : ℤ
  updatedAt : ℤ
  lastValidated : ℤ
  deriving DecidableEq

def SessionData.isExpired (d : SessionData) (now : ℤ) : Bool := d.expiresAt ≤ now

abbrev SessionDict := Dict String (Option String)

def SessionData.sessionDict (d : SessionData) : SessionDict :=
  .ofList [("access_token", some d.accessToken), ("user_name", d.userName),
    ("user_shortname", d.userShortname), ("broker", d.broker), ("email", d.email),
    ("login_method", some d.loginMethod.value), ("ip_address", d.ipAddress),
    ("user_agent", d.userAgent)]

-- ---------------------------------------------------------------------------
-- The table
-- ---------------------------------------------------------------------------

structure Columns where
  startTime : ℤ
  endTime : ℤ
  isActive : Bool
  sessionData : SessionDict
  updatedAt : ℤ

structure TradingSession extends Columns where
  sessionId : String
  userId : String

/-- The rows with their primary key and their unique constraint. -/
structure TradingSessions where
  rows : List TradingSession
  sessionId_unique : (rows.map (·.sessionId)).Nodup
  userId_unique : (rows.map (·.userId)).Nodup

namespace TradingSession

def set (r : TradingSession) (f : Columns → Columns) : TradingSession := { r with toColumns := f r.toColumns }

@[simp] theorem set_sessionId (r : TradingSession) (f : Columns → Columns) :
    (r.set f).sessionId = r.sessionId := rfl

@[simp] theorem set_userId (r : TradingSession) (f : Columns → Columns) :
    (r.set f).userId = r.userId := rfl

@[simp] theorem set_toColumns (r : TradingSession) (f : Columns → Columns) :
    (r.set f).toColumns = f r.toColumns := rfl

end TradingSession

namespace TradingSessions

def empty : TradingSessions := ⟨[], List.nodup_nil, List.nodup_nil⟩

theorem map_set (key : TradingSession → String) (rows : List TradingSession)
    (p : TradingSession → Bool) (f : Columns → Columns) (hkey : ∀ r, key (r.set f) = key r) :
    (rows.map fun r => if p r then r.set f else r).map key = rows.map key := by
  rw [List.map_map]
  refine List.map_congr_left fun r _ => ?_
  simp only [Function.comp_apply]
  split
  · exact hkey r
  · rfl

def update (t : TradingSessions) (p : TradingSession → Bool) (f : Columns → Columns) :
    TradingSessions where
  rows := t.rows.map fun r => if p r then r.set f else r
  sessionId_unique := by
    rw [map_set (·.sessionId) t.rows p f fun _ => rfl]
    exact t.sessionId_unique
  userId_unique := by
    rw [map_set (·.userId) t.rows p f fun _ => rfl]
    exact t.userId_unique

theorem nodup_concat {rows : List TradingSession} (key : TradingSession → String)
    (h : (rows.map key).Nodup) (hnew : key r ∉ rows.map key) : ((rows ++ [r]).map key).Nodup := by
  rw [List.map_append, List.map_singleton, List.nodup_append]
  refine ⟨h, List.nodup_singleton _, ?_⟩
  intro a ha b hb
  cases List.mem_singleton.mp hb
  rintro rfl
  exact hnew ha

def insert (t : TradingSessions) (r : TradingSession) (hid : r.sessionId ∉ t.rows.map (·.sessionId))
    (huser : r.userId ∉ t.rows.map (·.userId)) : TradingSessions :=
  ⟨t.rows ++ [r], nodup_concat (·.sessionId) t.sessionId_unique hid,
    nodup_concat (·.userId) t.userId_unique huser⟩

def integrityError : Exc :=
  ⟨"IntegrityError", "duplicate key value violates unique constraint \"trading_sessions_pkey\"", .builtin⟩

/-- What an upsert writes to the row that the user has already. -/
def conflictUpdate (excluded : Columns) (c : Columns) : Columns :=
  { c with
    sessionData := excluded.sessionData
    endTime := excluded.endTime
    isActive := excluded.isActive
    updatedAt := excluded.updatedAt }

/-- `INSERT … ON CONFLICT (user_id) DO UPDATE` -/
def upsert (t : TradingSessions) (r : TradingSession) : Except Exc TradingSessions :=
  if huser : r.userId ∈ t.rows.map (·.userId) then
    .ok (t.update (·.userId = r.userId) (conflictUpdate r.toColumns))
  else if hid : r.sessionId ∈ t.rows.map (·.sessionId) then .error integrityError
  else .ok (t.insert r hid huser)

def row? (t : TradingSessions) (userId : String) : Option TradingSession :=
  t.rows.find? (·.userId = userId)

section
variable {t t' : TradingSessions} {r q : TradingSession}

theorem mem_update (t : TradingSessions) (p : TradingSession → Bool) (f : Columns → Columns) :
    q ∈ (t.update p f).rows ↔ ∃ r ∈ t.rows, (if p r then r.set f else r) = q := List.mem_map

theorem eq_of_userId (t : TradingSessions) (hr : r ∈ t.rows) (hq : q ∈ t.rows)
    (h : r.userId = q.userId) : r = q := List.inj_on_of_nodup_map t.userId_unique hr hq h

theorem eq_of_sessionId (t : TradingSessions) (hr : r ∈ t.rows) (hq : q ∈ t.rows)
    (h : r.sessionId = q.sessionId) : r = q := List.inj_on_of_nodup_map t.sessionId_unique hr hq h

theorem row?_eq_some (t : TradingSessions) : t.row? userId = some r ↔ r ∈ t.rows ∧ r.userId = userId := by
  constructor
  · intro h
    exact ⟨List.mem_of_find?_eq_some h, by simpa using List.find?_some h⟩
  · rintro ⟨hr, rfl⟩
    cases hfind : t.row? r.userId with
    | none => simpa using List.find?_eq_none.mp hfind r hr
    | some q =>
      have huser : q.userId = r.userId := by simpa using List.find?_some hfind
      rw [t.eq_of_userId (List.mem_of_find?_eq_some hfind) hr huser]

theorem row?_eq_none (t : TradingSessions) : t.row? userId = none ↔ userId ∉ t.rows.map (·.userId) := by
  simp [row?, List.find?_eq_none]

/-- An upsert of `r` left the row `q`: with the columns of `r`, but the key and
the start of an earlier row of the user. -/
structure Upserted (t : TradingSessions) (r : TradingSession) (t' : TradingSessions)
    (q : TradingSession) : Prop where
  mem : q ∈ t'.rows
  userId : q.userId = r.userId
  columns : q.toColumns = conflictUpdate r.toColumns q.toColumns
  others : ∀ q' ∈ t'.rows, q' = q ∨ (q' ∈ t.rows ∧ q'.userId ≠ r.userId)
  inserted : t.row? r.userId = none → q = r
  kept : ∀ old, t.row? r.userId = some old → q.sessionId = old.sessionId ∧ q.startTime = old.startTime

theorem upsert_ok (h : t.upsert r = .ok t') : ∃ q, Upserted t r t' q := by
  unfold upsert at h
  split at h
  · rename_i huser
    cases h
    obtain ⟨old, hold, hid⟩ := List.mem_map.mp huser
    have hrow := t.row?_eq_some.mpr ⟨hold, hid⟩
    refine ⟨old.set (conflictUpdate r.toColumns), ?_, hid, rfl, ?_, ?_, ?_⟩
    · exact (t.mem_update _ _).mpr ⟨old, hold, if_pos (by simpa using hid)⟩
    · intro q' hq'
      obtain ⟨r', hr', rfl⟩ := (t.mem_update _ _).mp hq'
      by_cases hu : r'.userId = r.userId
      · rw [if_pos (by simpa using hu), t.eq_of_userId hr' hold (hu.trans hid.symm)]
        exact .inl rfl
      · rw [if_neg (by simpa using hu)]
        exact .inr ⟨hr', hu⟩
    · intro hnone
      rw [hrow] at hnone
      cases hnone
    · rintro old' hold'
      cases hrow.symm.trans hold'
      exact ⟨rfl, rfl⟩
  · rename_i huser
    split at h
    · cases h
    · cases h
      have hnone := t.row?_eq_none.mpr huser
      refine ⟨r, List.mem_append_right _ (List.mem_singleton_self r), rfl, rfl, ?_, fun _ => rfl, ?_⟩
      · intro q' hq'
        rcases List.mem_append.mp hq' with hq' | hq'
        · refine .inr ⟨hq', ?_⟩
          intro hu
          exact huser (hu ▸ List.mem_map_of_mem hq')
        · exact .inl (List.mem_singleton.mp hq')
      · rintro old hold
        rw [hnone] at hold
        cases hold

end

end TradingSessions

def LatestFirst (r r' : TradingSession) : Prop := r'.updatedAt ≤ r.updatedAt

instance : DecidableRel LatestFirst := fun r r' => inferInstanceAs (Decidable (r'.updatedAt ≤ r.updatedAt))

instance : Std.Total LatestFirst := ⟨fun r r' => le_total r'.updatedAt r.updatedAt⟩

instance : IsTrans TradingSession LatestFirst := ⟨fun _ _ _ hab hbc => le_trans hbc hab⟩

/-- The clocks of the process and of the database, and the database: what an
operation raises if it fails, and how a query orders its rows. -/
structure Environment where
  now : ℕ → ℤ
  serverNow : ℕ → ℤ
  uuid4 : ℕ → String
  uuid4_ne_empty : ∀ n, uuid4 n ≠ ""
  database : ℕ → Option Exc
  /-- `ORDER BY updated_at DESC` -/
  order : ℕ → List TradingSession → List TradingSession
  order_perm : ∀ n rows, (order n rows).Perm rows
  order_sorted : ∀ n rows, (order n rows).Pairwise LatestFirst

def ticking : Environment where
  now n := n
  serverNow n := n + 100
  uuid4 _ := "00000000-0000-4000-8000-000000000000"
  uuid4_ne_empty _ := by decide
  database _ := none
  order _ := List.insertionSort LatestFirst
  order_perm _ := List.perm_insertionSort LatestFirst
  order_sorted _ := List.pairwise_insertionSort LatestFirst

def oneSession : SessionData where
  userId := "AB1234"
  accessToken := "token"
  expiresAt := 1000
  loginTimestamp := 0
  lastActivityTimestamp := 0
  loginMethod := .oauth
  sessionId := "s1"
  createdAt := 0
  updatedAt := 0
  lastValidated := 0

structure SessionManager where
  table : TradingSessions
  currentSession : Option SessionData
  running : Bool

def SessionManager.fresh : SessionManager := ⟨.empty, none, false⟩

abbrev Sessions (α : Type) := Asks SessionManager Exc α

namespace SessionManager

variable (env : Environment)

-- ---------------------------------------------------------------------------
-- Operations
-- ---------------------------------------------------------------------------

def start : Sessions Unit := change fun m => { m with running := true }

def stop : Sessions Unit :=
  change fun m => if m.running then { m with currentSession := none, running := false } else m

def commit (table : TradingSessions) : Sessions Unit := do
  attempt env.database
  change fun m => { m with table := table }

def newRow (d : SessionData) (sessionId : String) (startTime : ℤ) : TradingSession where
  sessionId := sessionId
  userId := d.userId
  startTime := startTime
  endTime := d.expiresAt
  isActive := true
  sessionData := d.sessionDict
  updatedAt := d.updatedAt

def sessionIdOr (sessionId : String) : Sessions String :=
  if sessionId = "" then ask env.uuid4 else pure sessionId

/-- The session becomes the current one when it is committed. -/
def storeSession (d : SessionData) (sessionId : String) : Sessions Bool := do
  let startTime ← ask env.serverNow
  attempt env.database
  let m ← read
  match m.table.upsert (newRow d sessionId startTime) with
  | .error e => throw e
  | .ok table => do
    commit env table
    change fun m => { m with currentSession := some d }
    pure true

def saveSession (sessionData : SessionData) : Sessions Bool :=
  tryCatch
    (do
      let updatedAt ← ask env.now
      let lastValidated ← ask env.now
      let d := { sessionData with updatedAt := updatedAt, lastValidated := lastValidated }
      let sessionId ← sessionIdOr env d.sessionId
      storeSession env d sessionId)
    fun e => throw ⟨"Exception", s!"Failed to save session: {e.message}", .builtin⟩

/-- The conditions of the query: an empty `user_id` is no condition. -/
def eligible (now : ℤ) (userId : Option String) (r : TradingSession) : Bool :=
  r.isActive && now < r.endTime &&
    match userId with
    | none | some "" => true
    | some userId => r.userId = userId

def loginMethod (r : TradingSession) : Option String :=
  (r.sessionData.get? "login_method").getD (some "oauth")

def pick (mockMode : Option Bool) (rows : List TradingSession) : Option TradingSession :=
  match mockMode with
  | none => rows.head?
  | some true => rows.find? fun r => loginMethod r = some "mock"
  | some false => rows.find? fun r => loginMethod r ≠ some "mock"

/-- The text of a token, or of a method, is never `null`. -/
def accessToken (r : TradingSession) : String :=
  ((r.sessionData.get? "access_token").getD (some "")).getD ""

def sessionOf (r : TradingSession) (method : LoginMethod) (activity updatedAt : ℤ) : SessionData where
  userId := r.userId
  accessToken := accessToken r
  expiresAt := r.endTime
  loginTimestamp := r.startTime
  lastActivityTimestamp := activity
  loginMethod := method
  userName := (r.sessionData.get? "user_name").getD none
  userShortname := (r.sessionData.get? "user_shortname").getD none
  broker := (r.sessionData.get? "broker").getD none
  email := (r.sessionData.get? "email").getD none
  ipAddress := (r.sessionData.get? "ip_address").getD none
  userAgent := (r.sessionData.get? "user_agent").getD none
  sessionId := r.sessionId
  createdAt := r.startTime
  updatedAt := updatedAt
  lastValidated := r.updatedAt

/-- The session becomes the current one before its activity is committed. -/
def loadSession (mockMode : Option Bool) (userId : Option String) : Sessions (Option SessionData) :=
  tryCatch
    (do
      let now ← ask env.now
      attempt env.database
      let m ← read
      let sessions ← ask fun n => env.order n (m.table.rows.filter (eligible now userId))
      match pick mockMode sessions with
      | none => pure none
      | some row =>
        match LoginMethod.ofValue ((loginMethod row).getD "None") with
        | .error e => throw e
        | .ok method => do
          let activity ← ask env.now
          let updatedAt ← ask env.now
          let d := sessionOf row method activity updatedAt
          change fun m => { m with currentSession := some d }
          commit env (m.table.update (·.sessionId = row.sessionId) fun c => { c with updatedAt := activity })
          pure (some d))
    fun _ => pure none

def getCurrentSession : Sessions (Option SessionData) := do
  let m ← read
  match m.currentSession with
  | none => pure none
  | some d => do
    let now ← ask env.now
    pure (if d.isExpired now then none else some d)

def deactivate (now : ℤ) (c : Columns) : Columns := { c with isActive := false, updatedAt := now }

/-- The rows of the current user, or all that are active, are invalidated. -/
def invalidated (m : SessionManager) (now : ℤ) : TradingSessions :=
  match m.currentSession with
  | some d => m.table.update (·.userId = d.userId) (deactivate now)
  | none => m.table.update (·.isActive) (deactivate now)

def invalidateSession : Sessions Bool :=
  tryCatch
    (do
      let m ← read
      let now ← ask env.now
      attempt env.database
      commit env (m.invalidated now)
      change fun m => { m with currentSession := none }
      pure true)
    fun _ => pure false

def expired (now : ℤ) (r : TradingSession) : Bool := r.isActive && r.endTime < now

def cleanupExpiredSessions : Sessions Unit :=
  tryCatch
    (do
      let now ← ask env.now
      let updatedAt ← ask env.now
      attempt env.database
      let m ← read
      if m.table.rows.any (expired now) then
        commit env (m.table.update (expired now) (deactivate updatedAt))
      else pure ())
    fun _ => pure ()

-- ---------------------------------------------------------------------------
-- What each operation does
-- ---------------------------------------------------------------------------

/-- The session that a save of `d` makes the current one, where its first
question is the `n`-th. -/
def savedSession (n : ℕ) (d : SessionData) : SessionData :=
  { d with updatedAt := env.now n, lastValidated := env.now (n + 1) }

def identified (n : ℕ) (sessionId : String) : String × ℕ :=
  if sessionId = "" then (env.uuid4 n, n + 1) else (sessionId, n)

def savedRow (n : ℕ) (d : SessionData) : TradingSession :=
  let id := identified env (n + 2) d.sessionId
  newRow (savedSession env n d) id.1 (env.serverNow id.2)

structure Saved (s : Asked SessionManager) (d : SessionData) (s' : Asked SessionManager) : Prop where
  table : s.state.table.upsert (savedRow env s.asked d) = .ok s'.state.table
  currentSession : s'.state.currentSession = some (savedSession env s.asked d)
  asked : s.asked < s'.asked

/-- The row holds what a save of `d` writes. -/
structure Written (n : ℕ) (d : SessionData) (q : TradingSession) : Prop where
  userId : q.userId = d.userId
  isActive : q.isActive
  endTime : q.endTime = d.expiresAt
  sessionData : q.sessionData = d.sessionDict
  updatedAt : q.updatedAt = env.now n

structure Unchanged (s s' : Asked SessionManager) : Prop where
  state : s'.state = s.state
  asked : s.asked ≤ s'.asked

/-- A load finds the row, whose login method is `method`. -/
structure Picked (s : Asked SessionManager) (mockMode : Option Bool) (userId : Option String)
    (row : TradingSession) (method : LoginMethod) : Prop where
  pick : pick mockMode (env.order (s.asked + 2)
    (s.state.table.rows.filter (eligible (env.now s.asked) userId))) = some row
  method : LoginMethod.ofValue ((loginMethod row).getD "None") = .ok method

def loadedSession (n : ℕ) (row : TradingSession) (method : LoginMethod) : SessionData :=
  sessionOf row method (env.now (n + 3)) (env.now (n + 4))

def touched (n : ℕ) (t : TradingSessions) (row : TradingSession) : TradingSessions :=
  t.update (·.sessionId = row.sessionId) fun c => { c with updatedAt := env.now (n + 3) }

/-- What a load returns and leaves: it finds nothing, or it finds a row and its
commit fails or succeeds. -/
inductive Loaded (s : Asked SessionManager) (mockMode : Option Bool) (userId : Option String) :
    Option SessionData → Asked SessionManager → Prop where
  | nothing : Unchanged s s' → Loaded s mockMode userId none s'
  | uncommitted : Picked env s mockMode userId row method →
      Loaded s mockMode userId none
        ⟨{ s.state with currentSession := some (loadedSession env s.asked row method) }, s.asked + 6⟩
  | committed : Picked env s mockMode userId row method →
      Loaded s mockMode userId (some (loadedSession env s.asked row method))
        ⟨{ s.state with
            table := touched env s.asked s.state.table row
            currentSession := some (loadedSession env s.asked row method) }, s.asked + 6⟩

structure Invalidated (s s' : Asked SessionManager) : Prop where
  state : s'.state = { s.state with
    table := s.state.invalidated (env.now s.asked), currentSession := none }
  asked : s.asked < s'.asked

section
variable {env : Environment}

theorem triple_commit {Q : Unit → Asked SessionManager → Prop} {E : Exc → Asked SessionManager → Prop}
    (table : TradingSessions) (s : Asked SessionManager) : Triple (commit env table) s Q E ↔
      (env.database s.asked = none → Q () ⟨{ s.state with table := table }, s.asked + 1⟩) ∧
        ∀ e, env.database s.asked = some e → E e s.next := by
  simp [commit, Asked.next]

theorem pick_mem {rows : List TradingSession} (h : pick mockMode rows = some row) : row ∈ rows := by
  match mockMode with
  | none => exact List.mem_of_mem_head? h
  | some true | some false => exact List.mem_of_find?_eq_some h

theorem Picked.mem {method : LoginMethod} (h : Picked env s mockMode userId row method) :
    row ∈ s.state.table.rows ∧ eligible (env.now s.asked) userId row := by
  have hmem := (env.order_perm _ _).mem_iff.mp (pick_mem h.pick)
  exact List.mem_filter.mp hmem

theorem eligible_iff : eligible now userId r ↔
    r.isActive ∧ now < r.endTime ∧ ∀ u, userId = some u → u ≠ "" → r.userId = u := by
  unfold eligible
  split <;> simp_all [and_assoc]

theorem mem_invalidated {m : SessionManager} (hr : r ∈ (m.invalidated now).rows) (hactive : r.isActive) :
    r ∈ m.table.rows ∧ ∃ d, m.currentSession = some d ∧ r.userId ≠ d.userId := by
  unfold invalidated at hr
  cases hcurrent : m.currentSession with
  | some d =>
    simp only [hcurrent] at hr
    obtain ⟨r', hr', rfl⟩ := (m.table.mem_update _ _).mp hr
    by_cases huser : r'.userId = d.userId
    · simp [huser, deactivate] at hactive
    · simpa [huser] using hr'
  | none =>
    simp only [hcurrent] at hr
    obtain ⟨r', hr', rfl⟩ := (m.table.mem_update _ _).mp hr
    cases hr'active : r'.isActive <;> simp [hr'active, deactivate] at hactive

theorem unchanged_next (s : Asked SessionManager) (n : ℕ) : Unchanged s ⟨s.state, s.asked + n⟩ :=
  ⟨rfl, Nat.le_add_right _ _⟩

theorem storeSession_spec (d : SessionData) (sessionId : String) (s : Asked SessionManager) :
    Triple (storeSession env d sessionId) s
      (fun saved s' => saved = true ∧
        s.state.table.upsert (newRow d sessionId (env.serverNow s.asked)) = .ok s'.state.table ∧
        s'.state.currentSession = some d ∧ s.asked < s'.asked)
      fun _ s' => Unchanged s s' := by
  simp only [storeSession, triple_bind, triple_ask, triple_attempt, triple_read]
  refine ⟨fun _ => ?_, fun e _ => unchanged_next s 2⟩
  cases hupsert : s.state.table.upsert (newRow d sessionId (env.serverNow s.asked)) with
  | error e =>
    simp only [Asked.next_state, hupsert, triple_throw]
    exact unchanged_next s 2
  | ok table =>
    simp only [Asked.next_state, hupsert, triple_bind, triple_commit, triple_change, triple_pure]
    refine ⟨fun _ => ⟨trivial, trivial, trivial, ?_⟩, fun e _ => unchanged_next s 3⟩
    simp only [Asked.next_asked]
    omega

theorem sessionIdOr_spec (sessionId : String) (s : Asked SessionManager)
    {Q : String → Asked SessionManager → Prop} {E : Exc → Asked SessionManager → Prop} :
    Triple (sessionIdOr env sessionId) s Q E ↔ Q (identified env s.asked sessionId).1
      ⟨s.state, (identified env s.asked sessionId).2⟩ := by
  unfold sessionIdOr identified
  split <;> exact Iff.rfl

theorem identified_le (env : Environment) (n : ℕ) (sessionId : String) : n ≤ (identified env n sessionId).2 := by
  unfold identified
  split
  · exact Nat.le_succ n
  · exact le_refl n

theorem saveSession_spec (d : SessionData) (s : Asked SessionManager) :
    Triple (saveSession env d) s (fun saved s' => saved = true ∧ Saved env s d s')
      fun _ s' => Unchanged s s' := by
  simp only [saveSession, triple_tryCatch, triple_bind, triple_ask, triple_throw, sessionIdOr_spec]
  have hasked := identified_le env (s.asked + 2) d.sessionId
  refine (storeSession_spec _ _ _).mono ?_ ?_
  · rintro saved s' ⟨rfl, hupsert, hcurrent, hstored⟩
    exact ⟨rfl, hupsert, hcurrent, lt_of_lt_of_le (by omega : s.asked < s.asked + 2)
      (hasked.trans hstored.le)⟩
  · rintro e s' ⟨hstate, hstored⟩
    exact ⟨hstate, (Nat.le_add_right s.asked 2).trans (hasked.trans hstored)⟩

theorem written_of_upserted {t t' : TradingSessions} (h : t.Upserted (savedRow env n d) t' q) :
    Written env n d q := by
  refine ⟨h.userId, ?_, ?_, ?_, ?_⟩ <;> rw [h.columns] <;> rfl

theorem loadSession_spec (mockMode : Option Bool) (userId : Option String) (s : Asked SessionManager) :
    Triple (loadSession env mockMode userId) s (Loaded env s mockMode userId) fun _ _ => False := by
  simp only [loadSession, triple_tryCatch, triple_bind, triple_ask, triple_attempt, triple_read,
    Asked.next_state, Asked.next_asked, Nat.add_assoc, Nat.reduceAdd]
  refine ⟨fun _ => ?_, fun e _ => .nothing (unchanged_next s 2)⟩
  cases hpick : pick mockMode (env.order (s.asked + 2)
      (s.state.table.rows.filter (eligible (env.now s.asked) userId))) with
  | none => exact Loaded.nothing (unchanged_next s 3)
  | some row =>
    dsimp only
    cases hmethod : LoginMethod.ofValue ((loginMethod row).getD "None") with
    | error e => exact Loaded.nothing (unchanged_next s 3)
    | ok method =>
      have hpicked : Picked env s mockMode userId row method := ⟨hpick, hmethod⟩
      simp only [triple_bind, triple_ask, triple_change, triple_commit, triple_pure]
      exact ⟨fun _ => Loaded.committed hpicked, fun e _ => Loaded.uncommitted hpicked⟩

theorem getCurrentSession_spec (s : Asked SessionManager) : Triple (getCurrentSession env) s
    (fun d s' => s'.state = s.state ∧ ∀ d', d = some d' →
      s.state.currentSession = some d' ∧ env.now s.asked < d'.expiresAt ∧ s.asked < s'.asked)
    fun _ _ => False := by
  simp only [getCurrentSession, triple_bind, triple_read]
  cases s.state.currentSession with
  | none => simp
  | some d =>
    simp only [triple_bind, triple_ask, triple_pure, SessionData.isExpired, Asked.next_state, true_and]
    intro d' hd
    by_cases hexpired : d.expiresAt ≤ env.now s.asked
    · simp [hexpired] at hd
    · simp only [hexpired, decide_false, Bool.false_eq_true, if_false] at hd
      cases hd
      exact ⟨rfl, Int.not_le.mp hexpired, Nat.lt_succ_self _⟩

theorem invalidateSession_spec (s : Asked SessionManager) : Triple (invalidateSession env) s
    (fun success s' => if success then Invalidated env s s' else Unchanged s s') fun _ _ => False := by
  simp only [invalidateSession, triple_tryCatch, triple_bind, triple_ask, triple_attempt, triple_read,
    triple_commit, triple_change, triple_pure]
  refine ⟨fun _ => ⟨fun _ => ?_, fun e _ => unchanged_next s 3⟩, fun e _ => unchanged_next s 2⟩
  exact ⟨rfl, by simp; omega⟩

theorem cleanupExpiredSessions_spec (s : Asked SessionManager) : Triple (cleanupExpiredSessions env) s
    (fun _ s' => s'.state = s.state ∨ s'.state = { s.state with
      table := s.state.table.update (expired (env.now s.asked)) (deactivate (env.now (s.asked + 1))) })
    fun _ _ => False := by
  simp only [cleanupExpiredSessions, triple_tryCatch, triple_bind, triple_ask, triple_attempt,
    triple_read, triple_pure]
  refine ⟨fun _ => ?_, fun e _ => .inl rfl⟩
  split
  · simp [triple_commit, Asked.next]
  · exact .inl rfl

end

end SessionManager

end AlphaPanda.Auth
