import AlphaPanda.Auth.SessionManager

/-!
# Saved and loaded

What a load right after a save returns. The login timestamp is read from a
column that the database fills in, and neither it nor the session id is written
when the user has a row already.
-/

namespace AlphaPanda.Auth

open Asking SessionManager TradingSessions

/-- The two sessions agree in all but their audit fields and their last activity. -/
structure SessionData.Same (d d' : SessionData) : Prop where
  userId : d.userId = d'.userId
  accessToken : d.accessToken = d'.accessToken
  expiresAt : d.expiresAt = d'.expiresAt
  sessionId : d.sessionId = d'.sessionId
  loginTimestamp : d.loginTimestamp = d'.loginTimestamp
  loginMethod : d.loginMethod = d'.loginMethod
  userName : d.userName = d'.userName
  userShortname : d.userShortname = d'.userShortname
  broker : d.broker = d'.broker
  email : d.email = d'.email
  ipAddress : d.ipAddress = d'.ipAddress
  userAgent : d.userAgent = d'.userAgent

def RoundTrips (env : Environment) (d : SessionData) (s : Asked SessionManager) : Prop :=
  ∃ d' s', loadSession env none (some d.userId) s = .ok (some d') s' ∧ d'.Same d

def Foremost (env : Environment) (s : Asked SessionManager) (userId : String) : Prop :=
  ∃ row, (env.order (s.asked + 2)
    (s.state.table.rows.filter (eligible (env.now s.asked) none))).head? = some row ∧ row.userId = userId

/-- Before the save, the user's row has the id and the login timestamp already; or
there is none, there is an id, and the database's clock is to show the timestamp. -/
def Kept (env : Environment) (s : Asked SessionManager) (d : SessionData) : Prop :=
  match s.state.table.row? d.userId with
  | some row => row.sessionId = d.sessionId ∧ row.startTime = d.loginTimestamp
  | none => d.sessionId ≠ "" ∧ env.serverNow (s.asked + 2) = d.loginTimestamp

section
variable {env : Environment} {s s' : Asked SessionManager} {d : SessionData} {q : TradingSession} {n : ℕ}

theorem kept_iff (h : Upserted s.state.table (savedRow env s.asked d) s'.state.table q) :
    q.sessionId = d.sessionId ∧ q.startTime = d.loginTimestamp ↔ Kept env s d := by
  unfold Kept
  cases hrow : s.state.table.row? d.userId with
  | some old =>
    obtain ⟨hid, hstart⟩ := h.kept old hrow
    rw [hid, hstart]
  | none =>
    have hq := h.inserted hrow
    subst hq
    by_cases hid : d.sessionId = ""
    · have huuid : (savedRow env s.asked d).sessionId = env.uuid4 (s.asked + 2) := by
        simp [savedRow, identified, hid, newRow]
      simp [huuid, hid, env.uuid4_ne_empty]
    · simp [savedRow, identified, hid, newRow]

theorem SessionManager.Written.same_iff (h : Written env n d q) (activity updatedAt : ℤ) :
    (sessionOf q d.loginMethod activity updatedAt).Same d ↔
      q.sessionId = d.sessionId ∧ q.startTime = d.loginTimestamp := by
  constructor
  · intro hsame
    exact ⟨hsame.sessionId, hsame.loginTimestamp⟩
  · rintro ⟨hid, hstart⟩
    refine ⟨h.userId, ?_, h.endTime, hid, hstart, rfl, ?_, ?_, ?_, ?_, ?_, ?_⟩ <;>
      simp only [sessionOf, SessionManager.accessToken, h.sessionData] <;> rfl

theorem SessionManager.Written.method (h : Written env n d q) : LoginMethod.ofValue ((loginMethod q).getD "None") = .ok d.loginMethod := by
  have hmethod : loginMethod q = some d.loginMethod.value := by
    simp only [loginMethod, h.sessionData]
    rfl
  rw [hmethod, Option.getD_some, LoginMethod.ofValue_value]

theorem SessionManager.Written.eligible (h : Written env n d q) (hnow : now < d.expiresAt) :
    eligible now (some d.userId) q := by
  refine eligible_iff.mpr ⟨h.isActive, h.endTime ▸ hnow, ?_⟩
  rintro u ⟨⟩ _
  exact h.userId

theorem loadSession_succeeds (hpicked : Picked env s mockMode userId row method)
    (hdatabase : ∀ n, s.asked ≤ n → env.database n = none) :
    ∃ s', loadSession env mockMode userId s = .ok (some (loadedSession env s.asked row method)) s' := by
  have hload : Triple (loadSession env mockMode userId) s
      (fun d _ => d = some (loadedSession env s.asked row method)) fun _ _ => False := by
    simp only [loadSession, triple_tryCatch, triple_bind, triple_ask, triple_attempt, triple_read,
      Asked.next_state, Asked.next_asked, Nat.add_assoc, Nat.reduceAdd, hpicked.pick, hpicked.method,
      triple_change, triple_commit, triple_pure]
    rw [hdatabase (s.asked + 1) (by omega), hdatabase (s.asked + 5) (by omega)]
    exact ⟨fun _ => ⟨fun _ => rfl, fun e he => by cases he⟩, fun e he => by cases he⟩
  obtain ⟨_, s', hrun, rfl⟩ := hload.returns
  exact ⟨s', hrun⟩

theorem eligible_empty (now : ℤ) : eligible now (some "") = eligible now none := rfl

/-- A load finds the row that was written, unless it looks for no user in particular
and another comes first. -/
theorem picked_of_foremost (hq : q ∈ s.state.table.rows) (h : Written env n d q)
    (hnow : env.now s.asked < d.expiresAt) (hforemost : d.userId = "" → Foremost env s d.userId) :
    Picked env s none (some d.userId) q d.loginMethod := by
  refine ⟨?_, h.method⟩
  have hmem : q ∈ env.order (s.asked + 2)
      (s.state.table.rows.filter (eligible (env.now s.asked) (some d.userId))) :=
    (env.order_perm _ _).mem_iff.mpr (List.mem_filter.mpr ⟨hq, h.eligible hnow⟩)
  obtain ⟨row, hrow⟩ := Option.isSome_iff_exists.mp (List.isSome_head?.mpr (List.ne_nil_of_mem hmem))
  have hfound := List.mem_filter.mp ((env.order_perm _ _).mem_iff.mp (List.mem_of_mem_head? hrow))
  have huser : row.userId = d.userId := by
    by_cases hempty : d.userId = ""
    · obtain ⟨row', hrow', huser⟩ := hforemost hempty
      rw [hempty, eligible_empty] at hrow
      cases hrow.symm.trans hrow'
      exact huser
    · exact (eligible_iff.mp hfound.2).2.2 d.userId rfl hempty
  rw [pick, hrow, s.state.table.eq_of_userId hfound.1 hq (huser.trans h.userId.symm)]

theorem foremost_of_picked (hpicked : Picked env s none (some d.userId) row method)
    (huser : row.userId = d.userId) (hempty : d.userId = "") : Foremost env s d.userId := by
  have hpick := hpicked.pick
  rw [hempty, eligible_empty] at hpick
  exact ⟨row, hpick, huser⟩

/-- A save that succeeds and a load right after it give back the session if and
only if its id and its login timestamp are the ones of the row and, where the user
id is empty, the row comes first. -/
theorem roundTrip_iff (env : Environment) (s s' : Asked SessionManager) (d : SessionData)
    (hsave : saveSession env d s = .ok true s')
    (hdatabase : ∀ n, s'.asked ≤ n → env.database n = none)
    (hunexpired : env.now s'.asked < d.expiresAt) :
    RoundTrips env d s' ↔ Kept env s d ∧ (d.userId = "" → Foremost env s' d.userId) := by
  have hsaved : Saved env s d s' := ((saveSession_spec d s).of_ok hsave).2
  obtain ⟨q, hq⟩ := upsert_ok hsaved.table
  have hwritten := written_of_upserted hq
  constructor
  · rintro ⟨d', s'', hload, hsame⟩
    have hloaded := (loadSession_spec none (some d.userId) s').of_ok hload
    cases hloaded with
    | committed hpicked =>
      rename_i row method
      have hrow := s'.state.table.eq_of_userId hpicked.mem.1 hq.mem
        (hsame.userId.trans hwritten.userId.symm)
      subst hrow
      refine ⟨(kept_iff hq).mp ⟨hsame.sessionId, hsame.loginTimestamp⟩, ?_⟩
      exact foremost_of_picked hpicked hwritten.userId
  · rintro ⟨hkept, hforemost⟩
    have hpicked := picked_of_foremost hq.mem hwritten hunexpired hforemost
    obtain ⟨s'', hload⟩ := loadSession_succeeds hpicked hdatabase
    exact ⟨_, s'', hload, (hwritten.same_iff _ _).mpr ((kept_iff hq).mpr hkept)⟩

end

theorem roundTrip_foreseen : ∃ s',
    saveSession ticking { oneSession with loginTimestamp := 102 } ⟨.fresh, 0⟩ = .ok true s' ∧
      RoundTrips ticking { oneSession with loginTimestamp := 102 } s' :=
  ⟨_, rfl, (roundTrip_iff ticking ⟨.fresh, 0⟩ _ { oneSession with loginTimestamp := 102 } rfl
    (fun _ _ => rfl) (by decide)).mpr ⟨⟨by decide, rfl⟩, fun h => absurd h (by decide)⟩⟩

/-- The first login of a user: the timestamp that is loaded is the database's. -/
theorem loginTimestamp_lost : ¬∀ (env : Environment) (d : SessionData) (s' : Asked SessionManager),
    saveSession env d ⟨.fresh, 0⟩ = .ok true s' → (∀ n, s'.asked ≤ n → env.database n = none) →
      env.now s'.asked < d.expiresAt → RoundTrips env d s' := by
  intro hclaim
  obtain ⟨d', s', hload, hsame⟩ := hclaim ticking oneSession _ rfl (fun _ _ => rfl) (by decide)
  cases hload
  have htimestamp : (102 : ℤ) = 0 := hsame.loginTimestamp
  cases htimestamp

end AlphaPanda.Auth
