import AlphaPanda.Auth.SessionManager
import AlphaPanda.Lib.History

/-!
# Valid sessions

Every session that the manager returns is the one last saved for its user. The
row of a user and the session in memory are two copies of it: `Backed` ties both
to the history, whichever of the operations fail.
-/

namespace AlphaPanda.Auth

open Asking SessionManager TradingSessions

-- ---------------------------------------------------------------------------
-- Histories
-- ---------------------------------------------------------------------------

inductive Call where
  | start
  | stop
  | save (d : SessionData)
  | load (mockMode : Option Bool) (userId : Option String)
  | getCurrent
  | invalidate
  | cleanup

inductive Answer where
  | done
  | saved
  | session (d : Option SessionData)
  | invalidated (success : Bool)

def Quiet (a : Except Exc Answer) : Prop := a ≠ .ok .saved ∧ a ≠ .ok (.invalidated true)

abbrev SessionEvent := Event Call SessionManager Exc Answer

def perform (env : Environment) : Call → Sessions Answer
  | .start => do
    start
    pure .done
  | .stop => do
    stop
    pure .done
  | .save d => do
    let _ ← saveSession env d
    pure .saved
  | .load mockMode userId => do
    let d ← loadSession env mockMode userId
    pure (.session d)
  | .getCurrent => do
    let d ← getCurrentSession env
    pure (.session d)
  | .invalidate => do
    let success ← invalidateSession env
    pure (.invalidated success)
  | .cleanup => do
    cleanupExpiredSessions env
    pure .done

namespace SessionEvent

def Saves (e : SessionEvent) (d : SessionData) : Prop := e.call = .save d ∧ e.answer = .ok .saved

/-- The user was the current one, or there was no current session. -/
def Covers (e : SessionEvent) (userId : String) : Prop :=
  e.call = .invalidate ∧ e.answer = .ok (.invalidated true) ∧
    ∀ d, e.before.state.currentSession = some d → d.userId = userId

def Reads (env : Environment) (e : SessionEvent) (now : ℤ) : Prop :=
  ∃ n, e.before.asked ≤ n ∧ n < e.after.asked ∧ env.now n = now

end SessionEvent

/-- The last successful save for the user was of `d`, and no successful
invalidation covered the user since. -/
def Standing (past : List SessionEvent) (userId : String) (d : SessionData) : Prop :=
  past.Since (fun e => e.Saves d ∧ d.userId = userId)
    fun e => (∀ d', e.Saves d' → d'.userId ≠ userId) ∧ ¬e.Covers userId

/-- A session with its token and its expiry stands. -/
def Vouched (past : List SessionEvent) (d : SessionData) : Prop :=
  ∃ saved, Standing past d.userId saved ∧
    d.accessToken = saved.accessToken ∧ d.expiresAt = saved.expiresAt

section
variable {past : List SessionEvent} {e : SessionEvent} {d : SessionData}

theorem Standing.append (h : Standing past userId d) (hsave : ∀ d', e.Saves d' → d'.userId ≠ userId)
    (hcover : ¬e.Covers userId) : Standing (past ++ [e]) userId d :=
  (List.since_concat past e).mpr (.inr ⟨⟨hsave, hcover⟩, h⟩)

theorem standing_of_saves (past : List SessionEvent) (h : e.Saves d) :
    Standing (past ++ [e]) d.userId d :=
  (List.since_concat past e).mpr (.inl ⟨h, rfl⟩)

end

-- ---------------------------------------------------------------------------
-- The two copies
-- ---------------------------------------------------------------------------

structure Holds (r : TradingSession) (d : SessionData) : Prop where
  sessionData : r.sessionData = d.sessionDict
  endTime : r.endTime = d.expiresAt

structure Backed (past : List SessionEvent) (m : SessionManager) : Prop where
  rows : ∀ r ∈ m.table.rows, r.isActive → ∃ d, Standing past r.userId d ∧ Holds r d
  current : ∀ d, m.currentSession = some d → Vouched past d

theorem Holds.vouched {d : SessionData} (h : Holds r d) (hstanding : Standing past r.userId d) (method : LoginMethod)
    (activity updatedAt : ℤ) : Vouched past (sessionOf r method activity updatedAt) := by
  refine ⟨d, hstanding, ?_, h.endTime⟩
  simp only [sessionOf, SessionManager.accessToken, h.sessionData]
  rfl

section
variable {env : Environment} {past : List SessionEvent} {e : SessionEvent} {m : SessionManager}

theorem Backed.append (h : Backed past m) (hquiet : Quiet e.answer) : Backed (past ++ [e]) m := by
  have hsave : ∀ d, ¬e.Saves d := fun d hd => hquiet.1 hd.2
  have hcover : ∀ u, ¬e.Covers u := fun u hu => hquiet.2 hu.2.1
  refine ⟨fun r hr hactive => ?_, fun d hd => ?_⟩
  · obtain ⟨d, hstanding, hholds⟩ := h.rows r hr hactive
    exact ⟨d, hstanding.append (fun d' hd' => absurd hd' (hsave d')) (hcover _), hholds⟩
  · obtain ⟨d', hstanding, hsame⟩ := h.current d hd
    exact ⟨d', hstanding.append (fun d'' hd'' => absurd hd'' (hsave d'')) (hcover _), hsame⟩

theorem Backed.update (h : Backed past m) (p : TradingSession → Bool) (f : Columns → Columns)
    (hf : ∀ c, (f c).isActive → c.isActive)
    (hdata : ∀ c, (f c).sessionData = c.sessionData ∧ (f c).endTime = c.endTime) :
    ∀ r ∈ (m.table.update p f).rows, r.isActive → ∃ d, Standing past r.userId d ∧ Holds r d := by
  intro r hr hactive
  obtain ⟨r', hr', rfl⟩ := (m.table.mem_update p f).mp hr
  split at hactive
  · rename_i hp
    obtain ⟨d, hstanding, hholds⟩ := h.rows r' hr' (hf r'.toColumns hactive)
    rw [if_pos hp]
    exact ⟨d, hstanding, (hdata r'.toColumns).1.trans hholds.sessionData,
      (hdata r'.toColumns).2.trans hholds.endTime⟩
  · rename_i hp
    rw [if_neg hp]
    exact h.rows r' hr' hactive

/-- What a call returns is vouched for, and unexpired when it was checked. -/
def Valid (env : Environment) (past : List SessionEvent) (e : SessionEvent) : Prop :=
  ∀ d, e.answer = .ok (.session (some d)) → Vouched past d ∧ ∃ now, e.Reads env now ∧ now < d.expiresAt

theorem save_backed {s s' : Asked SessionManager} (h : Backed past s.state) (d : SessionData)
    (hsaved : Saved env s d s') (hsaves : e.Saves d) (hcover : ∀ u, ¬e.Covers u) :
    Backed (past ++ [e]) s'.state := by
  have hnew : ∀ d', e.Saves d' → d' = d := by
    intro d' hd'
    have hcall := hd'.1.symm.trans hsaves.1
    cases hcall
    rfl
  constructor
  · intro r hr hactive
    obtain ⟨q, hq⟩ := upsert_ok hsaved.table
    rcases hq.others r hr with rfl | ⟨hr, huser⟩
    · have hwritten := written_of_upserted hq
      exact ⟨d, hwritten.userId ▸ standing_of_saves past hsaves, hwritten.sessionData, hwritten.endTime⟩
    · obtain ⟨d', hstanding, hholds⟩ := h.rows r hr hactive
      refine ⟨d', hstanding.append (fun d'' hd'' => ?_) (hcover _), hholds⟩
      rw [hnew d'' hd'']
      exact huser.symm
  · intro current hcurrent
    rw [hsaved.currentSession] at hcurrent
    cases hcurrent
    exact ⟨d, standing_of_saves past hsaves, rfl, rfl⟩

theorem load_backed {s s' : Asked SessionManager} {d : Option SessionData} (h : Backed past s.state)
    (hload : Loaded env s mockMode userId d s') : Backed past s'.state ∧
      ∀ d', d = some d' → Vouched past d' ∧ env.now s.asked < d'.expiresAt ∧ s.asked < s'.asked := by
  have hvouched : ∀ {row method}, Picked env s mockMode userId row method →
      Vouched past (loadedSession env s.asked row method) ∧ env.now s.asked < row.endTime := by
    intro row method hpicked
    obtain ⟨hmem, heligible⟩ := hpicked.mem
    obtain ⟨hactive, hunexpired, _⟩ := eligible_iff.mp heligible
    obtain ⟨d, hstanding, hholds⟩ := h.rows row hmem hactive
    exact ⟨hholds.vouched hstanding method _ _, hunexpired⟩
  cases hload with
  | nothing hunchanged =>
    rw [hunchanged.state]
    exact ⟨h, fun d' hd => by cases hd⟩
  | uncommitted hpicked =>
    refine ⟨⟨h.rows, ?_⟩, fun d' hd => by cases hd⟩
    rintro d ⟨⟩
    exact (hvouched hpicked).1
  | committed hpicked =>
    refine ⟨⟨?_, ?_⟩, ?_⟩
    · exact h.update _ _ (fun _ hc => hc) fun _ => ⟨rfl, rfl⟩
    · rintro d ⟨⟩
      exact (hvouched hpicked).1
    · rintro d ⟨⟩
      exact ⟨(hvouched hpicked).1, (hvouched hpicked).2, by simp⟩

theorem invalidate_backed {s s' : Asked SessionManager} (h : Backed past s.state)
    (hinvalidated : Invalidated env s s') (hbefore : e.before = s) (hsave : ∀ d, ¬e.Saves d) :
    Backed (past ++ [e]) s'.state := by
  rw [hinvalidated.state]
  refine ⟨?_, fun d hd => by cases hd⟩
  intro r hr hactive
  obtain ⟨hmem, current, hcurrent, huser⟩ := mem_invalidated hr hactive
  obtain ⟨d, hstanding, hholds⟩ := h.rows r hmem hactive
  refine ⟨d, hstanding.append (fun d' hd' => absurd hd' (hsave d')) ?_, hholds⟩
  rintro ⟨_, _, hcover⟩
  rw [hbefore] at hcover
  exact huser (hcover current hcurrent).symm

theorem valid_of_not_session (h : ∀ d, e.answer ≠ .ok (.session (some d))) : Valid env past e :=
  fun d hd => absurd hd (h d)

theorem Backed.quiet (h : Backed past m) (hquiet : Quiet e.answer)
    (hsession : ∀ d, e.answer ≠ .ok (.session (some d))) : Backed (past ++ [e]) m ∧ Valid env past e :=
  ⟨h.append hquiet, valid_of_not_session hsession⟩

theorem perform_keeps : Keeps (perform env) (fun past s => Backed past s.state) (Valid env) := by
  intro past s c h
  cases c with
  | start =>
    have hbacked : Backed past { s.state with running := true } := ⟨h.rows, h.current⟩
    exact hbacked.quiet (by simp [Quiet]) fun d => by simp
  | stop =>
    have hbacked : Backed past (if s.state.running then
        { s.state with currentSession := none, running := false } else s.state) := by
      split
      · exact ⟨h.rows, fun d hd => by cases hd⟩
      · exact h
    exact hbacked.quiet (by simp [Quiet]) fun d => by simp
  | save d =>
    simp only [perform, triple_bind, triple_pure]
    refine (saveSession_spec d s).mono ?_ ?_
    · rintro _ s' ⟨rfl, hsaved⟩
      refine ⟨save_backed h d hsaved ⟨rfl, rfl⟩ ?_, valid_of_not_session fun d => by simp⟩
      rintro u ⟨hcall, _⟩
      cases hcall
    · rintro e s' hunchanged
      rw [hunchanged.state]
      exact h.quiet (by simp [Quiet]) fun d => by simp
  | load mockMode userId =>
    simp only [perform, triple_bind, triple_pure]
    refine (loadSession_spec mockMode userId s).mono ?_ fun _ _ => False.elim
    intro d s' hload
    obtain ⟨hbacked, hreturn⟩ := load_backed h hload
    refine ⟨hbacked.append (by simp [Quiet]), ?_⟩
    rintro d' ⟨⟩
    obtain ⟨hvouched, hunexpired, hasked⟩ := hreturn d' rfl
    exact ⟨hvouched, _, ⟨s.asked, le_refl _, hasked, rfl⟩, hunexpired⟩
  | getCurrent =>
    simp only [perform, triple_bind, triple_pure]
    refine (getCurrentSession_spec s).mono ?_ fun _ _ => False.elim
    rintro d s' ⟨hstate, hreturn⟩
    refine ⟨?_, ?_⟩
    · rw [hstate]
      exact h.append (by simp [Quiet])
    · rintro d' ⟨⟩
      obtain ⟨hcurrent, hunexpired, hasked⟩ := hreturn d' rfl
      exact ⟨h.current d' hcurrent, _, ⟨s.asked, le_refl _, hasked, rfl⟩, hunexpired⟩
  | invalidate =>
    simp only [perform, triple_bind, triple_pure]
    refine (invalidateSession_spec s).mono ?_ fun _ _ => False.elim
    intro success s' hspec
    refine ⟨?_, valid_of_not_session fun d => by simp⟩
    cases success with
    | true =>
      refine invalidate_backed h hspec rfl ?_
      rintro d ⟨hcall, _⟩
      cases hcall
    | false =>
      rw [hspec.state]
      exact h.append (by simp [Quiet])
  | cleanup =>
    simp only [perform, triple_bind, triple_pure]
    refine (cleanupExpiredSessions_spec s).mono ?_ fun _ _ => False.elim
    rintro _ s' (hstate | hstate) <;> rw [hstate]
    · exact h.quiet (by simp [Quiet]) fun d => by simp
    · have hrows := h.update (expired (env.now s.asked)) (deactivate (env.now (s.asked + 1)))
        (fun _ hc => by simp [deactivate] at hc) fun _ => ⟨rfl, rfl⟩
      exact Backed.quiet ⟨hrows, h.current⟩ (by simp [Quiet]) fun d => by simp

theorem fresh_backed : Backed [] .fresh :=
  ⟨fun _ hr => absurd hr List.not_mem_nil, fun d hd => absurd hd (Option.some_ne_none d).symm⟩

end

/-- Whatever is called, and whatever fails: a session that is returned is the one
last saved for its user, was not covered by an invalidation since, and was
unexpired when it was checked. -/
theorem sessions_valid (env : Environment) (calls : List Call) (pre post : List SessionEvent)
    (e : SessionEvent) (hsplit : history (perform env) ⟨.fresh, 0⟩ calls = pre ++ e :: post) :
    Valid env pre e := by
  have hvalid : Valid env ([] ++ pre) e := perform_keeps.history fresh_backed calls hsplit
  exact hvalid

def oneSaved : SessionEvent := event (perform ticking) ⟨.fresh, 0⟩ (.save oneSession)

def oneLoaded : SessionEvent := event (perform ticking) oneSaved.after (.load none none)

theorem sessions_valid_loaded :
    oneLoaded.answer = .ok (.session (some { oneSession with
        loginTimestamp := 102, lastActivityTimestamp := 8, createdAt := 102, updatedAt := 9 })) ∧
      Valid ticking [oneSaved] oneLoaded :=
  ⟨rfl, sessions_valid ticking [.save oneSession, .load none none] [oneSaved] [] oneLoaded rfl⟩

end AlphaPanda.Auth
