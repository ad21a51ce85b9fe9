import AlphaPanda.Auth.SessionManager
import AlphaPanda.Lib.Decimal
import Mathlib.Data.List.Infix

/-!
# The auth manager

`AuthManager` and the Kite client it logs in with: its three ways to log in,
with what each one sets before a later step of it can fail.
-/

namespace AlphaPanda.Auth

open Asking

-- ---------------------------------------------------------------------------
-- The broker
-- ---------------------------------------------------------------------------

structure UserProfile where
  userId : String
  userName : String
  userShortname : String
  email : String
  broker : String
  deriving DecidableEq

inductive ProfileData where
  | dict (data : Dict String String)
  | other (typeName : String)

def UserProfile.ofDict (data : Dict String String) : UserProfile where
  userId := (data.get? "user_id").getD ""
  userName := (data.get? "user_name").getD ""
  userShortname := (data.get? "user_shortname").getD ""
  email := (data.get? "email").getD ""
  broker := (data.get? "broker").getD "zerodha"

def UserProfile.fromKiteResponse : ProfileData → Except Exc UserProfile
  | .dict data => .ok (.ofDict data)
  | .other typeName =>
    .error ⟨"AttributeError", s!"'{typeName}' object has no attribute 'get'", .builtin⟩

inductive Prompted where
  | input (text : String)
  /-- The shutdown event was set. -/
  | shutdown
  | raised (e : Exc)

/-- The settings, the person at the prompt and the broker. A response without an
access token is `none`. -/
structure AuthEnvironment extends Environment where
  apiKey : String
  apiSecret : String
  kiteInitialized : Bool
  loginUrl : ℕ → Except Exc String
  prompt : ℕ → Prompted
  generateSession : ℕ → String → Except Exc (Option String)
  profile : ℕ → Option String → Except Exc ProfileData

inductive AuthStatus where
  | unauthenticated
  | authenticating
  | authenticated
  | expired
  | error
  deriving DecidableEq, Repr

structure AuthManager where
  sessions : SessionManager
  status : AuthStatus
  userProfile : Option UserProfile
  isShuttingDown : Bool
  /-- The access token of the Kite client. -/
  kiteToken : Option String
  /-- The profiles that the broker returned, each with the token of the client then. -/
  fetched : List (Option String × ProfileData)

def AuthManager.fresh (kiteToken : Option String) : AuthManager :=
  ⟨.fresh, .unauthenticated, none, false, kiteToken, []⟩

abbrev Logins (α : Type) := Asks AuthManager Exc α

namespace AuthManager

variable (env : AuthEnvironment)

def onSessions (p : Sessions α) : Logins α :=
  within (·.sessions) (fun m sessions => { m with sessions := sessions }) p

def setStatus (status : AuthStatus) : Logins Unit := change fun m => { m with status := status }

def orRaise : Except Exc α → Logins α
  | .ok a => pure a
  | .error e => throw e

def requireInitialized : Logins Unit :=
  if env.kiteInitialized then pure ()
  else throw ⟨"AuthenticationError", "Kite client not initialized.", .builtin⟩

def setAccessToken (accessToken : String) : Logins Unit := do
  requireInitialized env
  change fun m => { m with kiteToken := some accessToken }

def getProfile : Logins ProfileData := do
  requireInitialized env
  let m ← read
  let answer ← ask fun n => env.profile n m.kiteToken
  let data ← orRaise answer
  change fun m => { m with fetched := m.fetched ++ [(m.kiteToken, data)] }
  pure data

/-- Zerodha's tokens are taken to be valid for 24 hours. -/
def validity : ℤ := 24 * 60 * 60 * 1000000

def newSession (profile : UserProfile) (accessToken : String) (method : LoginMethod) :
    Logins SessionData := do
  let now ← ask env.now
  let loginTimestamp ← ask env.now
  let lastActivityTimestamp ← ask env.now
  let sessionId ← ask env.uuid4
  let createdAt ← ask env.now
  let updatedAt ← ask env.now
  let lastValidated ← ask env.now
  pure
    { userId := profile.userId
      accessToken := accessToken
      expiresAt := now + validity
      loginTimestamp := loginTimestamp
      lastActivityTimestamp := lastActivityTimestamp
      loginMethod := method
      userName := some profile.userName
      userShortname := some profile.userShortname
      broker := some profile.broker
      email := some profile.email
      sessionId := sessionId
      createdAt := createdAt
      updatedAt := updatedAt
      lastValidated := lastValidated }

/-- The client gets the token, the profile is fetched with it, and a session is
saved. The object that is saved is the current session from then on. -/
def establish (accessToken : String) (method : LoginMethod) : Logins SessionData := do
  setAccessToken env accessToken
  let data ← getProfile env
  let profile ← orRaise (UserProfile.fromKiteResponse data)
  change fun m => { m with userProfile := some profile }
  let sessionData ← newSession env profile accessToken method
  let _ ← onSessions (SessionManager.saveSession env.toEnvironment sessionData)
  let m ← read
  pure (m.sessions.currentSession.getD sessionData)

def loginWithToken (accessToken : String) : Logins SessionData :=
  if env.kiteInitialized then
    tryCatch
      (do
        let sessionData ← establish env accessToken .externalToken
        setStatus .authenticated
        pure sessionData)
      fun e => do
        setStatus .error
        throw ⟨"ZerodhaAuthError", s!"Token validation or session creation failed: {e.message}", .builtin⟩
  else throw ⟨"AuthenticationError", "Cannot login with token: Kite client not initialized.", .builtin⟩

-- ---------------------------------------------------------------------------
-- Logging in interactively
-- ---------------------------------------------------------------------------

def strip (text : String) : String := String.ofList (Decimal.strip text.toList)

def promptForInput : Logins String := do
  let timeout : Exc := ⟨"InteractiveAuthTimeoutException", "Shutdown requested during input", .builtin⟩
  match ← ask env.prompt with
  | .shutdown => do
    change fun m => { m with isShuttingDown := true }
    throw timeout
  | .raised e => throw e
  | .input text => do
    let m ← read
    if m.isShuttingDown then throw timeout
    else pure (strip text)

def isIn (pattern text : String) : Bool := pattern.toList <:+: text.toList

def sessionFailure (text : String) : Exc :=
  if isIn "Invalid request token" text || isIn "400" text then
    ⟨"ZerodhaAuthError",
      "Invalid request token. Please try again with a fresh token from the login URL.", .builtin⟩
  else if isIn "timeout" (text.map Char.toLower) then
    ⟨"ZerodhaAuthError",
      "Network timeout during authentication. Please check your internet connection.", .builtin⟩
  else ⟨"ZerodhaAuthError", s!"Failed to generate session: {text}", .builtin⟩

def generateSession (requestToken : String) : Logins SessionData :=
  tryCatch
    (do
      if requestToken.length < 10 then throw ⟨"ValueError", "Invalid request token format", .builtin⟩
      else do
        requireInitialized env
        let answer ← ask fun n => env.generateSession n requestToken
        match ← orRaise answer with
        | none => throw ⟨"ZerodhaAuthError", "Invalid response from Zerodha API", .builtin⟩
        | some accessToken => establish env accessToken .oauth)
    fun e => throw (sessionFailure e.message)

def validateApiCredentials : Bool :=
  env.kiteInitialized && env.apiKey ≠ "" && env.apiSecret ≠ ""

def interactiveLogin : Logins Bool := do
  setStatus .authenticating
  if validateApiCredentials env then do
    match ← ask env.loginUrl with
    | .error _ => pure false
    | .ok _ => do
      let requestToken ← promptForInput env
      let m ← read
      if m.isShuttingDown then pure false
      else if strip requestToken = "" then
        throw ⟨"ValueError", "Request token is required for authentication", .builtin⟩
      else do
        let _ ← generateSession env (strip requestToken)
        setStatus .authenticated
        pure true
  else pure false

def interactiveAuthentication : Logins Bool :=
  tryCatch (interactiveLogin env) fun e => do
    setStatus .error
    if e.name = "KeyboardInterrupt" then change fun m => { m with isShuttingDown := true }
    else pure ()
    pure false

/-- The profile is fetched with the token of the session that was loaded; if that
fails, the session is invalidated. -/
def restore (session : SessionData) : Logins Bool := do
  setAccessToken env session.accessToken
  tryCatch
    (do
      match ← getProfile env with
      | .other _ => throw ⟨"ValueError", "Invalid profile data format from Zerodha API", .builtin⟩
      | .dict data => do
        change fun m => { m with userProfile := some (.ofDict data), status := .authenticated }
        pure true)
    fun _ => do
      let _ ← onSessions (SessionManager.invalidateSession env.toEnvironment)
      pure false

/-- The session that is loaded, unless it has expired since. -/
def loadUnexpired : Logins (Option SessionData) := do
  match ← onSessions (SessionManager.loadSession env.toEnvironment none none) with
  | none => pure none
  | some d => do
    let now ← ask env.now
    pure (if d.isExpired now then none else some d)

def restoreStored : Logins Bool := do
  match ← loadUnexpired env with
  | some session => restore env session
  | none => pure false

def authenticate : Logins Bool := do
  let restored ← restoreStored env
  if restored then pure true
  else do
    let success ← interactiveAuthentication env
    if success then pure true
    else do
      setStatus .error
      pure false

def initializeManager : Logins Bool :=
  if env.apiKey = "" || env.apiSecret = "" || !env.kiteInitialized then do
    setStatus .error
    pure false
  else authenticate env

def logout : Logins Bool := do
  let loggedOut ← onSessions (SessionManager.invalidateSession env.toEnvironment)
  if loggedOut then do
    change fun m => { m with status := .unauthenticated, userProfile := none }
    pure true
  else pure false

def getAccessToken : Logins (Option String) := do
  let m ← read
  if m.status = .authenticated then do
    let session ← loadUnexpired env
    pure (session.map (·.accessToken))
  else pure none

end AuthManager

end AlphaPanda.Auth
