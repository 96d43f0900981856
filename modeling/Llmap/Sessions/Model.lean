import Llmap.Common.Prog
import Llmap.Secrets
/-!
# Administrator sessions

`admin.rs`: the attempts to log in, counted for each client, and the
sessions that were granted, kept under the digest of their token. A grant
is a session token and a CSRF token, which the session's requests show.

All of it stands behind one lock. A method is a section under that lock
(`Section`), except `issue_csrf`, which takes the lock twice: it
authenticates, and then stores the token it drew. The bytes the random
source gives are arguments.
-/

namespace Llmap

namespace Sessions

open Secrets

/-- `SessionPolicy`. -/
structure SessionPolicy where
  idleTimeout : Int
  absoluteTimeout : Int
  maxFailedAttempts : UInt8
  lockoutDuration : Int
deriving DecidableEq

/-- `SessionPolicy::default`. -/
protected def SessionPolicy.default : SessionPolicy where
  idleTimeout := minutes 30
  absoluteTimeout := minutes (12 * 60)
  maxFailedAttempts := 5
  lockoutDuration := minutes 15

/-- `SessionGrant`. -/
structure SessionGrant where
  token : String
  csrfToken : String
  expiresAt : DateTime
  maxAgeSeconds : Int
deriving DecidableEq

/-- `AdminAuthError`. -/
inductive AdminAuthError where
  | invalidCredentials
  | rateLimited
  | invalidSession
  | invalidCsrf
deriving DecidableEq

/-- `AdminAuthError`'s `Display`. -/
def AdminAuthError.message : AdminAuthError → String
  | .invalidCredentials => "invalid administrator credentials"
  | .rateLimited => "too many failed login attempts"
  | .invalidSession => "administrator session is invalid or expired"
  | .invalidCsrf => "CSRF token is missing or invalid"

/-- `LoginAttempt`. -/
structure LoginAttempt where
  failures : UInt8
  lockedUntil : Option DateTime
deriving DecidableEq

/-- `Session`. -/
structure Session where
  createdAt : DateTime
  lastSeenAt : DateTime
  csrfDigest : Bytes
deriving DecidableEq

/-- `SessionState`. -/
structure SessionState where
  attempts : Table String LoginAttempt
  sessions : Table Bytes Session

/-- `SessionState::default`. -/
protected def SessionState.default : SessionState := ⟨∅, ∅⟩

/-- `AdminSessionManager`, but for the state behind its lock. -/
structure AdminSessionManager where
  username : String
  passwordHash : AdminPasswordHash
  digestKey : Vector UInt8 32
  policy : SessionPolicy
deriving DecidableEq

/-- What a token is drawn as. -/
abbrev TokenBytes := Vector UInt8 32

/-- `random_token`, with the bytes drawn. -/
def randomToken [Sealing] (bytes : TokenBytes) : String := Sealing.base64UrlEncode bytes.toList

/-- `constant_time_text_eq`. -/
def constantTimeTextEq [Digests] (left right : String) : Bool :=
  Digests.sha256 (asBytes left) = Digests.sha256 (asBytes right)

namespace AdminSessionManager

variable (manager : AdminSessionManager)

/-- `AdminSessionManager::digest`. -/
def digest [Digests] (value : String) : Bytes :=
  Digests.hmacSha256 manager.digestKey.toList (asBytes value)

/-- What `login` and `active_session_count` retain. -/
def retained (now : DateTime) (session : Session) : Bool :=
  now < session.createdAt + manager.policy.absoluteTimeout &&
    now ≤ session.lastSeenAt + manager.policy.idleTimeout

/-- What `authenticate` takes to be expired. -/
def expired (now : DateTime) (session : Session) : Bool :=
  now ≥ session.createdAt + manager.policy.absoluteTimeout ||
    now > session.lastSeenAt + manager.policy.idleTimeout

/-- The two tests agree. -/
theorem expired_eq_not_retained (now : DateTime) (session : Session) :
    manager.expired now session = !manager.retained now session := by
  simp only [expired, retained, Bool.not_and, ← decide_not, not_lt, not_le]

variable [Digests]

/-- Whether `login` finds the name and the password right. -/
def credentialsMatch [Argon2] (username password : String) : Bool :=
  constantTimeTextEq username manager.username && manager.passwordHash.verify password

/-- `AdminSessionManager::login`, with the tokens drawn. -/
def login [Argon2] [Sealing] (state : SessionState) (username password clientKey : String)
    (token csrfToken : TokenBytes) (now : DateTime) :
    SessionState × Except AdminAuthError SessionGrant :=
  let sessions := state.sessions.filter fun _ session => manager.retained now session
  let attempt := state.attempts.getD clientKey ⟨0, none⟩
  if attempt.lockedUntil.any (now < ·) then
    (⟨state.attempts.insert clientKey attempt, sessions⟩, .error .rateLimited)
  else
    let attempt := if attempt.lockedUntil.isSome then ⟨0, none⟩ else attempt
    if manager.credentialsMatch username password then
      let session := ⟨now, now, manager.digest (randomToken csrfToken)⟩
      (⟨state.attempts.erase clientKey,
          sessions.insert (manager.digest (randomToken token)) session⟩,
        .ok {
          token := randomToken token
          csrfToken := randomToken csrfToken
          expiresAt := now + manager.policy.absoluteTimeout
          -- `num_seconds` drops the part of a second
          maxAgeSeconds := manager.policy.absoluteTimeout.tdiv 1000000000 })
    else
      let failures := saturatingSuccU8 attempt.failures
      let lockedUntil :=
        if manager.policy.maxFailedAttempts ≤ failures then
          some (now + manager.policy.lockoutDuration)
        else attempt.lockedUntil
      (⟨state.attempts.insert clientKey ⟨failures, lockedUntil⟩, sessions⟩,
        .error .invalidCredentials)

/-- `AdminSessionManager::authenticate`. -/
def authenticate (state : SessionState) (sessionToken : String) (csrfToken : Option String)
    (requireCsrf : Bool) (now : DateTime) : SessionState × Except AdminAuthError Unit :=
  let tokenDigest := manager.digest sessionToken
  match state.sessions[tokenDigest]? with
  | none => (state, .error .invalidSession)
  | some session =>
      if manager.expired now session then
        ({ state with sessions := state.sessions.erase tokenDigest }, .error .invalidSession)
      else if requireCsrf ∧ manager.digest (csrfToken.getD "") ≠ session.csrfDigest then
        (state, .error .invalidCsrf)
      else
        ({ state with
            sessions := state.sessions.insert tokenDigest { session with lastSeenAt := now } },
          .ok ())

/-- `AdminSessionManager::logout`. -/
def logout (state : SessionState) (sessionToken : String) : SessionState :=
  { state with sessions := state.sessions.erase (manager.digest sessionToken) }

/-- What `issue_csrf` does under its second lock. -/
def storeCsrf [Sealing] (state : SessionState) (sessionToken : String) (csrfToken : TokenBytes) :
    SessionState × Except AdminAuthError String :=
  let sessionDigest := manager.digest sessionToken
  match state.sessions[sessionDigest]? with
  | none => (state, .error .invalidSession)
  | some session =>
      let session := { session with csrfDigest := manager.digest (randomToken csrfToken) }
      ({ state with sessions := state.sessions.insert sessionDigest session },
        .ok (randomToken csrfToken))

omit [Digests] in
/-- `AdminSessionManager::active_session_count`. -/
def activeSessionCount (state : SessionState) (now : DateTime) : SessionState × ℕ :=
  let sessions := state.sessions.filter fun _ session => manager.retained now session
  ({ state with sessions := sessions }, sessions.size)

end AdminSessionManager

/-! ## Under the lock -/

/-- What is done under one hold of the lock. -/
inductive Section where
  | login (username password clientKey : String) (token csrfToken : TokenBytes) (now : DateTime)
  | authenticate (sessionToken : String) (csrfToken : Option String) (requireCsrf : Bool)
      (now : DateTime)
  | storeCsrf (sessionToken : String) (csrfToken : TokenBytes)
  | logout (sessionToken : String)
  | activeSessionCount (now : DateTime)
deriving DecidableEq

namespace Section

/-- What a section answers. -/
@[reducible] def Resp : Section → Type
  | login .. => Except AdminAuthError SessionGrant
  | authenticate .. => Except AdminAuthError Unit
  | storeCsrf .. => Except AdminAuthError String
  | logout _ => Unit
  | activeSessionCount _ => ℕ

/-- The time a section is given. -/
def time? : Section → Option DateTime
  | login _ _ _ _ _ now => some now
  | authenticate _ _ _ now => some now
  | storeCsrf .. => none
  | logout _ => none
  | activeSessionCount now => some now

end Section

variable [Digests] [Argon2] [Sealing]

/-- The manager behind its lock. -/
def AdminSessionManager.exec (manager : AdminSessionManager) (state : SessionState) :
    (sec : Section) → SessionState × sec.Resp
  | .login username password clientKey token csrfToken now =>
      manager.login state username password clientKey token csrfToken now
  | .authenticate sessionToken csrfToken requireCsrf now =>
      manager.authenticate state sessionToken csrfToken requireCsrf now
  | .storeCsrf sessionToken csrfToken => manager.storeCsrf state sessionToken csrfToken
  | .logout sessionToken => (manager.logout state sessionToken, ())
  | .activeSessionCount now => manager.activeSessionCount state now

/-! ## Calls -/

/-- A call of a method. -/
inductive Call where
  | login (username password clientKey : String) (token csrfToken : TokenBytes) (now : DateTime)
  | authenticate (sessionToken : String) (csrfToken : Option String) (requireCsrf : Bool)
      (now : DateTime)
  | issueCsrf (sessionToken : String) (csrfToken : TokenBytes) (now : DateTime)
  | logout (sessionToken : String)
  | activeSessionCount (now : DateTime)

/-- What a call returns. -/
inductive Returned where
  | login (result : Except AdminAuthError SessionGrant)
  | authenticate (result : Except AdminAuthError Unit)
  | issueCsrf (result : Except AdminAuthError String)
  | logout
  | activeSessionCount (count : ℕ)

/-- `AdminSessionManager::issue_csrf`, with the token drawn. -/
def issueCsrf (sessionToken : String) (csrfToken : TokenBytes) (now : DateTime) :
    Prog Section Section.Resp (Except AdminAuthError String) := do
  match ← Prog.op (Section.authenticate sessionToken none false now) with
  | .error error => pure (.error error)
  | .ok () => Prog.op (Section.storeCsrf sessionToken csrfToken)

/-- The sections of a call. -/
def Call.prog : Call → Prog Section Section.Resp Returned
  | login username password clientKey token csrfToken now => do
      return .login (← Prog.op (.login username password clientKey token csrfToken now))
  | authenticate sessionToken csrfToken requireCsrf now => do
      return .authenticate (← Prog.op (.authenticate sessionToken csrfToken requireCsrf now))
  | issueCsrf sessionToken csrfToken now => do
      return .issueCsrf (← Sessions.issueCsrf sessionToken csrfToken now)
  | logout sessionToken => do
      let _ ← Prog.op (.logout sessionToken)
      return .logout
  | activeSessionCount now => do
      return .activeSessionCount (← Prog.op (.activeSessionCount now))

/-- A new manager, and calls that come to it. -/
def start {ι : Type} (calls : ι → Call) : Pool ι SessionState Section Section.Resp Returned :=
  ⟨.default, fun i => (calls i).prog⟩

/-- A section that was carried out, and its answer. -/
abbrev Entry := (sec : Section) × sec.Resp

/-- What is carried out under a schedule of the calls. -/
def AdminSessionManager.historyOf {ι : Type} [DecidableEq ι] (manager : AdminSessionManager)
    (calls : ι → Call) (schedule : List ι) : List Entry :=
  (start calls).history manager.exec schedule

/-- The state it leads to. -/
def AdminSessionManager.stateAfter {ι : Type} [DecidableEq ι] (manager : AdminSessionManager)
    (calls : ι → Call) (schedule : List ι) : SessionState :=
  (Run.final (Pool.turn manager.exec) (start calls) schedule).shared

/-- The times a history was given. -/
def times (history : List Entry) : List DateTime := history.filterMap fun entry => entry.1.time?

/-- A manager whose administrator is `admin`. -/
def admin : AdminSessionManager :=
  ⟨"admin", ⟨"correct horse"⟩, Vector.replicate 32 0, .default⟩

end Sessions

end Llmap
