import McManager.Access.Schema

namespace McManager.Access

open Framework

def maxFailedLogins : Nat := 5

def lockoutSeconds : Nat := 15 * 60

def sessionIdleSeconds : Nat := 7 * 24 * 3600

def stepUpWindow : Nat := 600

/-- `AuthenticationService`; `hashToken` is what is stored of a token. -/
structure AuthenticationService where
  hashToken : String → String

/-- What a request tells of where it comes from. -/
structure Origin where
  deviceId : Option String
  deviceName : Option String
  ip : String
  deriving DecidableEq, Repr

/-- An issued client session. -/
structure Issued where
  userId : String
  token : String
  expiresAt : Nat
  stepUpConfirmedAt : Option Nat
  createdAt : Nat
  deriving DecidableEq, Repr

/-- The columns of an actor snapshot that are looked up. -/
structure Actor where
  userId : Option String := none
  username : Option String := none

/-- `snapshot_for_user`. -/
def snapshotForUser (userId : String) : Prog Actor :=
  read .snapshot fun db =>
    { userId := some userId, username := (db.user? userId).map User.username }

/-- `AuditService.write`. -/
def audit (eventType : String) (actor : Actor) : Prog Unit := do
  let auditId ← uuid "au"
  let _ ← now
  autocommit .audit (Body.write
    (.insertAudit ⟨auditId, eventType, actor.userId, actor.username⟩))

namespace Secrets

/-- `SqliteSecretsStore.store`. -/
def store (secretType : SecretType) (entityType entityId plaintext : String) : Prog String := do
  let secretId ← uuid "sec"
  let token ← ask (.encrypt plaintext)
  let at' ← now
  autocommit .storeSecret (Body.write (.insertSecret {
    secretId, secretType, encryptedValue := token, associatedEntityType := entityType
    associatedEntityId := entityId, createdAt := at'.seconds }))
  pure secretId

/-- `SqliteSecretsStore.read`. -/
def read (secretId : String) : Prog String := do
  let row ← Access.read .secretRow fun db => db.secrets.find? (·.secretId == secretId)
  match row with
  | none => throw (.secrets ("secret not found: " ++ secretId))
  | some row =>
    (ask (.decrypt row.encryptedValue)).handle fun _ =>
      throw (.secrets ("cannot decrypt secret " ++ secretId))

/-- `SqliteSecretsStore.rotate`. -/
def rotate (secretId plaintext entityType entityId : String) : Prog String := do
  let row ← selectWriter .rotate fun db : Database =>
    db.secrets.find? (·.secretId == secretId)
  match row with
  | none => throw (.secrets ("secret not found: " ++ secretId))
  | some row => do
    let at' ← now
    autocommit .rotate (Body.write (.markRotated secretId at'.seconds))
    let newId ← store row.secretType entityType entityId plaintext
    autocommit .rotate (Body.write (.setRotationOf newId secretId))
    pure newId

end Secrets

namespace Authentication

/-- `_password_secret`. -/
def passwordSecret (userId : String) : Prog String := do
  let row ← read .secretRow (·.user? userId)
  match row with
  | none => throw (.invalidCredentials "unknown user")
  | some row => pure row.secretId

/-- `_verify_password`, with the secret the password was verified against. -/
def verifyPassword (userId password : String) : Prog (Bool × String) := do
  let secretId ← passwordSecret userId
  let stored ← Secrets.read secretId
  let valid ← ask (.verify stored password)
  pure (valid, secretId)

/-- `_register_failure`. -/
def registerFailure (userId : String) (previousCount : Nat) (actor : Actor) : Prog Unit := do
  let count := previousCount + 1
  let at' ← now
  let lockedUntil := if maxFailedLogins ≤ count then some (at'.seconds + lockoutSeconds) else none
  autocommit .register (Body.write (.registerFailure userId count lockedUntil at'.seconds))
  if lockedUntil.isSome then audit "user_login_locked" actor else pure ()

/-- `_ensure_device`. -/
def ensureDevice (origin : Origin) : Prog Unit :=
  match origin.deviceId with
  | none => pure ()
  | some deviceId => do
    let at' ← now
    autocommit .device (Body.write (.upsertDevice {
      deviceId, deviceName := (origin.deviceName.filter (· ≠ "")).getD deviceId
      ipAddress := origin.ip, lastSeenAt := at'.seconds }))

/-- `issue_session`, for a password that was verified against `verified` if it was. -/
def issueSession (svc : AuthenticationService) (userId : String) (origin : Origin)
    (verified : Option String := none) : Prog Issued := do
  ensureDevice origin
  let at' ← now
  let token ← draw .token
  let session : Issued := {
    userId, token, expiresAt := at'.seconds + sessionIdleSeconds, stepUpConfirmedAt := none
    createdAt := at'.seconds }
  autocommit .openSession (Body.write (.insertSession {
    sessionId := svc.hashToken token, userId, deviceId := origin.deviceId, ipAddress := origin.ip
    expiresAt := session.expiresAt, stepUpConfirmedAt := none, lastActivityAt := at'.seconds
    deletedAt := none, deletedBy := none, createdAt := at'.seconds, verified }))
  let actor ← snapshotForUser userId
  audit "session_issued" actor
  pure session

/-- The lock check of `authenticate`. -/
def lockedOut (row : User) (now : Moment) : Bool :=
  row.status == .locked && (row.lockedUntil.filter (· ≠ 0)).any fun until' => now.before until'

/-- `provision_first_superadmin`. The id of the role is drawn whether or not it is missing. -/
def provisionFirstSuperadmin (username password : String) : Prog String := do
  let active ← read .firstUser fun db => db.users.countP User.live
  if 0 < active then throw (.authentication "users already exist; first-superadmin path closed")
  else do
    let at' ← now
    let userId ← uuid "u"
    let hashed ← ask (.hash password)
    let secretId ← Secrets.store .userPassword "user" userId hashed
    let newRoleId ← uuid "r"
    let assignmentId ← uuid "ra"
    autocommit .provision (do
      Body.write (.insertUser { userId, username, secretId, updatedAt := at'.seconds })
      let known ← Body.query (·.roleId? "Superadmin")
      match known with
      | none => Body.write (.insertRole { roleId := newRoleId, name := "Superadmin" })
      | some _ => pure ()
      let roleId ← Body.query (·.roleId? "Superadmin")
      Body.write (.insertAssignment assignmentId userId roleId))
    let actor ← snapshotForUser userId
    audit "user_created" actor
    pure userId

/-- `authenticate`. -/
def authenticate (svc : AuthenticationService) (username password : String) (origin : Origin) :
    Prog Issued := do
  let at' ← now
  let row ← read .loginRow fun db => db.users.find? fun u => u.username == username && u.live
  match row with
  | none => do
    audit "user_login_failed" {}
    throw (.invalidCredentials "invalid credentials")
  | some row => do
    let actor ← snapshotForUser row.userId
    if lockedOut row at' then do
      audit "user_login_locked" actor
      throw (.userLocked "account locked; try again later")
    else if row.status = .disabled then do
      audit "user_login_failed" actor
      throw (.userDisabled "account disabled")
    else do
      let (valid, secretId) ← verifyPassword row.userId password
      if !valid then do
        registerFailure row.userId row.failedLoginCount actor
        audit "user_login_failed" actor
        throw (.invalidCredentials "invalid credentials")
      else do
        autocommit .reset (Body.write (.resetFailures row.userId at'.seconds))
        audit "user_login_success" actor
        issueSession svc row.userId origin (some secretId)

/-- `revoke_session_id`. -/
def revokeSessionId (sessionId : String) : Prog Unit := do
  let row ← selectWriter .revoke fun db : Database =>
    db.clientSessions.find? (·.sessionId == sessionId)
  match row with
  | none => pure ()
  | some _ => do
    let deletedAt ← now
    let lastActivityAt ← now
    autocommit .revoke (Body.write
      (.revokeSession sessionId deletedAt.seconds lastActivityAt.seconds))
    audit "session_revoked" {}

/-- `validate_session`. -/
def validateSession (svc : AuthenticationService) (rawToken : String) : Prog Issued := do
  let sessionId := svc.hashToken rawToken
  let row ← read .sessionRow fun db =>
    (db.clientSessions.find? (·.sessionId == sessionId)).filter ClientSession.live
  match row with
  | none => throw (.session "session revoked or unknown")
  | some row => do
    let at' ← now
    if at'.after row.expiresAt then do
      revokeSessionId sessionId
      throw (.session "session expired")
    else pure {
      userId := row.userId, token := rawToken, expiresAt := row.expiresAt
      stepUpConfirmedAt := row.stepUpConfirmedAt, createdAt := row.createdAt }

/-- `require_step_up`. -/
def requireStepUp (session : Issued) : Prog Unit :=
  match session.stepUpConfirmedAt with
  | none => throw (.stepUpRequired "step-up not confirmed")
  | some confirmed => do
    let at' ← now
    if at'.after (confirmed + stepUpWindow) then
      throw (.stepUpRequired "step-up window expired")
    else pure ()

/-- `confirm_step_up`. -/
def confirmStepUp (svc : AuthenticationService) (rawToken password : String) (origin : Origin) :
    Prog Issued := do
  let current ← validateSession svc rawToken
  let (valid, secretId) ← verifyPassword current.userId password
  if !valid then do
    let actor ← snapshotForUser current.userId
    audit "user_login_failed" actor
    throw (.invalidCredentials "step-up password rejected")
  else do
    revokeSessionId (svc.hashToken current.token)
    let session ← issueSession svc current.userId origin (some secretId)
    let confirmedAt ← now
    autocommit .stepUp (Body.write
      (.confirmSession (svc.hashToken session.token) confirmedAt.seconds))
    let actor ← snapshotForUser current.userId
    audit "step_up_confirmed" actor
    pure { session with stepUpConfirmedAt := some confirmedAt.seconds }

/-- `change_password`. -/
def changePassword (userId newPassword byUserId : String) : Prog Unit := do
  let at' ← now
  let secretId ← passwordSecret userId
  let hashed ← ask (.hash newPassword)
  let newSecret ← Secrets.rotate secretId hashed "user" userId
  autocommit .changePassword (do
    Body.write (.setSecret userId newSecret at'.seconds)
    Body.write (.revokeSessions userId at'.seconds byUserId (some newSecret)))
  let actor ← snapshotForUser byUserId
  audit "password_changed" actor

end Authentication

end McManager.Access
