import McManager.Domain.Exceptions
import McManager.Framework.Interleaving
import McManager.Store.Effects

namespace McManager.Access

/-- Epoch time: whole seconds, and whether some of the next one has passed. -/
structure Moment where
  seconds : Nat
  beyond : Bool
  deriving DecidableEq, Repr

/-- `now < seconds`. -/
def Moment.before (now : Moment) (seconds : Nat) : Bool := now.seconds < seconds

/-- `seconds < now`. -/
def Moment.after (now : Moment) (seconds : Nat) : Bool :=
  seconds < now.seconds || seconds == now.seconds && now.beyond

inductive UserStatus
  | active | disabled | locked
  deriving DecidableEq, Repr

/-- `users`. -/
structure User where
  userId : String
  username : String
  displayName : Option String := none
  secretId : String
  status : UserStatus := .active
  failedLoginCount : Nat := 0
  lockedUntil : Option Nat := none
  deletedAt : Option Nat := none
  deletedBy : Option String := none
  updatedAt : Nat := 0
  deriving DecidableEq, Repr

def User.live (u : User) : Bool := u.deletedAt.isNone

/-- `roles`. -/
structure Role where
  roleId : String
  name : String
  deletedAt : Option Nat := none
  deriving DecidableEq, Repr

/-- `role_assignments`. -/
structure RoleAssignment where
  userId : String
  roleId : String
  deletedAt : Option Nat := none
  deletedBy : Option String := none
  assignmentId : String := ""
  deriving DecidableEq, Repr

def RoleAssignment.live (a : RoleAssignment) : Bool := a.deletedAt.isNone

/-- `manager`. -/
structure Manager where
  deployedVersion : String
  setupCompleted : Bool
  updatedAt : Nat
  deriving DecidableEq, Repr

inductive DeviceStatus
  | unrecognized | registered
  deriving DecidableEq, Repr

/-- `devices`. `approved` tells that the device has been approved since it was last revoked; the
code does not store it. -/
structure Device where
  deviceId : String
  deviceName : String
  ipAddress : String
  lastSeenAt : Nat
  status : DeviceStatus := .unrecognized
  deletedAt : Option Nat := none
  deletedBy : Option String := none
  approved : Bool := false
  deriving DecidableEq, Repr

def Device.live (d : Device) : Bool := d.deletedAt.isNone

/-- `client_sessions`. `verified` is the secret the password behind the session was verified
against, if it was; the code does not store it. -/
structure ClientSession where
  sessionId : String
  userId : String
  deviceId : Option String
  ipAddress : String
  expiresAt : Nat
  stepUpConfirmedAt : Option Nat
  lastActivityAt : Nat
  deletedAt : Option Nat
  deletedBy : Option String
  createdAt : Nat
  verified : Option String
  deriving DecidableEq, Repr

def ClientSession.live (s : ClientSession) : Bool := s.deletedAt.isNone

inductive SecretType
  | userPassword | rconCredential | syncCredential | sessionSigning
  deriving DecidableEq, Repr

/-- `secrets`. -/
structure Secret where
  secretId : String
  secretType : SecretType
  encryptedValue : String
  associatedEntityType : String
  associatedEntityId : String
  rotationOf : Option String := none
  createdAt : Nat
  rotatedAt : Option Nat := none
  deriving DecidableEq, Repr

/-- `audit_records`. -/
structure AuditRecord where
  auditId : String
  eventType : String
  actorUserId : Option String
  actorUsername : Option String
  deriving DecidableEq, Repr

/-- The tables behind users and sessions. `history` are the secrets made some user's password,
the last one at the end, and `changes` the users and secrets of the password changes that have
ended the user's sessions; no service reads these two. -/
structure Database where
  users : List User := []
  roles : List Role := []
  assignments : List RoleAssignment := []
  devices : List Device := []
  clientSessions : List ClientSession := []
  secrets : List Secret := []
  audits : List AuditRecord := []
  history : List String := []
  changes : List (String × String) := []
  manager : Option Manager := none
  deriving DecidableEq, Repr

/-- The columns of a user `update_user` sets. -/
structure UserFields where
  username : Option String := none
  displayName : Option (Option String) := none
  status : Option UserStatus := none
  deriving DecidableEq, Repr

/-- The columns of a device `update_device` sets. -/
structure DeviceFields where
  deviceName : Option String := none
  status : Option DeviceStatus := none
  deriving DecidableEq, Repr

inductive Exn
  | external (fault : Fault)
  | nestedTransaction
  | integrity (constraint : String)
  | invalidCredentials (text : String)
  | userLocked (text : String)
  | userDisabled (text : String)
  | session (text : String)
  | authentication (text : String)
  | stepUpRequired (text : String)
  | secrets (text : String)
  | typeError (text : String)
  deriving DecidableEq, Repr

/-- `str(exc)`. -/
def Exn.text : Exn → String
  | .external f => f.text
  | .nestedTransaction => "cannot start a transaction within a transaction"
  | .integrity c => c
  | .invalidCredentials t => t
  | .userLocked t => t
  | .userDisabled t => t
  | .session t => t
  | .authentication t => t
  | .stepUpRequired t => t
  | .secrets t => t
  | .typeError t => t

/-- The statements on these tables. `changed` is the secret of the password change that ends
the sessions, if it is one. -/
inductive Stmt
  | insertAudit (row : AuditRecord)
  | resetFailures (userId : String) (now : Nat)
  | registerFailure (userId : String) (count : Nat) (lockedUntil : Option Nat) (now : Nat)
  | upsertDevice (row : Device)
  | insertSession (row : ClientSession)
  | revokeSession (sessionId : String) (deletedAt lastActivityAt : Nat)
  | confirmSession (sessionId : String) (confirmedAt : Nat)
  | insertSecret (row : Secret)
  | markRotated (secretId : String) (now : Nat)
  | setRotationOf (secretId rotationOf : String)
  | setSecret (userId secretId : String) (now : Nat)
  | revokeSessions (userId : String) (now : Nat) (deletedBy : String) (changed : Option String)
  | updateUser (userId : String) (fields : UserFields) (now : Nat)
  | deleteUser (userId : String) (now : Nat) (deletedBy : String)
  | revokeAssignments (userId : String) (now : Nat) (deletedBy : String)
  | updateDevice (deviceId : String) (fields : DeviceFields)
  | revokeDevice (deviceId : String) (now : Nat) (deletedBy : String)
  | revokeDeviceSessions (deviceId : String) (now : Nat) (deletedBy : String)
  | insertUser (row : User)
  | insertRole (row : Role)
  | insertAssignment (assignmentId userId : String) (roleId : Option String)
  | completeSetup (now : Nat)
  deriving DecidableEq, Repr

namespace Database

def user? (db : Database) (userId : String) : Option User :=
  db.users.find? (·.userId == userId)

def hasUser (db : Database) (userId : String) : Bool := db.users.any (·.userId == userId)

def hasSecret (db : Database) (secretId : String) : Bool :=
  db.secrets.any (·.secretId == secretId)

/-- `_role_id`. -/
def roleId? (db : Database) (name : String) : Option String :=
  (db.roles.find? fun r => r.name == name && r.deletedAt.isNone).map Role.roleId

/-- `ux_users_username_live`. -/
def namesUnique (users : List User) : Bool :=
  decide ((users.filter User.live).map User.username).Nodup

end Database

def UserFields.set (fields : UserFields) (u : User) : User :=
  { u with
    username := fields.username.getD u.username
    displayName := fields.displayName.getD u.displayName
    status := fields.status.getD u.status }

def DeviceFields.set (fields : DeviceFields) (d : Device) : Device :=
  { d with
    deviceName := fields.deviceName.getD d.deviceName
    status := fields.status.getD d.status
    approved := d.approved || fields.status == some .registered }

def constrained (constraints : List (Bool × String)) (db : Database) (rows : Nat) :
    Except Exn (Database × Nat) :=
  match constraints.find? (!·.1) with
  | some (_, text) => .error (.integrity text)
  | none => .ok (db, rows)

def Stmt.apply (db : Database) : Stmt → Except Exn (Database × Nat)
  | .insertAudit row =>
    constrained [(!db.audits.any (·.auditId == row.auditId), uniqueKey "audit_records.audit_id")]
      { db with audits := db.audits ++ [row] } 1
  | .resetFailures userId now =>
    let p := fun u : User => u.userId == userId
    .ok ({ db with
      users := updateWhere p
        (fun u => { u with
          failedLoginCount := 0, lockedUntil := none
          status := if u.status = .locked then .active else u.status, updatedAt := now })
        db.users }, db.users.countP p)
  | .registerFailure userId count lockedUntil now =>
    let p := fun u : User => u.userId == userId
    .ok ({ db with
      users := updateWhere p
        (fun u => { u with
          failedLoginCount := count, lockedUntil
          status := if lockedUntil.isSome then .locked else .active, updatedAt := now })
        db.users }, db.users.countP p)
  | .upsertDevice row =>
    let p := fun d : Device => d.deviceId == row.deviceId
    .ok (if db.devices.any p then
      { db with
        devices := updateWhere p (fun d => { d with lastSeenAt := row.lastSeenAt }) db.devices }
    else { db with devices := db.devices ++ [row] }, 1)
  | .insertSession row =>
    constrained
      [(!db.clientSessions.any (·.sessionId == row.sessionId),
          uniqueKey "client_sessions.session_id"),
        (db.hasUser row.userId, foreignKey),
        (references row.deviceId fun d => db.devices.any (·.deviceId == d), foreignKey)]
      { db with clientSessions := db.clientSessions ++ [row] } 1
  | .revokeSession sessionId deletedAt lastActivityAt =>
    let p := fun s : ClientSession => s.sessionId == sessionId
    .ok ({ db with
      clientSessions := updateWhere p
        (fun s => { s with
          deletedAt := some deletedAt, deletedBy := some "system", lastActivityAt })
        db.clientSessions }, db.clientSessions.countP p)
  | .confirmSession sessionId confirmedAt =>
    let p := fun s : ClientSession => s.sessionId == sessionId
    .ok ({ db with
      clientSessions := updateWhere p (fun s => { s with stepUpConfirmedAt := some confirmedAt })
        db.clientSessions }, db.clientSessions.countP p)
  | .insertSecret row =>
    constrained [(!db.hasSecret row.secretId, uniqueKey "secrets.secret_id")]
      { db with secrets := db.secrets ++ [row] } 1
  | .markRotated secretId now =>
    let p := fun s : Secret => s.secretId == secretId
    .ok ({ db with secrets := updateWhere p (fun s => { s with rotatedAt := some now }) db.secrets },
      db.secrets.countP p)
  | .setRotationOf secretId rotationOf =>
    let p := fun s : Secret => s.secretId == secretId
    constrained [(!db.secrets.any p || db.hasSecret rotationOf, foreignKey)]
      { db with secrets := updateWhere p (fun s => { s with rotationOf }) db.secrets }
      (db.secrets.countP p)
  | .setSecret userId secretId now =>
    let p := fun u : User => u.userId == userId
    constrained [(!db.users.any p || db.hasSecret secretId, foreignKey)]
      { db with
        users := updateWhere p (fun u => { u with secretId, updatedAt := now }) db.users
        history := db.history ++ [secretId] }
      (db.users.countP p)
  | .revokeSessions userId now deletedBy changed =>
    let p := fun s : ClientSession => s.userId == userId && s.live
    .ok ({ db with
      clientSessions := updateWhere p
        (fun s => { s with deletedAt := some now, deletedBy := some deletedBy }) db.clientSessions
      changes := db.changes ++ (changed.map (userId, ·)).toList }, db.clientSessions.countP p)
  | .updateUser userId fields now =>
    let p := fun u : User => u.userId == userId
    let users := updateWhere p (fun u => { fields.set u with updatedAt := now }) db.users
    constrained [(Database.namesUnique users, uniqueKey "users.username")] { db with users }
      (db.users.countP p)
  | .deleteUser userId now deletedBy =>
    let p := fun u : User => u.userId == userId
    .ok ({ db with
      users := updateWhere p
        (fun u => { u with
          deletedAt := some now, deletedBy := some deletedBy, updatedAt := now }) db.users },
      db.users.countP p)
  | .revokeAssignments userId now deletedBy =>
    let p := fun a : RoleAssignment => a.userId == userId && a.deletedAt.isNone
    .ok ({ db with
      assignments := updateWhere p
        (fun a => { a with deletedAt := some now, deletedBy := some deletedBy }) db.assignments },
      db.assignments.countP p)
  | .updateDevice deviceId fields =>
    let p := fun d : Device => d.deviceId == deviceId
    .ok ({ db with devices := updateWhere p fields.set db.devices }, db.devices.countP p)
  | .revokeDevice deviceId now deletedBy =>
    let p := fun d : Device => d.deviceId == deviceId
    .ok ({ db with
      devices := updateWhere p
        (fun d => { d with
          deletedAt := some now, deletedBy := some deletedBy, approved := false }) db.devices },
      db.devices.countP p)
  | .revokeDeviceSessions deviceId now deletedBy =>
    let p := fun s : ClientSession => s.deviceId == some deviceId && s.live
    .ok ({ db with
      clientSessions := updateWhere p
        (fun s => { s with deletedAt := some now, deletedBy := some deletedBy })
        db.clientSessions }, db.clientSessions.countP p)
  | .insertUser row =>
    constrained
      [(!db.hasUser row.userId, uniqueKey "users.user_id"),
        (Database.namesUnique (db.users ++ [row]), uniqueKey "users.username"),
        (db.hasSecret row.secretId, foreignKey)]
      { db with users := db.users ++ [row] } 1
  | .insertRole row =>
    constrained
      [(!db.roles.any (·.roleId == row.roleId), uniqueKey "roles.role_id"),
        (!db.roles.any (fun r => r.name == row.name && r.deletedAt.isNone),
          uniqueKey "roles.name")]
      { db with roles := db.roles ++ [row] } 1
  | .insertAssignment assignmentId userId roleId =>
    match roleId with
    | none => .error (.integrity "NOT NULL constraint failed: role_assignments.role_id")
    | some roleId =>
      constrained
        [(!db.assignments.any (·.assignmentId == assignmentId),
            uniqueKey "role_assignments.assignment_id"),
          (!db.assignments.any (fun a => a.userId == userId && a.roleId == roleId && a.live),
            uniqueKey "role_assignments.user_id, role_assignments.role_id"),
          (db.hasUser userId, foreignKey),
          (db.roles.any (·.roleId == roleId), foreignKey)]
        { db with assignments := db.assignments ++ [{ userId, roleId, assignmentId }] } 1
  | .completeSetup now =>
    .ok ({ db with
      manager := some (match db.manager with
        | some row => { row with setupCompleted := true, updatedAt := now }
        | none => ⟨"unknown", true, now⟩) }, 1)

instance : Framework.Store Stmt Database Exn Fault where
  apply s db := s.apply db
  nested := .nestedTransaction
  external := .external

theorem constrained_ok {constraints : List (Bool × String)} {db db' : Database} {n n' : Nat} :
    constrained constraints db n = .ok (db', n') ↔
      (∀ c ∈ constraints, c.1 = true) ∧ db' = db ∧ n' = n := by
  unfold constrained
  cases h : constraints.find? (!·.1) with
  | none =>
    have hall : ∀ c ∈ constraints, c.1 = true := by simpa using List.find?_eq_none.mp h
    simp only [Except.ok.injEq, Prod.mk.injEq]
    exact ⟨fun e => ⟨hall, e.1.symm, e.2.symm⟩, fun e => ⟨e.2.1.symm, e.2.2.symm⟩⟩
  | some c =>
    have hbad : c.1 = false := by simpa using List.find?_some h
    have hmem := List.mem_of_find?_eq_some h
    simp only [reduceCtorEq, false_iff, not_and]
    intro hall
    rw [hall c hmem] at hbad
    cases hbad

/-- What the services ask of clock, token generator, hasher and cipher. -/
inductive Query
  | now
  | uuid (kind : String)
  | token
  | hash (password : String)
  | verify (stored password : String)
  | encrypt (plaintext : String)
  | decrypt (value : String)
  deriving DecidableEq, Repr

@[reducible] def Answer : Query → Type
  | .now => Moment
  | .uuid _ => String
  | .token => String
  | .hash _ => String
  | .verify _ _ => Bool
  | .encrypt _ => String
  | .decrypt _ => String

/-- The places of the source that touch the database. -/
inductive Site
  | loginRow | secretRow | snapshot | audit | register | reset
  | device | openSession | sessionRow | revoke | stepUp
  | storeSecret | rotate | changePassword
  | target | superadmins | updateUser | deleteUser
  | liveUsers | role
  | deviceRow | updateDevice
  | firstUser | provision | completeSetup
  deriving DecidableEq, Repr

abbrev Command := Framework.Cmd Site Stmt Query

abbrev Prog := Framework.Program Command (Framework.Cmd.Reply Database Answer) Exn

abbrev Block := Framework.Body Stmt Database Exn

abbrev AccessSystem := Framework.System Site Stmt Query Answer Database Exn

abbrev AccessMove := Framework.Move Site Stmt Query Fault Answer Database Exn

/-- A hasher that keeps passwords as they are, a cipher that does nothing, and one id. -/
def Query.smooth (id : String) : (q : Query) → Answer q
  | .now => (⟨0, false⟩ : Moment)
  | .uuid kind => kind ++ id
  | .token => id
  | .hash password => password
  | .verify stored password => stored == password
  | .encrypt plaintext => plaintext
  | .decrypt value => value

/-- No command fails. -/
def smooth (id : String) : (m : Command) → m.Outcome Fault Answer
  | .ask q => .ok (q.smooth id)
  | .draw q => q.smooth id
  | .begin _ => none
  | .execute _ _ => none
  | .select _ => none
  | .commit _ => none
  | .rollback => none
  | .read _ => none

def ask (q : Query) : Prog (Answer q) := Framework.ask q

def read {α : Type} (t : Site) (f : Database → α) : Prog α := Framework.readCommitted t f

def draw (q : Query) : Prog (Answer q) := Framework.draw q

def now : Prog Moment := draw .now

def uuid (kind : String) : Prog String := draw (.uuid kind)

end McManager.Access
