import McManager.Domain.Lifecycle
import Mathlib.Data.List.Sort

namespace McManager

/-- The columns of a world an edit may set; an absent one is left as it is. -/
structure WorldFields where
  displayName : Option String := none
  javaRuntimeId : Option String := none
  launchArgs : Option String := none
  port : Option Int := none
  addressingStrategy : Option String := none
  addressingValue : Option String := none
  deriving DecidableEq, Repr

/-- A value of a column, as a statement binds it. No column holds a `document`, a list or an object
of JSON. -/
inductive Cell
  | null
  | integer (value : Int)
  | real (mantissa exponent : Int)
  | text (value : String)
  | document (json : String)
  deriving DecidableEq, Repr

/-- The columns of an edit with their values: those of a world, or those of any row. -/
inductive EditedFields
  | world (fields : WorldFields)
  | columns (cells : List (String × Cell))
  deriving DecidableEq, Repr

def EditedFields.world? : EditedFields → Option WorldFields
  | .world fields => some fields
  | .columns _ => none

theorem EditedFields.bind_world? {edited : Option EditedFields} {fields : WorldFields}
    (h : edited.bind EditedFields.world? = some fields) : edited = some (.world fields) := by
  obtain ⟨e, rfl, he⟩ := Option.bind_eq_some_iff.mp h
  cases e with
  | world f => exact congrArg (some ∘ EditedFields.world) (Option.some.inj he)
  | columns cells => cases he

/-- The world a CreateWorld request asks for: the columns the request chooses. -/
structure NewWorld where
  worldId : String
  displayName : String
  templateId : String
  serverType : String
  mcVersion : String
  javaRuntimeId : String
  port : Int
  addressingStrategy : String
  addressingValue : String
  launchArgs : Option String
  now : Int
  deriving DecidableEq, Repr

/-- `world_instances`. -/
structure World where
  worldId : String
  displayName : String
  templateId : String
  serverType : String
  mcVersion : String
  javaRuntimeId : String
  port : Int
  addressingStrategy : String
  addressingValue : String
  state : WorldState
  preBackupState : Option WorldState
  launchArgs : Option String
  metadataVersion : Int
  deletedAt : Option Int
  deletedBy : Option String
  createdAt : Int
  updatedAt : Int
  deriving DecidableEq, Repr

def NewWorld.row (w : NewWorld) : World where
  worldId := w.worldId
  displayName := w.displayName
  templateId := w.templateId
  serverType := w.serverType
  mcVersion := w.mcVersion
  javaRuntimeId := w.javaRuntimeId
  port := w.port
  addressingStrategy := w.addressingStrategy
  addressingValue := w.addressingValue
  state := .off
  preBackupState := none
  launchArgs := w.launchArgs
  metadataVersion := 1
  deletedAt := none
  deletedBy := none
  createdAt := w.now
  updatedAt := w.now

/-- The keys of `data_json` that a service reads or writes. -/
structure OperationData where
  scope : Option String := none
  artifactId : Option String := none
  worldAction : Option String := none
  world : Option NewWorld := none
  previewVersion : Option Int := none
  expectedVersion : Option Int := none
  before : Option EditedFields := none
  after : Option EditedFields := none
  queuedRuntimeConfig : Bool := false
  queuedFileEdit : Bool := false
  entity : Option String := none
  rowId : Option String := none
  worldId : Option String := none
  deleted : Bool := false
  sessionId : Option String := none
  scheduleId : Option String := none
  expectedRunAt : Option Int := none
  detectedAt : Option Int := none
  rollbackOfRestoreId : Option String := none
  sourceArtifactId : Option String := none
  mode : Option String := none
  targetCount : Option Nat := none
  targets : Option (List String) := none
  olderThanDays : Option Int := none
  keepPerCategory : Option Int := none
  previewFingerprint : Option String := none
  deletedCount : Option Nat := none
  syncTargetId : Option String := none
  syncId : Option String := none
  syncStatus : Option SyncRecordStatus := none
  deriving DecidableEq, Repr

/-- A milestone stored with an operation, or a tick of its progress. -/
structure Checkpoint where
  stage : Option String := none
  readiness : Option String := none
  sessionId : Option String := none
  graceful : Option Bool := none
  progressPct : Option Int := none
  step : Option String := none
  ts : Option Int := none
  deriving DecidableEq, Repr

/-- `operations`. -/
structure Operation where
  opId : String
  opType : OperationType
  worldId : Option String
  actorType : ActorType
  actorUserId : Option String
  idempotencyKey : Option String
  status : OperationStatus
  checkpoint : Option Checkpoint
  compensatesOperationId : Option String
  intentAt : Int
  startedAt : Option Int
  finishedAt : Option Int
  errorCode : Option String
  message : Option String
  data : Option OperationData
  createdAt : Int
  updatedAt : Int
  deriving DecidableEq, Repr

def Operation.inFlight (op : Operation) : Bool := op.status.inFlight

def Operation.terminal (op : Operation) : Bool := op.status.terminal

/-- The launch fingerprint stored with a session. -/
structure LaunchSnapshot where
  argv : List String
  pid : Nat
  spawnEpoch : Int
  cwd : String
  launchMarker : String
  deriving DecidableEq, Repr

/-- `runtime_sessions`. -/
structure RuntimeSession where
  sessionId : String
  worldId : String
  startedAt : Int
  endedAt : Option Int
  endReason : Option EndReason
  rconSecretId : Option String
  portUsed : Int
  javaRuntimeId : String
  launchArgsSnapshot : LaunchSnapshot
  rconPort : Option Int
  createdAt : Int
  deriving DecidableEq, Repr

def RuntimeSession.isOpen (s : RuntimeSession) : Bool := s.endedAt.isNone

/-- The event types of audit records; an operation reports the status it ended with. -/
inductive AuditEvent
  | operation (opType : OperationType) (status : OperationStatus)
  | worldEulaAccepted
  deriving DecidableEq, Repr

/-- `event_type` as the database stores it. -/
def AuditEvent.name : AuditEvent → String
  | .operation t s => "operation." ++ t.value.toLower ++ "." ++ s.value.toLower
  | .worldEulaAccepted => "world_eula_accepted"

inductive AuditPayload
  | operation (opType : OperationType) (status : OperationStatus) (errorCode message : Option String)
      (edit : Option (Option String × Option String × Option EditedFields × Option EditedFields))
  | accepted
  deriving DecidableEq, Repr

/-- `audit_records`. -/
structure AuditRecord where
  auditId : String
  eventType : AuditEvent
  actorType : ActorType
  actorUserId : Option String
  actorUsername : Option String
  operationId : Option String
  worldId : Option String
  payload : AuditPayload
  createdAt : Int
  deriving DecidableEq, Repr

/-- `notifications`. -/
structure Notification where
  notificationId : String
  category : String
  severity : NotificationSeverity
  message : String
  relatedOperationId : Option String
  relatedWorldId : Option String
  requiresAction : Bool
  createdAt : Int
  deriving DecidableEq, Repr

/-- `notification_reads`. -/
structure NotificationRead where
  notificationId : String
  userId : String
  readAt : Option Int
  dismissedAt : Option Int
  deriving DecidableEq, Repr

/-- `secrets`. -/
structure Secret where
  secretId : String
  secretType : String
  associatedEntityType : String
  associatedEntityId : String
  createdAt : Int
  deriving DecidableEq, Repr

/-- `users`. -/
structure User where
  userId : String
  username : String
  deriving DecidableEq, Repr

/-- `java_runtimes`. -/
structure JavaRuntime where
  runtimeId : String
  executablePath : String
  deriving DecidableEq, Repr

/-- `backup_artifacts`. -/
structure BackupArtifact where
  artifactId : String
  worldId : Option String
  category : String
  storagePath : String
  checksum : String
  suspect : Bool
  operationId : String
  deletedAt : Option Int := none
  deletedBy : Option String := none
  createdAt : Int
  sizeBytes : Int := 0
  deriving DecidableEq, Repr

def BackupArtifact.live (a : BackupArtifact) : Bool := a.deletedAt.isNone

/-- `sync_records`. -/
structure SyncRecord where
  syncId : String
  artifactId : String
  syncTargetId : String
  operationId : String
  status : SyncRecordStatus
  startedAt : Int
  finishedAt : Option Int
  createdAt : Int
  deriving DecidableEq, Repr

/-- `sync_attempts`. -/
structure SyncAttempt where
  attemptId : String
  syncId : String
  attemptNumber : Nat
  startedAt : Int
  finishedAt : Int
  outcome : SyncOutcome
  errorMessage : Option String
  createdAt : Int
  deriving DecidableEq, Repr

/-- `restore_history`. -/
structure RestoreRecord where
  restoreId : String
  worldId : String
  operationId : String
  sourceArtifactId : Option String
  preRestoreArtifactId : String
  operatorUserId : String
  outcome : String
  rollbackOfRestoreId : Option String
  startedAt : Int
  finishedAt : Option Int
  deriving DecidableEq, Repr

/-- `schedules`. -/
structure Schedule where
  scheduleId : String
  worldId : Option String
  scheduleType : String
  everyDays : Option Nat
  timeOfDay : Int
  enabled : Bool
  version : Int
  lastChangedAt : Int
  deletedAt : Option Int
  createdAt : Int
  deriving DecidableEq, Repr

/-- The columns of a schedule an edit may set. -/
structure ScheduleFields where
  worldId : Option (Option String) := none
  scheduleType : Option String := none
  everyDays : Option (Option Nat) := none
  timeOfDay : Option Int := none
  enabled : Option Bool := none
  lastChangedAt : Option Int := none
  deletedAt : Option Int := none
  deriving DecidableEq, Repr

/-- `missed_run_records`. -/
structure MissedRun where
  missedRunId : String
  scheduleId : String
  expectedRunAt : Int
  detectedAt : Int
  deriving DecidableEq, Repr

/-- The other tables of configuration rows with a version. -/
inductive VersionedTable
  | cleanupPolicies | globalSettings | worldSettings | templates | javaRuntimes | roles | syncTargets
  deriving DecidableEq, Repr

def VersionedTable.name : VersionedTable → String
  | cleanupPolicies => "cleanup_policies"
  | globalSettings => "global_settings"
  | worldSettings => "world_settings"
  | templates => "templates"
  | javaRuntimes => "java_runtimes"
  | roles => "roles"
  | syncTargets => "sync_targets"

def VersionedTable.key : VersionedTable → String
  | cleanupPolicies => "policy_id"
  | globalSettings => "settings_id"
  | worldSettings => "world_id"
  | templates => "template_id"
  | javaRuntimes => "runtime_id"
  | roles => "role_id"
  | syncTargets => "sync_target_id"

/-- The columns of a table beside its key and its version. -/
def VersionedTable.columns : VersionedTable → List String
  | cleanupPolicies =>
    ["scope", "world_id", "age_rule_days", "space_rule_pct", "count_rules", "schedule_id",
      "last_changed_by", "last_changed_at", "deleted_at", "deleted_by", "created_at"]
  | globalSettings =>
    ["timezone", "idle_countdown_seconds", "notification_defaults", "minecraft_root_path",
      "backup_root_path", "log_root_path", "offsite_sync_defaults", "updated_at", "updated_by"]
  | worldSettings =>
    ["minecraft_root_override", "backup_root_override", "log_root_override",
      "offsite_sync_override", "idle_countdown_override", "updated_at", "updated_by"]
  | templates =>
    ["name", "category", "default_version", "config_defaults", "source", "deprecated",
      "deleted_at", "deleted_by", "created_at", "updated_at"]
  | javaRuntimes =>
    ["label", "executable_path", "version_detected", "status", "deleted_at", "deleted_by",
      "created_at", "updated_at"]
  | roles =>
    ["name", "description", "is_system_role", "deleted_at", "deleted_by", "created_at",
      "updated_at"]
  | syncTargets =>
    ["scope", "world_id", "target_type", "config", "secret_id", "enabled", "deleted_at",
      "deleted_by", "created_at", "updated_at"]

/-- A row of one of these tables: its key, its version, and the other columns as texts. What the
services read of templates and Java runtimes is in lists of their own. -/
structure VersionedRow where
  table : VersionedTable
  rowId : String
  version : Int
  columns : List (String × String)
  deriving DecidableEq, Repr

/-- The tables, each in the order its rows were inserted. -/
structure Database where
  worlds : List World := []
  sessions : List RuntimeSession := []
  operations : List Operation := []
  audits : List AuditRecord := []
  notifications : List Notification := []
  reads : List NotificationRead := []
  secrets : List Secret := []
  users : List User := []
  javaRuntimes : List JavaRuntime := []
  templates : List String := []
  artifacts : List BackupArtifact := []
  restores : List RestoreRecord := []
  schedules : List Schedule := []
  missedRuns : List MissedRun := []
  versioned : List VersionedRow := []
  syncRecords : List SyncRecord := []
  syncAttempts : List SyncAttempt := []
  deriving DecidableEq, Repr

namespace Database

def world? (db : Database) (worldId : String) : Option World :=
  db.worlds.find? (·.worldId == worldId)

def operation? (db : Database) (opId : String) : Option Operation :=
  db.operations.find? (·.opId == opId)

def hasWorld (db : Database) (worldId : String) : Bool :=
  db.worlds.any (·.worldId == worldId)

def hasOperation (db : Database) (opId : String) : Bool :=
  db.operations.any (·.opId == opId)

def schedule? (db : Database) (scheduleId : String) : Option Schedule :=
  db.schedules.find? (·.scheduleId == scheduleId)

def versioned? (db : Database) (table : VersionedTable) (rowId : String) : Option VersionedRow :=
  db.versioned.find? fun r => r.table == table && r.rowId == rowId

def hasUser (db : Database) (userId : String) : Bool := db.users.any (·.userId == userId)

/-- `ORDER BY created_at ASC`, ties in the order of insertion. -/
def byCreatedAt (ops : List Operation) : List Operation :=
  ops.insertionSort fun a b => a.createdAt ≤ b.createdAt

/-- A database with the one world `w`. -/
def single (state : WorldState) : Database where
  worlds := [{
    worldId := "w", displayName := "w", templateId := "t", serverType := "vanilla",
    mcVersion := "1.20.1", javaRuntimeId := "j", port := 25565, addressingStrategy := "port",
    addressingValue := "25565", state, preBackupState := none, launchArgs := none,
    metadataVersion := 1, deletedAt := none, deletedBy := none, createdAt := 0, updatedAt := 0 }]
  users := [⟨"u", "u"⟩]
  javaRuntimes := [⟨"j", "java"⟩]
  templates := ["t"]

end Database

end McManager
