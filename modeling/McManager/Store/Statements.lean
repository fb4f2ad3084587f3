import McManager.Domain.Exceptions
import McManager.Framework.Connection
import McManager.Store.Schema

namespace McManager

/-- The data-modifying statements of the services, one for each SQL text. `intent` of
`setWorldState` is not part of the SQL: it is the intent the writer passed to the domain.
`violated` of `editRow` is the constraint of its table that the new values violate, if there is
one. `elsewhere` stands for the statements on tables and columns that are not modelled: it changes
no row here, and changes so many there or violates one of their constraints. -/
inductive Stmt
  | insertOperation (row : Operation)
  | claimOperation (opId : String) (now : Int)
  | cancelOperation (opId : String) (now : Int) (errorCode : String)
  | updateOperation (opId : String) (status : OperationStatus) (checkpoint : Option Checkpoint)
      (startedAt finishedAt : Option Int) (errorCode message : Option String)
      (data : Option OperationData) (now : Int)
  | setOperationWorld (opId worldId : String)
  | insertAudit (row : AuditRecord)
  | insertNotification (row : Notification)
  | markRead (notificationId userId : String) (now : Int)
  | dismiss (notificationId userId : String) (now : Int)
  | setWorldState (worldId : String) (state : WorldState) (preBackupState : Option WorldState)
      (now : Int) (intent : WorldTransitionIntent)
  | restoreWorldState (worldId : String) (state : WorldState) (now : Int)
  | insertWorld (row : World)
  | tombstoneWorld (worldId : String) (deletedBy : Option String) (now expectedVersion : Int)
  | updateRuntimeConfig (worldId : String) (after : WorldFields) (now expectedVersion : Int)
  | editWorld (worldId : String) (fields : WorldFields)
  | insertSession (row : RuntimeSession)
  | closeSessions (worldId : String) (now : Int) (reason : EndReason)
  | insertSecret (row : Secret)
  | insertArtifact (row : BackupArtifact)
  | flagSuspect (artifactId : String)
  | deleteArtifact (artifactId : String) (now : Int) (deletedBy : String)
  | insertRestore (row : RestoreRecord)
  | updateRestoreOutcome (restoreId outcome : String) (now : Int)
  | insertMissedRun (row : MissedRun)
  | insertSchedule (row : Schedule)
  | editSchedule (scheduleId : String) (fields : ScheduleFields)
  | insertSettings (worldId : String) (fields : List (String × String)) (now : Int)
      (updatedBy : String)
  | editRow (table : VersionedTable) (rowId : String) (fields : List (String × String))
      (violated : Option String)
  | insertUser (row : User)
  | insertRuntime (row : JavaRuntime)
  | insertTemplate (templateId : String)
  | insertSyncTarget (targetId secretId : String) (createdAt updatedAt : Int)
  | insertSyncRecord (row : SyncRecord)
  | finishSyncRecord (syncId : String) (status : SyncRecordStatus) (now : Int)
  | insertSyncAttempt (row : SyncAttempt)
  | elsewhere (table : String) (rows : Option Nat)
  deriving DecidableEq, Repr

/-- `UPDATE ... SET f WHERE p`. -/
def updateWhere {α : Type} (p : α → Bool) (f : α → α) (rows : List α) : List α :=
  rows.map fun row => if p row then f row else row

/-- A foreign key that may be null. -/
def references (key : Option String) (present : String → Bool) : Bool :=
  match key with
  | none => true
  | some k => present k

def World.live (w : World) : Bool := w.deletedAt.isNone

/-- `ux_world_instances_display_name_live` and `ux_world_instances_port_live`. -/
def liveUnique (worlds : List World) : Bool :=
  decide ((worlds.filter World.live).map World.displayName).Nodup &&
    decide ((worlds.filter World.live).map World.port).Nodup

def WorldFields.set (fields : WorldFields) (w : World) : World :=
  { w with
    displayName := fields.displayName.getD w.displayName
    javaRuntimeId := fields.javaRuntimeId.getD w.javaRuntimeId
    launchArgs := fields.launchArgs.or w.launchArgs
    port := fields.port.getD w.port
    addressingStrategy := fields.addressingStrategy.getD w.addressingStrategy
    addressingValue := fields.addressingValue.getD w.addressingValue }

def ScheduleFields.set (fields : ScheduleFields) (s : Schedule) : Schedule :=
  { s with
    worldId := fields.worldId.getD s.worldId
    scheduleType := fields.scheduleType.getD s.scheduleType
    everyDays := fields.everyDays.getD s.everyDays
    timeOfDay := fields.timeOfDay.getD s.timeOfDay
    enabled := fields.enabled.getD s.enabled
    lastChangedAt := fields.lastChangedAt.getD s.lastChangedAt
    deletedAt := fields.deletedAt.or s.deletedAt }

/-- The columns with the new values. -/
def setColumns (fields columns : List (String × String)) : List (String × String) :=
  columns.map fun c => (c.1, (fields.lookup c.1).getD c.2)

namespace Database

def hasRuntime (db : Database) (runtimeId : String) : Bool :=
  db.javaRuntimes.any (·.runtimeId == runtimeId)

def hasArtifact (db : Database) (artifactId : String) : Bool :=
  db.artifacts.any (·.artifactId == artifactId)

def hasNotification (db : Database) (notificationId : String) : Bool :=
  db.notifications.any (·.notificationId == notificationId)

def hasSecret (db : Database) (secretId : String) : Bool :=
  db.secrets.any (·.secretId == secretId)

/-- `ux_operations_idempotency`. -/
def keyTaken (db : Database) (opType : OperationType) (key : Option String) : Bool :=
  key.isSome && db.operations.any fun op => op.opType == opType && op.idempotencyKey == key

/-- `ux_runtime_sessions_open`. -/
def sessionOpen (db : Database) (worldId : String) : Bool :=
  db.sessions.any fun s => s.worldId == worldId && s.isOpen

/-- The upsert of `notification_reads`. -/
def upsertRead (db : Database) (row : NotificationRead)
    (f : NotificationRead → NotificationRead) : Database :=
  let key := fun r : NotificationRead =>
    r.notificationId == row.notificationId && r.userId == row.userId
  if db.reads.any key then { db with reads := updateWhere key f db.reads }
  else { db with reads := db.reads ++ [row] }

end Database

/-- A statement whose constraints hold. -/
def satisfying (constraints : List (Bool × String)) (db : Database) (rows : Nat) :
    Except Exn (Database × Nat) :=
  match constraints.find? (!·.1) with
  | some (_, text) => .error (.integrity text)
  | none => .ok (db, rows)

def foreignKey : String := "FOREIGN KEY constraint failed"

def uniqueKey (columns : String) : String := "UNIQUE constraint failed: " ++ columns

def notNull (column : String) : String := "NOT NULL constraint failed: " ++ column

def Stmt.apply (db : Database) : Stmt → Except Exn (Database × Nat)
  | .insertOperation row =>
    satisfying
      [(!db.hasOperation row.opId, uniqueKey "operations.op_id"),
        (!db.keyTaken row.opType row.idempotencyKey,
          uniqueKey "operations.op_type, operations.idempotency_key"),
        (references row.worldId db.hasWorld, foreignKey),
        (references row.actorUserId db.hasUser, foreignKey),
        (references row.compensatesOperationId db.hasOperation, foreignKey)]
      { db with operations := db.operations ++ [row] } 1
  | .claimOperation opId now =>
    let p := fun op : Operation => op.opId == opId && op.status == .queued
    .ok ({ db with
      operations := updateWhere p
        (fun op => { op with
          status := .running, startedAt := op.startedAt.or (some now), updatedAt := now })
        db.operations }, db.operations.countP p)
  | .cancelOperation opId now errorCode =>
    let p := fun op : Operation => op.opId == opId && op.inFlight
    .ok ({ db with
      operations := updateWhere p
        (fun op => { op with
          status := .cancelled, finishedAt := some now, errorCode := some errorCode,
          updatedAt := now })
        db.operations }, db.operations.countP p)
  | .updateOperation opId status checkpoint startedAt finishedAt errorCode message data now =>
    let p := fun op : Operation => op.opId == opId
    .ok ({ db with
      operations := updateWhere p
        (fun op => { op with
          status, checkpoint, startedAt, finishedAt, errorCode, message, data, updatedAt := now })
        db.operations }, db.operations.countP p)
  | .setOperationWorld opId worldId =>
    let p := fun op : Operation => op.opId == opId && op.worldId.isNone
    satisfying [(!db.operations.any p || db.hasWorld worldId, foreignKey)]
      { db with
        operations := updateWhere p (fun op => { op with worldId := some worldId })
          db.operations }
      (db.operations.countP p)
  | .insertAudit row =>
    satisfying
      [(!db.audits.any (·.auditId == row.auditId), uniqueKey "audit_records.audit_id"),
        (references row.operationId db.hasOperation, foreignKey),
        (references row.worldId db.hasWorld, foreignKey)]
      { db with audits := db.audits ++ [row] } 1
  | .insertNotification row =>
    satisfying
      [(!db.hasNotification row.notificationId, uniqueKey "notifications.notification_id"),
        (references row.relatedOperationId db.hasOperation, foreignKey),
        (references row.relatedWorldId db.hasWorld, foreignKey)]
      { db with notifications := db.notifications ++ [row] } 1
  | .markRead notificationId userId now =>
    satisfying [(db.hasNotification notificationId, foreignKey), (db.hasUser userId, foreignKey)]
      (db.upsertRead ⟨notificationId, userId, some now, none⟩ fun r => { r with readAt := some now })
      1
  | .dismiss notificationId userId now =>
    satisfying [(db.hasNotification notificationId, foreignKey), (db.hasUser userId, foreignKey)]
      (db.upsertRead ⟨notificationId, userId, none, some now⟩
        fun r => { r with dismissedAt := some now })
      1
  | .setWorldState worldId state preBackupState now _ =>
    let p := fun w : World => w.worldId == worldId
    .ok ({ db with
      worlds := updateWhere p (fun w => { w with state, preBackupState, updatedAt := now })
        db.worlds }, db.worlds.countP p)
  | .restoreWorldState worldId state now =>
    let p := fun w : World => w.worldId == worldId
    .ok ({ db with
      worlds := updateWhere p (fun w => { w with state, updatedAt := now }) db.worlds },
      db.worlds.countP p)
  | .insertWorld row =>
    satisfying
      [(!db.hasWorld row.worldId, uniqueKey "world_instances.world_id"),
        (db.templates.contains row.templateId, foreignKey),
        (db.hasRuntime row.javaRuntimeId, foreignKey),
        (liveUnique (db.worlds ++ [row]), uniqueKey "world_instances.display_name")]
      { db with worlds := db.worlds ++ [row] } 1
  | .tombstoneWorld worldId deletedBy now expectedVersion =>
    let p := fun w : World =>
      w.worldId == worldId && w.live && w.state == .off && w.metadataVersion == expectedVersion
    .ok ({ db with
      worlds := updateWhere p
        (fun w => { w with
          deletedAt := some now, deletedBy, metadataVersion := w.metadataVersion + 1,
          updatedAt := now })
        db.worlds }, db.worlds.countP p)
  | .updateRuntimeConfig worldId after now expectedVersion =>
    let p := fun w : World =>
      w.worldId == worldId && w.metadataVersion == expectedVersion && w.live
    let worlds := updateWhere p
      (fun w => { after.set w with metadataVersion := w.metadataVersion + 1, updatedAt := now })
      db.worlds
    satisfying
      [(worlds.all fun w => db.hasRuntime w.javaRuntimeId, foreignKey),
        (liveUnique worlds, uniqueKey "world_instances.port")]
      { db with worlds } (db.worlds.countP p)
  | .editWorld worldId fields =>
    -- The code looks for `updated_at` among the values of the row, so the column stays.
    let p := fun w : World => w.worldId == worldId
    let worlds := updateWhere p
      (fun w => { fields.set w with metadataVersion := w.metadataVersion + 1 }) db.worlds
    satisfying
      [(worlds.all fun w => db.hasRuntime w.javaRuntimeId, foreignKey),
        (liveUnique worlds, uniqueKey "world_instances.display_name")]
      { db with worlds } (db.worlds.countP p)
  | .insertSession row =>
    satisfying
      [(!db.sessions.any (·.sessionId == row.sessionId), uniqueKey "runtime_sessions.session_id"),
        (!db.sessionOpen row.worldId, uniqueKey "runtime_sessions.world_id"),
        (db.hasWorld row.worldId, foreignKey),
        (row.rconSecretId.isSome, notNull "runtime_sessions.rcon_secret_id"),
        (references row.rconSecretId db.hasSecret, foreignKey),
        (db.hasRuntime row.javaRuntimeId, foreignKey)]
      { db with sessions := db.sessions ++ [row] } 1
  | .closeSessions worldId now reason =>
    let p := fun s : RuntimeSession => s.worldId == worldId && s.isOpen
    .ok ({ db with
      sessions := updateWhere p
        (fun s => { s with endedAt := some now, endReason := some reason })
        db.sessions }, db.sessions.countP p)
  | .insertSecret row =>
    satisfying [(!db.hasSecret row.secretId, uniqueKey "secrets.secret_id")]
      { db with secrets := db.secrets ++ [row] } 1
  | .insertArtifact row =>
    satisfying
      [(!db.hasArtifact row.artifactId, uniqueKey "backup_artifacts.artifact_id"),
        (references row.worldId db.hasWorld, foreignKey),
        (db.hasOperation row.operationId, foreignKey)]
      { db with artifacts := db.artifacts ++ [row] } 1
  | .flagSuspect artifactId =>
    let p := fun a : BackupArtifact => a.artifactId == artifactId
    .ok ({ db with artifacts := updateWhere p (fun a => { a with suspect := true }) db.artifacts },
      db.artifacts.countP p)
  | .deleteArtifact artifactId now deletedBy =>
    let p := fun a : BackupArtifact => a.artifactId == artifactId
    .ok ({ db with
      artifacts := updateWhere p
        (fun a => { a with deletedAt := some now, deletedBy := some deletedBy }) db.artifacts },
      db.artifacts.countP p)
  | .insertRestore row =>
    satisfying
      [(!db.restores.any (·.restoreId == row.restoreId), uniqueKey "restore_history.restore_id"),
        (db.hasWorld row.worldId, foreignKey),
        (db.hasOperation row.operationId, foreignKey),
        (references row.sourceArtifactId db.hasArtifact, foreignKey),
        (db.hasArtifact row.preRestoreArtifactId, foreignKey),
        (db.hasUser row.operatorUserId, foreignKey),
        (references row.rollbackOfRestoreId fun r => db.restores.any (·.restoreId == r),
          foreignKey)]
      { db with restores := db.restores ++ [row] } 1
  | .updateRestoreOutcome restoreId outcome now =>
    let p := fun r : RestoreRecord => r.restoreId == restoreId
    .ok ({ db with
      restores := updateWhere p (fun r => { r with outcome, finishedAt := some now })
        db.restores }, db.restores.countP p)
  | .insertMissedRun row =>
    satisfying
      [(!db.missedRuns.any (·.missedRunId == row.missedRunId),
        uniqueKey "missed_run_records.missed_run_id")]
      { db with missedRuns := db.missedRuns ++ [row] } 1
  | .insertSchedule row =>
    satisfying
      [(!db.schedules.any (·.scheduleId == row.scheduleId), uniqueKey "schedules.schedule_id"),
        (references row.worldId db.hasWorld, foreignKey)]
      { db with schedules := db.schedules ++ [row] } 1
  | .editSchedule scheduleId fields =>
    let p := fun s : Schedule => s.scheduleId == scheduleId
    let schedules := updateWhere p (fun s => { fields.set s with version := s.version + 1 })
      db.schedules
    satisfying [(schedules.all fun s => references s.worldId db.hasWorld, foreignKey)]
      { db with schedules } (db.schedules.countP p)
  | .insertSettings worldId fields now updatedBy =>
    satisfying
      [((db.versioned? .worldSettings worldId).isNone, uniqueKey "world_settings.world_id"),
        (db.hasWorld worldId, foreignKey),
        (db.hasUser updatedBy, foreignKey)]
      { db with
        versioned := db.versioned ++ [{
          table := .worldSettings, rowId := worldId, version := 1
          columns := setColumns ([("updated_at", toString now), ("updated_by", updatedBy)] ++ fields)
            (VersionedTable.worldSettings.columns.map (·, "NULL")) }] } 1
  | .editRow table rowId fields violated =>
    let p := fun r : VersionedRow => r.table == table && r.rowId == rowId
    satisfying (violated.toList.map (false, ·))
      { db with
        versioned := updateWhere p
          (fun r => { r with columns := setColumns fields r.columns, version := r.version + 1 })
          db.versioned } (db.versioned.countP p)
  | .insertUser row =>
    satisfying [(!db.hasUser row.userId, uniqueKey "users.user_id")]
      { db with users := db.users ++ [row] } 1
  | .insertRuntime row =>
    satisfying [(!db.hasRuntime row.runtimeId, uniqueKey "java_runtimes.runtime_id")]
      { db with javaRuntimes := db.javaRuntimes ++ [row] } 1
  | .insertTemplate templateId =>
    satisfying [(!db.templates.contains templateId, uniqueKey "templates.template_id")]
      { db with templates := db.templates ++ [templateId] } 1
  | .insertSyncTarget targetId secretId createdAt updatedAt =>
    satisfying
      [((db.versioned? .syncTargets targetId).isNone, uniqueKey "sync_targets.sync_target_id"),
        (db.hasSecret secretId, foreignKey)]
      { db with
        versioned := db.versioned ++ [{
          table := .syncTargets, rowId := targetId, version := 1
          columns := setColumns [("scope", "global"), ("target_type", "nas"),
            ("config", "\x7b\"adapter\": \"nas\"\x7d"), ("secret_id", secretId), ("enabled", "1"),
            ("created_at", toString createdAt), ("updated_at", toString updatedAt)]
            (VersionedTable.syncTargets.columns.map (·, "NULL")) }] } 1
  | .insertSyncRecord row =>
    satisfying
      [(!db.syncRecords.any (·.syncId == row.syncId), uniqueKey "sync_records.sync_id"),
        (db.hasArtifact row.artifactId, foreignKey),
        ((db.versioned? .syncTargets row.syncTargetId).isSome, foreignKey),
        (db.hasOperation row.operationId, foreignKey)]
      { db with syncRecords := db.syncRecords ++ [row] } 1
  | .finishSyncRecord syncId status now =>
    let p := fun r : SyncRecord => r.syncId == syncId
    .ok ({ db with
      syncRecords := updateWhere p (fun r => { r with status, finishedAt := some now })
        db.syncRecords }, db.syncRecords.countP p)
  | .insertSyncAttempt row =>
    satisfying
      [(!db.syncAttempts.any (·.attemptId == row.attemptId),
          uniqueKey "sync_attempts.attempt_id"),
        (!db.syncAttempts.any (fun a => a.syncId == row.syncId &&
            a.attemptNumber == row.attemptNumber),
          uniqueKey "sync_attempts.sync_id, sync_attempts.attempt_number"),
        (db.syncRecords.any (·.syncId == row.syncId), foreignKey)]
      { db with syncAttempts := db.syncAttempts ++ [row] } 1
  | .elsewhere table rows =>
    match rows with
    | some n => .ok (db, n)
    | none => .error (.integrity table)

instance : Framework.Store Stmt Database Exn Fault where
  apply s db := s.apply db
  nested := .nestedTransaction
  external := .external

end McManager
