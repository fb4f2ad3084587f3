import Mathlib.Algebra.Order.Ring.Int
import McManager.Services.Operations

namespace McManager.Sync

open Framework

def syncTransientRetries : Nat := 3

def syncBackoffBaseS : Nat := 30

/-- `BACKOFF_DELAYS`. -/
def backoffDelays : List Nat :=
  (List.range (syncTransientRetries - 1)).map fun index => syncBackoffBaseS * 2 ^ index

/-- `DAILY_TRANSFER_CAP_BYTES`. -/
def dailyTransferCapBytes : Int := 50 * 1024 ^ 3

/-- The bytes of the uploads that succeeded in `[start, stop)`. -/
def transferredBetween (db : Database) (start stop : Int) : Int :=
  ((db.syncAttempts.filter fun a =>
      a.outcome == .succeeded && decide (start ≤ a.finishedAt) && decide (a.finishedAt < stop)).map
    fun a => (((db.syncRecords.find? (·.syncId == a.syncId)).bind fun r =>
      db.artifacts.find? (·.artifactId == r.artifactId)).map (·.sizeBytes)).getD 0).sum

/-- `get_bytes_transferred_today`: the day is the one of the clock, in UTC. -/
def getBytesTransferredToday : Prog Int := do
  let at' ← now
  let start := at' / 86400 * 86400
  read .syncRead (transferredBetween · start (start + 86400))

/-- `_resolve_target`: the target, or one made up around the oldest secret. -/
def resolveTarget (targetId : String) : Prog String := do
  let row ← read .syncRead fun db =>
    (db.versioned? .syncTargets targetId).filter fun r => r.columns.lookup "deleted_at" == some "NULL"
  match row with
  | some row =>
    if row.columns.lookup "enabled" = some "0" then
      throw (.sync ("SYNC_TARGET_DISABLED: " ++ targetId))
    else pure targetId
  | none => do
    let secret ← read .syncRead fun db =>
      (db.secrets.insertionSort fun a b => a.createdAt ≤ b.createdAt).head?
    match secret with
    | none => throw (.sync ("SYNC_TARGET_NOT_FOUND: " ++ targetId))
    | some secret => do
      let createdAt ← now
      let updatedAt ← now
      autocommit .syncTarget
        (Body.write (.insertSyncTarget targetId secret.secretId createdAt updatedAt))
      pure targetId

/-- `str(exc)[:1000]`. -/
def shortened (text : String) : String := String.ofList (text.toList.take 1000)

/-- One call of the transport: what becomes of it and the message kept of it. -/
def uploadOnce (targetId path : String) : Prog (SyncOutcome × Option String) :=
  (do
    let permanent ← ask (.upload targetId path)
    match permanent with
    | none => pure (SyncOutcome.succeeded, none)
    | some text => pure (.failedPermanent, some (shortened text))).handle fun e =>
      pure (.failedTransient, some (shortened e.text))

/-- `_record_attempt`. -/
def recordAttempt (syncId : String) (attemptNumber : Nat) (startedAt finishedAt : Int)
    (outcome : SyncOutcome) (errorMessage : Option String) : Prog Unit := do
  let attemptId ← uuid "sa"
  autocommit .syncAttempt (Body.write (.insertSyncAttempt {
    attemptId, syncId, attemptNumber, startedAt, finishedAt, outcome, errorMessage
    createdAt := finishedAt }))

/-- The attempts that are left, from the given number on: whether one of them succeeds. -/
def attempts (syncId targetId path : String) : Nat → Nat → Prog Bool
  | 0, _ => pure false
  | left + 1, attemptNumber => do
    let startedAt ← now
    let (outcome, errorMessage) ← uploadOnce targetId path
    let finishedAt ← now
    recordAttempt syncId attemptNumber startedAt finishedAt outcome errorMessage
    match outcome with
    | .succeeded => pure true
    | .failedPermanent => pure false
    | .failedTransient => do
      if attemptNumber < syncTransientRetries then
        ask (.sleep (backoffDelays.getD (attemptNumber - 1) 0))
      attempts syncId targetId path left (attemptNumber + 1)

/-- The request of the operation of an upload. -/
def syncRequest (artifact : BackupArtifact) (targetId : String) : OperationInput where
  opType := .sync
  actorType := .system
  worldId := artifact.worldId
  data := some { artifactId := some artifact.artifactId, syncTargetId := some targetId }

/-- The end of `dispatch_sync`, when the attempts are over. -/
def finish (svc : OperationService) (syncId opId : String) (succeeded : Bool) : Prog String := do
  let status : SyncRecordStatus := if succeeded then .succeeded else .failed
  let finishedAt ← now
  autocommit .syncRecord (Body.write (.finishSyncRecord syncId status finishedAt))
  let _ ← Operations.transition svc opId (if succeeded then .completed else .failed) {
    errorCode := if succeeded then none else some "SYNC_FAILED"
    message := if succeeded then none else some "offsite upload exhausted transient retries"
    data := some { syncId := some syncId, syncStatus := some status } }
  pure syncId

/-- `dispatch_sync` from the creation of its operation on. -/
def transfer (svc : OperationService) (artifact : BackupArtifact) (targetId : String) :
    Prog String := do
  let at' ← now
  let operation ← Operations.create svc (syncRequest artifact targetId) .running true
  let syncId ← uuid "sy"
  autocommit .syncRecord (Body.write (.insertSyncRecord {
    syncId, artifactId := artifact.artifactId, syncTargetId := targetId
    operationId := operation.opId, status := .pending, startedAt := at', finishedAt := none
    createdAt := at' }))
  let succeeded ← attempts syncId targetId artifact.storagePath syncTransientRetries 1
  finish svc syncId operation.opId succeeded

/-- `dispatch_sync`. -/
def dispatchSync (svc : OperationService) (artifactId targetId : String) : Prog String := do
  let transferred ← getBytesTransferredToday
  if dailyTransferCapBytes ≤ transferred then throw (.sync "SYNC_CAP_EXCEEDED")
  else do
    let artifact ← read .syncRead fun db =>
      db.artifacts.find? fun a => a.artifactId == artifactId && a.live
    match artifact with
    | none => throw (.sync ("BACKUP_NOT_FOUND: " ++ artifactId))
    | some artifact => do
      let transferred ← getBytesTransferredToday
      if dailyTransferCapBytes < transferred + artifact.sizeBytes then
        throw (.sync "SYNC_CAP_EXCEEDED")
      else do
        let targetId ← resolveTarget targetId
        transfer svc artifact targetId

end McManager.Sync
