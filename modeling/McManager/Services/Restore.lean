import McManager.Services.Backup
import McManager.Services.Worlds

namespace McManager

/-- The collaborators of `RestoreService`; the probe restarts the world after a restore. -/
structure RestoreService where
  worlds : WorldsService
  restartProbe : Bool
  deriving DecidableEq, Repr

/-- The arguments of `restore`. -/
structure RestoreRequest where
  worldId : String
  artifactId : String
  worldDir : String
  backupDir : String
  stagingDir : String
  operationId : String
  operatorUserId : String
  wasRunning : Bool
  deriving DecidableEq, Repr

/-- `RestoreResult`. -/
structure RestoreResult where
  restoreId : String
  outcome : String
  rollbackOperationId : Option String := none
  deriving DecidableEq, Repr

namespace Restore

open Framework

/-- `_set_world_state`: no domain check, and `pre_backup_state` stays. -/
def setWorldState (worldId : String) (state : WorldState) : Prog Unit := do
  let at' ← now
  autocommit (.restoreWorldState state) (Body.write (.restoreWorldState worldId state at'))

/-- `_update_restore_outcome`. -/
def updateRestoreOutcome (restoreId outcome : String) : Prog Unit := do
  let at' ← now
  autocommit .updateOutcome (Body.write (.updateRestoreOutcome restoreId outcome at'))

/-- `_record_history`. -/
def recordHistory (request : RestoreRequest) (operationId sourceArtifactId preRestoreArtifactId
    outcome : String) (rollbackOfRestoreId : Option String) : Prog String := do
  let restoreId ← uuid "rs"
  let at' ← now
  autocommit .recordHistory (Body.write (.insertRestore {
    restoreId, worldId := request.worldId, operationId, sourceArtifactId := some sourceArtifactId
    preRestoreArtifactId, operatorUserId := request.operatorUserId, outcome, rollbackOfRestoreId
    startedAt := at', finishedAt := some at' }))
  pure restoreId

/-- `_switch_world`. -/
def switchWorld (request : RestoreRequest) : Prog Unit := do
  let _ ← ask (.archive "switch" request.worldDir)
  pure ()

/-- `_restart_succeeded`. -/
def restartSucceeded (svc : RestoreService) (worldId : String) : Prog Bool :=
  if svc.restartProbe then (Worlds.restartAndConfirm svc.worlds worldId).handle fun _ => pure false
  else pure false

/-- The guarded part of a rollback. -/
def revert (svc : RestoreService) (request : RestoreRequest) (restoreId preBackup rollbackOp :
    String) : Prog RestoreResult := do
  Backup.extractToStaging preBackup request.stagingDir
  switchWorld request
  let _ ← Operations.transition svc.worlds.operations rollbackOp .completed
  let _ ← recordHistory request rollbackOp preBackup preBackup "reverted" (some restoreId)
  updateRestoreOutcome restoreId "reverted"
  setWorldState request.worldId .off
  pure ⟨restoreId, "reverted", some rollbackOp⟩

/-- The `except` clause of a rollback. -/
def revertFailed (svc : RestoreService) (request : RestoreRequest) (restoreId rollbackOp : String)
    (e : Exn) : Prog RestoreResult := do
  let _ ← Operations.transition svc.worlds.operations rollbackOp .failed {
    errorCode := some "RESTORE_REVERT_FAILED" }
  updateRestoreOutcome restoreId "failed"
  setWorldState request.worldId .error
  throw e

/-- What `restore` does when the world did not come up again. -/
def rollBack (svc : RestoreService) (request : RestoreRequest) (restoreId preBackup : String) :
    Prog RestoreResult := do
  Backup.flagSuspect request.artifactId
  let op ← Operations.create svc.worlds.operations {
    opType := .restore, actorType := .system, worldId := some request.worldId
    data := some { rollbackOfRestoreId := some restoreId, sourceArtifactId := some preBackup }
    compensatesOperationId := some request.operationId } .queued true
  (revert svc request restoreId preBackup op.opId).handle
    (revertFailed svc request restoreId op.opId)

/-- `restore`. -/
def restore (svc : RestoreService) (request : RestoreRequest) : Prog RestoreResult := do
  let row ← read .worldRead (·.world? request.worldId)
  match row with
  | none =>
    throw (.restorePrecondition "WORLD_NOT_FOUND" ("world not found: " ++ request.worldId))
  | some w =>
    if w.state ≠ .off then
      throw (.restorePrecondition "WORLD_NOT_OFF"
        ("WORLD_NOT_OFF: restore requires an off world (state=" ++ w.state.value ++ ")"))
    else do
      let _ ← Backup.validateArtifact request.artifactId
      let preBackup ← Backup.createWorldBackup request.worldId request.worldDir request.backupDir
        request.operationId "pre_restore" false
      Backup.extractToStaging request.artifactId request.stagingDir
      switchWorld request
      let restoreId ← recordHistory request request.operationId request.artifactId preBackup
        "success" none
      if !request.wasRunning then do
        setWorldState request.worldId .off
        pure ⟨restoreId, "success", none⟩
      else do
        let restarted ← restartSucceeded svc request.worldId
        if restarted then do
          setWorldState request.worldId .running
          pure ⟨restoreId, "success", none⟩
        else rollBack svc request restoreId preBackup

end Restore

end McManager
