import McManager.Services.Operations

namespace McManager.Backup

open Framework

/-- `_flag_suspect`. -/
def flagSuspect (artifactId : String) : Prog Unit :=
  autocommit .flagSuspect (Body.write (.flagSuspect artifactId))

def rejectArtifact (artifactId text : String) : Prog Unit := do
  flagSuspect artifactId
  throw (.backupIntegrity text)

/-- `validate_artifact`. -/
def validateArtifact (artifactId : String) : Prog BackupArtifact := do
  let row ← read .artifactRead fun db => db.artifacts.find? (·.artifactId == artifactId)
  match row with
  | none => throw (.backupIntegrity ("backup artifact not found: " ++ artifactId))
  | some row => do
    let there ← ask (.archive "exists" row.storagePath)
    if there then pure () else rejectArtifact artifactId "artifact file missing"
    let same ← ask (.archive ("checksum " ++ row.checksum) row.storagePath)
    if same then pure () else rejectArtifact artifactId "artifact checksum mismatch"
    let _ ← (ask (.archive "verify" row.storagePath)).handle fun _ => do
      rejectArtifact artifactId "artifact is not a valid zip"
      pure false
    pure row

/-- `extract_to_staging`; an archive the engine refuses makes the artifact suspect. -/
def extractToStaging (artifactId stagingDir : String) : Prog Unit := do
  let row ← validateArtifact artifactId
  let _ ← ask (.archive "clear" stagingDir)
  let extracted ← ask (.archive "extract" row.storagePath)
  if extracted then pure () else rejectArtifact artifactId "archive refused"

/-- `_write_and_register`: the artifact it registers. -/
def writeAndRegister (worldId backupDir operationId category : String) : Prog String := do
  let artifactId ← uuid "ba"
  let storagePath := backupDir ++ "/" ++ worldId ++ "-" ++ artifactId ++ ".zip"
  let checksum ← ask (.writeArchive storagePath)
  let at' ← now
  autocommitGuarded .registerArtifact (Body.write (.insertArtifact {
    artifactId, worldId := some worldId, category, storagePath, checksum, suspect := false
    operationId, createdAt := at' }))
  pure artifactId

/-- `create_world_backup`; a running world has its autosave suspended meanwhile. -/
def createWorldBackup (worldId worldDir backupDir operationId category : String)
    (running : Bool) : Prog String := do
  let room ← ask (.archive "storage_guard" worldDir)
  if room then pure () else throw (.backupIntegrity "STORAGE_GUARD_FAILED")
  if running then do
    let artifactId ← (do
      let _ ← ask (.archive "suspend_autosave" worldId)
      let flushed ← ask (.archive "flush" worldId)
      if flushed then pure () else throw (Exn.backupIntegrity "LEVEL_DAT_FLUSH_UNVERIFIED")
      writeAndRegister worldId backupDir operationId category).handle fun e => do
        let _ ← ask (.archive "resume_autosave" worldId)
        throw e
    let _ ← ask (.archive "resume_autosave" worldId)
    pure artifactId
  else writeAndRegister worldId backupDir operationId category

end McManager.Backup
