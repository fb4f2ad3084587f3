import McManager.Framework.DiskProgram
import McManager.Infrastructure.BackupEngine

namespace McManager

open Framework

/-- The file operations of `restore`, up to and including the first switch. -/
inductive FileStep
  | validate
  | backup
  | clear
  | stage
  | extract
  | archive
  | publish
  | discard
  | recover
  deriving DecidableEq, Repr

/-- The steps that bring the world back when its replacement could not be put in place. -/
def FileStep.recovery : FileStep → Bool
  | .discard | .recover => true
  | _ => false

/-- An artifact as `validate_artifact` finds it: where it is stored, whether the file has the
checksum of the row, and the members of the archive. -/
structure Artifact where
  storagePath : Path
  intact : Bool
  members : List Member
  deriving DecidableEq, Repr

/-- What the file operations of one `restore` are about; `backupName` and `suffix` are drawn. -/
structure RestoreFiles where
  worldDir : Path
  backupDir : Path
  stagingDir : Path
  artifact : Option Artifact
  backupName : String
  backup : List UInt8
  suffix : String
  time : Int
  deriving DecidableEq, Repr

namespace RestoreFiles

variable (host : Host) (links : Nat) (r : RestoreFiles)

/-- `archive_dir`, beside the world. -/
def archiveDir : Path :=
  r.worldDir.dropLast ++ [r.worldDir.getLast?.getD "" ++ ".restore-archive-" ++ r.suffix]

/-- The names the backup is written under before it has its own. -/
def backupPaths : List Path :=
  [r.backupDir ++ [r.backupName ++ ".part.part"], r.backupDir ++ [r.backupName ++ ".part"],
    r.backupDir ++ [r.backupName]]

def entry (time : Int) : Item → Entry
  | .directory => .directory
  | .file content => .file content time

/-- `validate_artifact`. -/
def validateArtifact : FileProgram FileStep Unit :=
  .operation .validate FileProgram.untouched fun disk =>
    match r.artifact with
    | none => none
    | some artifact =>
      if disk.present links artifact.storagePath && artifact.intact &&
          (BackupEngine.verifyArchive host artifact.members).isOk then some disk
      else none

/-- `create_world_backup`: the walk through the world fails where there is no directory. -/
def createWorldBackup : FileProgram FileStep Unit := do
  .mkdir .backup true links r.backupDir
  .operation .backup (fun _ q => r.backupPaths.any fun path => Disk.below path q) fun disk =>
    if disk.stat links r.worldDir = some .directory then
      some (disk.put (r.backupDir ++ [r.backupName]) (.file r.backup r.time))
    else none

/-- What `extract_archive` does with a staging directory it could not fill. -/
def discardStaging : FileProgram FileStep Unit := do
  let now ← FileProgram.disk
  .onlyIf (now.stat links r.stagingDir == some .directory && !now.isSymlink r.stagingDir)
    (tryCatch (.rmtree .extract r.stagingDir) fun _ => pure ())

/-- `extract_archive`. -/
def extractArchive : FileProgram FileStep Unit :=
  tryCatch
    (.operation .extract (fun _ => Disk.below r.stagingDir) fun disk =>
      match r.artifact with
      | none => none
      | some artifact =>
        if disk.present links artifact.storagePath then
          match BackupEngine.extractArchive host r.stagingDir artifact.members with
          | .ok tree => some (disk.graft r.stagingDir fun rest => (tree rest).map (entry r.time))
          | .error _ => none
        else none)
    fun e => do
      discardStaging links r
      throw e

/-- `extract_to_staging`. -/
def extractToStaging : FileProgram FileStep Unit := do
  validateArtifact host links r
  .clear .clear links r.stagingDir
  .mkdir .stage false links r.stagingDir
  extractArchive host links r

/-- `_switch_world`; the moves to and from the archive name are renames. -/
def switchWorld : FileProgram FileStep Unit := do
  let before ← FileProgram.disk
  let archivedOriginal := before.present links r.worldDir
  .onlyIf archivedOriginal (.move .archive true links r.worldDir r.archiveDir)
  tryCatch (.move .publish false links r.stagingDir r.worldDir) fun e => do
    let now ← FileProgram.disk
    .onlyIf (archivedOriginal && now.present links r.archiveDir) do
      .clear .discard links r.worldDir
      .move .recover true links r.archiveDir r.worldDir
    throw e

/-- The file operations of `restore` up to the first switch, in their order. -/
def restore : FileProgram FileStep Unit := do
  validateArtifact host links r
  createWorldBackup links r
  extractToStaging host links r
  switchWorld links r

end RestoreFiles

end McManager
