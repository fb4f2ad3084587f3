import McManager.Services.Backup

namespace McManager

/-- `CleanupCandidate`. -/
structure CleanupCandidate where
  artifactId : String
  storagePath : String
  worldId : Option String
  category : String
  createdAt : Int
  deriving DecidableEq, Repr

def BackupArtifact.candidate (a : BackupArtifact) : CleanupCandidate where
  artifactId := a.artifactId
  storagePath := a.storagePath
  worldId := a.worldId
  category := a.category
  createdAt := a.createdAt

/-- The retention policy a cleanup is asked to apply. -/
structure CleanupPolicy where
  olderThanDays : Int
  keepPerCategory : Int
  worldId : Option String
  deriving DecidableEq, Repr

/-- The snapshot `_preview_fingerprint` digests. -/
structure CleanupSnapshot where
  olderThanDays : Int
  keepPerCategory : Int
  scope : String
  worldId : Option String
  targets : List CleanupCandidate
  deriving DecidableEq, Repr

/-- The arguments of `evaluate_and_execute_cleanup`. -/
structure CleanupRequest where
  opId : String
  dryRun : Bool
  policy : CleanupPolicy
  elevatedConfirmation : Bool
  scope : String
  deletedBy : String
  dryRunOperationId : Option String
  deriving DecidableEq, Repr

/-- `CleanupService`; `fingerprint` is the digest of the canonical JSON of a snapshot. -/
structure CleanupService where
  operations : OperationService
  fingerprint : CleanupSnapshot → String

namespace Cleanup

open Framework

def cleanupBlastRadiusCap : Nat := 500

def cleanupAgeFloorDays : Int := 3

def cleanupCountFloor : Int := 3

def daySeconds : Int := 24 * 60 * 60

/-- The key artifacts are grouped by. -/
def groupKey (a : BackupArtifact) : Option String × String := (a.worldId, a.category)

/-- A world comes after no world, and worlds come by their ids. -/
def worldBefore : Option String → Option String → Bool
  | none, some _ => true
  | some a, some b => decide (a < b)
  | _, none => false

/-- `ORDER BY world_id, category, created_at DESC`. -/
def listedBefore (a b : BackupArtifact) : Bool :=
  worldBefore a.worldId b.worldId || a.worldId == b.worldId &&
    (decide (a.category < b.category) || a.category == b.category && decide (b.createdAt ≤ a.createdAt))

/-- The live artifacts in scope. -/
def liveArtifacts (db : Database) (worldId : Option String) : List BackupArtifact :=
  (db.artifacts.filter fun a => a.live && (worldId.isNone || a.worldId == worldId)).insertionSort
    fun a b => listedBefore a b = true

/-- The ids a group keeps whatever their age. -/
def protectedIds (keepPerCategory : Int) (artifacts : List BackupArtifact) : List String :=
  ((artifacts.take keepPerCategory.toNat) ++ (artifacts.find? fun a => !a.suspect).toList).map
    (·.artifactId)

/-- What may go of one group, the newest artifact first. -/
def groupCandidates (cutoff keepPerCategory : Int) (artifacts : List BackupArtifact) :
    List BackupArtifact :=
  artifacts.filter fun a => !(decide (cutoff ≤ a.createdAt) ||
    (protectedIds keepPerCategory artifacts).contains a.artifactId || a.suspect)

/-- The candidates at the time `now`, the oldest first. -/
def candidatesAt (policy : CleanupPolicy) (now : Int) (db : Database) : List CleanupCandidate :=
  let rows := liveArtifacts db policy.worldId
  let cutoff := now - policy.olderThanDays * daySeconds
  (((rows.map groupKey).eraseDups.flatMap fun key =>
    groupCandidates cutoff policy.keepPerCategory (rows.filter (groupKey · == key))).map
      BackupArtifact.candidate).insertionSort fun a b => a.createdAt ≤ b.createdAt

/-- `backup_candidates`. -/
def backupCandidates (policy : CleanupPolicy) : Prog (List CleanupCandidate) :=
  if policy.olderThanDays < cleanupAgeFloorDays then throw (.retention "age floor is 3 days")
  else if policy.keepPerCategory < cleanupCountFloor then
    throw (.retention "count floor is 3 per world/category")
  else do
    let at' ← now
    read .cleanupRead (candidatesAt policy at')

/-- The loop of `execute_backup_cleanup`: how many artifacts it has removed. -/
def removeCandidates (now : Int) (deletedBy : String) : List CleanupCandidate → Nat → Prog Nat
  | [], deleted => pure deleted
  | candidate :: rest, deleted => do
    let row ← selectWriter .cleanup fun db : Database =>
      db.artifacts.find? (·.artifactId == candidate.artifactId)
    if row.all fun a => !a.live then removeCandidates now deletedBy rest deleted
    else do
      ask (.unlink candidate.storagePath)
      let _ ← (Body.write (.deleteArtifact candidate.artifactId now deletedBy) : Block Unit).lift .cleanup
      removeCandidates now deletedBy rest (deleted + 1)

/-- `execute_backup_cleanup`. -/
def executeBackupCleanup (candidates : List CleanupCandidate) (policy : CleanupPolicy)
    (deletedBy : String) (elevatedConfirmation : Bool) : Prog Nat :=
  if cleanupBlastRadiusCap < candidates.length ∧ !elevatedConfirmation then
    throw (.retention "CLEANUP_BLAST_RADIUS")
  else do
    let eligible ← backupCandidates policy
    if candidates ≠ eligible then throw (.retention "CLEANUP_PREVIEW_REQUIRED_OR_STALE")
    else do
      let at' ← now
      let deleted ← removeCandidates at' deletedBy candidates 0
      (Program.perform (Cmd.commit .cleanup) : Prog Unit)
      pure deleted

/-- The fingerprint a wet run is compared with: the one its dry run stored, or the last one
this process remembers. -/
def matchedPreview (request : CleanupRequest) : Prog (Option String) := do
  let remembered ← draw (.preview request.policy.worldId request.scope)
  match if request.dryRun then none else request.dryRunOperationId with
  | none => pure remembered
  | some opId => do
    let preview ← read .operationRead (·.operation? opId)
    pure (preview.bind fun op =>
      if op.opType = .cleanup ∧ op.status = .completed then
        op.data.bind fun data =>
          if data.scope = some request.scope ∧ data.worldId = request.policy.worldId then
            data.previewFingerprint
          else none
      else none)

/-- The guarded part of `evaluate_and_execute_cleanup`. -/
def evaluate (svc : CleanupService) (request : CleanupRequest) : Prog OperationData := do
  let candidates ← backupCandidates request.policy
  let fingerprint := svc.fingerprint {
    olderThanDays := request.policy.olderThanDays
    keepPerCategory := request.policy.keepPerCategory
    scope := request.scope
    worldId := request.policy.worldId
    targets := candidates }
  if !request.dryRun ∧ cleanupBlastRadiusCap < candidates.length ∧ !request.elevatedConfirmation then
    throw (.retention "CLEANUP_BLAST_RADIUS")
  else do
    let matched ← matchedPreview request
    if !request.dryRun ∧ matched ≠ some fingerprint then
      throw (.retention "CLEANUP_PREVIEW_REQUIRED_OR_STALE")
    else do
      let _ ← Operations.transition svc.operations request.opId .running
      let result ← if request.dryRun then do
          ask (.rememberPreview request.policy.worldId request.scope fingerprint)
          pure ({
            mode := some "dry_run"
            scope := some request.scope
            worldId := request.policy.worldId
            targetCount := some candidates.length
            targets := some (candidates.map (·.artifactId))
            olderThanDays := some request.policy.olderThanDays
            keepPerCategory := some request.policy.keepPerCategory
            previewFingerprint := some fingerprint } : OperationData)
        else do
          let deleted ← executeBackupCleanup candidates request.policy request.deletedBy
            request.elevatedConfirmation
          pure {
            mode := some "wet_run"
            deletedCount := some deleted
            targetCount := some candidates.length }
      let _ ← Operations.transition svc.operations request.opId .completed { data := some result }
      pure result

/-- The `except RetentionError` clause. -/
def evaluationFailed (svc : CleanupService) (opId : String) (e : Exn) : Prog OperationData :=
  match e with
  | .retention text => do
    let operation ← read .operationRead (·.operation? opId)
    if operation.any fun op => !op.terminal then do
      let _ ← Operations.transition svc.operations opId .failed {
        errorCode := some text, message := some text }
      throw (.retention text)
    else throw (.retention text)
  | e => throw e

/-- `evaluate_and_execute_cleanup`. -/
def evaluateAndExecuteCleanup (svc : CleanupService) (request : CleanupRequest) :
    Prog OperationData := do
  let operation ← read .operationRead (·.operation? request.opId)
  if operation.all fun op => op.opType != .cleanup || op.terminal then
    throw (.retention "CLEANUP_OPERATION_REQUIRED")
  else (evaluate svc request).handle (evaluationFailed svc request.opId)

end Cleanup

end McManager
