import McManager.Services.Audit
import McManager.Services.Notifications

namespace McManager

/-- `OperationInput`. -/
structure OperationInput where
  opType : OperationType
  actorType : ActorType
  worldId : Option String := none
  actorUserId : Option String := none
  idempotencyKey : Option String := none
  data : Option OperationData := none
  compensatesOperationId : Option String := none
  deriving DecidableEq, Repr

/-- The optional collaborators an `OperationService` is built with. -/
structure OperationService where
  realtime : Bool
  notifications : Bool
  deriving DecidableEq, Repr

namespace Operations

open Framework

/-- `_sync_artifact_id`: a non-empty text, or nothing. -/
def syncArtifactId (data : Option OperationData) : Option String :=
  (data.getD {}).artifactId.filter (· ≠ "")

/-- `_cleanup_scope`: the scope the request names, or its world. -/
def cleanupScope (worldId : Option String) (data : Option OperationData) : Option String :=
  ((data.getD {}).scope.filter (· ≠ "")).or (worldId.map ("world:" ++ ·))

/-- The in-flight operations of a world, oldest first. -/
def inFlightOf (db : Database) (worldId : String) : List Operation :=
  Database.byCreatedAt
    (db.operations.filter fun op => op.worldId == some worldId && op.inFlight)

/-- `_has_in_flight_sync`. -/
def hasInFlightSync (db : Database) (artifactId : String) : Bool :=
  db.operations.any fun op =>
    op.opType == .sync && op.inFlight && syncArtifactId op.data == some artifactId

/-- `_has_in_flight_cleanup_scope`. -/
def hasInFlightCleanupScope (db : Database) (scope : String) : Bool :=
  db.operations.any fun op =>
    op.opType == .cleanup && op.inFlight && cleanupScope op.worldId op.data == some scope

/-- `_cancel_row`. -/
def cancelRow (now : Int) (errorCode : String) (row : Operation) : Block Operation := do
  Body.write (.cancelOperation row.opId now errorCode)
  let cancelled ← Body.query (·.operation? row.opId)
  match cancelled with
  | some op => pure op
  | none => .raise (.valueError "cancelled operation disappeared")

/-- What the conflict policy hands back: the operations still active, the status to create
with, and the operations it cancelled. -/
structure Admission where
  active : List Operation
  status : OperationStatus
  cancelled : List Operation

def conflictsInFlight (request : OperationInput) : Exn :=
  .operationConflict (request.opType.value ++ " conflicts with in-flight operation for world " ++
    request.worldId.getD "None")

/-- The rules of `_apply_conflict_policy` that follow the two superseding ones: the status a
request beside the active operations gets. -/
def statusBeside (request : OperationInput) (active : List Operation)
    (status : OperationStatus) : Except Exn OperationStatus :=
  let types := active.map (·.opType)
  match request.opType with
  | .backup =>
    if types.any fun t => !t.runtime && t != .backup then .error (conflictsInFlight request)
    else if .backup ∈ types then .ok .queued
    else .ok status
  | .restore =>
    if types.all (· == .restore) then .ok .queued
    else .error (conflictsInFlight request)
  | .cleanup =>
    let scope := cleanupScope request.worldId request.data
    if active.any fun op => op.opType == .cleanup && scope.isSome &&
        cleanupScope op.worldId op.data == scope then .ok .queued
    else if types.any fun t => !t.runtime && t != .cleanup then .error (conflictsInFlight request)
    else .ok status
  | .stop =>
    if .backup ∈ types then
      if types.any fun t => t != .backup && t != .cleanup then .error (conflictsInFlight request)
      else .ok .queued
    else if types.all (· == .cleanup) then .ok status
    else .error (conflictsInFlight request)
  | .start | .kill =>
    if types.all fun t => t == .backup || t == .cleanup then .ok status
    else .error (conflictsInFlight request)
  | _ => .error (conflictsInFlight request)

/-- `_apply_conflict_policy`. -/
def applyConflictPolicy (request : OperationInput) (active : List Operation)
    (status : OperationStatus) (now : Int) : Block Admission :=
  if active = [] then pure ⟨active, status, []⟩
  else if (active.any fun op => op.opType == request.opType) && !request.opType.singleFlight then
    .raise (.operationConflict (request.opType.value ++ " is already in flight for world " ++
      request.worldId.getD "None"))
  else if request.opType = .kill ∧ active.all fun op => op.opType == .stop then do
    let cancelled ← Body.each (cancelRow now "superseded_by_kill") active
    pure ⟨[], status, cancelled⟩
  else
    let deletes := active.filter fun op => op.opType == .deleteWorld && op.status == .queued
    if request.opType = .restore ∧ deletes ≠ [] then do
      let cancelled ← Body.each (cancelRow now "superseded_by_restore") deletes
      let active := active.filter fun op => !(op.opType == .deleteWorld && op.status == .queued)
      if active = [] then pure ⟨active, status, cancelled⟩
      else if active.all fun op => op.opType == .restore then pure ⟨active, .queued, cancelled⟩
      else .raise (.operationConflict ("restore conflicts with an in-flight operation for world " ++
        request.worldId.getD "None"))
    else
      match statusBeside request active status with
      | .ok status => pure ⟨active, status, []⟩
      | .error e => .raise e

/-- `_write_terminal_audit`. -/
def writeTerminalAudit (auditId : String) (operation : Operation) : Block Unit := do
  let username ← Body.query fun db : Database =>
    operation.actorUserId.bind (Audit.username db)
  let edit := operation.data.getD {}
  Audit.insert auditId (operation.finishedAt.getD operation.updatedAt)
    (.operation operation.opType operation.status)
    { actorType := operation.actorType, userId := operation.actorUserId, username }
    (some operation.opId) operation.worldId
    (.operation operation.opType operation.status operation.errorCode operation.message
      (if operation.opType = .configEdit then
        some (edit.entity, edit.rowId, edit.before, edit.after)
      else none))

/-- The status a request is created with before the conflict policy has its say. -/
def requestedStatus (db : Database) (request : OperationInput) (initial : OperationStatus) :
    OperationStatus :=
  match request.opType with
  | .sync =>
    if (syncArtifactId request.data).any (hasInFlightSync db) then .queued else initial
  | .cleanup =>
    if (cleanupScope request.worldId request.data).any (hasInFlightCleanupScope db) then .queued
    else initial
  | _ => initial

def newOperation (request : OperationInput) (opId : String) (status : OperationStatus)
    (now : Int) : Operation where
  opId
  opType := request.opType
  worldId := request.worldId
  actorType := request.actorType
  actorUserId := request.actorUserId
  idempotencyKey := request.idempotencyKey
  status
  checkpoint := none
  compensatesOperationId := request.compensatesOperationId
  intentAt := now
  startedAt := if status = .running then some now else none
  finishedAt := none
  errorCode := none
  message := none
  data := request.data
  createdAt := now
  updatedAt := now

/-- Insert the operation a request asks for and audit the ones it cancelled. -/
def insertAdmitted (request : OperationInput) (admission : Admission) (opId : String)
    (auditIds : Nat → String) (now : Int) : Block (Operation × List Operation × Bool) := do
  let operation := newOperation request opId admission.status now
  Body.write (.insertOperation operation)
  let _ ← Body.each (fun row : Operation × Nat => writeTerminalAudit (auditIds row.2) row.1)
    admission.cancelled.zipIdx
  pure (operation, admission.cancelled, false)

/-- The transaction of `create_with_replay`: the operation, what it cancelled, and whether an
existing operation was replayed. -/
def createBlock (request : OperationInput) (initialStatus : OperationStatus)
    (allowWorldConflict : Bool) (opId : String) (auditIds : Nat → String) (now : Int) :
    Block (Operation × List Operation × Bool) := do
  let existing ← Body.query fun db : Database =>
    if request.idempotencyKey.isSome then
      db.operations.find? fun op =>
        op.opType == request.opType && op.idempotencyKey == request.idempotencyKey
    else none
  match existing with
  | some op => pure (op, [], true)
  | none => do
    let active ← Body.query fun db : Database =>
      (request.worldId.map (inFlightOf db)).getD []
    let status ← Body.query fun db : Database => requestedStatus db request initialStatus
    if request.worldId.isSome ∧ !allowWorldConflict ∧ request.opType ≠ .sync then
      let repeated := active.find? fun op =>
        op.opType == request.opType && (request.opType == .start || request.opType == .stop)
      match repeated with
      | some op => pure (op, [], true)
      | none => do
        let admission ← applyConflictPolicy request active status now
        insertAdmitted request admission opId auditIds now
    else insertAdmitted request ⟨active, status, []⟩ opId auditIds now

/-- The reader query behind a published terminal event. -/
def publishTerminal (svc : OperationService) : Prog Unit :=
  if svc.realtime then read .publishRead fun _ => () else pure ()

/-- `create_with_replay`. -/
def createWithReplay (svc : OperationService) (request : OperationInput)
    (initialStatus : OperationStatus) (allowWorldConflict : Bool) : Prog (Operation × Bool) := do
  let at' ← now
  let opId ← uuid "op"
  let auditIds ← draw (.uuids "au")
  let (operation, cancelled, replayed) ← transaction .create
    (createBlock request initialStatus allowWorldConflict opId auditIds at')
  Program.each (fun _ => publishTerminal svc) cancelled
  if !replayed && operation.status == .queued && operation.worldId.isSome then
    read .publishRead fun _ => ()
  pure (operation, replayed)

def create (svc : OperationService) (request : OperationInput)
    (initialStatus : OperationStatus := .queued) (allowWorldConflict : Bool := false) :
    Prog Operation := do
  let (operation, _) ← createWithReplay svc request initialStatus allowWorldConflict
  pure operation

/-- The transaction of `claim_queued`. -/
def claimBlock (opId : String) (now : Int) : Block (Option Operation) := do
  let current ← Body.query fun db : Database =>
    db.operations.find? fun op => op.opId == opId && op.status == .queued
  match current with
  | none => pure none
  | some current => do
    let active ← Body.query fun db : Database =>
      current.worldId.isSome && db.operations.any fun op =>
        op.worldId == current.worldId && op.opId != opId && op.status.active
    if active then pure none
    else do
      let rows ← Body.statement (.claimOperation opId now)
      if rows ≠ 1 then pure none
      else do
        let claimed ← Body.query (·.operation? opId)
        match claimed with
        | some op => pure (some op)
        | none => .raise (.valueError "claimed operation disappeared")

/-- `claim_queued`. -/
def claimQueued (opId : String) : Prog (Option Operation) := do
  let at' ← now
  transaction .claim (claimBlock opId at')

/-- What a caller of `transition` reports with the new status. -/
structure Milestone where
  checkpoint : Option Checkpoint := none
  errorCode : Option String := none
  message : Option String := none
  data : Option OperationData := none

/-- The transaction of `transition`. -/
def transitionBlock (svc : OperationService) (opId : String) (status : OperationStatus)
    (m : Milestone) (cached : Option Checkpoint) (now : Int)
    (auditId notificationId : String) (notifiedAt : Int) : Block Operation := do
  let row ← Body.query (·.operation? opId)
  match row with
  | none => .raise (.operationState ("operation not found: " ++ opId))
  | some current =>
    if current.terminal then
      .raise (.operationState ("operation already terminal: " ++ opId))
    -- Only Running and the terminal statuses are milestones; others stay in memory.
    else if status ≠ .running ∧ !status.terminal then pure current
    else do
      let startedAt := if status = .running then current.startedAt.or (some now)
        else current.startedAt
      let finishedAt := if status.terminal then some now else current.finishedAt
      Body.write (.updateOperation opId status
        ((m.checkpoint.or cached).or current.checkpoint) startedAt finishedAt m.errorCode
        m.message (m.data.or current.data) now)
      let updated ← Body.query (·.operation? opId)
      match updated with
      | none => .raise (.valueError "updated operation disappeared")
      | some updated => do
        if status.terminal then
          writeTerminalAudit auditId updated
          if svc.notifications then
            let _ ← Notifications.publishTerminalOperation notificationId notifiedAt updated
        pure updated

/-- `transition`. -/
def transition (svc : OperationService) (opId : String) (status : OperationStatus)
    (m : Milestone := {}) : Prog Operation := do
  let at' ← now
  let cached ← draw (.cachedCheckpoint opId)
  let auditId ← uuid "au"
  let notificationId ← uuid "n"
  let notifiedAt ← now
  let updated ← transaction (.transition status)
    (transitionBlock svc opId status m cached at' auditId notificationId notifiedAt)
  if status.terminal then publishTerminal svc
  pure updated

/-- `get_by_idempotency_key`. -/
def getByIdempotencyKey (opType : OperationType) (key : String) : Prog (Option Operation) :=
  read .operationRead fun db =>
    db.operations.find? fun op => op.opType == opType && op.idempotencyKey == some key

/-- `list_queued`: oldest first, ties by id. -/
def listQueued (opTypes : List OperationType) : Prog (List Operation) :=
  read .operationRead fun db =>
    (db.operations.filter fun op => op.status == .queued && opTypes.contains op.opType).insertionSort
      fun a b => a.createdAt < b.createdAt ∨ a.createdAt = b.createdAt ∧ a.opId ≤ b.opId

/-- `has_active_operation`. -/
def hasActiveOperation (worldId excludeOpId : String) : Prog Bool :=
  read .operationRead fun db =>
    db.operations.any fun op =>
      op.worldId == some worldId && op.opId != excludeOpId && op.status.active

/-- `get`. -/
def get (opId : String) : Prog (Option Operation) := read .operationRead (·.operation? opId)

end Operations

end McManager
