import McManager.Services.Worlds

namespace McManager.Worlds

open Framework Operations

/-- `enqueue_world_mutation`. -/
def enqueueWorldMutation (svc : WorldsService) (opType : OperationType) (worldId : Option String)
    (actorUserId key : String) (data : OperationData) : Prog (Operation × Bool) :=
  createWithReplay svc.operations {
    opType, actorType := .user, actorUserId := some actorUserId, worldId
    idempotencyKey := some key, data := some data }
    .queued (opType == .configEdit || opType == .deleteWorld)

inductive MutationAction
  | create | delete | fileEdit | runtimeConfig
  deriving DecidableEq, Repr

/-- The action an operation of the mutation queue asks for, if it is one. -/
def mutationAction (op : Operation) : Option MutationAction :=
  let data := op.data.getD {}
  if op.opType = .configEdit then
    if data.queuedRuntimeConfig then some .runtimeConfig
    else if data.queuedFileEdit then some .fileEdit
    else none
  else
    match data.worldAction with
    | some "create" => some .create
    | some "delete" => some .delete
    | some "runtime_config" => some .runtimeConfig
    | some "file_edit" => some .fileEdit
    | _ => none

/-- A value the request has to carry. -/
def required {α : Type} (key : String) : Option α → Prog α
  | some a => pure a
  | none => throw (.keyError key)

def applyCreateBlock (opId : String) (w : NewWorld) : Block Unit := do
  let row ← Body.query (·.world? w.worldId)
  match row with
  | none => Body.write (.insertWorld w.row)
  | some row =>
    if row ≠ w.row then
      .raise (.worldConflict "world create operation does not match persisted world")
    else pure ()
  Body.write (.setOperationWorld opId w.worldId)

/-- `_apply_queued_world_create`. -/
def applyCreate (op : Operation) (data : OperationData) : Prog OperationData := do
  let w ← required "world" data.world
  transactionBare .applyCreate (applyCreateBlock op.opId w)
  pure { worldId := some w.worldId }

def previewConflict : Exn := .configurationConflict "World changed after deletion preview."

def applyDeleteBlock (op : Operation) (expectedVersion now : Int) : Block Unit := do
  let row ← Body.query fun db : Database => op.worldId.bind db.world?
  match row with
  | none => .raise (.worldNotFound (op.worldId.getD "None"))
  | some w =>
    -- A delete that went through before is recognised by its traces.
    if w.deletedAt.isSome ∧ w.deletedBy = op.actorUserId ∧
        w.metadataVersion = expectedVersion + 1 then pure ()
    else if w.deletedAt.isSome ∨ w.state ≠ .off ∨ w.metadataVersion ≠ expectedVersion then
      .raise previewConflict
    else do
      let rows ← Body.statement (.tombstoneWorld w.worldId op.actorUserId now expectedVersion)
      if rows ≠ 1 then .raise previewConflict else pure ()

/-- `_apply_queued_world_delete`. -/
def applyDelete (op : Operation) (data : OperationData) : Prog OperationData := do
  let expectedVersion ← required "preview_version" data.previewVersion
  let at' ← now
  transactionBare .applyDelete (applyDeleteBlock op expectedVersion at')
  pure { worldId := op.worldId, deleted := true }

def versionConflict : Exn := .configurationConflict "CONFIG_VERSION_CONFLICT"

/-- Every field the edit sets has its value already. -/
def WorldFields.holdIn (fields : WorldFields) (w : World) : Prop := fields.set w = w

instance (fields : WorldFields) (w : World) : Decidable (WorldFields.holdIn fields w) :=
  inferInstanceAs (Decidable (fields.set w = w))

def applyRuntimeConfigBlock (op : Operation) (expectedVersion : Int) (after : WorldFields)
    (now : Int) : Block Unit := do
  let row ← Body.query fun db : Database => (op.worldId.bind db.world?).filter World.live
  match row with
  | none => .raise (.worldNotFound (op.worldId.getD "None"))
  | some w =>
    -- An edit that went through before is recognised by the version and its values.
    if w.metadataVersion = expectedVersion + 1 ∧ WorldFields.holdIn after w then pure ()
    else if w.metadataVersion ≠ expectedVersion then .raise versionConflict
    else if w.state ≠ .off then
      .raise (.worldConflict "Runtime configuration requires an off world.")
    else do
      let rows ← Body.statement (.updateRuntimeConfig w.worldId after now expectedVersion)
      if rows ≠ 1 then .raise versionConflict else pure ()

/-- `_apply_queued_runtime_config`. -/
def applyRuntimeConfig (op : Operation) (data : OperationData) : Prog OperationData := do
  let expectedVersion ← required "expected_version" data.expectedVersion
  let after ← required "after" (data.after.bind EditedFields.world?)
  let at' ← now
  transactionBare .applyRuntimeConfig (applyRuntimeConfigBlock op expectedVersion after at')
  pure {
    entity := some "world_instances", rowId := op.worldId, before := data.before
    after := some (.world after) }

/-- `_apply_queued_file_edit`, which works on the world directory alone. -/
def applyFileEdit (op : Operation) (data : OperationData) : Prog OperationData := do
  ask (.fileEdit op.opId)
  pure data

def applyMutation (op : Operation) (data : OperationData) : MutationAction → Prog OperationData
  | .create => applyCreate op data
  | .delete => applyDelete op data
  | .fileEdit => applyFileEdit op data
  | .runtimeConfig => applyRuntimeConfig op data

/-- The error code of a mutation that failed with `e`. -/
def mutationErrorCode : Exn → String
  | .configurationConflict _ => "CONFIG_VERSION_CONFLICT"
  | _ => "OP_EXECUTION_FAILED"

/-- Apply a mutation and record how it went. -/
def settleMutation (svc : WorldsService) (op : Operation) (data : OperationData)
    (action : MutationAction) : Prog Unit :=
  (do
    let result ← applyMutation op data action
    let _ ← Operations.transition svc.operations op.opId .completed { data := some result }
    pure ()).handle fun e =>
      (do
        let _ ← Operations.transition svc.operations op.opId .failed {
          errorCode := some (mutationErrorCode e), message := some e.text }
        pure ()).handle fun _ => pure ()

/-- One round of `dispatch_queued_world_mutations`. -/
def dispatchMutation (svc : WorldsService) (op : Operation) : Prog (List String) := do
  match mutationAction op with
  | none => pure []
  | some action => do
    let claimed ← if op.status = .queued then claimQueued op.opId else pure (some op)
    match claimed with
    | none => pure []
    | some claimed => do
      settleMutation svc claimed (op.data.getD {}) action
      pure [claimed.opId]

def dispatchMutationRounds (svc : WorldsService) : List Operation → Prog (List String)
  | [] => pure []
  | op :: rest => do
    let here ← dispatchMutation svc op
    let there ← dispatchMutationRounds svc rest
    pure (here ++ there)

/-- The mutations to apply: queued ones, and running ones a dead manager left behind. -/
def pendingMutations (db : Database) : List Operation :=
  (db.operations.filter fun op =>
    (op.opType == .createWorld || op.opType == .deleteWorld || op.opType == .configEdit) &&
      (op.status == .queued || op.status == .running)).insertionSort
    fun a b => a.createdAt < b.createdAt ∨ a.createdAt = b.createdAt ∧ a.opId ≤ b.opId

/-- `dispatch_queued_world_mutations`. -/
def dispatchQueuedWorldMutations (svc : WorldsService) : Prog (List String) := do
  let acquired ← draw .mutationLock
  if acquired then do
    let ops ← read .mutationRead pendingMutations
    dispatchMutationRounds svc ops
  else pure []

/-- `dispatch_queued_operations`. -/
def dispatchQueuedOperations (svc : WorldsService) : Prog (List String) := do
  let queued ← listQueued [.start, .stop, .kill]
  let dispatched ← dispatchLifecycle svc [] queued
  let mutations ← dispatchQueuedWorldMutations svc
  pure (dispatched ++ mutations)

end McManager.Worlds
