import McManager.Services.Operations

namespace McManager.Configuration

open Framework Operations

/-- A versioned row and the columns an edit sets. `violated` is the constraint of its table that
the new values violate, if there is one. -/
inductive Edit
  | world (worldId : String) (fields : WorldFields)
  | schedule (scheduleId : String) (fields : ScheduleFields)
  | row (table : VersionedTable) (rowId : String) (fields : List (String × String))
      (violated : Option String)
  deriving DecidableEq, Repr

/-- `VersionedUpdate`. -/
structure VersionedUpdate where
  edit : Edit
  expectedVersion : Int
  actorType : ActorType
  actorUserId : Option String
  deriving DecidableEq, Repr

def Edit.entity : Edit → String
  | .world _ _ => "world_instances"
  | .schedule _ _ => "schedules"
  | .row table _ _ _ => table.name

def Edit.rowId : Edit → String
  | .world worldId _ => worldId
  | .schedule scheduleId _ => scheduleId
  | .row _ rowId _ _ => rowId

def Edit.worldId : Edit → Option String
  | .world worldId _ => some worldId
  | .row .worldSettings worldId _ _ => some worldId
  | _ => none

def Edit.isEmpty : Edit → Bool
  | .world _ fields => fields == {}
  | .schedule _ fields => fields == {}
  | .row _ _ fields _ => fields.isEmpty

/-- `str` of a list of column names. -/
def listText (names : List String) : String :=
  "[" ++ ", ".intercalate (names.map fun name => "'" ++ name ++ "'") ++ "]"

/-- What is wrong with the columns an edit names. -/
def Edit.invalid : Edit → Option Exn
  | .row table _ fields _ =>
    let names := fields.map Prod.fst
    let unknown := names.filter fun name => !table.columns.contains name
    if names.contains table.key || names.contains "version" then
      some (.valueError "cannot update identity or version columns directly")
    else if !unknown.isEmpty then
      some (.valueError ("unknown fields for " ++ table.name ++ ": " ++
        listText (unknown.insertionSort (· ≤ ·))))
    else none
  | _ => none

/-- The stored version of the row. -/
def Edit.version (db : Database) : Edit → Option Int
  | .world worldId _ => (db.world? worldId).map (·.metadataVersion)
  | .schedule scheduleId _ => (db.schedule? scheduleId).map (·.version)
  | .row table rowId _ _ => (db.versioned? table rowId).map (·.version)

def Edit.statement : Edit → Stmt
  | .world worldId fields => .editWorld worldId fields
  | .schedule scheduleId fields => .editSchedule scheduleId fields
  | .row table rowId fields violated => .editRow table rowId fields violated

/-- The payload of the operation. -/
def Edit.payload (edit : Edit) : OperationData where
  entity := some edit.entity
  rowId := some edit.rowId
  after := match edit with
    | .world _ fields => some (.world fields)
    | _ => none

def versionConflict : Exn := .configurationConflict "CONFIG_VERSION_CONFLICT"

/-- `creating_world_override`: the columns of a row of world settings that is not there yet. -/
def creatingWorldOverride (update : VersionedUpdate) (version : Option Int) :
    Option (List (String × String)) :=
  match update.edit, version with
  | .row .worldSettings _ fields _, none =>
    if update.expectedVersion = 0 then some fields else none
  | _, _ => none

/-- There is no row to edit. -/
def missingRow (update : VersionedUpdate) : Exn :=
  match update.edit with
  | .row .worldSettings _ _ _ => versionConflict
  | edit => .keyError edit.rowId

/-- The version check that is made before the operation exists. -/
def versionError (update : VersionedUpdate) : Option Int → Option Exn
  | none => if (creatingWorldOverride update none).isSome then none else some (missingRow update)
  | some v => if v ≠ update.expectedVersion then some versionConflict else none

/-- The edit inside its transaction, which checks the version again. -/
def updateBlock (update : VersionedUpdate) (creating : Option (List (String × String)))
    (now : Int) : Block Unit := do
  let version ← Body.query update.edit.version
  match version, creating with
  | none, none => .raise (.keyError update.edit.rowId)
  | none, some fields =>
    match update.actorUserId with
    | none => .raise (.valueError "creating world settings requires an actor user")
    | some userId => Body.write (.insertSettings update.edit.rowId fields now userId)
  | some v, _ =>
    if v ≠ update.expectedVersion then .raise versionConflict
    else Body.write update.edit.statement

def editErrorCode : Exn → String
  | .configurationConflict _ => "CONFIG_VERSION_CONFLICT"
  | _ => "CONFIG_EDIT_FAILED"

/-- `update_versioned_with_operation`. -/
def updateVersioned (svc : OperationService) (update : VersionedUpdate) : Prog Operation :=
  if update.edit.isEmpty then throw (.valueError "update requires at least one field")
  else match update.edit.invalid with
  | some e => throw e
  | none => do
    let version ← selectWriter .configuration update.edit.version
    match versionError update version with
    | some e => throw e
    | none => do
      let op ← Operations.create svc {
        opType := .configEdit, actorType := update.actorType, actorUserId := update.actorUserId
        worldId := update.edit.worldId
        data := some { entity := some update.edit.entity, rowId := some update.edit.rowId } }
        .queued true
      let _ ← Operations.transition svc op.opId .running
      let at' ← now
      transactionThen .configuration (updateBlock update (creatingWorldOverride update version) at')
        (fun _ => Operations.transition svc op.opId .completed {
          data := some update.edit.payload })
        fun e => do
          let _ ← Operations.transition svc op.opId .failed {
            errorCode := some (editErrorCode e), message := some e.text
            data := some update.edit.payload }
          throw e

end McManager.Configuration
