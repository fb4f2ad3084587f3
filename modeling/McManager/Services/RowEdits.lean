import McManager.Domain.Exceptions
import McManager.Framework.Rows
import McManager.Services.Configuration

/-! The versioned edit over whole rows: any column, with the values that its audit record tells. -/

namespace McManager.RowEdits

open Framework
open Configuration (listText versionConflict)

inductive ConfigEditEntity
  | schedules | cleanupPolicies | globalSettings | worldSettings | templates | roles | syncTargets
  | worldInstances | serverProperties | javaRuntimes | users | devices | eula
  deriving DecidableEq, Repr

def ConfigEditEntity.value : ConfigEditEntity → String
  | schedules => "schedules"
  | cleanupPolicies => "cleanup_policies"
  | globalSettings => "global_settings"
  | worldSettings => "world_settings"
  | templates => "templates"
  | roles => "roles"
  | syncTargets => "sync_targets"
  | worldInstances => "world_instances"
  | serverProperties => "server_properties"
  | javaRuntimes => "java_runtimes"
  | users => "users"
  | devices => "devices"
  | eula => "eula"

structure VersionTable where
  name : String
  keyColumn : String
  versionColumn : String
  deriving DecidableEq, Repr

/-- `VERSION_TABLES`. -/
def versionTables : ConfigEditEntity → Option VersionTable
  | .schedules => some ⟨"schedules", "schedule_id", "version"⟩
  | .cleanupPolicies => some ⟨"cleanup_policies", "policy_id", "version"⟩
  | .globalSettings => some ⟨"global_settings", "settings_id", "version"⟩
  | .worldSettings => some ⟨"world_settings", "world_id", "version"⟩
  | .templates => some ⟨"templates", "template_id", "version"⟩
  | .javaRuntimes => some ⟨"java_runtimes", "runtime_id", "version"⟩
  | .roles => some ⟨"roles", "role_id", "version"⟩
  | .syncTargets => some ⟨"sync_targets", "sync_target_id", "version"⟩
  | .worldInstances => some ⟨"world_instances", "world_id", "metadata_version"⟩
  | _ => none

/-- `VersionedUpdate`. -/
structure VersionedUpdate where
  entity : ConfigEditEntity
  rowId : String
  expectedVersion : Int
  fields : List (String × Value)
  actorUserId : Option String
  distinct : (fields.map (·.1)).Nodup

def VersionedUpdate.names (update : VersionedUpdate) : List String := update.fields.map (·.1)

def VersionedUpdate.key (update : VersionedUpdate) : Value := .text update.rowId

/-- The tables as they are declared, whatever columns they have beside the key and the version. -/
structure Declaration where
  schema : ConfigEditEntity → Schema
  defaults : ConfigEditEntity → String → Value
  keyed : ∀ e t, versionTables e = some t → (schema e).key = t.keyColumn ∧
    t.keyColumn ∈ (schema e).columns ∧ t.versionColumn ∈ (schema e).columns

abbrev Tables (c : Declaration) := (e : ConfigEditEntity) → Table (c.schema e)

/-- The data of a `ConfigEdit`. -/
structure Payload where
  entity : String
  rowId : String
  before : List (String × Value) := []
  after : List (String × Value) := []
  deriving DecidableEq, Repr

/-- The operation of the edit, and the audit records of its end. -/
structure Ledger where
  operation : Option (OperationStatus × Payload) := none
  audits : List (OperationStatus × Payload) := []
  deriving DecidableEq, Repr

/-- How a call that stores something ends: it may raise before, or when all is stored. -/
inductive Outcome
  | returns
  | fails (e : Exn)
  | tears (e : Exn)
  deriving DecidableEq, Repr

/-- Whether the call leaves what it stores. -/
def Outcome.stores : Outcome → Bool
  | fails _ => false
  | _ => true

def Outcome.record (o : Outcome) (before after : Ledger) : Except Exn Unit × Ledger :=
  match o with
  | returns => (.ok (), after)
  | fails e => (.error e, before)
  | tears e => (.error e, after)

/-- What comes from outside during a call: how the calls of the operation service end, which other
statement raises, and the id of the operation. -/
structure Course where
  opId : String
  read : Option Exn := none
  created : Outcome := .returns
  running : Outcome := .returns
  begun : Option Exn := none
  selected : Option Exn := none
  written : Option Exn := none
  reselected : Option Exn := none
  committed : Option Exn := none
  completed : Outcome := .returns
  rolledBack : Option Exn := none
  failed : Outcome := .returns

/-- `OperationService.create`. -/
def create (o : Outcome) (payload : Payload) (l : Ledger) : Except Exn Unit × Ledger :=
  o.record l { l with operation := some (.queued, payload) }

/-- `OperationService.transition`: a terminal milestone writes its audit record with it. -/
def transition (opId : String) (o : Outcome) (status : OperationStatus) (data : Option Payload)
    (l : Ledger) : Except Exn Unit × Ledger :=
  match l.operation with
  | none => (.error (.operationState ("operation not found: " ++ opId)), l)
  | some (current, payload) =>
    if current.terminal then
      (.error (.operationState ("operation already terminal: " ++ opId)), l)
    else
      let payload := data.getD payload
      o.record l {
        operation := some (status, payload)
        audits := if status.terminal then l.audits ++ [(status, payload)] else l.audits }

section Edit

variable {c : Declaration}

/-- `creating_world_override`. -/
def creatingWorldOverride (seen : Tables c) (update : VersionedUpdate) : Bool :=
  update.entity = .worldSettings && ((seen update.entity).find update.key).isNone &&
    update.expectedVersion = 0

/-- What is wrong with an edit, before there is an operation for it. -/
def refusal (course : Course) (t : VersionTable) (seen : Tables c) (update : VersionedUpdate) :
    Option Exn :=
  let unknown := update.names.filter fun name => !(c.schema update.entity).columns.contains name
  if update.fields.isEmpty then some (.valueError "update requires at least one field")
  else if update.names.contains t.keyColumn || update.names.contains t.versionColumn then
    some (.valueError "cannot update identity or version columns directly")
  else if course.read.isSome then course.read
  else if !unknown.isEmpty then
    some (.valueError ("unknown fields for " ++ update.entity.value ++ ": " ++
      listText (unknown.insertionSort (· ≤ ·))))
  else
    match (seen update.entity).find update.key with
    | none =>
      if creatingWorldOverride seen update then none
      else if update.entity = .worldSettings then some versionConflict
      else some (.keyError update.rowId)
    | some current =>
      if current.get t.versionColumn ≠ .integer update.expectedVersion then some versionConflict
      else none

/-- `if column in row and column not in fields: fields[column] = value`. -/
def stamp (row : Row) (column : String) (value : Value) (fields : List (String × Value)) :
    List (String × Value) :=
  if row.contains column && !fields.any (·.1 == column) then OrderedDict.set fields column value
  else fields

/-- The fields of an edit, with the stamps that the row has a place for. -/
def stampedFields (update : VersionedUpdate) (row : Row) (now : Int) : List (String × Value) :=
  let fields := stamp row "updated_at" (.integer now) update.fields
  let fields := match update.actorUserId with
    | some userId => stamp row "updated_by" (.text userId) fields
    | none => fields
  stamp row "last_changed_at" (.integer now) fields

def assignments (t : VersionTable) (update : VersionedUpdate) (row : Row) (now : Int) :
    Assignments :=
  (stampedFields update row now).map (fun f => (f.1, fun _ => f.2)) ++
    [(t.versionColumn, fun row => (row.get t.versionColumn).succ)]

/-- `insert_fields`. -/
def insertFields (update : VersionedUpdate) (userId : String) (now : Int) :
    List (String × Value) :=
  OrderedDict.ofList ([("world_id", update.key)] ++ update.fields ++
    [("version", .integer 1), ("updated_at", .integer now), ("updated_by", .text userId)])

/-- The statement that writes the row. -/
def write (t : VersionTable) (update : VersionedUpdate) (now : Int)
    (table : Table (c.schema update.entity)) : Option Row → Except Exn (Table (c.schema update.entity))
  | none =>
    match update.actorUserId with
    | none => .error (.valueError "creating world settings requires an actor user")
    | some userId =>
      (table.insert (c.defaults update.entity) (insertFields update userId now)).mapError .integrity
  | some row =>
    (table.update (assignments t update row now) update.key).mapError .integrity

/-- What the edit says of itself before it has read the row. -/
def emptyPayload (update : VersionedUpdate) : Payload :=
  { entity := update.entity.value, rowId := update.rowId }

/-- The values that the edit replaces, and its own. -/
def payload (update : VersionedUpdate) (row : Option Row) : Payload :=
  { emptyPayload update with
    before := update.fields.map fun f => (f.1, (row.map (·.get f.1)).getD .null)
    after := update.fields }

def raised (step : Option Exn) : Except Exn Unit :=
  match step with
  | some e => .error e
  | none => .ok ()

/-- Why the row the transaction finds is not the one to edit. -/
def stale (t : VersionTable) (update : VersionedUpdate) (creating : Bool) : Option Row → Option Exn
  | none => if creating then none else some (.keyError update.rowId)
  | some row =>
    if row.get t.versionColumn ≠ .integer update.expectedVersion then some versionConflict else none

/-- The transaction of the edit up to its commit: the row it leaves, and the table. -/
def edit (course : Course) (t : VersionTable) (update : VersionedUpdate) (creating : Bool)
    (now : Int) (table : Table (c.schema update.entity)) :
    Except Exn (Row × Table (c.schema update.entity)) := do
  raised course.begun
  raised course.selected
  let row := table.find update.key
  raised (stale t update creating row)
  raised course.written
  let table ← write t update now table row
  raised course.reselected
  raised course.committed
  pure ((table.find update.key).getD [], table)

/-- The payload of the edit when it has failed: the row may not have been read. -/
def failedPayload (course : Course) (update : VersionedUpdate) (creating : Bool)
    (table : Table (c.schema update.entity)) : Payload :=
  let row := table.find update.key
  if course.begun.isNone && course.selected.isNone && (row.isSome || creating) then
    payload update row
  else emptyPayload update

/-- The handler: the operation fails, and the exception goes on. -/
def fail (course : Course) (data : Payload) (e : Exn) (l : Ledger) : Exn × Ledger :=
  match course.rolledBack with
  | some e' => (e', l)
  | none =>
    match transition course.opId course.failed .failed (some data) l with
    | (.ok _, l) => (e, l)
    | (.error e', l) => (e', l)

/-- The part of `update_versioned_with_operation` behind its checks. -/
def recordedEdit (course : Course) (t : VersionTable) (update : VersionedUpdate) (creating : Bool)
    (now : Int) (tables : Tables c) (l : Ledger) : Except Exn Row × Tables c × Ledger :=
  let table := tables update.entity
  match create course.created (emptyPayload update) l with
  | (.error e, l) => (.error e, tables, l)
  | (.ok _, l) =>
    match transition course.opId course.running .running none l with
    | (.error e, l) => (.error e, tables, l)
    | (.ok _, l) =>
      match edit course t update creating now table with
      | .error e =>
        let (e, l) := fail course (failedPayload course update creating table) e l
        (.error e, tables, l)
      | .ok (updated, table') =>
        let data := payload update (table.find update.key)
        let tables' := Function.update tables update.entity table'
        match transition course.opId course.completed .completed (some data) l with
        | (.ok _, l) => (.ok updated, tables', l)
        | (.error e, l) =>
          let (e, l) := fail course data e l
          (.error e, tables', l)

/-- `update_versioned_with_operation`. Between its two looks at the row other calls may change
it: `seen` are the tables at the first one, `tables` those at the second. -/
def updateVersionedWithOperation (course : Course) (update : VersionedUpdate) (now : Int)
    (seen tables : Tables c) (l : Ledger) : Except Exn Row × Tables c × Ledger :=
  match versionTables update.entity with
  | none =>
    (.error (.valueError ("entity is not versioned: " ++ update.entity.value)), tables, l)
  | some t =>
    match refusal course t seen update with
    | some e => (.error e, tables, l)
    | none => recordedEdit course t update (creatingWorldOverride seen update) now tables l

end Edit

end McManager.RowEdits
