import McManager.Guarantees.EditChains
import McManager.Services.EffectiveSettings

/-! The routes of the settings. -/

namespace McManager.Settings

open Framework RowEdits Web

/-- What a route answers, or what it raises. -/
inductive Answer
  | error (code message : String)
  | settings (settings : List (String × Setting)) (version : Value)
  | raises (e : Exn)

/-- `_GLOBAL_FIELDS`. -/
def globalFields : List String :=
  ["timezone", "idle_countdown_seconds", "notification_defaults", "minecraft_root_path",
    "backup_root_path", "log_root_path", "offsite_sync_defaults"]

/-- `_WORLD_FIELDS`. -/
def worldFields : List (String × String) :=
  [("idle_countdown_seconds", "idle_countdown_override"),
    ("minecraft_root_path", "minecraft_root_override"),
    ("backup_root_path", "backup_root_override"), ("log_root_path", "log_root_override"),
    ("offsite_sync_defaults", "offsite_sync_override")]

/-- `_JSON_FIELDS`. -/
def jsonFields : List String := ["notification_defaults", "offsite_sync_defaults"]

section Requests

/-- Whether a request may give a setting a value. -/
def valid (worldOverride : Bool) (key : String) (value : Json) : Bool :=
  if key = "idle_countdown_seconds" then
    match value with
    | .null => true
    | .int n => 0 ≤ n
    | _ => false
  else if key ∈ jsonFields then
    match value with
    | .null | .obj _ => true
    | _ => false
  else
    match value with
    | .str _ => true
    | .null => worldOverride
    | _ => false

/-- `value is not None`. -/
def present : Json → Bool
  | .null => false
  | _ => true

/-- The value of a column as the database driver takes it; no other value is valid there. -/
def plain : Json → Value
  | .int n => .integer n
  | .str s => .text s
  | _ => .null

/-- What a column holds for the value of a setting. -/
def encoded (key : String) (value : Json) : Value :=
  if key ∈ jsonFields && present value then .text (String.ofList (JsonText.render 1 value))
  else plain value

/-- The values of a request, beside its version. -/
def requested (members : Body) : Body := members.filter (·.1 ≠ "version")

/-- What a request asks for: each column once. -/
structure Parsed where
  version : Int
  fields : List (String × Value)
  distinct : (fields.map (·.1)).Nodup

/-- The columns of a request, each with its value. -/
def columnFields (columns : List (String × String)) (values : Body) : List (String × Value) :=
  OrderedDict.ofList (values.filterMap fun m =>
    (columns.lookup m.1).map fun column => (column, encoded m.1 m.2))

theorem distinct_columnFields (columns : List (String × String)) (values : Body) :
    ((columnFields columns values).map (·.1)).Nodup := by
  have unique := OrderedDict.unique_ofList (values.filterMap fun m =>
    (columns.lookup m.1).map fun column => (column, encoded m.1 m.2))
  exact List.pairwise_map.mpr unique

/-- `_request_update`; `columns` has the column of each setting that can be edited. -/
def requestUpdate (columns : List (String × String)) (worldOverride : Bool) (body : Option Json) :
    Option Parsed :=
  match body with
  | some (.obj members) =>
    match members.lookup "version" with
    | some (.int version) =>
      let values := requested members
      if version < 0 || values.isEmpty || values.any (fun m => (columns.lookup m.1).isNone) ||
          !values.all fun m => valid worldOverride m.1 m.2 then none
      else some ⟨version, columnFields columns values, distinct_columnFields columns values⟩
    | _ => none
  | _ => none

end Requests

section Routes

variable {c : Declaration}

/-- A request to edit settings, with what comes from outside while it is served. -/
structure Request where
  text : JsonText.Text
  userId : String
  now : Int
  course : Course

/-- The call of `update_versioned_with_operation` for a request. -/
def Request.edit (request : Request) (entity : ConfigEditEntity) (rowId : String) (parsed : Parsed)
    (seen : Tables c) : Call c where
  course := request.course
  now := request.now
  seen := seen
  update :=
    { entity, rowId, expectedVersion := parsed.version, fields := parsed.fields,
      actorUserId := some request.userId, distinct := parsed.distinct }

def invalid : Answer := .error "VALIDATION_ERROR" "A version and editable settings are required."

/-- What a route makes of an exception of its edit. -/
def failed (missing : String) : Exn → Answer
  | .configurationConflict _ =>
    .error "CONFIG_VERSION_CONFLICT" "Configuration changed; reload and retry."
  | .keyError _ => .error "NOT_FOUND" missing
  | e => .raises e

def uninitialized : String := "Global settings are not initialized."

def globalColumns : List (String × String) := globalFields.map fun key => (key, key)

/-- `update_global_settings` up to the end of its edit. It looks at the settings first, as they
are `asked`. -/
def editGlobalSettings (request : Request) (asked seen tables : Tables c) :
    Except Answer Row × Tables c :=
  match requestUpdate globalColumns false (JsonText.loads request.text) with
  | none => (.error invalid, tables)
  | some parsed =>
    match resolveGlobal asked with
    | .error e => (.error (failed uninitialized e), tables)
    | .ok current =>
      let call := request.edit .globalSettings current.settingsId parsed seen
      ((call.result tables).mapError (failed uninitialized), call.after tables)

def shown (settings : GlobalSettings) : Answer :=
  .settings (globalFields.map fun key => (key, settings.get key)) (settings.row.get "version")

/-- `update_global_settings`; at last it looks at the settings as they are `told`. -/
def updateGlobalSettings (request : Request) (asked seen tables told : Tables c) :
    Answer × Tables c :=
  match editGlobalSettings request asked seen tables with
  | (.error answer, tables') => (answer, tables')
  | (.ok _, tables') =>
    match resolveGlobal told with
    | .error e => (.raises e, tables')
    | .ok settings => (shown settings, tables')

/-- `get_global_settings`. -/
def getGlobalSettings (tables : Tables c) : Answer :=
  match resolveGlobal tables with
  | .error (.keyError _) => .error "NOT_FOUND" uninitialized
  | .error e => .raises e
  | .ok settings => shown settings

/-- `SELECT 1 FROM world_instances WHERE world_id = ? AND deleted_at IS NULL`. -/
def live (tables : Tables c) (worldId : String) : Bool :=
  ((tables .worldInstances).find (.text worldId)).any fun row => row.get "deleted_at" = .null

def noWorld : Answer := .error "NOT_FOUND" "World not found."

/-- `SELECT version FROM world_settings WHERE world_id = ?`. -/
def overrideVersion (tables : Tables c) (worldId : String) : Option Value :=
  ((tables .worldSettings).find (.text worldId)).map (·.get "version")

/-- `get_world_settings`, which looks at the tables four times. -/
def getWorldSettings (checked counted first later : Tables c) (worldId : String) : Answer :=
  if live checked worldId then
    match resolveEffective first later worldId with
    | .error e => .raises e
    | .ok settings => .settings settings ((overrideVersion counted worldId).getD (.integer 0))
  else noWorld

/-- `update_world_settings` up to the end of its edit. -/
def editWorldSettings (request : Request) (worldId : String) (checked seen tables : Tables c) :
    Except Answer Row × Tables c :=
  if live checked worldId then
    match requestUpdate worldFields true (JsonText.loads request.text) with
    | none => (.error invalid, tables)
    | some parsed =>
      let call := request.edit .worldSettings worldId parsed seen
      ((call.result tables).mapError (failed "World not found."), call.after tables)
  else (.error noWorld, tables)

/-- `update_world_settings`. -/
def updateWorldSettings (request : Request) (worldId : String)
    (checked seen tables counted first later : Tables c) : Answer × Tables c :=
  match editWorldSettings request worldId checked seen tables with
  | (.error answer, tables') => (answer, tables')
  | (.ok _, tables') =>
    match resolveEffective first later worldId with
    | .error e => (.raises e, tables')
    | .ok settings =>
      match overrideVersion counted worldId with
      | none => (.raises (.typeError "'NoneType' object is not subscriptable"), tables')
      | some version => (.settings settings version, tables')

end Routes

end McManager.Settings
