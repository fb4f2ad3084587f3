import Mathlib.Data.String.Basic
import McManager.Framework.Layers
import McManager.Services.RowEdits
import McManager.Web.JsonText

/-! The settings of a world: those of the manager, and what the world puts over them. -/

namespace McManager.Settings

open Framework RowEdits Web

/-- A value of a dictionary of settings: what a column holds, or what is decoded from it. -/
inductive Setting
  | stored (value : Value)
  | decoded (value : Json)

/-- `value is None`. -/
def Setting.isNone : Setting → Bool
  | .stored .null | .decoded .null => true
  | _ => false

/-- `json.loads(value)` of a column that is not `None`. -/
def decode : Value → Except Exn Setting
  | .null => .ok (.stored .null)
  | .text s =>
    match JsonText.loads s.toList with
    | some value => .ok (.decoded value)
    | none => .error (.valueError "Expecting value")
  | _ => .error (.typeError "the JSON object must be str, bytes or bytearray")

/-- What `resolve_global` returns. -/
structure GlobalSettings where
  settingsId : String
  row : Row
  notificationDefaults : Setting
  offsiteSyncDefaults : Setting

def GlobalSettings.get (settings : GlobalSettings) (key : String) : Setting :=
  if key = "notification_defaults" then settings.notificationDefaults
  else if key = "offsite_sync_defaults" then settings.offsiteSyncDefaults
  else .stored (settings.row.get key)

/-- What `resolve_world` returns. -/
structure WorldSettings where
  row : Row
  offsiteSyncOverride : Setting

def WorldSettings.get (settings : WorldSettings) (column : String) : Setting :=
  if column = "offsite_sync_override" then settings.offsiteSyncOverride
  else .stored (settings.row.get column)

def textOf : Value → Option String
  | .text s => some s
  | _ => none

section Resolving

variable {c : Declaration}

def settingsIds (tables : Tables c) : List String :=
  (tables .globalSettings).rows.filterMap fun row => textOf (row.get (c.schema .globalSettings).key)

/-- `SELECT * FROM global_settings ORDER BY settings_id LIMIT 1`. -/
def firstSettings (tables : Tables c) : Option (String × Row) := do
  let id ← (settingsIds tables).min?
  let row ← (tables .globalSettings).find (.text id)
  pure (id, row)

/-- `resolve_global`. -/
def resolveGlobal (tables : Tables c) : Except Exn GlobalSettings :=
  match firstSettings tables with
  | none => .error (.keyError "global_settings")
  | some (settingsId, row) => do
    let notificationDefaults ← decode (row.get "notification_defaults")
    let offsiteSyncDefaults ← decode (row.get "offsite_sync_defaults")
    pure { settingsId, row, notificationDefaults, offsiteSyncDefaults }

/-- `resolve_world`. -/
def resolveWorld (tables : Tables c) (worldId : String) : Except Exn (Option WorldSettings) :=
  match (tables .worldSettings).find (.text worldId) with
  | none => .ok none
  | some row => do
    let offsiteSyncOverride ← decode (row.get "offsite_sync_override")
    pure (some { row, offsiteSyncOverride })

def effectiveKeys : List String :=
  ["timezone", "idle_countdown_seconds", "notification_defaults", "minecraft_root_path",
    "backup_root_path", "log_root_path", "offsite_sync_defaults"]

def overrides : List (String × String) :=
  [("idle_countdown_seconds", "idle_countdown_override"),
    ("minecraft_root_path", "minecraft_root_override"),
    ("backup_root_path", "backup_root_override"), ("log_root_path", "log_root_override"),
    ("offsite_sync_defaults", "offsite_sync_override")]

/-- The value that a world puts over a setting, if it does. -/
def WorldSettings.override (settings : WorldSettings) (column : String) : Option Setting :=
  let value := settings.get column
  if value.isNone then none else some value

/-- `resolve_effective`: it looks at the settings of the manager first, and at those of the world
later. -/
def resolveEffective (first later : Tables c) (worldId : String) :
    Except Exn (List (String × Setting)) := do
  let globalSettings ← resolveGlobal first
  let worldSettings ← resolveWorld later worldId
  let effective := effectiveKeys.map fun key => (key, globalSettings.get key)
  match worldSettings with
  | none => pure effective
  | some worldSettings =>
    pure (overrides.foldl (fun effective o =>
      ((worldSettings.override o.2).map (OrderedDict.set effective o.1)).getD effective) effective)

end Resolving

end McManager.Settings
