import McManager.Access.Authentication
import McManager.Web.Requests

namespace McManager.Access

open Framework Web

/-- What the user and device routes answer. -/
inductive Reply
  | error (code message : String)
  | ok (id : String)
  deriving DecidableEq, Repr

namespace Database

/-- The live assignments of a user to a live role of the name `Superadmin`. -/
def isSuperadmin (db : Database) (userId : String) : Bool :=
  db.assignments.any fun a => a.userId == userId && a.deletedAt.isNone &&
    db.roles.any fun r => r.roleId == a.roleId && r.deletedAt.isNone && r.name == "Superadmin"

def activeSuperadmin (db : Database) (u : User) : Bool :=
  u.live && u.status == .active && db.isSuperadmin u.userId

/-- `count(DISTINCT u.user_id)` of the active Superadmins. -/
def activeSuperadmins (db : Database) : Nat :=
  ((db.users.filter db.activeSuperadmin).map User.userId).dedup.length

end Database

/-- The look for a live user of the user routes. -/
def liveTarget (userId : String) : Prog Bool :=
  read .target fun db => db.users.any fun u => u.userId == userId && u.live

def userKeys : List String := ["display_name", "status", "password", "username"]

/-- The statuses `update_user` may set. -/
def statusOf : Json → Option UserStatus
  | .str "active" => some .active
  | .str "disabled" => some .disabled
  | _ => none

/-- The fields of an `update_user` body, or what is wrong with them. -/
def userFields (body : Body) : Except Exn (Except String UserFields) :=
  match (body.lookup "username").map fun v => v.str?.filter fun s => strip s ≠ "" with
  | some none => .ok (.error "username must be a non-empty string.")
  | username =>
    match body.lookup "display_name" with
    | some (.bool _) | some (.int _) | some (.float _) | some (.arr _) | some (.obj _) =>
      .ok (.error "display_name must be a string or null.")
    | displayName =>
      match body.lookup "status" with
      | some (.arr _) => .error (.typeError "unhashable type: 'list'")
      | some (.obj _) => .error (.typeError "unhashable type: 'dict'")
      | status =>
        let known := status.map statusOf
        if known = some none then .ok (.error "status must be active or disabled.")
        else .ok (.ok {
          username := username.join.map strip
          displayName := displayName.map Json.str?
          status := known.join })

def lastSuperadmin (verb : String) : Reply :=
  .error "FORBIDDEN_LAST_SUPERADMIN" ("Cannot " ++ verb ++ " the last active Superadmin.")

/-- The check of `update_user` before it disables a user. -/
def mayDisable (userId : String) : Prog Bool := do
  let superadmin ← read .superadmins (·.isSuperadmin userId)
  if superadmin then do
    let active ← read .superadmins Database.activeSuperadmins
    pure (decide (1 < active))
  else pure true

/-- The password part of `update_user`, and what is wrong with it. -/
def setPassword (byUserId userId : String) : Option Json → Prog (Option Reply)
  | none => pure none
  | some (.str password) =>
    if password.length < 12 then
      pure (some (.error "VALIDATION_ERROR" "password must contain at least 12 characters."))
    else if userId = byUserId then
      pure (some (.error "VALIDATION_ERROR" "Use password change for your own account."))
    else do
      Authentication.changePassword userId password byUserId
      pure none
  | some _ =>
    pure (some (.error "VALIDATION_ERROR" "password must contain at least 12 characters."))

/-- The writes of `update_user` on the row, and the sessions a disabled user loses. -/
def writeUser (byUserId userId : String) (fields : UserFields) : Prog Reply :=
  if fields = {} then pure (.ok userId)
  else do
    let at' ← now
    let refused ← ((autocommit .updateUser
      (Body.write (.updateUser userId fields at'.seconds))).bind fun _ => .ret none).handle fun e =>
        (Program.perform .rollback).bind fun _ =>
          .ret (some (Reply.error "VALIDATION_ERROR" e.text))
    match refused with
    | some reply => pure reply
    | none => do
      if fields.status = some .disabled then do
        let at' ← now
        autocommit .updateUser (Body.write (.revokeSessions userId at'.seconds byUserId none))
      else pure ()
      pure (.ok userId)

/-- `update_user`. -/
def updateUser (byUserId userId : String) (body : Option Body) : Prog Reply :=
  match body.filter fun body =>
      !body.isEmpty && body.all fun member => userKeys.contains member.1 with
  | none => pure (.error "VALIDATION_ERROR" "Editable user fields are required.")
  | some body => do
    let there ← liveTarget userId
    if !there then pure (.error "NOT_FOUND" "User not found.")
    else
      match userFields body with
      | .error e => throw e
      | .ok (.error message) => pure (.error "VALIDATION_ERROR" message)
      | .ok (.ok fields) => do
        let allowed ← if fields.status = some .disabled then mayDisable userId else pure true
        if !allowed then pure (lastSuperadmin "disable")
        else do
          let refused ← setPassword byUserId userId (body.lookup "password")
          match refused with
          | some reply => pure reply
          | none => writeUser byUserId userId fields

/-- `delete_user`. -/
def deleteUser (byUserId userId : String) : Prog Reply := do
  let there ← liveTarget userId
  if !there then pure (.error "NOT_FOUND" "User not found.")
  else do
    let active ← read .superadmins Database.activeSuperadmins
    let superadmin ← read .superadmins (·.isSuperadmin userId)
    if superadmin && decide (active ≤ 1) then pure (lastSuperadmin "delete")
    else do
      let at' ← now
      autocommit .deleteUser (do
        Body.write (.deleteUser userId at'.seconds byUserId)
        Body.write (.revokeAssignments userId at'.seconds byUserId)
        Body.write (.revokeSessions userId at'.seconds byUserId none))
      pure (.ok userId)

def deviceKeys : List String := ["device_name", "status"]

/-- The statuses `update_device` knows; `revoked` is not one a device is stored with. -/
def deviceStatusOf : Json → Option (Option DeviceStatus)
  | .str "registered" => some (some .registered)
  | .str "unrecognized" => some (some .unrecognized)
  | .str "revoked" => some none
  | _ => none

/-- The fields of an `update_device` body, none where it revokes the device, or what is wrong with
them. -/
def deviceFields (body : Body) : Except Exn (Except String (Option DeviceFields)) :=
  match (body.lookup "device_name").map fun v => v.str?.filter fun s => strip s ≠ "" with
  | some none => .ok (.error "device_name must be a non-empty string.")
  | deviceName =>
    match body.lookup "status" with
    | some (.arr _) => .error (.typeError "unhashable type: 'list'")
    | some (.obj _) => .error (.typeError "unhashable type: 'dict'")
    | status =>
      match status.map deviceStatusOf with
      | some none => .ok (.error "status is invalid.")
      | some (some none) => .ok (.ok none)
      | known => .ok (.ok (some {
          deviceName := deviceName.join.map strip
          status := known.join.join }))

/-- `update_device`. -/
def updateDevice (byUserId deviceId : String) (body : Option Body) : Prog Reply :=
  match body.filter fun body =>
      !body.isEmpty && body.all fun member => deviceKeys.contains member.1 with
  | none => pure (.error "VALIDATION_ERROR" "Editable device fields are required.")
  | some body =>
    match deviceFields body with
    | .error e => throw e
    | .ok (.error message) => pure (.error "VALIDATION_ERROR" message)
    | .ok (.ok change) => do
      let there ← read .deviceRow fun db =>
        db.devices.any fun d => d.deviceId == deviceId && d.live
      if !there then pure (.error "NOT_FOUND" "Device not found.")
      else do
        let at' ← now
        match change with
        | none => do
          autocommit .updateDevice (Body.write (.revokeDevice deviceId at'.seconds byUserId))
          autocommit .updateDevice
            (Body.write (.revokeDeviceSessions deviceId at'.seconds byUserId))
          pure (.ok deviceId)
        | some fields => do
          autocommit .updateDevice (Body.write (.updateDevice deviceId fields))
          pure (.ok deviceId)

/-- The user name and the password of a setup body. -/
def credentials (body : Option Body) : Option (String × String) :=
  let text := fun key => body.bind fun body =>
    (body.lookup key).bind fun v => v.str?.filter fun s => strip s ≠ ""
  match text "username", text "password" with
  | some username, some password => some (strip username, password)
  | _, _ => none

/-- `complete_setup`. -/
def completeSetup (body : Option Body) : Prog Reply :=
  match credentials body with
  | none => pure (.error "VALIDATION_ERROR" "Username and password are required.")
  | some (username, password) => do
    let provisioned ← ((Authentication.provisionFirstSuperadmin username password).bind fun id =>
      .ret (Except.ok id)).handle fun e => .ret (.error e)
    match provisioned with
    | .error e => pure (.error "AUTH_FORBIDDEN" e.text)
    | .ok userId => do
      let at' ← now
      autocommit .completeSetup (Body.write (.completeSetup at'.seconds))
      pure (.ok userId)

end McManager.Access
