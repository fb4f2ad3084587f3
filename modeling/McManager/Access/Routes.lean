import McManager.Access.Middleware

namespace McManager.Access

open Framework

/-- A part of a rule: a text, or a parameter, which takes any segment. -/
inductive Part
  | text (s : String)
  | param (name : String)
  deriving DecidableEq, Repr

instance : Coe String Part := ⟨.text⟩

/-- The segments of a rule with these values for its parameters. A parameter without one keeps
its name. -/
def Part.fill : List Part → List String → List String
  | [], _ => []
  | .text s :: rest, values => s :: fill rest values
  | .param _ :: rest, v :: values => v :: fill rest values
  | .param name :: rest, [] => ("<" ++ name ++ ">") :: fill rest []

def Part.isParam : Part → Bool
  | .param _ => true
  | .text _ => false

/-- What the route catalog of Document 10 asks of a user: `A` or `SA`. -/
inductive Rank
  | admin | superadmin
  deriving DecidableEq, Repr

/-- An entry of the catalog; `stepUp` is `S`. -/
structure Mark where
  rank : Rank
  stepUp : Bool := false
  deriving DecidableEq, Repr

/-- The handlers that the catalog marks `A`, `SA` or `S`. -/
inductive Handler
  | createWorld | updateWorld | worldDeletePreview | deleteWorld
  | getRuntimeConfig | updateRuntimeConfig | worldStop | worldKill | worldEulaAccept
  | listSchedules | createSchedule | updateSchedule | deleteSchedule
  | listMissedRuns | resolveMissedRun
  | getGlobalSettings | updateGlobalSettings | getWorldSettings | updateWorldSettings
  | managerBackup | managerRestore | managerRestart | managerUpdate | managerRollback
  | completeSetup
  | createTemplate | updateTemplate | deprecateTemplate
  | listJavaRuntimes | registerJavaRuntime | verifyJavaRuntime | updateJavaRuntime
  | deprecateJavaRuntime
  | listUsers | createUser | updateUser | deleteUser
  | listRoles | createRole | updateRole | deleteRole | listRolePermissions
  | grantPermission | revokePermission
  | listDevices | updateDevice | deviceSessions
  | listWorldFiles | downloadWorldFile | uploadWorldFile | createWorldDirectory | editWorldFile
  | deleteWorldFile
  | listWorldLogFiles | downloadWorldLog | tailWorldLog
  | diagnostics
  deriving DecidableEq, Repr

namespace Handler

/-- The method and the rule a handler is registered with, below `/api`. -/
def route : Handler → Method × List Part
  | createWorld => (.post, ["worlds"])
  | updateWorld => (.patch, ["worlds", .param "world_id"])
  | worldDeletePreview => (.post, ["worlds", .param "world_id", "delete-preview"])
  | deleteWorld => (.delete, ["worlds", .param "world_id"])
  | getRuntimeConfig => (.get, ["worlds", .param "world_id", "runtime-config"])
  | updateRuntimeConfig => (.patch, ["worlds", .param "world_id", "runtime-config"])
  | worldStop => (.post, ["worlds", .param "world_id", "stop"])
  | worldKill => (.post, ["worlds", .param "world_id", "kill"])
  | worldEulaAccept => (.post, ["worlds", .param "world_id", "eula", "accept"])
  | listSchedules => (.get, ["schedules"])
  | createSchedule => (.post, ["schedules"])
  | updateSchedule => (.patch, ["schedules", .param "schedule_id"])
  | deleteSchedule => (.delete, ["schedules", .param "schedule_id"])
  | listMissedRuns => (.get, ["missed-runs"])
  | resolveMissedRun => (.patch, ["missed-runs", .param "missed_run_id"])
  | getGlobalSettings => (.get, ["settings"])
  | updateGlobalSettings => (.patch, ["settings"])
  | getWorldSettings => (.get, ["worlds", .param "world_id", "settings"])
  | updateWorldSettings => (.patch, ["worlds", .param "world_id", "settings"])
  | managerBackup => (.post, ["manager", "backup"])
  | managerRestore => (.post, ["manager", "restore"])
  | managerRestart => (.post, ["manager", "restart"])
  | managerUpdate => (.post, ["manager", "update"])
  | managerRollback => (.post, ["manager", "rollback"])
  | completeSetup => (.post, ["setup"])
  | createTemplate => (.post, ["templates"])
  | updateTemplate => (.patch, ["templates", .param "template_id"])
  | deprecateTemplate => (.delete, ["templates", .param "template_id"])
  | listJavaRuntimes => (.get, ["java-runtimes"])
  | registerJavaRuntime => (.post, ["java-runtimes"])
  | verifyJavaRuntime => (.post, ["java-runtimes", .param "runtime_id", "verify"])
  | updateJavaRuntime => (.patch, ["java-runtimes", .param "runtime_id"])
  | deprecateJavaRuntime => (.delete, ["java-runtimes", .param "runtime_id"])
  | listUsers => (.get, ["users"])
  | createUser => (.post, ["users"])
  | updateUser => (.patch, ["users", .param "user_id"])
  | deleteUser => (.delete, ["users", .param "user_id"])
  | listRoles => (.get, ["roles"])
  | createRole => (.post, ["roles"])
  | updateRole => (.patch, ["roles", .param "role_id"])
  | deleteRole => (.delete, ["roles", .param "role_id"])
  | listRolePermissions => (.get, ["roles", .param "role_id", "permissions"])
  | grantPermission => (.post, ["permissions"])
  | revokePermission => (.delete, ["permissions", .param "permission_id"])
  | listDevices => (.get, ["devices"])
  | updateDevice => (.patch, ["devices", .param "device_id"])
  | deviceSessions => (.get, ["devices", .param "device_id", "sessions"])
  | listWorldFiles => (.get, ["worlds", .param "world_id", "files"])
  | downloadWorldFile => (.get, ["worlds", .param "world_id", "files", "download"])
  | uploadWorldFile => (.post, ["worlds", .param "world_id", "files"])
  | createWorldDirectory => (.post, ["worlds", .param "world_id", "files", "mkdir"])
  | editWorldFile => (.patch, ["worlds", .param "world_id", "files"])
  | deleteWorldFile => (.delete, ["worlds", .param "world_id", "files"])
  | listWorldLogFiles => (.get, ["worlds", .param "world_id", "logs", .param "channel"])
  | downloadWorldLog =>
    (.get, ["worlds", .param "world_id", "logs", .param "channel", .param "file"])
  | tailWorldLog => (.get, ["worlds", .param "world_id", "logs", .param "channel", "tail"])
  | diagnostics => (.get, ["diagnostics"])

/-- The route catalog. -/
def mark : Handler → Mark
  | deleteWorld | worldKill | worldEulaAccept | managerRestore | managerRestart
  | deleteWorldFile => ⟨.admin, true⟩
  | managerUpdate | managerRollback => ⟨.superadmin, true⟩
  | completeSetup
  | listUsers | createUser | updateUser | deleteUser
  | listRoles | createRole | updateRole | deleteRole | listRolePermissions
  | grantPermission | revokePermission
  | listDevices | updateDevice | deviceSessions => ⟨.superadmin, false⟩
  | _ => ⟨.admin, false⟩

/-- The segments of the path of a request for this handler. -/
def segments (h : Handler) (values : List String) : List String :=
  "api" :: Part.fill h.route.2 values

def path (h : Handler) (values : List String) : String := UrlPath.text (h.segments values)

/-- A handler of `GET` also serves `HEAD`. -/
def accepts (h : Handler) (m : Method) : Bool :=
  m == h.route.1 || (h.route.1 == .get && m == .head)

def params (h : Handler) : Nat := h.route.2.countP Part.isParam

/-- The request is routed to the handler, with these parameters. -/
structure Serves (h : Handler) (values : List String) (req : HttpRequest) : Prop where
  method : h.accepts req.method = true
  count : values.length = h.params
  words : ∀ v ∈ values, UrlPath.Word v
  path : req.path = h.path values

end Handler

end McManager.Access
