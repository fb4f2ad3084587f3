import McManager.Access.Authentication
import McManager.Framework.UrlPath
import McManager.Web.Requests

namespace McManager.Access

open Framework

inductive Method
  | get | head | options | post | patch | delete | other
  deriving DecidableEq, Repr

/-- What the middleware looks at in a request. A missing cookie or header is empty; `body` is the
JSON object of the body, if it is one. -/
structure HttpRequest where
  method : Method
  path : String
  body : Option Web.Body := none
  sessionCookie : String := ""
  csrfCookie : String := ""
  csrfHeader : String := ""

structure Refusal where
  code : String
  message : String
  status : Nat
  deriving DecidableEq, Repr

/-- What the middleware is built with. -/
structure Middleware where
  auth : AuthenticationService
  sessionCsrfToken : String → String

def csrfInvalid : Refusal := ⟨"CSRF_INVALID", "CSRF token validation failed.", 403⟩

def sessionInvalid : Refusal := ⟨"AUTH_SESSION_INVALID", "A valid session is required.", 401⟩

def stepUpRequired : Refusal := ⟨"STEP_UP_REQUIRED", "A fresh step-up is required.", 403⟩

def forbidden (message : String) : Refusal := ⟨"AUTH_FORBIDDEN", message, 403⟩

/-- `_STATE_CHANGING_METHODS`. -/
def Method.stateChanging (m : Method) : Bool := [Method.post, .patch, .delete].contains m

def adminRoles : List String := ["Admin", "Superadmin"]

/-- The live assignments of a user to a live role of one of these names. -/
def Database.holdsRole (db : Database) (userId : String) (names : List String) : Bool :=
  db.assignments.any fun a => a.userId == userId && a.deletedAt.isNone &&
    db.roles.any fun r => r.roleId == a.roleId && r.deletedAt.isNone && names.contains r.name

namespace HttpRequest

/-- `_is_public_request`. -/
def isPublicRequest (req : HttpRequest) : Bool :=
  req.path == "/" || startsWith req.path "/pages/" || startsWith req.path "/static/" ||
  req.path == "/api/health" || req.path == "/api/auth/login" || req.method == .options

/-- `_requires_step_up`. -/
def requiresStepUp (req : HttpRequest) : Bool :=
  let segments := pathSegments req.path
  req.method.stateChanging &&
    (endsWith req.path "/stop" || endsWith req.path "/kill" ||
      endsWith req.path "/eula/accept" || endsWith req.path "/runtime-config" ||
      (req.method == .delete && startsWith req.path "/api/worlds/" && segments.length == 3) ||
      (req.method == .delete && startsWith req.path "/api/worlds/" && segments.length == 4 &&
        segments[3]? == some "files") ||
      req.path == "/api/manager/restore" ||
      ["/api/manager/update", "/api/manager/rollback"].contains req.path ||
      (req.method == .patch && startsWith req.path "/api/users/" &&
        req.body.any fun body => (body.lookup "username").isSome))

/-- `_requires_admin`. -/
def requiresAdmin (req : HttpRequest) : Bool :=
  let segments := pathSegments req.path
  let protectedWorldFiles := startsWith req.path "/api/worlds/" && decide (4 ≤ segments.length) &&
    segments[3]? == some "files"
  let protectedWorldLogs := startsWith req.path "/api/worlds/" && decide (5 ≤ segments.length) &&
    segments[3]? == some "logs"
  req.path == "/api/diagnostics" || req.path == "/api/settings" ||
    (startsWith req.path "/api/worlds/" && endsWith req.path "/settings") ||
    startsWith req.path "/api/supervisor/" || endsWith req.path "/stop" ||
    endsWith req.path "/kill" || endsWith req.path "/eula/accept" ||
    endsWith req.path "/runtime-config" || protectedWorldFiles || protectedWorldLogs ||
    endsWith req.path "/delete-preview" ||
    (req.method.stateChanging &&
      (startsWith req.path "/api/schedules" || startsWith req.path "/api/templates" ||
        startsWith req.path "/api/java-runtimes" ||
        ["/api/manager/backup", "/api/manager/restore", "/api/manager/restart",
          "/api/manager/update", "/api/manager/rollback"].contains req.path)) ||
    (req.method.stateChanging && startsWith req.path "/api/worlds/" &&
      !endsWith req.path "/start")

/-- `_requires_superadmin`. -/
def requiresSuperadmin (req : HttpRequest) : Bool :=
  (req.path == "/api/setup" && req.method == .post) ||
  ["/api/users", "/api/roles", "/api/permissions", "/api/devices"].any (startsWith req.path) ||
  ["/api/manager/update", "/api/manager/rollback"].contains req.path

end HttpRequest

/-- `hmac.compare_digest` on two texts. -/
def compareDigest (a b : String) : Prog Bool :=
  if (a.toList ++ b.toList).all (·.toNat < 128) then pure (a == b)
  else throw (.typeError "comparing strings with non-ASCII characters is not supported")

/-- The double submit of a token. -/
def submitsToken (req : HttpRequest) : Prog Bool :=
  if req.csrfCookie = "" ∨ req.csrfHeader = "" then pure false
  else compareDigest req.csrfCookie req.csrfHeader

/-- The token of a state-changing request belongs to its session. -/
def csrfHolds (mw : Middleware) (req : HttpRequest) (session : Issued) : Prog Bool :=
  if req.method.stateChanging then do
    let submitted ← submitsToken req
    if submitted then compareDigest req.csrfCookie (mw.sessionCsrfToken session.token)
    else pure false
  else pure true

/-- The session behind the cookie, if it is valid. -/
def currentSession (mw : Middleware) (req : HttpRequest) : Prog (Option Issued) :=
  ((Authentication.validateSession mw.auth req.sessionCookie).bind fun s => .ret (some s)).handle
    fun e =>
      match e with
      | .session _ => .ret none
      | e => .raise e

def roleRefusal (req : HttpRequest) (userId : String) : Prog (Option Refusal) :=
  if req.requiresSuperadmin then do
    let role ← read .role (·.holdsRole userId ["Superadmin"])
    pure (if role then none else some (forbidden "A Superadmin role is required."))
  else if req.requiresAdmin then do
    let role ← read .role (·.holdsRole userId adminRoles)
    pure (if role then none else some (forbidden "An administrator role is required."))
  else pure none

def stepUpRefusal (req : HttpRequest) (session : Issued) : Prog (Option Refusal) :=
  if req.requiresStepUp then
    ((Authentication.requireStepUp session).bind fun _ => .ret none).handle fun e =>
      match e with
      | .stepUpRequired _ => .ret (some stepUpRequired)
      | e => .raise e
  else pure none

/-- The part of the middleware for requests that need a session. -/
def authenticateRequest (mw : Middleware) (req : HttpRequest) : Prog (Option Refusal) :=
  if req.sessionCookie = "" then pure (some sessionInvalid)
  else do
    let session ← currentSession mw req
    match session with
    | none => pure (some sessionInvalid)
    | some session => do
      let csrf ← csrfHolds mw req session
      if csrf then do
        let refused ← roleRefusal req session.userId
        match refused with
        | some refusal => pure (some refusal)
        | none => stepUpRefusal req session
      else pure (some csrfInvalid)

/-- The first-run setup is open while there is no user. -/
def firstRun (req : HttpRequest) : Prog Bool :=
  if req.path = "/api/setup" ∧ req.method = .post then
    read .liveUsers fun db => db.users.countP User.live == 0
  else pure false

/-- `authenticate_and_validate_csrf`: nothing, when the request goes on to its handler. -/
def authenticateAndValidateCsrf (mw : Middleware) (req : HttpRequest) : Prog (Option Refusal) := do
  let first ← firstRun req
  if first then do
    let submitted ← submitsToken req
    pure (if submitted then none else some csrfInvalid)
  else if req.isPublicRequest then
    if req.path = "/api/auth/login" ∧ req.method.stateChanging then do
      let submitted ← submitsToken req
      pure (if submitted then none else some csrfInvalid)
    else pure none
  else authenticateRequest mw req

end McManager.Access
