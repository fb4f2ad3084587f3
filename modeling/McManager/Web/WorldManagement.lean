import McManager.Services.Configuration
import McManager.Services.WorldMutations
import McManager.Web.Requests

namespace McManager.Web

open Operations

/-- The services a route finds in the container; `dumps` is `json.dumps` of a list of texts. -/
structure Container where
  worlds : WorldsService
  configuration : OperationService
  dumps : List String → String

/-- `_operation_response`. -/
def operationResponse (operation : Operation) (replayed : Bool) : Prog Response :=
  if operation.status = .queued ∧ operation.worldId.any (· ≠ "") then do
    let position ← read .operationRead fun db => db.operations.countP fun op =>
      op.worldId == operation.worldId && op.status == .queued &&
        (decide (op.createdAt < operation.createdAt) ||
          op.createdAt == operation.createdAt && decide (op.opId ≤ operation.opId))
    pure (.operation operation replayed (some position))
  else pure (.operation operation replayed none)

/-- `_world`. -/
def liveWorld (worldId : String) : Prog (Option World) :=
  read .worldRead fun db => (db.world? worldId).filter World.live

def field (body : Body) (key : String) : Json := (body.lookup key).getD .null

def displayNameOf (value : Json) : Option String :=
  value.str?.filter fun s => strip s ≠ "" ∧ s.length ≤ 120

def portOf (value : Json) : Option Int :=
  value.int?.filter fun p => 1 ≤ p ∧ p ≤ 65535

def versionOf (value : Json) : Option Int := value.int?.filter fun v => 1 ≤ v

def addressingValueOf (value : Json) : Option String := value.str?.filter fun s => strip s ≠ ""

/-- A set can be asked for hashable values only. -/
def strategyOf : Json → Except Exn (Option String)
  | .str s => .ok ((some s).filter (["subdomain", "port", "path"].contains ·))
  | .arr _ => .error (.typeError "unhashable type: 'list'")
  | .obj _ => .error (.typeError "unhashable type: 'dict'")
  | _ => .ok none

/-- A field the body may leave out. -/
def launchArgsOf : Option Json → Option (Option (List String))
  | none => some none
  | some value => value.strings?.map some

/-- The fields of a `create_world` body. -/
structure CreateFields where
  displayName : String
  templateId : String
  port : Int
  addressingStrategy : String
  addressingValue : String
  javaRuntimeId : String
  launchArgs : Option (List String)

/-- The validation of `create_world`, the fields in the order of the source. -/
def createFields (body : Body) : Except Exn (Option CreateFields) :=
  match displayNameOf (field body "display_name"),
    (field body "template_id").str?.filter (· ≠ ""), portOf (field body "port") with
  | some displayName, some templateId, some port => do
    let strategy ← strategyOf (field body "addressing_strategy")
    pure (do
      let addressingStrategy ← strategy
      let addressingValue ← addressingValueOf (field body "addressing_value")
      let javaRuntimeId ← (field body "java_runtime_id").str?
      let launchArgs ← launchArgsOf (body.lookup "launch_args")
      some { displayName, templateId, port, addressingStrategy, addressingValue, javaRuntimeId
             launchArgs })
  | _, _, _ => pure none

def createKeys : List String :=
  ["template_id", "display_name", "port", "addressing_strategy", "addressing_value",
    "java_runtime_id"]

def serverTypes : List String := ["vanilla", "paper", "fabric", "forge"]

def emptyKey : Response := .error "VALIDATION_ERROR" "Idempotency-Key must not be empty."

/-- Run a route that takes an idempotency key; an operation with the key answers at once. -/
def withKey (opType : OperationType) (header : Option String) (route : String → Prog Response) :
    Prog Response := do
  let key ← idempotencyKey header
  match key with
  | none => pure emptyKey
  | some key => do
    let existing ← getByIdempotencyKey opType key
    match existing with
    | some operation => operationResponse operation true
    | none => route key

/-- `create_world`. -/
def createWorld (c : Container) (userId : String) (header : Option String) (body : Option Body) :
    Prog Response :=
  withKey .createWorld header fun key =>
    match body.filter fun body => createKeys.all fun k => (body.lookup k).isSome with
    | none => pure (.error "VALIDATION_ERROR" "Required world fields are missing.")
    | some body =>
      match createFields body with
      | .error e => throw e
      | .ok none => pure (.error "VALIDATION_ERROR" "World fields are invalid.")
      | .ok (some fields) => do
        let template ← ask (.template fields.templateId)
        let runtime ← ask (.runtime fields.javaRuntimeId)
        match template.filter fun _ => runtime with
        | none =>
          pure (.error "VALIDATION_ERROR" "A live template and Java runtime are required.")
        | some (category, defaultVersion) =>
          if !serverTypes.contains category then
            pure (.error "VALIDATION_ERROR" "The template has an unsupported server type.")
          else do
            let at' ← now
            let worldId ← uuid "w"
            let duplicate ← read .worldRead fun db => db.worlds.any fun w =>
              w.live && (w.displayName == strip fields.displayName || w.port == fields.port)
            if duplicate then
              pure (.error "WORLD_CONFLICT" "World name or port is already in use.")
            else do
              let (operation, replayed) ← Worlds.enqueueWorldMutation c.worlds .createWorld none
                userId key {
                  worldAction := some "create"
                  world := some {
                    worldId
                    displayName := strip fields.displayName
                    templateId := fields.templateId
                    serverType := category
                    mcVersion := defaultVersion
                    javaRuntimeId := fields.javaRuntimeId
                    port := fields.port
                    addressingStrategy := fields.addressingStrategy
                    addressingValue := strip fields.addressingValue
                    launchArgs := fields.launchArgs.map c.dumps
                    now := at' } }
              operationResponse operation replayed

def renameKeys : List String := ["display_name", "version"]

/-- The display name and the version of an `update_world` body. -/
def renameFields (body : Body) : Option (String × Int) :=
  if (body.all fun member => renameKeys.contains member.1) &&
      renameKeys.all fun k => (body.lookup k).isSome then do
    let displayName ← displayNameOf (field body "display_name")
    let version ← versionOf (field body "version")
    some (strip displayName, version)
  else none

/-- The edit `update_world` asks for. -/
def renameUpdate (userId worldId displayName : String) (version : Int) :
    Configuration.VersionedUpdate where
  edit := .world worldId { displayName := some displayName }
  expectedVersion := version
  actorType := .user
  actorUserId := some userId

/-- The `except` clauses of `update_world`. -/
def renameFailed : Exn → Prog (Option Response)
  | .configurationConflict _ =>
    pure (some (.error "CONFIG_VERSION_CONFLICT" "Configuration changed; reload and retry."))
  | e =>
    if contains e.text "UNIQUE constraint failed" then
      pure (some (.error "WORLD_NAME_CONFLICT" "World name is already in use."))
    else throw e

/-- `update_world`. -/
def updateWorld (c : Container) (userId worldId : String) (body : Option Body) : Prog Response :=
  match body.bind renameFields with
  | none => pure (.error "VALIDATION_ERROR" "A display name and metadata version are required.")
  | some (displayName, version) => do
    let there ← liveWorld worldId
    match there with
    | none => pure (.error "WORLD_NOT_FOUND" "World not found.")
    | some _ => do
      let refused ← ((Configuration.updateVersioned c.configuration
        (renameUpdate userId worldId displayName version)).bind fun _ => .ret none).handle
          renameFailed
      match refused with
      | some response => pure response
      | none => do
        let row ← Worlds.world worldId
        pure (.world row)

def runtimeKeys : List String :=
  ["java_runtime_id", "launch_args", "port", "addressing_strategy", "addressing_value", "version"]

/-- What an `update_runtime_config` body sets beside the Java runtime, or what is wrong with it. -/
def runtimeFields (c : Container) (body : Body) : Except Exn (Except String WorldFields) :=
  let launchArgs := (body.lookup "launch_args").map Json.strings?
  let port := (body.lookup "port").map portOf
  if launchArgs = some none then
    pure (.error "launch_args must be a non-empty string list.")
  else if port = some none then pure (.error "port must be between 1 and 65535.")
  else do
    let strategy ← (body.lookup "addressing_strategy").mapM strategyOf
    let value := (body.lookup "addressing_value").map addressingValueOf
    if strategy = some none then pure (.error "addressing_strategy is unsupported.")
    else if value = some none then
      pure (.error "addressing_value must be a non-empty string.")
    else pure (.ok {
      javaRuntimeId := (field body "java_runtime_id").str?
      launchArgs := launchArgs.join.map c.dumps
      port := port.join
      addressingStrategy := strategy.join
      addressingValue := value.join })

/-- The values a world has where an edit sets others. -/
def WorldFields.shadow (fields : WorldFields) (w : World) : WorldFields where
  displayName := fields.displayName.map fun _ => w.displayName
  javaRuntimeId := fields.javaRuntimeId.map fun _ => w.javaRuntimeId
  launchArgs := fields.launchArgs.bind fun _ => w.launchArgs
  port := fields.port.map fun _ => w.port
  addressingStrategy := fields.addressingStrategy.map fun _ => w.addressingStrategy
  addressingValue := fields.addressingValue.map fun _ => w.addressingValue

/-- Whether the Java runtime of the body, if it names one, is live. -/
def runtimeLive (body : Body) : Prog Bool :=
  match body.lookup "java_runtime_id" with
  | none => pure true
  | some (.str runtimeId) => ask (.runtime runtimeId)
  | some (.arr _) => throw (.typeError "type 'list' is not supported")
  | some (.obj _) => throw (.typeError "type 'dict' is not supported")
  | some _ => pure false

/-- `update_runtime_config`. -/
def updateRuntimeConfig (c : Container) (userId worldId : String) (header : Option String)
    (body : Option Body) : Prog Response :=
  withKey .configEdit header fun key =>
    match body.bind fun body =>
        if body.all fun member => runtimeKeys.contains member.1 then
          (versionOf (field body "version")).map (body, ·)
        else none with
    | none =>
      pure (.error "VALIDATION_ERROR" "A valid version and runtime fields are required.")
    | some (body, version) => do
      let there ← liveWorld worldId
      match there with
      | none => pure (.error "WORLD_NOT_FOUND" "World not found.")
      | some w =>
        if w.state ≠ .off then
          pure (.error "WORLD_RUNTIME_CONFIG_STATE" "Runtime configuration requires an off world.")
        else if version ≠ w.metadataVersion then
          pure (.error "CONFIG_VERSION_CONFLICT" "Configuration changed; reload and retry.")
        else if body.all fun member => member.1 == "version" then
          pure (.error "VALIDATION_ERROR" "At least one runtime field is required.")
        else do
          let live ← runtimeLive body
          if !live then pure (.error "VALIDATION_ERROR" "A live Java runtime is required.")
          else
            match runtimeFields c body with
            | .error e => throw e
            | .ok (.error message) => pure (.error "VALIDATION_ERROR" message)
            | .ok (.ok after) => do
              let duplicate ← match after.port with
                | none => pure false
                | some port => read .worldRead fun db => db.worlds.any fun other =>
                  other.live && other.port == port && other.worldId != worldId
              if duplicate then
                pure (.error "WORLD_PORT_CONFLICT" "World port is already in use.")
              else do
                let (operation, replayed) ← Worlds.enqueueWorldMutation c.worlds .configEdit
                  (some worldId) userId key {
                    entity := some "world_instances"
                    rowId := some worldId
                    before := some (.world (WorldFields.shadow after w))
                    after := some (.world after)
                    expectedVersion := some version
                    queuedRuntimeConfig := true }
                operationResponse operation replayed

end McManager.Web
