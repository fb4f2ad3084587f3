import Mathlib.Data.List.Infix
import McManager.Services.Operations

namespace McManager

/-- The collaborators of `WorldsService` that may be absent. -/
structure WorldsService where
  operations : OperationService
  audit : Bool
  logs : Bool
  deriving DecidableEq, Repr

/-- The states `start` and `enqueue_start` refuse. -/
def WorldState.busy : WorldState → Bool
  | .starting | .running | .stopping => true
  | _ => false

namespace Worlds

open Framework Operations

def startReadinessTimeoutS : Nat := 120

def stopGracefulDeadlineS : Nat := 60

/-- `_world`: the row, deleted or not. -/
def world (worldId : String) : Prog World := do
  let row ← read .worldRead (·.world? worldId)
  match row with
  | some w => pure w
  | none => throw (.worldNotFound worldId)

def setWorldStateBlock (worldId : String) (state : WorldState) (intent : WorldTransitionIntent)
    (now : Int) : Block Unit := do
  let row ← Body.query (·.world? worldId)
  match row with
  | none => .raise (.worldNotFound ("world not found: " ++ worldId))
  | some w =>
    -- The domain value is built without `deleted_at`.
    match valid : validateWorldInstance worldId w.state w.preBackupState none with
    | some message => .raise (.domainInvariant message)
    | none =>
      match transitionWorld ⟨worldId, w.state, w.preBackupState, none, valid⟩ state intent with
      | .error message => .raise (.worldConflict message)
      | .ok next => Body.write (.setWorldState worldId next.state next.preBackupState now intent)

/-- `_set_world_state`. -/
def setWorldState (worldId : String) (state : WorldState)
    (intent : WorldTransitionIntent := .ordinary) : Prog Unit := do
  let at' ← now
  transaction (.setWorldState state) (setWorldStateBlock worldId state intent at')

/-- `_fail_op`. -/
def failOp (svc : WorldsService) (opId errorCode : String) (message : Option String) :
    Prog Unit := do
  let _ ← Operations.transition svc.operations opId .failed { errorCode := some errorCode, message }
  pure ()

/-- `_close_session`. -/
def closeSession (worldId : String) (reason : EndReason) : Prog Unit := do
  let at' ← now
  autocommit .closeSession (Body.write (.closeSessions worldId at' reason))

def refuseBusy (w : World) : Prog Unit :=
  if w.state.busy then
    throw (.worldConflict ("world " ++ w.worldId ++ " is already " ++ w.state.value))
  else pure ()

/-- `_launch_context`. -/
def launchContext (w : World) : Prog LaunchContext := do
  let java ← read .launchRead fun db =>
    (db.javaRuntimes.find? (·.runtimeId == w.javaRuntimeId)).map (·.executablePath)
  match java with
  | some javaPath => ask (.launchContext w javaPath)
  | none => throw (.worldLifecycle ("java runtime missing: " ++ w.javaRuntimeId))

def eulaAudited (db : Database) (worldId : String) : Bool :=
  db.audits.any fun a => a.worldId == some worldId && a.eventType == .worldEulaAccepted

/-- `_validate_launch`. -/
def validateLaunch (w : World) (context : LaunchContext) : Prog GateResult := do
  let eulaState ← ask (.detectEula context.worldDir)
  if eulaState ≠ .accepted then
    pure ⟨false, some "EULA_NOT_ACCEPTED", some "eula.txt not accepted"⟩
  else do
    let audited ← read .launchRead (eulaAudited · w.worldId)
    if audited then ask (.validateLaunch context)
    else pure ⟨false, some "EULA_NOT_ACCEPTED", some "EULA acceptance has not been audited"⟩

/-- `f"{gate.error_code}: {gate.detail}"`. -/
def GateResult.text (gate : GateResult) : String :=
  gate.errorCode.getD "None" ++ ": " ++ gate.detail.getD "None"

def GateResult.eula (gate : GateResult) : Bool := gate.errorCode == some "EULA_NOT_ACCEPTED"

/-- The launch gate before an operation exists: a refusal only records a missing EULA. -/
def preflight (worldId : String) : Prog Unit := do
  let pre ← world worldId
  refuseBusy pre
  let context ← launchContext pre
  let gate ← validateLaunch pre context
  if gate.passed then pure ()
  else do
    if GateResult.eula gate then setWorldState worldId .eulaRequired else pure ()
    throw (.worldLifecycle (GateResult.text gate))

/-- A condition of the form `rcon_port and rcon_password`. -/
def usesRcon (port : Int) (password : String) : Bool := port != 0 && password != ""

/-- `FernetSecretsStore.store`. -/
def storeSecret (secretType entityType entityId plaintext : String) : Prog String := do
  let secretId ← uuid "sec"
  let _ ← ask (.encrypt plaintext)
  let at' ← now
  autocommit .storeSecret (Body.write (.insertSecret ⟨secretId, secretType, entityType, entityId, at'⟩))
  pure secretId

/-- The part of the command line a later probe looks for. -/
def launchMarker (argv : List String) : String :=
  (argv.find? fun part => decide ("--marker=".toList <:+: part.toList) ||
    decide (".jar".toList <:+ part.toList)).getD (argv.getLast?.getD "")

/-- `_open_session`. -/
def openSession (w : World) (context : LaunchContext) (handle : ProcessHandle)
    (argv : List String) (password sessionId : String) : Prog Unit := do
  let secretId ← if usesRcon context.rconPort password then do
      let secretId ← storeSecret "rcon_credential" "runtime_session" sessionId password
      pure (some secretId)
    else pure none
  let at' ← now
  autocommit .openSession (Body.write (.insertSession {
    sessionId
    worldId := w.worldId
    startedAt := at'
    endedAt := none
    endReason := none
    rconSecretId := secretId
    portUsed := w.port
    javaRuntimeId := w.javaRuntimeId
    launchArgsSnapshot := {
      argv, pid := handle.pid, spawnEpoch := handle.spawnEpoch, cwd := context.worldDir,
      launchMarker := launchMarker argv }
    rconPort := some context.rconPort
    createdAt := at' }))

/-- What the readiness loop knows of the RCON connection. -/
structure RconProgress where
  connected : Bool := false
  ready : Bool := false
  valid : Bool := false

/-- `try: p except MinecraftRconError: recover`. -/
def rescueRcon {α : Type} (p recover : Prog α) : Prog α :=
  p.handle fun e =>
    match e with
    | .external (.rcon _) => recover
    | e => .raise e

def operational (port : Int) : List String → Prog Bool
  | [] => pure true
  | command :: rest => do
    let answered ← ask (.rconCommand port command)
    if answered then operational port rest else pure false

/-- One round of RCON in `_await_readiness`. -/
def rconRound (port : Int) (target : ReadinessTarget) (rcon : RconProgress) :
    Prog RconProgress := do
  let rcon ← if !rcon.connected then do
      let _ ← ask (.rconOpen port)
      rescueRcon (do
        let _ ← ask (.rconConnect port)
        let ready ← ask (.rconPing port)
        pure { rcon with connected := true, ready })
        (do
          let _ ← ask (.rconClose port)
          pure { rcon with connected := false })
    else if !rcon.ready then
      rescueRcon (do
        let ready ← ask (.rconPing port)
        pure { rcon with ready })
        (do
          let _ ← ask (.rconClose port)
          pure { rcon with connected := false, ready := false })
    else pure rcon
  if rcon.connected && rcon.ready && !target.commands.isEmpty then
    rescueRcon (do
      let valid ← operational port target.commands
      pure { rcon with valid })
      (pure { rcon with valid := false })
  else pure rcon

/-- `rcon.close()` where there is a client. -/
def closeRcon (port : Int) (rcon : RconProgress) : Prog Unit :=
  if rcon.connected then ask (.rconClose port) else pure ()

/-- `_teardown`. -/
def teardown (handle : ProcessHandle) (gracefulDeadline : Nat) : Prog Unit := do
  let _ ← (do
    let _ ← ask (.terminate handle gracefulDeadline)
    pure ()).handle fun e => do
      let _ ← ask (.closeHandle handle)
      .raise e
  ask (.closeHandle handle)

/-- The loop of `_await_readiness`, with the rounds that remain before its deadline. -/
def awaitRounds (w : World) (handle : ProcessHandle) (port : Int) (password : String)
    (target : ReadinessTarget) : Nat → RconProgress → Prog String
  | 0, rcon => do
    closeRcon port rcon
    teardown handle 0
    throw (.startTimeout ("world " ++ w.worldId ++ " did not reach " ++ target.level ++ " in time"))
  | n + 1, rcon => do
    let status ← ask (.poll handle)
    if !status.alive then
      throw (.startTimeout ("world " ++ w.worldId ++ " process exited before ready: " ++
        status.exitClass))
    else do
      let rcon ← if usesRcon port password then rconRound port target rcon else pure rcon
      let reached ← ask (.readiness w rcon.ready rcon.valid)
      match reached with
      | some level => do
        closeRcon port rcon
        pure level
      | none => awaitRounds w handle port password target n rcon

/-- `_await_readiness`. -/
def awaitReadiness (w : World) (handle : ProcessHandle) (port : Int) (password : String) :
    Prog String := do
  let target ← draw (.readinessTarget w.serverType)
  let n ← draw (.rounds startReadinessTimeoutS)
  awaitRounds w handle port password target n {}

/-- The gate of `start` once its operation runs. -/
def launchGate (svc : WorldsService) (worldId opId : String) (w : World)
    (context : LaunchContext) : Prog Unit := do
  let gate ← validateLaunch w context
  if gate.passed then pure ()
  else do
    failOp svc opId ((gate.errorCode.filter (· ≠ "")).getD "GATE_REJECTED") gate.detail
    setWorldState worldId (if GateResult.eula gate then .eulaRequired else .error)
    throw (.worldLifecycle (GateResult.text gate))

/-- `start` from the spawned process on. -/
def supervise (svc : WorldsService) (worldId opId : String) (w : World) (context : LaunchContext)
    (argv : List String) (password sessionId : String) (handle : ProcessHandle) : Prog String := do
  openSession w context handle argv password sessionId
  if svc.logs then ask (.tail handle) else pure ()
  let readiness ← awaitReadiness w handle context.rconPort password
  setWorldState worldId .running
  let _ ← Operations.transition svc.operations opId .completed {
    checkpoint := some {
      stage := "running", readiness := some readiness, sessionId := some sessionId }
    data := some { sessionId := some sessionId } }
  pure sessionId

/-- The guarded part of `start`. -/
def launch (svc : WorldsService) (worldId opId : String) : Prog String := do
  let _ ← Operations.transition svc.operations opId .running {
    checkpoint := some { stage := "validating" } }
  let w ← world worldId
  if w.state.busy then do
    let _ ← Operations.transition svc.operations opId .cancelled {
      message := some "conflict with current state" }
    throw (.worldConflict ("world " ++ worldId ++ " is already " ++ w.state.value))
  else do
    let context ← launchContext w
    launchGate svc worldId opId w context
    let password ← ask (.provisionRcon context)
    let argv ← ask (.launchCommand w context)
    let sessionId ← uuid "rs"
    setWorldState worldId .queued
    setWorldState worldId .starting
    let result ← ask (.spawn worldId argv context.worldDir sessionId)
    match result.handle with
    | none => do
      failOp svc opId "SPAWN_FAILED" result.spawnError
      setWorldState worldId .error
      throw (.spawnFailed ((result.spawnError.filter (· ≠ "")).getD "spawn failed"))
    | some handle => supervise svc worldId opId w context argv password sessionId handle

/-- The `except` clauses of `start`. -/
def launchFailed (svc : WorldsService) (worldId opId : String) (e : Exn) : Prog String :=
  match e with
  | .startTimeout text => do
    closeSession worldId .crashed
    setWorldState worldId .error
    let _ ← Operations.transition svc.operations opId .timedOut {
      errorCode := some "START_TIMEOUT", message := some text }
    throw (.startTimeout text)
  | e =>
    if e.isWorldLifecycle then throw e
    else do
      failOp svc opId "START_ERROR" (some e.text)
      setWorldState worldId .error
      throw (.worldLifecycle e.text)

/-- The operation a lifecycle call works for: the one it was given or a new one. -/
def operationFor (svc : WorldsService) (opType : OperationType) (worldId : String)
    (actorType : ActorType) (actorUserId : Option String) (allowWorldConflict : Bool) :
    Option String → Prog String
  | some opId => pure opId
  | none => do
    let op ← Operations.create svc.operations
      { opType, actorType, worldId := some worldId, actorUserId } .queued allowWorldConflict
    pure op.opId

/-- `start`. -/
def start (svc : WorldsService) (worldId : String) (actorType : ActorType := .user)
    (actorUserId : Option String := none) (allowWorldConflict : Bool := false)
    (operationId : Option String := none) : Prog String := do
  preflight worldId
  let opId ← operationFor svc .start worldId actorType actorUserId allowWorldConflict operationId
  (launch svc worldId opId).handle (launchFailed svc worldId opId)

/-- `RuntimeService.restart_and_confirm`. -/
def restartAndConfirm (svc : WorldsService) (worldId : String) : Prog Bool := do
  let _ ← start svc worldId .system none true
  pure true

/-- `_resolve_handle`. -/
def resolveHandle (worldId : String) : Prog (Option ProcessHandle) := do
  let probe ← ask (.probe worldId "" none)
  pure (if probe.found then probe.handle else none)

/-- The open session of a world; there is at most one. -/
def openSessionOf (db : Database) (worldId : String) : Option RuntimeSession :=
  db.sessions.find? fun s => s.worldId == worldId && s.isOpen

/-- `_rcon_command_quiet`. -/
def rconCommandQuiet (worldId command : String) : Prog Unit := do
  let session ← read .sessionRead (openSessionOf · worldId)
  match session.bind fun s => s.rconPort.bind fun port => s.rconSecretId.map fun id => (port, id) with
  | none => pure ()
  | some (port, secretId) =>
    if port = 0 ∨ secretId = "" then pure ()
    else do
      let _ ← ask (.decrypt secretId)
      let _ ← ask (.rconOpen port)
      let _ ← (do
        let _ ← ask (.rconConnect port)
        let _ ← ask (.rconCommand port command)
        pure ()).handle fun e => do
          let _ ← ask (.rconClose port)
          .raise e
      ask (.rconClose port)

/-- The loop of `_wait_exit`. -/
def waitRounds (handle : ProcessHandle) : Nat → Prog Bool
  | 0 => do
    let status ← ask (.poll handle)
    pure !status.alive
  | n + 1 => do
    let status ← ask (.poll handle)
    if !status.alive then pure true else waitRounds handle n

/-- `_wait_exit`. -/
def waitExit (handle : ProcessHandle) (timeoutS : Nat) : Prog Bool := do
  let n ← draw (.rounds timeoutS)
  waitRounds handle n

/-- The last two rungs of `_attempt_graceful_stop`. -/
def stopByHandle (handle : ProcessHandle) : Prog Bool := do
  let delivered ← ask (.writeStdin handle "stop")
  let exited ← if delivered then waitExit handle stopGracefulDeadlineS else pure false
  if exited then pure true
  else do
    let outcome ← ask (.terminate handle stopGracefulDeadlineS)
    pure (outcome.resolved && outcome.graceful)

/-- `_attempt_graceful_stop`. -/
def attemptGracefulStop (worldId : String) : Prog Bool := do
  let handle ← resolveHandle worldId
  match handle with
  | none => pure true
  | some handle => do
    let exited ← rescueRcon (do
      rconCommandQuiet worldId "stop"
      waitExit handle stopGracefulDeadlineS) (pure false)
    if exited then pure true else stopByHandle handle

/-- The guarded part of `stop`. -/
def stopWorld (svc : WorldsService) (worldId opId : String) : Prog String := do
  let _ ← Operations.transition svc.operations opId .running {
    checkpoint := some { stage := "stopping" } }
  setWorldState worldId .stopping
  let closed ← attemptGracefulStop worldId
  closeSession worldId (if closed then .gracefulStop else .forcedStop)
  setWorldState worldId .off
  let _ ← Operations.transition svc.operations opId .completed {
    checkpoint := some { stage := "off", graceful := some closed } }
  pure opId

/-- The guarded part of `kill`. -/
def killWorld (svc : WorldsService) (worldId opId : String) : Prog String := do
  let _ ← Operations.transition svc.operations opId .running {
    checkpoint := some { stage := "killing" } }
  setWorldState worldId .stopping
  let handle ← resolveHandle worldId
  match handle with
  | some handle => do
    let _ ← ask (.terminate handle 0)
    pure ()
  | none => pure ()
  closeSession worldId .forcedStop
  setWorldState worldId .off
  let _ ← Operations.transition svc.operations opId .completed {
    checkpoint := some { stage := "off" } }
  pure opId

/-- The `except` clause of `stop` and `kill`. -/
def endFailed (svc : WorldsService) (opId errorCode : String) (e : Exn) : Prog String := do
  failOp svc opId errorCode (some e.text)
  throw (.worldLifecycle e.text)

/-- `stop`. -/
def stop (svc : WorldsService) (worldId : String) (actorType : ActorType := .user)
    (actorUserId : Option String := none) (operationId : Option String := none) : Prog String := do
  let _ ← world worldId
  let opId ← operationFor svc .stop worldId actorType actorUserId false operationId
  (stopWorld svc worldId opId).handle (endFailed svc opId "STOP_ERROR")

/-- `kill`. -/
def kill (svc : WorldsService) (worldId : String) (actorType : ActorType := .user)
    (actorUserId : Option String := none) (operationId : Option String := none) : Prog String := do
  let _ ← world worldId
  let opId ← operationFor svc .kill worldId actorType actorUserId false operationId
  (killWorld svc worldId opId).handle (endFailed svc opId "KILL_ERROR")

/-- The request a lifecycle route enqueues. -/
def enqueue (svc : WorldsService) (opType : OperationType) (worldId : String)
    (actorType : ActorType) (actorUserId : Option String) (key : String)
    (check : Prog Unit) : Prog (Operation × Bool) := do
  let existing ← getByIdempotencyKey opType key
  match existing with
  | some op => pure (op, true)
  | none => do
    check
    createWithReplay svc.operations
      { opType, actorType, worldId := some worldId, actorUserId, idempotencyKey := some key }
      .queued false

def enqueueStart (svc : WorldsService) (worldId : String) (actorType : ActorType)
    (actorUserId : Option String) (key : String) : Prog (Operation × Bool) :=
  enqueue svc .start worldId actorType actorUserId key (preflight worldId)

def enqueueStop (svc : WorldsService) (worldId : String) (actorType : ActorType)
    (actorUserId : Option String) (key : String) : Prog (Operation × Bool) :=
  enqueue svc .stop worldId actorType actorUserId key do
    let _ ← world worldId
    pure ()

def enqueueKill (svc : WorldsService) (worldId : String) (actorType : ActorType)
    (actorUserId : Option String) (key : String) : Prog (Operation × Bool) :=
  enqueue svc .kill worldId actorType actorUserId key do
    let _ ← world worldId
    pure ()

/-- The steps of `accept_eula` that its `except` clause guards. -/
def acceptEulaSteps (svc : WorldsService) (w : World) (actorUserId opId : String)
    (payload : OperationData) : Prog Operation := do
  let actor ← Audit.snapshotForUser actorUserId
  Audit.write .worldEulaAccepted actor (some w.worldId) .accepted
  ask (.acceptEula w.worldId actorUserId)
  setWorldState w.worldId .off .eulaAcceptance
  let _ ← Operations.transition svc.operations opId .completed { data := some payload }
  let result ← Operations.get opId
  match result with
  | some op => pure op
  | none => throw (.worldLifecycle "EULA acceptance operation disappeared.")

/-- `accept_eula`. -/
def acceptEula (svc : WorldsService) (worldId actorUserId : String) (accepted : Bool) :
    Prog Operation :=
  if !accepted then throw (.worldLifecycle "explicit EULA acceptance is required")
  else if actorUserId = "" then
    throw (.worldLifecycle "EULA acceptance requires an operator identity")
  else if !svc.audit then throw (.worldLifecycle "EULA acceptance audit is unavailable")
  else do
    let w ← world worldId
    if w.state ≠ .eulaRequired then
      throw (.worldConflict "world is not awaiting EULA acceptance")
    else do
      let payload : OperationData := { entity := some "eula", rowId := some worldId }
      let op ← Operations.create svc.operations {
        opType := .configEdit, actorType := .user, actorUserId := some actorUserId,
        worldId := some worldId, data := some payload }
      let _ ← Operations.transition svc.operations op.opId .running
      (acceptEulaSteps svc w actorUserId op.opId payload).handle fun e => do
        let _ ← Operations.transition svc.operations op.opId .failed {
          errorCode := some "EULA_ACCEPTANCE_FAILED", message := some e.text, data := some payload }
        throw e

/-- The `try` of `dispatch_queued_operations`: run the lifecycle call a claimed operation
stands for. -/
def runClaimed (svc : WorldsService) (worldId : Option String) (claimed : Operation) : Prog Unit :=
  match worldId with
  | none =>
    throw (.worldLifecycle (claimed.opType.value ++ " operation is missing a world id"))
  | some worldId => do
    let _ ← match claimed.opType with
      | .start => start svc worldId claimed.actorType claimed.actorUserId false claimed.opId
      | .stop => stop svc worldId claimed.actorType claimed.actorUserId claimed.opId
      | _ => kill svc worldId claimed.actorType claimed.actorUserId claimed.opId
    pure ()

/-- The `except` of `dispatch_queued_operations`. -/
def failClaimed (svc : WorldsService) (opId : String) (e : Exn) : Prog Unit := do
  let current ← Operations.get opId
  match current with
  | none => pure ()
  | some op =>
    if op.terminal then pure ()
    else do
      let _ ← Operations.transition svc.operations opId .failed {
        errorCode := some "OP_EXECUTION_FAILED", message := some e.text }
      pure ()

/-- Claim one queued lifecycle operation and run it. -/
def dispatchQueued (svc : WorldsService) (op : Operation) : Prog (List String) := do
  let waits ← match op.worldId with
    | none => pure false
    | some worldId => hasActiveOperation worldId op.opId
  if waits then pure []
  else do
    let claimed ← claimQueued op.opId
    match claimed with
    | none => pure []
    | some claimed => do
      (runClaimed svc op.worldId claimed).handle (failClaimed svc claimed.opId)
      pure [claimed.opId]

/-- The loop of `dispatch_queued_operations`: the oldest queued operation of each world. -/
def dispatchLifecycle (svc : WorldsService) : List String → List Operation → Prog (List String)
  | _, [] => pure []
  | seen, op :: rest =>
    if op.worldId.any seen.contains then dispatchLifecycle svc seen rest
    else do
      let here ← dispatchQueued svc op
      let there ← dispatchLifecycle svc (op.worldId.toList ++ seen) rest
      pure (here ++ there)

end Worlds

end McManager
