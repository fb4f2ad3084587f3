import McManager.Services.Worlds

namespace McManager.Worlds

open Framework Operations

/-- `_open_sessions`. -/
def openSessions : Prog (List RuntimeSession) :=
  read .sessionRead fun db => db.sessions.filter (·.isOpen)

/-- `_record_crash`. -/
def recordCrash (svc : WorldsService) (worldId : String) : Prog Unit := do
  let at' ← now
  let op ← Operations.create svc.operations {
    opType := .crashDetected, actorType := .system, worldId := some worldId,
    data := some { detectedAt := some at' } } .queued true
  let _ ← Operations.transition svc.operations op.opId .running {
    checkpoint := some { stage := "crash_detected" } }
  let _ ← Operations.transition svc.operations op.opId .completed {
    checkpoint := some { stage := "crashed" } }
  pure ()

/-- Whether the process of a world still runs, as far as the supervisor can tell. -/
def processAlive (worldId : String) : Prog Bool := do
  let handle ← resolveHandle worldId
  match handle with
  | none => pure false
  | some handle => do
    let status ← ask (.poll handle)
    pure status.alive

/-- One round of `poll_running`. -/
def superviseSession (svc : WorldsService) (session : RuntimeSession) : Prog (List String) := do
  let alive ← processAlive session.worldId
  if alive then pure []
  else do
    closeSession session.worldId .crashed
    setWorldState session.worldId .crashed
    recordCrash svc session.worldId
    pure [session.worldId]

/-- Run the rounds of a loop over sessions and collect what they return. -/
def collect (round : RuntimeSession → Prog (List String)) :
    List RuntimeSession → Prog (List String)
  | [] => pure []
  | session :: rest => do
    let here ← round session
    let there ← collect round rest
    pure (here ++ there)

/-- `poll_running`. -/
def pollRunning (svc : WorldsService) : Prog (List String) := do
  let sessions ← openSessions
  collect (superviseSession svc) sessions

/-- A Start that some manager was executing. -/
def Operation.interruptedStart (op : Operation) : Bool :=
  op.opType == .start && (op.status == .validating || op.status == .running)

/-- `_in_flight_start`: the newest one. -/
def inFlightStart (worldId : String) : Prog (Option Operation) :=
  read .operationRead fun db =>
    ((db.operations.filter fun op =>
      op.worldId == some worldId && Operation.interruptedStart op).insertionSort
        fun a b => a.createdAt ≥ b.createdAt).head?

/-- `_incomplete_starts_without_sessions`. -/
def incompleteStartsWithoutSessions : Prog (List Operation) :=
  read .operationRead fun db =>
    Database.byCreatedAt (db.operations.filter fun op =>
      Operation.interruptedStart op && !op.worldId.any db.sessionOpen)

/-- The state `_fail_interrupted_start` sends a world to. -/
def interruptedTarget : WorldState → Except Unit (Option WorldState)
  | .starting => .ok (some .error)
  | .running => .ok (some .crashed)
  | .stopping => .ok (some .crashed)
  | .queued => .ok (some .off)
  | .off => .ok none
  | .error => .ok none
  | .crashed => .ok none
  | _ => .error ()

/-- `_fail_interrupted_start`. -/
def failInterruptedStart (svc : WorldsService) (op : Operation) (worldId : Option String) :
    Prog Unit := do
  match worldId with
  | none => throw (.worldNotFound "None")
  | some worldId => do
    let w ← world worldId
    match interruptedTarget w.state with
    | .error _ =>
      throw (.worldLifecycle ("cannot reconcile interrupted Start from " ++ w.state.value))
    | .ok target => do
      match target with
      | some state => setWorldState worldId state
      | none => pure ()
      let _ ← Operations.transition svc.operations op.opId .failed {
        errorCode := some "manager_restart_incomplete"
        message := some "Start was interrupted by manager restart before process recovery." }
      pure ()

/-- One round of `reconcile`. -/
def reconcileSession (svc : WorldsService) (session : RuntimeSession) : Prog (List String) := do
  let probe ← ask (.probe session.worldId session.sessionId (some session.launchArgsSnapshot))
  if probe.found && probe.matchedLaunch then do
    setWorldState session.worldId .running
    pure [session.worldId]
  else do
    closeSession session.worldId .reconciledMissing
    let startOperation ← inFlightStart session.worldId
    match startOperation with
    | none => do
      setWorldState session.worldId .crashed
      recordCrash svc session.worldId
    | some op => failInterruptedStart svc op (some session.worldId)
    pure []

/-- `reconcile`: the worlds whose process was found again. -/
def reconcile (svc : WorldsService) : Prog (List String) := do
  let sessions ← openSessions
  let reattached ← collect (reconcileSession svc) sessions
  let starts ← incompleteStartsWithoutSessions
  Program.each (fun op => failInterruptedStart svc op op.worldId) starts
  pure reattached

end McManager.Worlds
