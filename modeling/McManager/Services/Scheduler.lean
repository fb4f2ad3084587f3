import McManager.Services.Operations

namespace McManager.Scheduler

open Framework Operations

/-- `_enabled_schedules`. -/
def enabledSchedules (db : Database) : List Schedule :=
  (db.schedules.filter fun s => s.enabled && s.deletedAt.isNone).insertionSort
    fun a b => a.createdAt ≤ b.createdAt

def secondsPerDay : Int := 86400

/-- `_expected_run_at`: the last due time, from the period in days or from the time of day,
unless the schedule has changed since. -/
def expectedRunAt (s : Schedule) (now : Int) : Option Int :=
  match s.everyDays with
  | some days =>
    let period := max 1 (days : Int) * secondsPerDay
    let elapsed := now - s.lastChangedAt
    if elapsed < period then none
    else some (s.lastChangedAt + elapsed / period * period)
  | none =>
    let today := now / secondsPerDay * secondsPerDay + s.timeOfDay
    let expected := if now < today then today - secondsPerDay else today
    if expected ≤ s.lastChangedAt then none else some expected

/-- `_operation_type_for`. -/
def operationTypeFor : String → Option OperationType
  | "backup" => some .backup
  | "cleanup" => some .cleanup
  | "maintenance" => some .cleanup
  | _ => none

def runKey (scheduleId : String) (expected : Int) : String :=
  "schedule:" ++ scheduleId ++ ":" ++ toString expected

/-- `_has_recorded` and `_has_run_operation`. -/
def alreadyRun (db : Database) (scheduleId : String) (expected : Int) : Bool :=
  (db.missedRuns.any fun r => r.scheduleId == scheduleId && r.expectedRunAt == expected) ||
    db.operations.any fun op => op.idempotencyKey == some (runKey scheduleId expected)

/-- `_has_schedule_conflict`. -/
def hasScheduleConflict (db : Database) (worldId : Option String) : Bool :=
  db.operations.any fun op =>
    op.worldId == worldId && op.inFlight &&
      (op.opType == .backup || op.opType == .restore || op.opType == .cleanup)

def recordMissedBlock (scheduleId : String) (expected detected : Int) (missedRunId : String) :
    Block Nat := do
  let recorded ← Body.query fun db : Database =>
    db.missedRuns.any fun r => r.scheduleId == scheduleId && r.expectedRunAt == expected
  if recorded then pure 0
  else do
    Body.write (.insertMissedRun ⟨missedRunId, scheduleId, expected, detected⟩)
    pure 1

/-- `_record_missed`. -/
def recordMissed (scheduleId : String) (expected detected : Int) : Prog Nat := do
  let missedRunId ← uuid "mr"
  transactionBare .recordMissed (recordMissedBlock scheduleId expected detected missedRunId)

/-- `SchedulerTickResult`. -/
structure TickResult where
  due : Nat := 0
  dispatched : Nat := 0
  missed : Nat := 0
  deriving DecidableEq, Repr

def isOperationConflict : Exn → Bool
  | .operationConflict _ => true
  | _ => false

/-- Ask for the operation of a due schedule, or record that it was missed. -/
def dispatch (svc : OperationService) (s : Schedule) (expected now : Int) : Prog TickResult := do
  match operationTypeFor s.scheduleType with
  | none => do
    let missed ← recordMissed s.scheduleId expected now
    pure { due := 1, missed }
  | some opType => do
    let conflict ← read .scheduleRead (hasScheduleConflict · s.worldId)
    if conflict then do
      let missed ← recordMissed s.scheduleId expected now
      pure { due := 1, missed }
    else
      (do
        let _ ← Operations.create svc {
          opType, actorType := .system, worldId := s.worldId
          idempotencyKey := some (runKey s.scheduleId expected)
          data := some { scheduleId := some s.scheduleId, expectedRunAt := some expected } }
        pure ({ due := 1, dispatched := 1 } : TickResult)).handle fun e =>
          if isOperationConflict e then do
            let missed ← recordMissed s.scheduleId expected now
            pure { due := 1, missed }
          else throw e

/-- One round of `tick`. -/
def tickSchedule (svc : OperationService) (now : Int) (s : Schedule) : Prog TickResult := do
  match expectedRunAt s now with
  | none => pure {}
  | some expected => do
    let done ← read .scheduleRead (alreadyRun · s.scheduleId expected)
    if done then pure { due := 1 }
    else do
      let current ← read .scheduleRead fun db =>
        (db.schedule? s.scheduleId).filter fun s => s.enabled && s.deletedAt.isNone
      match current with
      | none => pure { due := 1 }
      | some current =>
        if expectedRunAt current now ≠ some expected then pure { due := 1 }
        else dispatch svc current expected now

def tickRounds (svc : OperationService) (now : Int) : List Schedule → Prog TickResult
  | [] => pure {}
  | s :: rest => do
    let here ← tickSchedule svc now s
    let there ← tickRounds svc now rest
    pure ⟨here.due + there.due, here.dispatched + there.dispatched, here.missed + there.missed⟩

/-- `tick`. -/
def tick (svc : OperationService) : Prog TickResult := do
  let at' ← now
  let schedules ← read .scheduleRead enabledSchedules
  tickRounds svc at' schedules

end McManager.Scheduler
