import Mathlib.Tactic.Common

namespace McManager

/-- The closed value sets of the domain, with the texts the database stores. -/
inductive OperationType
  | createWorld | start | stop | kill | backup | restore | cleanup | sync | configEdit
  | crashDetected | deleteWorld
  deriving DecidableEq, Repr

def OperationType.value : OperationType → String
  | .createWorld => "CreateWorld"
  | .start => "Start"
  | .stop => "Stop"
  | .kill => "Kill"
  | .backup => "Backup"
  | .restore => "Restore"
  | .cleanup => "Cleanup"
  | .sync => "Sync"
  | .configEdit => "ConfigEdit"
  | .crashDetected => "CrashDetected"
  | .deleteWorld => "DeleteWorld"

inductive WorldState
  | off | queued | starting | running | stopping | restoring | backingUp | crashed | error
  | eulaRequired
  deriving DecidableEq, Repr

def WorldState.value : WorldState → String
  | .off => "off"
  | .queued => "queued"
  | .starting => "starting"
  | .running => "running"
  | .stopping => "stopping"
  | .restoring => "restoring"
  | .backingUp => "backing_up"
  | .crashed => "crashed"
  | .error => "error"
  | .eulaRequired => "eula_required"

inductive OperationStatus
  | created | queued | validating | running | completed | failed | cancelled | timedOut
  deriving DecidableEq, Repr

def OperationStatus.value : OperationStatus → String
  | .created => "Created"
  | .queued => "Queued"
  | .validating => "Validating"
  | .running => "Running"
  | .completed => "Completed"
  | .failed => "Failed"
  | .cancelled => "Cancelled"
  | .timedOut => "TimedOut"

/-- `IN_FLIGHT_STATUSES`. -/
def OperationStatus.inFlight : OperationStatus → Bool
  | .created | .queued | .validating | .running => true
  | _ => false

/-- `TERMINAL_STATUSES`. -/
def OperationStatus.terminal : OperationStatus → Bool
  | .completed | .failed | .cancelled | .timedOut => true
  | _ => false

/-- In flight and no longer waiting in the queue. -/
def OperationStatus.active : OperationStatus → Bool
  | .created | .validating | .running => true
  | _ => false

theorem OperationStatus.inFlight_eq_not_terminal (s : OperationStatus) :
    s.inFlight = !s.terminal := by cases s <;> rfl

theorem OperationStatus.inFlight_eq (s : OperationStatus) :
    s.inFlight = (s.active || s == .queued) := by cases s <;> rfl

inductive EndReason
  | gracefulStop | forcedStop | crashed | emergencyStop | reconciledMissing
  deriving DecidableEq, Repr

inductive ActorType
  | user | system
  deriving DecidableEq, Repr

inductive NotificationSeverity
  | critical | high | normal | informational
  deriving DecidableEq, Repr

inductive SyncOutcome
  | succeeded | failedTransient | failedPermanent
  deriving DecidableEq, Repr

inductive SyncRecordStatus
  | pending | succeeded | failed
  deriving DecidableEq, Repr

inductive EulaState
  | notPresent | unaccepted | accepted
  deriving DecidableEq, Repr

/-- `_SINGLE_FLIGHT_TYPES`. -/
def OperationType.singleFlight : OperationType → Bool
  | .backup | .restore | .cleanup => true
  | _ => false

/-- `_RUNTIME_TYPES`. -/
def OperationType.runtime : OperationType → Bool
  | .start | .stop | .kill => true
  | _ => false

end McManager
