import McManager.Infrastructure.ProcessControl

namespace McManager.Termination

open ProcessControl (ExitClass Process near)

/-- `PosixHandle`. -/
structure PosixHandle where
  worldId : String
  pid : Nat
  spawnEpoch : Int
  processGroupId : Option Nat := none
  deriving DecidableEq, Repr

/-- A process of the system, with its exit code once it has exited and nobody has reaped it. `ours`
marks the spawned leader and its descendants. -/
structure Task where
  pid : Nat
  created : Int
  pgid : Nat
  exited : Option Int := none
  ours : Bool := false
  deriving DecidableEq, Repr

inductive Signal
  | terminate | kill
  deriving DecidableEq, Repr

/-- A signal that has gone to a group, and when the process was created that had the pid of the
leader then. -/
structure Sent where
  signal : Signal
  pgid : Nat
  leader : Option Int
  deriving DecidableEq, Repr

structure TerminateResult where
  resolved : Bool
  exitClass : ExitClass
  exitCode : Option Int := none
  error : Option String := none
  deriving DecidableEq, Repr

/-- Where a call of `terminate` stands: at one of the two steps of `_resolve_process`, before the
identity check and the signal of either kind, in the waiting loop after it, before the exit code is
read, or at its end. -/
inductive Stage
  | resolving
  | finding
  | confirming (process : Process)
  | classifying (process : Process)
  | grouping (signal : Signal) (process : Process)
  | signalling (signal : Signal) (process : Process) (pgid : Nat)
  | waiting (signal : Signal) (process : Process)
  | exiting (signal : Signal)
  | returned (result : TerminateResult)
  | raised (error : String)

/-- The processes, the return code of the `Popen` that the registry holds, if it holds one, and a
call of `terminate`. -/
structure State where
  handle : PosixHandle
  gracefulDeadline : Int
  tasks : List Task
  popen : Option (Option Int) := none
  signals : List Sent := []
  stage : Stage := .resolving

/-- A process exits, is reaped, forks, or starts a group of its own, or `terminate` takes its next
step; `timeUp` tells whether a deadline has passed. -/
inductive Move
  | exit (pid : Nat) (code : Int)
  | reap (pid : Nat)
  | fork (parent pid : Nat) (created : Int)
  | lead (pid : Nat) (created : Int)
  | act (timeUp : Bool)
  deriving DecidableEq, Repr

namespace State

def task? (s : State) (pid : Nat) : Option Task := s.tasks.find? fun t => t.pid = pid

/-- No process and no group has the number. -/
def free (s : State) (pid : Nat) : Bool := s.tasks.all fun t => t.pid ≠ pid && t.pgid ≠ pid

def exit (s : State) (pid : Nat) (code : Int) : State :=
  { s with
    tasks := s.tasks.map fun t =>
      if t.pid = pid ∧ t.exited = none then { t with exited := some code } else t }

/-- A process that has exited leaves the table; if it is the child of a `Popen`, then that takes
its code. -/
def reap (s : State) (pid : Nat) : State :=
  match s.task? pid with
  | some ⟨_, _, _, some code, _⟩ =>
    { s with
      tasks := s.tasks.filter fun t => t.pid ≠ pid
      popen := if pid = s.handle.pid ∧ s.popen = some none then some (some code) else s.popen }
  | _ => s

def fork (s : State) (parent pid : Nat) (created : Int) : State :=
  match s.task? parent with
  | some ⟨_, _, pgid, none, ours⟩ =>
    if s.free pid then { s with tasks := s.tasks ++ [{ pid, created, pgid, ours }] } else s
  | _ => s

def lead (s : State) (pid : Nat) (created : Int) : State :=
  if s.free pid then { s with tasks := s.tasks ++ [{ pid, created, pgid := pid }] } else s

/-- `psutil.Process`. -/
def process (s : State) (pid : Nat) : Option Process :=
  (s.task? pid).map fun t => ⟨pid, t.created⟩

/-- `identity_matches`. -/
def identityMatches (s : State) : Bool :=
  (s.process s.handle.pid).any fun p => near p.created s.handle.spawnEpoch

/-- `_process_exited`. -/
def processExited (s : State) (p : Process) : Bool :=
  match s.task? p.pid with
  | none => true
  | some t => t.exited.isSome || decide (t.created ≠ p.created)

def missing : TerminateResult :=
  { resolved := false, exitClass := .reconciledMissing, error := "process_missing" }

/-- The result of `_kill_and_classify` without an exited process. -/
def unsettled (error : String) : TerminateResult :=
  { resolved := false, exitClass := .forced, error }

/-- On the way to a signal: `os.getpgid` is asked only if the handle has no group. -/
def toSignal (s : State) (signal : Signal) (p : Process) : State :=
  match s.handle.processGroupId with
  | some pgid => { s with stage := .signalling signal p pgid }
  | none => { s with stage := .grouping signal p }

/-- A `ProcessLookupError`, which `_kill_and_classify` catches and `terminate` does not. -/
def lookupError (s : State) (signal : Signal) : State :=
  let error := "[Errno 3] No such process"
  match signal with
  | .terminate => { s with stage := .raised error }
  | .kill => { s with stage := .returned (unsettled error) }

/-- `_safe_returncode`, which reaps a child that has exited. -/
def safeReturncode (s : State) : State × Option Int :=
  match s.popen with
  | none => (s, none)
  | some (some code) => (s, some code)
  | some none => (s.reap s.handle.pid, (s.task? s.handle.pid).bind Task.exited)

/-- The next step of `terminate`. -/
def act (s : State) (timeUp : Bool) : State :=
  match s.stage with
  | .resolving =>
    { s with stage := if s.identityMatches then .finding else .returned missing }
  | .finding =>
    match s.process s.handle.pid with
    | none => { s with stage := .returned missing }
    | some p => { s with stage := if 0 < s.gracefulDeadline then .confirming p else .classifying p }
  | .confirming p =>
    if s.identityMatches then s.toSignal .terminate p else { s with stage := .returned missing }
  | .classifying p =>
    if s.identityMatches then s.toSignal .kill p else { s with stage := .returned missing }
  | .grouping signal p =>
    match s.task? p.pid with
    | some t => { s with stage := .signalling signal p t.pgid }
    | none => s.lookupError signal
  | .signalling signal p pgid =>
    if s.tasks.any fun t => t.pgid = pgid then
      { s with
        signals := s.signals ++ [⟨signal, pgid, (s.task? s.handle.pid).map (·.created)⟩]
        stage := .waiting signal p }
    else s.lookupError signal
  | .waiting signal p =>
    if timeUp then
      match signal with
      | .terminate => { s with stage := .classifying p }
      | .kill => { s with stage := .returned (unsettled "kill_settle_timeout") }
    else if s.processExited p then { s with stage := .exiting signal }
    else s
  | .exiting signal =>
    let (s', exitCode) := s.safeReturncode
    let exitClass := match signal with
      | .terminate => ExitClass.graceful
      | .kill => ExitClass.forced
    { s' with stage := .returned { resolved := true, exitClass, exitCode } }
  | .returned _ => s
  | .raised _ => s

/-- The call has come to its end. -/
def ended (s : State) : Bool :=
  match s.stage with
  | .returned _ => true
  | .raised _ => true
  | _ => false

def step (s : State) (m : Move) : State :=
  if s.ended then s
  else
    match m with
    | .exit pid code => s.exit pid code
    | .reap pid => s.reap pid
    | .fork parent pid created => s.fork parent pid created
    | .lead pid created => s.lead pid created
    | .act timeUp => s.act timeUp

end State

end McManager.Termination
