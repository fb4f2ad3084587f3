import McManager.Web.Requests

namespace McManager.ProcessControl

open Web

inductive ProcessState
  | running | exited | missing
  deriving DecidableEq, Repr

inductive ExitClass
  | running | graceful | forced | crashed | reconciledMissing | spawnFailed
  deriving DecidableEq, Repr

structure ProcessStatus where
  state : ProcessState
  exitCode : Option Int := none
  exitClass : ExitClass := .running

def ProcessStatus.alive (s : ProcessStatus) : Bool := s.state = .running

/-- An entry of the process table of the system. `created` counts clock ticks, a hundred to the
second; `exited` is the exit code of a process that nobody has reaped yet. -/
structure Task where
  created : Int
  argv : List String := []
  exited : Option Int := none

/-- `psutil.Process`: the pid, and when the process that had it was created. -/
structure Process where
  pid : Nat
  created : Int

structure ProcessHandle where
  worldId : String
  pid : Nat
  spawnEpoch : Int
  deriving DecidableEq

/-- A spawned child with its `Popen`. -/
structure Child where
  worldId : String
  pid : Nat
  created : Int
  returncode : Option Int := none

/-- `RegistryEntry`; `popen` is the place of the child. -/
structure RegistryEntry where
  handle : ProcessHandle
  popen : Option Nat := none

structure ProbeFingerprint where
  pid : Option Nat := none
  spawnEpoch : Option Int := none
  launchMarker : Option String := none

/-- The process table, the children with their `Popen` objects, the registry of the adapter, and
the processes that running `terminate` calls wait for. -/
structure Host where
  table : Nat → Option Task := fun _ => none
  children : List Child := []
  registry : String → Option RegistryEntry := fun _ => none
  tests : List (Nat × Process) := []

def Child.handle (c : Child) : ProcessHandle := ⟨c.worldId, c.pid, c.created⟩

/-- Less than a second apart. -/
def near (created spawnEpoch : Int) : Bool := (created - spawnEpoch).natAbs < 100

/-- What the system and the callers of the adapter do. -/
inductive Move
  | exit (pid : Nat) (code : Int)
  | reap (pid : Nat)
  | start (pid : Nat) (created : Int) (argv : List String)
  | spawn (worldId : String) (argv : List String) (pid : Nat) (created : Int)
  | poll (i : Nat)
  | probe (worldId : String) (fingerprint : Option ProbeFingerprint)
  | terminate (i : Nat)
  | test (j : Nat)
  | giveUp (j : Nat)
  | closeHandle (worldId : String)

namespace Host

def setTask (h : Host) (pid : Nat) (t : Option Task) : Host :=
  { h with table := fun q => if q = pid then t else h.table q }

/-- A process exits and stays in the table. -/
def exit (h : Host) (pid : Nat) (code : Int) : Host :=
  match h.table pid with
  | some ⟨created, argv, none⟩ => h.setTask pid (some ⟨created, argv, some code⟩)
  | _ => h

/-- An exited process is reaped; if it is a child, then by its `Popen`. -/
def reap (h : Host) (pid : Nat) : Host :=
  match (h.table pid).bind Task.exited with
  | none => h
  | some code =>
    { h.setTask pid none with
      children := h.children.map fun c =>
        if c.pid = pid ∧ c.returncode = none then { c with returncode := some code } else c }

/-- Another process gets a free pid. -/
def start (h : Host) (pid : Nat) (created : Int) (argv : List String) : Host :=
  match h.table pid with
  | some _ => h
  | none => h.setTask pid (some { created, argv })

/-- `psutil.Process(pid)`. -/
def process (h : Host) (pid : Nat) : Option Process :=
  (h.table pid).map fun t => ⟨pid, t.created⟩

/-- `Process.is_running`: true of a process that has exited and was not reaped. -/
def isRunning (h : Host) (p : Process) : Bool :=
  (h.table p.pid).any fun t => t.created = p.created

/-- `Process.cmdline`, empty when the process has exited. -/
def cmdline (h : Host) (p : Process) : List String :=
  match h.table p.pid with
  | some ⟨_, argv, none⟩ => argv
  | _ => []

/-- `Popen.poll`. -/
def popenPoll (h : Host) (i : Nat) : Host × Option Int :=
  match h.children[i]? with
  | none => (h, none)
  | some c =>
    match c.returncode with
    | some code => (h, some code)
    | none => (h.reap c.pid, (h.table c.pid).bind Task.exited)

/-- `spawn`: the system hands out a free pid. -/
def spawn (h : Host) (worldId : String) (argv : List String) (pid : Nat) (created : Int) : Host :=
  match h.table pid with
  | some _ => h
  | none =>
    let handle : ProcessHandle := ⟨worldId, pid, created⟩
    { h.setTask pid (some { created, argv }) with
      children := h.children ++ [{ worldId, pid, created }]
      registry := fun w =>
        if w = worldId then some { handle, popen := some h.children.length } else h.registry w }

/-- `identity_matches`, `_pid_matches`. -/
def identityMatches (h : Host) (handle : ProcessHandle) : Bool :=
  (h.process handle.pid).any fun p => near p.created handle.spawnEpoch

/-- `_resolve_process`. -/
def resolveProcess (h : Host) (handle : ProcessHandle) : Option Process :=
  if h.identityMatches handle then h.process handle.pid else none

/-- `_registry_exit_code`; `_poll_exit_code` and `_safe_returncode` come to the same, because a
`psutil.Process` has no return code. -/
def registryExitCode (h : Host) (worldId : String) : Host × Option Int :=
  match (h.registry worldId).bind RegistryEntry.popen with
  | none => (h, none)
  | some i => h.popenPoll i

/-- `_process_exited`. -/
def processExited (h : Host) (p : Process) : Bool :=
  match h.table p.pid with
  | none => true
  | some t => t.exited.isSome || !h.isRunning p

/-- `_classify_exit`. -/
def classifyExit (code : Option Int) : ExitClass :=
  if code = some 0 ∨ code = some 1 then .graceful else .crashed

/-- `poll`. -/
def poll (h : Host) (handle : ProcessHandle) : Host × ProcessStatus :=
  let exited :=
    let r := h.registryExitCode handle.worldId
    (r.1, { state := .exited, exitCode := r.2, exitClass := classifyExit r.2 })
  match h.process handle.pid with
  | none => exited
  | some p =>
    if !h.identityMatches handle then
      (h, { state := .missing, exitClass := .reconciledMissing })
    else if !h.isRunning p then exited
    else (h, { state := .running })

/-- `close_handle`. -/
def closeHandle (h : Host) (worldId : String) : Host :=
  { h with registry := fun w => if w = worldId then none else h.registry w }

/-- `_probe_fingerprint`. -/
def probeFingerprint (h : Host) (worldId : String) (f : ProbeFingerprint) :
    Host × Option ProcessHandle :=
  match f.pid, f.spawnEpoch with
  | some pid, some spawnEpoch =>
    let handle : ProcessHandle := ⟨worldId, pid, spawnEpoch⟩
    if !h.identityMatches handle then (h, none)
    else
      match h.process pid with
      | none => (h, none)
      | some p =>
        let marker := f.launchMarker.getD ""
        if !h.isRunning p then (h, none)
        else if marker ≠ "" ∧ !(h.cmdline p).any (contains · marker) then (h, none)
        else
          ({ h with registry := fun w => if w = worldId then some { handle } else h.registry w },
            some handle)
  | _, _ => (h, none)

/-- The part of `probe` that asks the registry. -/
def probeRegistry (h : Host) (worldId : String) : Option ProcessHandle :=
  match h.registry worldId with
  | none => none
  | some entry =>
    if !h.identityMatches entry.handle then none
    else
      match h.process entry.handle.pid with
      | none => none
      | some p => if h.isRunning p then some entry.handle else none

/-- `probe`: the handle it found. -/
def probe (h : Host) (worldId : String) (fingerprint : Option ProbeFingerprint) :
    Host × Option ProcessHandle :=
  match fingerprint with
  | none => (h, h.probeRegistry worldId)
  | some f =>
    let r := h.probeFingerprint worldId f
    if r.2.isSome then r else (h, h.probeRegistry worldId)

/-- `terminate` up to its waiting loop: nothing when the process is missing. -/
def terminate (h : Host) (i : Nat) : Host :=
  match h.children[i]? with
  | none => h
  | some c =>
    match h.resolveProcess c.handle with
    | none => h
    | some p => { h with tests := h.tests ++ [(i, p)] }

/-- One test of a waiting `terminate`, which returns when the process has exited. -/
def test (h : Host) (j : Nat) : Host :=
  match h.tests[j]? with
  | none => h
  | some (i, p) =>
    if h.processExited p then
      let h := { h with tests := h.tests.eraseIdx j }
      match h.children[i]? with
      | none => h
      | some c => (h.registryExitCode c.worldId).1
    else h

def step (h : Host) : Move → Host
  | .exit pid code => h.exit pid code
  | .reap pid => h.reap pid
  | .start pid created argv => h.start pid created argv
  | .spawn worldId argv pid created => h.spawn worldId argv pid created
  | .poll i =>
    match h.children[i]? with
    | none => h
    | some c => (h.poll c.handle).1
  | .probe worldId fingerprint => (h.probe worldId fingerprint).1
  | .terminate i => h.terminate i
  | .test j => h.test j
  | .giveUp j => { h with tests := h.tests.eraseIdx j }
  | .closeHandle worldId => h.closeHandle worldId

def run (h : Host) (moves : List Move) : Host := moves.foldl step h

end Host

end McManager.ProcessControl
