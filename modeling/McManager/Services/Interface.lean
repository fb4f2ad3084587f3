import McManager.Framework.Interleaving
import McManager.Store.Statements

namespace McManager

/-- A process the adapter supervises. -/
structure ProcessHandle where
  worldId : String
  pid : Nat
  spawnEpoch : Int
  deriving DecidableEq, Repr

structure LaunchContext where
  worldDir : String
  javaPath : String
  port : Int
  rconPort : Int
  launchArgs : List String
  deriving DecidableEq, Repr

/-- Outcome of the pre-launch gate. -/
structure GateResult where
  passed : Bool
  errorCode : Option String
  detail : Option String
  deriving DecidableEq, Repr

structure SpawnResult where
  handle : Option ProcessHandle
  spawnError : Option String
  deriving DecidableEq, Repr

structure ProbeResult where
  found : Bool
  handle : Option ProcessHandle
  matchedLaunch : Bool
  deriving DecidableEq, Repr

structure PollResult where
  alive : Bool
  exitClass : String
  deriving DecidableEq, Repr

structure TerminateResult where
  resolved : Bool
  graceful : Bool
  deriving DecidableEq, Repr

/-- The readiness level a server type has to reach, and the commands that show a server to be
operational when that level asks for it. -/
structure ReadinessTarget where
  level : String
  commands : List String
  deriving DecidableEq, Repr

/-- What the services ask of clock, host, process adapter, Minecraft adapter and RCON. `rounds`
is how often a loop that waits for so many seconds comes round before its deadline. -/
inductive Query
  | now
  | uuid (kind : String)
  | uuids (kind : String)
  | cachedCheckpoint (opId : String)
  | launchContext (world : World) (javaPath : String)
  | launchCommand (world : World) (context : LaunchContext)
  | detectEula (worldDir : String)
  | validateLaunch (context : LaunchContext)
  | acceptEula (worldId actorUserId : String)
  | provisionRcon (context : LaunchContext)
  | encrypt (plaintext : String)
  | decrypt (secretId : String)
  | spawn (worldId : String) (argv : List String) (cwd sessionId : String)
  | tail (handle : ProcessHandle)
  | poll (handle : ProcessHandle)
  | terminate (handle : ProcessHandle) (gracefulDeadline : Nat)
  | closeHandle (handle : ProcessHandle)
  | writeStdin (handle : ProcessHandle) (line : String)
  | probe (worldId sessionId : String) (fingerprint : Option LaunchSnapshot)
  | rounds (seconds : Nat)
  | readinessTarget (serverType : String)
  | rconOpen (port : Int)
  | rconConnect (port : Int)
  | rconPing (port : Int)
  | rconCommand (port : Int) (command : String)
  | rconClose (port : Int)
  | readiness (world : World) (rconReady operationallyValid : Bool)
  | archive (step path : String)
  | writeArchive (path : String)
  | fileEdit (opId : String)
  | unlink (path : String)
  | preview (worldId : Option String) (scope : String)
  | rememberPreview (worldId : Option String) (scope fingerprint : String)
  | mutationLock
  | template (templateId : String)
  | runtime (runtimeId : String)
  | upload (targetId path : String)
  | sleep (seconds : Nat)
  deriving DecidableEq, Repr

@[reducible] def Answer : Query → Type
  | .now => Int
  | .uuid _ => String
  | .uuids _ => Nat → String
  | .cachedCheckpoint _ => Option Checkpoint
  | .launchContext _ _ => LaunchContext
  | .launchCommand _ _ => List String
  | .detectEula _ => EulaState
  | .validateLaunch _ => GateResult
  | .acceptEula _ _ => Unit
  | .provisionRcon _ => String
  | .encrypt _ => Unit
  | .decrypt _ => String
  | .spawn _ _ _ _ => SpawnResult
  | .tail _ => Unit
  | .poll _ => PollResult
  | .terminate _ _ => TerminateResult
  | .closeHandle _ => Unit
  | .writeStdin _ _ => Bool
  | .probe _ _ _ => ProbeResult
  | .rounds _ => Nat
  | .readinessTarget _ => ReadinessTarget
  | .rconOpen _ => Unit
  | .rconConnect _ => Unit
  | .rconPing _ => Bool
  | .rconCommand _ _ => Bool
  | .rconClose _ => Unit
  | .readiness _ _ _ => Option String
  | .archive _ _ => Bool
  | .writeArchive _ => String
  | .fileEdit _ => Unit
  | .unlink _ => Unit
  | .preview _ _ => Option String
  | .rememberPreview _ _ _ => Unit
  | .mutationLock => Bool
  | .template _ => Option (String × String)
  | .runtime _ => Bool
  | .upload _ _ => Option String
  | .sleep _ => Unit

/-- The places of the source that touch the database. -/
inductive Site
  | create | claim | transition (status : OperationStatus) | operationRead | publishRead
  | notify | markRead | dismiss | audit
  | worldRead | launchRead | setWorldState (state : WorldState)
  | openSession | storeSecret | closeSession | sessionRead
  | mutationRead | applyCreate | applyDelete | applyRuntimeConfig | configuration | elsewhere
  | artifactRead | registerArtifact | flagSuspect | recordHistory | updateOutcome
  | restoreWorldState (state : WorldState)
  | scheduleRead | recordMissed
  | cleanupRead | cleanup
  | syncRead | syncTarget | syncRecord | syncAttempt
  deriving DecidableEq, Repr

abbrev Prog := Framework.Program (Framework.Cmd Site Stmt Query)
  (Framework.Cmd.Reply Database Answer) Exn

abbrev Block := Framework.Body Stmt Database Exn

abbrev Session := Framework.Session Site Query Fault Answer Database

abbrev Log := List (Framework.Note Site Query Fault Answer)

/-- Several calls on the writer connection. -/
abbrev ServerSystem := Framework.System Site Stmt Query Answer Database Exn

abbrev ServerMove := Framework.Move Site Stmt Query Fault Answer Database Exn

/-- The environment of a run: what every command meets. -/
abbrev Env := Nat → Session → (m : Framework.Cmd Site Stmt Query) →
  m.Outcome Fault Answer

/-- An answer that lets every service go on; `id` is every id drawn, and no time passes. -/
def Query.smooth (id : String) : (q : Query) → Answer q
  | .now => (0 : Int)
  | .uuid kind => if kind = "op" then id else kind ++ id
  | .uuids kind => fun _ => kind ++ id
  | .cachedCheckpoint _ => (none : Option Checkpoint)
  | .launchContext _ javaPath => (⟨"", javaPath, 0, 0, []⟩ : LaunchContext)
  | .launchCommand _ _ => ([] : List String)
  | .detectEula _ => EulaState.accepted
  | .validateLaunch _ => (⟨true, none, none⟩ : GateResult)
  | .acceptEula _ _ => ()
  | .provisionRcon _ => ""
  | .encrypt _ => ()
  | .decrypt _ => ""
  | .spawn worldId _ _ _ => (⟨some ⟨worldId, 1, 0⟩, none⟩ : SpawnResult)
  | .tail _ => ()
  | .poll _ => (⟨true, "running"⟩ : PollResult)
  | .terminate _ _ => (⟨true, true⟩ : TerminateResult)
  | .closeHandle _ => ()
  | .writeStdin _ _ => true
  | .probe _ _ _ => (⟨false, none, false⟩ : ProbeResult)
  | .rounds _ => (1 : Nat)
  | .readinessTarget _ => (⟨"process_alive", []⟩ : ReadinessTarget)
  | .rconOpen _ => ()
  | .rconConnect _ => ()
  | .rconClose _ => ()
  | .rconPing _ => true
  | .rconCommand _ _ => true
  | .readiness _ _ _ => some "process_alive"
  | .archive _ _ => true
  | .writeArchive _ => ""
  | .fileEdit _ => ()
  | .unlink _ => ()
  | .preview _ _ => (none : Option String)
  | .rememberPreview _ _ _ => ()
  | .mutationLock => true
  | .template _ => some ("vanilla", "1.21")
  | .runtime _ => true
  | .upload _ _ => (none : Option String)
  | .sleep _ => ()

/-- The environment in which no command fails. -/
def Env.smooth (id : String) : Env
  | _, _, .ask q => .ok (q.smooth id)
  | _, _, .draw q => q.smooth id
  | _, _, .begin _ => none
  | _, _, .execute _ _ => none
  | _, _, .select _ => none
  | _, _, .commit _ => none
  | _, _, .rollback => none
  | _, _, .read _ => none

def ask (q : Query) : Prog (Answer q) := Framework.ask q

def read {α : Type} (t : Site) (f : Database → α) : Prog α := Framework.readCommitted t f

def draw (q : Query) : Prog (Answer q) := Framework.draw q

def now : Prog Int := draw .now

def uuid (kind : String) : Prog String := draw (.uuid kind)

end McManager
