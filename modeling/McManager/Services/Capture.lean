import Mathlib.Data.Rat.Defs
import Mathlib.Logic.Function.Basic
import McManager.Domain.Exceptions
import McManager.Framework.Steps

/-! The capture of a world as an archive, with the files, the rows and the RCON commands of one
attempt; each of its steps goes through or raises as the course says. -/

namespace McManager.Capture

open Framework
open Steps (step given current ensure require onlyIf)

/-- The commands of a save coordinator. -/
inductive Command
  | saveOff | saveAll | saveOn
  deriving DecidableEq, Repr

def Command.text : Command → String
  | saveOff => "save-off"
  | saveAll => "save-all"
  | saveOn => "save-on"

/-- What goes out of the manager: the coordinator takes up a command, and the command is sent. -/
inductive Signal
  | attempted (c : Command)
  | sent (c : Command)
  deriving DecidableEq, Repr

structure RuntimeSessionRcon where
  sessionId : String
  rconSecretId : String
  rconPort : Option Nat
  deriving DecidableEq, Repr

/-- How a command ends: it may raise before it is sent or after. -/
inductive Delivery
  | answered
  | raises (e : Exn) (sent : Bool)
  deriving DecidableEq, Repr

/-- What the coordinator meets on one command. -/
structure Exchange where
  session : Except Exn (Option RuntimeSessionRcon)
  secret : Option Exn := none
  connected : Option Exn := none
  command : Delivery := .answered
  closed : Option Exn := none

/-- How the writing of an archive ends, and what is then in the file. -/
inductive Writing (C : Type)
  | complete (content : C) (skipped : Nat)
  | raises (e : Exn) (content : Option C)

/-- What comes from outside to `create_archive`. -/
structure ArchiveCourse (C : Type) where
  resolved : Option Exn := none
  written : Writing C
  synced : Option Exn := none
  verified : Option Exn := none
  replaced : Option Exn := none
  unlinked : Option Exn := none

/-- What comes from outside during an attempt: which steps raise, and what they give. -/
structure Course (C : Type) where
  artifactId : String
  now : Int
  coordinator : Bool := true
  treeSize : Except Exn Nat := .ok 0
  free : Except Exn Nat
  suspend : Exchange
  modifiedBefore : Except Exn Rat := .ok 0
  flush : Exchange
  modifiedAfter : Except Exn Rat := .ok 0
  time : Rat := 0
  timeAgain : Rat := 0
  made : Option Exn := none
  archive : ArchiveCourse C
  hashed : Option Exn := none
  verified : Option Exn := none
  dropped : Option Exn := none
  replaced : Option Exn := none
  /-- What the medium holds after the rename in place of what was written. -/
  altered : Option C := none
  measured : Option Exn := none
  rehashed : Option Exn := none
  opened : Option Exn := none
  inserted : Option Exn := none
  committed : Option Exn := none
  rolledBack : Option Exn := none
  unlinkedPart : Option Exn := none
  unlinkedFinal : Option Exn := none
  resume : Exchange

/-- The size of a file, and its SHA-256. -/
structure Measure (C : Type) where
  size : C → Nat
  sha256 : C → String

/-- A new row of `backup_artifacts`. -/
structure ArtifactRow where
  artifactId : String
  worldId : String
  category : String
  storagePath : String
  sizeBytes : Nat
  checksum : String
  suspect : Bool := false
  operationId : String
  createdAt : Int
  deriving DecidableEq, Repr

structure BackupResult where
  artifactId : String
  storagePath : String
  checksum : String
  sizeBytes : Nat
  skippedPaths : Nat
  deriving DecidableEq, Repr

/-- The arguments of `create_world_backup`. -/
structure Request where
  worldId : String
  backupDir : String
  operationId : String
  category : String
  running : Bool
  deriving DecidableEq, Repr

/-- The files of an attempt by their paths. -/
abbrev Files (C : Type) := String → Option C

/-- The files the attempt has put under its own names, the rows that are committed, those the
writer has inserted since, and the signals. -/
structure State (C : Type) where
  files : Files C
  rows : List ArtifactRow
  pending : List ArtifactRow
  connection : Bool
  signals : List Signal

abbrev Capturing (C : Type) := Steps (State C) Exn

section Files

variable {C : Type}

/-- No file: the names of an attempt are new with its id. -/
def Files.empty : Files C := fun _ => none

/-- Before an attempt. -/
def State.start (rows : List ArtifactRow) : State C := ⟨.empty, rows, [], false, []⟩

def State.put (path : String) (content : C) (s : State C) : State C :=
  { s with files := Function.update s.files path (some content) }

def State.erase (path : String) (s : State C) : State C :=
  { s with files := Function.update s.files path none }

def missing : Exn := .external (.host "No such file or directory")

/-- What is in a file. -/
def content (path : String) : Capturing C C := do
  let s ← current
  given ((s.files path).elim (.error missing) .ok)

/-- `unlink(missing_ok=True)`. -/
def unlink (raised : Option Exn) (path : String) : Capturing C Unit := step raised (State.erase path)

/-- `os.replace`; the medium may then hold something else. -/
def replace (raised : Option Exn) (altered : Option C) (source target : String) :
    Capturing C Unit := do
  let held ← content source
  step raised fun s => (s.erase source).put target (altered.getD held)

def sha256 (m : Measure C) (raised : Option Exn) (path : String) : Capturing C String := do
  step raised id
  let held ← content path
  pure (m.sha256 held)

def size (m : Measure C) (raised : Option Exn) (path : String) : Capturing C Nat := do
  step raised id
  let held ← content path
  pure (m.size held)

end Files

section Coordinator

variable {C : Type}

def coordination (text : String) : Exn := .external (.rcon text)

def signal (event : Signal) : Capturing C Unit :=
  step none fun s => { s with signals := s.signals ++ [event] }

/-- `isinstance(exc, MinecraftRconError)`. -/
def isRcon : Exn → Bool
  | .external (.rcon _) => true
  | _ => false

/-- `_connect`. -/
def connect (x : Exchange) (worldId : String) : Capturing C Unit := do
  match ← given x.session with
  | none => throw (coordination ("no open runtime session for world " ++ worldId))
  | some session =>
    require session.rconPort.isSome (coordination
      ("rcon port missing for world " ++ worldId ++ " session " ++ session.sessionId))
    tryCatch (step x.secret id) fun _ =>
      throw (coordination ("rcon secret unreadable for world " ++ worldId))
    tryCatch (step x.connected id) fun e => do
      onlyIf (isRcon e) (step x.closed id)
      throw (if isRcon e then
        coordination ("rcon connect failed for world " ++ worldId ++ ": " ++ e.text) else e)

/-- `client.command`. -/
def deliver (x : Exchange) (c : Command) : Capturing C Unit :=
  match x.command with
  | .answered => signal (.sent c)
  | .raises e sent => do
    onlyIf sent (signal (.sent c))
    throw e

/-- `suspend_autosave`, `flush` and `resume_autosave`. -/
def coordinate (x : Exchange) (worldId : String) (c : Command) : Capturing C Unit := do
  signal (.attempted c)
  connect x worldId
  ensure
    (tryCatch (deliver x c) fun e =>
      throw (if isRcon e then coordination (c.text ++ " failed: " ++ e.text) else e))
    (step x.closed id)

end Coordinator

section Archive

variable {C : Type}

def write (w : Writing C) (path : String) : Capturing C Nat :=
  match w with
  | .complete held skipped => do
    step none (State.put path held)
    pure skipped
  | .raises e held => do
    step none (held.elim id (State.put path))
    throw e

/-- `create_archive`. -/
def createArchive (course : ArchiveCourse C) (target : String) : Capturing C Nat := do
  step course.resolved id
  let staged := target ++ ".part"
  tryCatch (do
    let skipped ← write course.written staged
    step course.synced id
    step course.verified id
    replace course.replaced none staged target
    pure skipped) fun e => do
      unlink course.unlinked staged
      throw e

/-- `_verify_zip`. -/
def verifyZip (course : Course C) (path : String) : Capturing C Unit :=
  tryCatch (step course.verified id) fun _ => do
    unlink course.dropped path
    throw (.backupIntegrity "created artifact failed archive verification")

def Request.finalPath (q : Request) (artifactId : String) : String :=
  q.backupDir ++ "/" ++ q.worldId ++ "-" ++ artifactId ++ ".zip"

/-- The part of `_write_and_register` up to its rename: how many paths the archive skips, and its
checksum. -/
def place (m : Measure C) (course : Course C) (final part : String) : Capturing C (Nat × String) := do
  let skipped ← createArchive course.archive part
  let checksum ← sha256 m course.hashed part
  verifyZip course part
  replace course.replaced course.altered part final
  pure (skipped, checksum)

/-- The part of `_write_and_register` from there to its commit. -/
def record (m : Measure C) (course : Course C) (q : Request) (final : String) (skipped : Nat)
    (checksum : String) : Capturing C BackupResult := do
  let size ← size m course.measured final
  let again ← sha256 m course.rehashed final
  require (again == checksum) (.backupIntegrity "post-rename checksum mismatch")
  step course.opened fun s => { s with connection := true }
  step course.inserted fun s => { s with
    pending := s.pending ++ [{
      artifactId := course.artifactId, worldId := q.worldId, category := q.category
      storagePath := final, sizeBytes := size, checksum, operationId := q.operationId
      createdAt := course.now }] }
  step course.committed fun s => { s with rows := s.rows ++ s.pending, pending := [] }
  pure ⟨course.artifactId, final, checksum, size, skipped⟩

/-- The handler of `_write_and_register`. -/
def discard (course : Course C) (final part : String) : Capturing C Unit := do
  let s ← current
  onlyIf s.connection (step course.rolledBack fun s => { s with pending := [] })
  unlink course.unlinkedPart part
  unlink course.unlinkedFinal final

/-- `_write_and_register`. -/
def writeAndRegister (m : Measure C) (course : Course C) (q : Request) :
    Capturing C BackupResult := do
  step course.made id
  let final := q.finalPath course.artifactId
  let part := final ++ ".part"
  tryCatch (do
    let (skipped, checksum) ← place m course final part
    record m course q final skipped checksum) fun e => do
      discard course final part
      throw e

end Archive

section Backup

variable {C : Type}

/-- `STORAGE_GUARD_RESERVE_BYTES`. -/
def storageGuardReserveBytes : Nat := 10 * 1024 * 1024 * 1024

/-- `required_free`. -/
def requiredFree (estimatedSize : Nat) : Nat :=
  estimatedSize + max storageGuardReserveBytes (estimatedSize * 10 / 100)

/-- `_enforce_storage_guard`. -/
def enforceStorageGuard (course : Course C) : Capturing C Unit := do
  let estimatedSize ← given course.treeSize
  let free ← given course.free
  require (requiredFree estimatedSize ≤ free) (.backupIntegrity "STORAGE_GUARD_FAILED")

def unverified : Exn := .backupIntegrity "LEVEL_DAT_FLUSH_UNVERIFIED"

/-- `modified_at`; an `OSError` says that the flush is not verified. -/
def modifiedAt (r : Except Exn Rat) : Capturing C Rat :=
  tryCatch (given r) fun
    | .external (.host _) => throw unverified
    | e => throw e

/-- What `_verify_level_dat_flush` asks of the time stamp. -/
def flushed (before after time timeAgain : Rat) : Bool :=
  let age := time - after
  !(age < -5 || 30 < age) && !(after < before || (after == before && 1 ≤ timeAgain - before))

/-- `_verify_level_dat_flush`. -/
def verifyLevelDatFlush (course : Course C) (before : Rat) : Capturing C Unit := do
  let after ← modifiedAt course.modifiedAfter
  require (flushed before after course.time course.timeAgain) unverified

/-- `create_world_backup`. -/
def createWorldBackup (m : Measure C) (course : Course C) (q : Request) :
    Capturing C BackupResult := do
  require (!q.running || course.coordinator)
    (.backupIntegrity "running-world backup requires save coordination")
  enforceStorageGuard course
  if q.running then
    ensure (do
      coordinate course.suspend q.worldId .saveOff
      let before ← modifiedAt course.modifiedBefore
      coordinate course.flush q.worldId .saveAll
      verifyLevelDatFlush course before
      writeAndRegister m course q)
      (coordinate course.resume q.worldId .saveOn)
  else writeAndRegister m course q

end Backup

end McManager.Capture
