import Mathlib.Logic.Function.Basic
import McManager.Framework.Sequential
import McManager.Services.Operations

namespace McManager.Operations

open Framework

/-- What an operation service keeps in memory: `_pending_checkpoints` and `_progress_cache`. -/
structure Memory where
  pending : String → Option Checkpoint := fun _ => none
  progress : String → Option Checkpoint := fun _ => none

namespace Memory

/-- The checkpoint a milestone without one of its own is stored with, if there is one. -/
def cached (mem : Memory) (opId : String) : Option Checkpoint :=
  (mem.pending opId).or (mem.progress opId)

/-- What a call of `transition` that has gone through leaves in memory. -/
def transitioned (mem : Memory) (opId : String) (status : OperationStatus)
    (checkpoint : Option Checkpoint) : Memory :=
  if status ≠ .running ∧ !status.terminal then
    match checkpoint with
    | none => mem
    | some c => { mem with pending := Function.update mem.pending opId (some c) }
  else {
    pending := Function.update mem.pending opId none
    progress := if status.terminal then Function.update mem.progress opId none else mem.progress }

def ticked (mem : Memory) (opId : String) (c : Checkpoint) : Memory :=
  { mem with progress := Function.update mem.progress opId (some c) }

end Memory

/-- `update_progress_in_memory` up to the cache: the tick it puts there. -/
def updateProgressInMemory (opId : String) (progressPct : Int) (stepName : String) :
    Prog Checkpoint := do
  if progressPct < 0 ∨ 100 < progressPct then
    throw (.valueError "progress_pct must be between 0 and 100")
  else do
    let row ← read .operationRead (·.operation? opId)
    match row with
    | none => throw (.operationState ("operation not found: " ++ opId))
    | some row =>
      if row.terminal then throw (.operationState ("operation already terminal: " ++ opId))
      else do
        let ts ← now
        pure { progressPct := some progressPct, step := some stepName, ts := some ts }

/-- The calls that report on one operation. -/
inductive Report
  | transition (status : OperationStatus) (m : Milestone)
  | progress (progressPct : Int) (stepName : String)

/-- The committed rows and the memory of the service. -/
structure Kept where
  db : Database
  memory : Memory

/-- What a call has told of the operation: its checkpoint, if it has one. -/
inductive Told
  | noted (checkpoint : Option Checkpoint)
  | ran (checkpoint : Option Checkpoint)
  | ticked (checkpoint : Checkpoint)
  | ended (checkpoint : Option Checkpoint)

def Told.transition (status : OperationStatus) (checkpoint : Option Checkpoint) : Told :=
  if status.terminal then .ended checkpoint
  else if status = .running then .ran checkpoint
  else .noted checkpoint

/-- The environment of a call: the cached checkpoint is the one in memory. -/
def remembering (mem : Memory) (env : Env) : Env
  | _, _, .draw (.cachedCheckpoint opId) => mem.cached opId
  | n, x, m => env n x m

/-- The transaction of a call of `transition` has been committed. -/
def transitionCommitted (log : Log) : Bool :=
  log.any fun
    | .committed (.transition _) => true
    | _ => false

/-- One call: what it has told, unless it was refused, and what is kept after it. -/
def report (svc : OperationService) (opId : String) (env : Env) (k : Kept) :
    Report → Option Told × Kept
  | .transition status m =>
    let y := (run (remembering k.memory env) (transition svc opId status m) ⟨.closed k.db, []⟩).2
    if transitionCommitted y.log then
      (some (.transition status m.checkpoint),
        ⟨y.conn.committed, k.memory.transitioned opId status m.checkpoint⟩)
    else (none, ⟨y.conn.committed, k.memory⟩)
  | .progress progressPct stepName =>
    let r := (run env (updateProgressInMemory opId progressPct stepName) ⟨.closed k.db, []⟩).1
    match r with
    | .ok c => (some (.ticked c), { k with memory := k.memory.ticked opId c })
    | .error _ => (none, k)

/-- Calls one after another, each in its own environment: what they have told, the last first. -/
def reports (svc : OperationService) (opId : String) :
    List (Report × Env) → List Told × Kept → List Told × Kept
  | [], state => state
  | (call, env) :: calls, (told, k) =>
    reports svc opId calls ((report svc opId env k call).1.toList ++ told,
      (report svc opId env k call).2)

end McManager.Operations
