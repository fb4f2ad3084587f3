import McManager.Framework.Exclusive
import McManager.Services.OperationFrames
import McManager.Services.Worlds

namespace McManager.Worlds

open Framework Operations

abbrev EulaCommand := Framework.Cmd Site Stmt Query

/-- The world waits for the acceptance of its EULA. -/
def Required (db : Database) (worldId : String) : Prop :=
  (db.world? worldId).map World.state = some .eulaRequired

/-- How far a start or an acceptance has come. `runs` stands before the commit that makes the
operation running. From `running` on a start has the directory of its world (`context`), has read
its `eula.txt` as accepted (`read`), has seen the acceptance audited (`gated`) and has written the
queued state (`queued`). An acceptance has written the state (`opening`) and committed it
(`opened`), has written its operation completed (`closing`) and committed it (`completed`), or was
turned back between these (`lost`). -/
inductive EulaStage
  | idle | runs | running
  | context (worldId worldDir : String)
  | read (worldId : String)
  | gated (worldId : String)
  | queued (worldId : String)
  | opening (worldId : String)
  | opened (worldId : String)
  | closing (worldId : String)
  | completed | lost
  deriving DecidableEq

namespace EulaStage

/-- The stage after a statement. -/
def written (x : EulaStage) : Stmt → EulaStage
  | .updateOperation _ status _ _ _ _ _ _ _ =>
    match x, status with
    | .idle, .running => .runs
    | .opened worldId, .completed => .closing worldId
    | x, _ => x
  | .setWorldState worldId state _ _ intent =>
    match x, state, intent with
    | _, _, .eulaAcceptance => .opening worldId
    | .gated w, .queued, _ => if w = worldId then .queued worldId else x
    | x, _, _ => x
  | _ => x

def committed : EulaStage → EulaStage
  | .runs => .running
  | .opening worldId => .opened worldId
  | .closing _ => .completed
  | x => x

def rolledBack : EulaStage → EulaStage
  | .runs => .idle
  | .opening _ | .opened _ | .closing _ => .lost
  | x => x

def failed : EulaStage → EulaStage
  | .opened _ | .closing _ => .lost
  | x => x

/-- The stage after a query or an answer. -/
def told (x : EulaStage) : (m : EulaCommand) → m.Reply Database Answer → EulaStage
  | .read .launchRead, db =>
    match x with
    | .read worldId => if eulaAudited db worldId then .gated worldId else x
    | x => x
  | .ask (.launchContext w _), launch =>
    match x with
    | .running => .context w.worldId launch.worldDir
    | x => x
  | .ask (.detectEula worldDir), state =>
    match x with
    | .context worldId dir => if dir = worldDir ∧ state = .accepted then .read worldId else x
    | x => x
  | _, _ => x

def next (x : EulaStage) : (m : EulaCommand) → Except Exn (m.Reply Database Answer) → EulaStage
  | .execute _ s, .ok _ => x.written s
  | .commit _, .ok _ => x.committed
  | .rollback, _ => x.rolledBack
  | m, .ok a => x.told m a
  | _, .error _ => x.failed

/-- No transaction has to end before the stage counts. -/
def plain : EulaStage → Bool
  | .runs | .opening _ | .opened _ | .closing _ => false
  | _ => true

/-- The state is committed, and the completed operation is not. -/
def inWindow (worldId : String) : EulaStage → Bool
  | .opened w | .closing w => w == worldId
  | _ => false

theorem rolledBack_plain (x : EulaStage) : x.rolledBack.plain = true := by
  cases x <;> rfl

theorem failed_plain {x : EulaStage} (h : x.plain = true) : x.failed = x := by
  cases x <;> first | rfl | cases h

theorem committed_plain {x : EulaStage} (h : x.plain = true) : x.committed = x := by
  cases x <;> first | rfl | cases h

theorem told_plain {x : EulaStage} (h : x.plain = true) (m : EulaCommand)
    (a : m.Reply Database Answer) : (x.told m a).plain = true := by
  unfold told
  split
  · split
    · split
      · rfl
      · exact h
    · exact h
  · split
    · rfl
    · exact h
  · split
    · split
      · rfl
      · exact h
    · exact h
  · exact h

end EulaStage

/-- What is known of a call: its transaction, the rows it last looked for a world in, the operation
it has inserted, and its stage. -/
structure EulaMark where
  txn : Txn Database := .outside
  last : Option Database := none
  own : Option Operation := none
  stage : EulaStage := .idle

namespace EulaMark

def lastAfter (last : Option Database) :
    (m : EulaCommand) → Except Exn (m.Reply Database Answer) → Option Database
  | .read .worldRead, .ok db => some db
  | _, _ => last

def ownAfter (own : Option Operation) :
    (m : EulaCommand) → Except Exn (m.Reply Database Answer) → Option Operation
  | .execute _ (.insertOperation op), .ok _ => some op
  | _, _ => own

def next (q : EulaMark) (m : EulaCommand) (r : Except Exn (m.Reply Database Answer)) : EulaMark where
  txn := q.txn.next m r
  last := lastAfter q.last m r
  own := ownAfter q.own m r
  stage := q.stage.next m r

/-- The statements a call may run: a state of a world only along an edge from the row it has looked
at, a completed acceptance only of the operation it has inserted for its world, and the record of
an acceptance only for a world it has seen waiting for it. -/
def Permits (q : EulaMark) : Stmt → Prop
  | .setWorldState worldId state _ _ intent => q.stage.plain = true ∧
    ∃ db w, q.txn = .looked db ∧ db.world? worldId = some w ∧ Edge w.state state intent
  | .updateOperation opId _ _ _ _ _ _ _ _ => q.txn.Open ∧ ∀ worldId,
    q.stage = .opened worldId → ∃ op, q.own = some op ∧ op.opId = opId ∧
      op.opType = .configEdit ∧ op.worldId = some worldId
  | .insertAudit row => row.eventType = .worldEulaAccepted → ∀ worldId,
    row.worldId = some worldId → ∃ db, q.last = some db ∧ Required db worldId
  | .insertOperation _ | .cancelOperation _ _ _ | .insertNotification _ | .insertSession _
  | .closeSessions _ _ _ | .insertSecret _ => True
  | _ => False

def Allows (q : EulaMark) : EulaCommand → Prop
  | .execute _ s => q.Permits s
  | .ask (.spawn worldId _ _ _) => q.stage = .queued worldId
  | _ => True

end EulaMark

/-- The worlds whose acceptance has committed the state, and those whose acceptance has committed its
operation as completed. -/
structure Acceptances where
  opened : List String := []
  completed : List String := []
  deriving DecidableEq

def Acceptances.count (tally : Acceptances) (q : EulaMark) :
    (m : EulaCommand) → Except Exn (m.Reply Database Answer) → Acceptances
  | .commit _, .ok _ =>
    match q.stage with
    | .opening worldId => { tally with opened := tally.opened ++ [worldId] }
    | .closing worldId => { tally with completed := tally.completed ++ [worldId] }
    | _ => tally
  | _, _ => tally

/-- Neither a transaction nor an acceptance is left half way. -/
structure Plain (q : EulaMark) : Prop where
  outside : q.txn = .outside
  plain : q.stage.plain = true

def eula : Script Site Stmt Query Answer Database Exn EulaMark Acceptances where
  start := {}
  allows := EulaMark.Allows
  next := EulaMark.next
  count := Acceptances.count
  ends := Plain

end McManager.Worlds
