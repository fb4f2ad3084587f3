import McManager.Services.LifecycleFrames
import McManager.Services.Restore

namespace McManager

open Framework

/-- Where the archive of an artifact is stored. -/
def Database.pathOf (db : Database) (artifactId : String) : Option String :=
  (db.artifacts.find? (·.artifactId == artifactId)).map (·.storagePath)

def Database.stateOf (db : Database) (worldId : String) : Option WorldState :=
  (db.world? worldId).map (·.state)

/-- Flagging an artifact does not move its archive. -/
theorem Database.pathOf_flagSuspect {db db' : Database} {flagged : String} {n : Nat}
    (h : (Stmt.flagSuspect flagged).apply db = .ok (db', n)) (artifactId : String) :
    db'.pathOf artifactId = db.pathOf artifactId := by
  cases h
  simp only [pathOf]
  rw [find?_updateWhere (f := fun a : BackupArtifact => { a with suspect := true }) fun _ => rfl]
  cases db.artifacts.find? (·.artifactId == artifactId) with
  | none => rfl
  | some a =>
    simp only [Option.map_some]
    split <;> rfl

theorem Database.stateOf_updateWhere {db : Database} {worldId : String} {s : WorldState}
    (h : db.stateOf worldId = some s) {f : World → World} {t : WorldState}
    (keeps : ∀ w, (f w).worldId = w.worldId) (enters : ∀ w, (f w).state = t) :
    Database.stateOf { db with worlds := updateWhere (·.worldId == worldId) f db.worlds } worldId =
      some t := by
  obtain ⟨w, hw, -⟩ := Option.map_eq_some_iff.mp h
  have hid : w.worldId = worldId := by simpa using List.find?_some hw
  have hfind : db.worlds.find? (·.worldId == worldId) = some w := hw
  simp only [stateOf, world?]
  rw [find?_updateWhere (f := f) fun w => by rw [keeps], hfind]
  simp [hid, enters]

namespace Restore

open Operations

/-- What a restore has done, as the record of its run tells: how many rows it added to the
history and whether it updated an outcome, whether the restart was confirmed, whether a state it
wrote by itself got lost and which state was written last, which archive is staged and which one
the world directory holds. -/
structure Course where
  recorded : Nat := 0
  updated : Bool := false
  confirmed : Bool := false
  unwritten : Bool := false
  standing : WorldState := .off
  staged : Option String := none
  dir : Option String := none
  switched : Bool := false
  deriving DecidableEq, Repr

def Course.next (c : Course) : Note Site Query Fault Answer → Course
  | .committed .recordHistory => { c with recorded := c.recorded + 1 }
  | .committed .updateOutcome => { c with updated := true }
  | .committed (.setWorldState state) => { c with standing := state }
  | .committed (.restoreWorldState state) =>
    { c with standing := state, confirmed := c.confirmed || state == .running }
  -- Only a confirmed restart is followed by the write of `running`.
  | .failed (.restoreWorldState state) =>
    { c with unwritten := true, confirmed := c.confirmed || state == .running }
  | .answered (.archive step path) (.ok done) =>
    if step = "clear" then { c with staged := none }
    else if step = "extract" then { c with staged := if done then some path else none }
    else if step = "switch" then { c with staged := none, dir := c.staged, switched := true }
    else c
  | .answered (.archive step _) (.error _) =>
    if step = "clear" ∨ step = "extract" then { c with staged := none }
    else if step = "switch" then { c with staged := none, dir := none }
    else c
  | _ => c

def course (log : Log) : Course := log.foldl Course.next {}

@[simp] theorem course_nil : course [] = {} := rfl

@[simp] theorem course_append (log : Log) (n : Note Site Query Fault Answer) :
    course (log ++ [n]) = (course log).next n := by
  simp [course, List.foldl_append]

theorem Course.next_observed (c : Course) {n : Note Site Query Fault Answer}
    (h : n.Observed (fun t => Worlds.reader t = true) fun q => Worlds.lifecycle q = true) :
    c.next n = c := by
  cases n with
  | committed t => exact h.elim
  | failed t =>
    cases t with
    | restoreWorldState state => cases h
    | _ => rfl
  | answered q o =>
    cases q with
    | archive step path => cases h
    | _ => cases o <;> rfl

/-- What is settled when the history of a restore has its row. -/
structure Facts where
  request : RestoreRequest
  before : Database
  restoreId : String
  preBackup : String
  source : String
  backup : String

/-- The row of the restore has this outcome, and both archives are where they were. -/
structure Ledger (f : Facts) (outcome : String) (db : Database) : Prop where
  unique : db.UniqueOperations
  row : ∃ row, db.restores[f.before.restores.length]? = some row ∧ row.restoreId = f.restoreId ∧
    row.preRestoreArtifactId = f.preBackup ∧ row.outcome = outcome
  source : db.pathOf f.request.artifactId = some f.source
  backup : db.pathOf f.preBackup = some f.backup

theorem Ledger.congr {f : Facts} {outcome : String} {db db' : Database} (h : Ledger f outcome db)
    (unique : db'.UniqueOperations) (restores : db'.restores = db.restores)
    (artifacts : db'.artifacts = db.artifacts) : Ledger f outcome db' where
  unique := unique
  row := by rw [restores]; exact h.row
  source := by rw [Database.pathOf, artifacts]; exact h.source
  backup := by rw [Database.pathOf, artifacts]; exact h.backup

/-- The new operations that roll the restore back are among those `P` allows. -/
def RolledBack (request : RestoreRequest) (before : Database) (P : Operation → Prop)
    (db : Database) : Prop :=
  ∀ op ∈ db.operations, op.compensatesOperationId = some request.operationId →
    before.hasOperation op.opId = true ∨ P op

/-- While the restart is tried: no rollback has begun. -/
structure Restarting (f : Facts) (log : Log) (db : Database) : Prop where
  course_eq : ∃ state, course log =
      { recorded := 1, standing := state, dir := some f.source, switched := true } ∧
    db.stateOf f.request.worldId = some state
  ledger : Ledger f "success" db
  apart : RolledBack f.request f.before (fun _ => False) db

theorem Restarting.noted {f : Facts} {log : Log} {db : Database} (h : Restarting f log db)
    {n : Note Site Query Fault Answer} (quiet : ∀ c : Course, c.next n = c) :
    Restarting f (log ++ [n]) db where
  course_eq := by
    rw [course_append, quiet]
    exact h.course_eq
  ledger := h.ledger
  apart := h.apart

section Rules

variable {E : Scope} {J : Log → Database → Prop}

/-- A milestone on a connection whose transaction may be open. -/
theorem both_transition {svc : OperationService} {opId : String} {status : OperationStatus}
    {m : Milestone}
    (done : ∀ l d cached now auditId notificationId notifiedAt op d', J l d →
      (transitionBlock svc opId status m cached now auditId notificationId notifiedAt).eval d =
        .ok (op, d') → J (l ++ [.committed (.transition status)]) d')
    (fault : ∀ l d, J l d → J (l ++ [.failed (.transition status)]) d)
    (silent : ∀ l d, J l d → J (l ++ [.failed .publishRead]) d) :
    Triple E (Both J) (fun _ => Both J) (fun _ => Both J)
      (Operations.transition svc opId status m) := by
  unfold Operations.transition
  simp only [Program.bind_eq]
  apply Triple.bind (Triple.draw fun x _ hx _ => hx)
  intro now
  apply Triple.bind (Triple.draw fun x _ hx _ => hx)
  intro cached
  apply Triple.bind (Triple.draw fun x _ hx _ => hx)
  intro auditId
  apply Triple.bind (Triple.draw fun x _ hx _ => hx)
  intro notificationId
  apply Triple.bind (Triple.draw fun x _ hx _ => hx)
  intro notifiedAt
  apply Triple.bind (both_transaction (K := fun _ => J)
    (fun l d op d' => done l d cached now auditId notificationId notifiedAt op d') fault)
  intro op
  have published : Triple E (Both J) (fun _ => Both J) (fun _ => Both J) (publishTerminal svc) := by
    unfold publishTerminal
    split
    · apply Triple.read
      · exact fun x hx => hx
      · exact fun x φ hx _ => ⟨silent _ _ hx.1, silent _ _ hx.2⟩
    · exact Triple.ret fun x hx => hx
  split
  · exact Triple.bind published fun _ => Triple.ret fun x hx => hx
  · exact Triple.ret fun x hx => hx

/-- A new operation on a connection whose transaction may be open. -/
theorem both_create {svc : OperationService} {request : OperationInput} {initial : OperationStatus}
    {allow : Bool}
    (done : ∀ l d opId auditIds now op cancelled replayed d', J l d →
      (createBlock request initial allow opId auditIds now).eval d =
        .ok ((op, cancelled, replayed), d') → J (l ++ [.committed .create]) d')
    (fault : ∀ l d, J l d → J (l ++ [.failed .create]) d)
    (silent : ∀ l d, J l d → J (l ++ [.failed .publishRead]) d) :
    Triple E (Both J) (fun _ => Both J) (fun _ => Both J)
      (Operations.create svc request initial allow) := by
  have read' : Triple E (Both J) (fun _ => Both J) (fun _ => Both J)
      (read .publishRead fun _ => ()) := by
    apply Triple.read
    · exact fun x hx => hx
    · exact fun x φ hx _ => ⟨silent _ _ hx.1, silent _ _ hx.2⟩
  have published : Triple E (Both J) (fun _ => Both J) (fun _ => Both J) (publishTerminal svc) := by
    unfold publishTerminal
    split
    · exact read'
    · exact Triple.ret fun x hx => hx
  unfold Operations.create createWithReplay
  simp only [Program.bind_eq]
  refine Triple.bind ?_ fun _ => Triple.ret fun x hx => hx
  apply Triple.bind (Triple.draw fun x _ hx _ => hx)
  intro now
  apply Triple.bind (Triple.draw fun x _ hx _ => hx)
  intro opId
  apply Triple.bind (Triple.draw fun x _ hx _ => hx)
  intro auditIds
  apply Triple.bind (both_transaction (K := fun _ => J)
    (fun l d r d' => done l d opId auditIds now r.1 r.2.1 r.2.2 d') fault)
  intro r
  apply Triple.bind (Triple.each _ fun _ _ => published)
  intro _
  split
  · exact Triple.bind read' fun _ => Triple.ret fun x hx => hx
  · exact Triple.ret fun x hx => hx

end Rules

/-- What a milestone leaves alone, and that it settles the operation it ends. -/
theorem transitionBlock_rows {db db' : Database} (unique : db.UniqueOperations)
    {svc : OperationService} {opId : String} {status : OperationStatus} {m : Milestone}
    {cached : Option Checkpoint} {now : Int} {auditId notificationId : String} {notifiedAt : Int}
    {updated : Operation}
    (h : (transitionBlock svc opId status m cached now auditId notificationId notifiedAt).eval db =
      .ok (updated, db')) :
    (db'.restores = db.restores ∧ db'.artifacts = db.artifacts ∧ db'.worlds = db.worlds) ∧
      ∀ op ∈ db'.operations, ∃ old ∈ db.operations, op.opId = old.opId ∧
        op.compensatesOperationId = old.compensatesOperationId ∧
        (op.opId = opId → status.terminal = true → op.terminal = true) := by
  obtain ⟨current, hcurrent, rfl, -, h⟩ := transitionBlock_ok unique h
  split at h
  · obtain ⟨rfl, audits, notifications, -, rfl⟩ := h
    refine ⟨⟨rfl, rfl, rfl⟩, ?_⟩
    intro op hop
    obtain rfl | ⟨hop, hne⟩ := (mem_replaceOperation ⟨current, hcurrent, rfl⟩).mp hop
    · exact ⟨current, hcurrent, rfl, rfl, fun _ ended => ended⟩
    · exact ⟨op, hop, rfl, rfl, fun hid => absurd hid hne⟩
  · rename_i hmemory
    obtain ⟨-, rfl⟩ := h
    refine ⟨⟨rfl, rfl, rfl⟩, ?_⟩
    intro op hop
    exact ⟨op, hop, rfl, rfl, fun _ ended => absurd (.inr ended) hmemory⟩

/-- What creating an operation leaves alone. -/
theorem createBlock_rows {db db' : Database} (unique : db.UniqueOperations)
    {request : OperationInput} {initial : OperationStatus} {allow : Bool} {opId : String}
    {auditIds : Nat → String} {now : Int} {op : Operation} {cancelled : List Operation}
    {replayed : Bool}
    (h : (createBlock request initial allow opId auditIds now).eval db =
      .ok ((op, cancelled, replayed), db')) :
    (db'.restores = db.restores ∧ db'.artifacts = db.artifacts ∧ db'.worlds = db.worlds) ∧
      ∀ x ∈ db'.operations, (x = op ∧ x.compensatesOperationId = request.compensatesOperationId) ∨
        ∃ old ∈ db.operations, x.opId = old.opId ∧
          x.compensatesOperationId = old.compensatesOperationId := by
  obtain ⟨-, -, rfl, -⟩ | ⟨-, -, victims, s, code, -, rfl, -, -, -, -, rfl⟩ := createBlock_ok unique h
  · exact ⟨⟨rfl, rfl, rfl⟩, fun x hx => .inr ⟨x, hx, rfl, rfl⟩⟩
  · refine ⟨⟨rfl, rfl, rfl⟩, ?_⟩
    intro x hx
    obtain rfl | ⟨old, hold, ⟨-, -, rfl⟩ | ⟨-, rfl⟩⟩ := mem_created.mp hx
    · exact .inl ⟨rfl, rfl⟩
    · exact .inr ⟨old, hold, rfl, rfl⟩
    · exact .inr ⟨x, hold, rfl, rfl⟩

/-- Rows that come from rows of before, apart from new ones that roll nothing back. -/
theorem RolledBack.congr {request : RestoreRequest} {before db db' : Database}
    (h : RolledBack request before (fun _ => False) db)
    (rows : ∀ x ∈ db'.operations, x.compensatesOperationId = none ∨ ∃ old ∈ db.operations,
      x.opId = old.opId ∧ x.compensatesOperationId = old.compensatesOperationId) :
    RolledBack request before (fun _ => False) db' := by
  intro x hx hcompensates
  obtain hnone | ⟨old, hold, hid, hsame⟩ := rows x hx
  · rw [hnone] at hcompensates
    cases hcompensates
  · rw [hid]
    exact h old hold (hsame.symm.trans hcompensates)

/-- A step of the restart that only touches other tables. -/
theorem Restarting.congr {f : Facts} {log : Log} {db db' : Database} (h : Restarting f log db)
    (operations : db'.operations = db.operations) (restores : db'.restores = db.restores)
    (artifacts : db'.artifacts = db.artifacts) (worlds : db'.worlds = db.worlds) :
    Restarting f log db' where
  course_eq := by
    rw [Database.stateOf, Database.world?, worlds]
    exact h.course_eq
  ledger := h.ledger.congr (by rw [Database.UniqueOperations, operations]; exact h.ledger.unique)
    restores artifacts
  apart := by
    rw [RolledBack, operations]
    exact h.apart

theorem Restarting.milestone {f : Facts} {log : Log} {d d' : Database} (h : Restarting f log d)
    {svc : OperationService} {opId : String} {status : OperationStatus} {m : Milestone}
    {cached : Option Checkpoint} {now : Int} {auditId notificationId : String} {notifiedAt : Int}
    {op : Operation}
    (stored : (transitionBlock svc opId status m cached now auditId notificationId notifiedAt).eval
      d = .ok (op, d')) : Restarting f (log ++ [.committed (.transition status)]) d' := by
  have unique := (Effect.transition cached now auditId notificationId notifiedAt stored).unique
    h.ledger.unique
  obtain ⟨⟨restores, artifacts, worlds⟩, rows⟩ := transitionBlock_rows h.ledger.unique stored
  refine Restarting.noted ⟨?_, h.ledger.congr unique restores artifacts, ?_⟩ fun _ => rfl
  · rw [Database.stateOf, Database.world?, worlds]
    exact h.course_eq
  · refine h.apart.congr fun x hx => .inr ?_
    obtain ⟨old, hold, hid, hsame, -⟩ := rows x hx
    exact ⟨old, hold, hid, hsame⟩

theorem Restarting.entered {f : Facts} {log : Log} {d d' : Database} (h : Restarting f log d)
    {state : WorldState} {now : Int}
    (stored : (Worlds.setWorldStateBlock f.request.worldId state .ordinary now).eval d =
      .ok ((), d')) : Restarting f (log ++ [.committed (.setWorldState state)]) d' := by
  obtain ⟨before, hcourse, hstate⟩ := h.course_eq
  obtain ⟨w, pre, -, -, -, -, -, rfl⟩ := Worlds.setWorldStateBlock_ok stored
  refine ⟨⟨state, ?_, ?_⟩, h.ledger.congr h.ledger.unique rfl rfl, h.apart⟩
  · rw [course_append, hcourse]
    rfl
  · exact Database.stateOf_updateWhere hstate (fun _ => rfl) fun _ => rfl

section Restart

variable {E : Scope} {f : Facts}

/-- A statement on tables the restart only adds to. -/
theorem Restarting.stored {t : Site} {s : Stmt} (quiet : ∀ c : Course,
      c.next (.committed t) = c ∧ c.next (.failed t) = c)
    (write : ∀ d d' n, s.apply d = .ok (d', n) → d'.operations = d.operations ∧
      d'.restores = d.restores ∧ d'.artifacts = d.artifacts ∧ d'.worlds = d.worlds) :
    Triple E (Both (Restarting f)) (fun _ => Both (Restarting f)) (fun _ => Both (Restarting f))
      (autocommit t (Body.write s)) := by
  apply both_autocommit
  · intro l d d' n h applied
    obtain ⟨operations, restores, artifacts, worlds⟩ := write d d' n applied
    exact h.congr operations restores artifacts worlds
  · exact fun l d h => h.noted fun c => (quiet c).1
  · exact fun l d h => h.noted fun c => (quiet c).2

theorem restarting_openSession (w : World) (context : LaunchContext) (handle : ProcessHandle)
    (argv : List String) (password sessionId : String) :
    Triple E (Both (Restarting f)) (fun _ => Both (Restarting f)) (fun _ => Both (Restarting f))
      (Worlds.openSession w context handle argv password sessionId) := by
  have draw' : ∀ q, Triple E (Both (Restarting f)) (fun _ => Both (Restarting f))
      (fun _ => Both (Restarting f)) (draw q) := fun q => Triple.draw fun x _ hx _ => hx
  have open' : ∀ secretId, Triple E (Both (Restarting f)) (fun _ => Both (Restarting f))
      (fun _ => Both (Restarting f)) (now.bind fun at' => autocommit .openSession
        (Body.write (.insertSession {
          sessionId
          worldId := w.worldId
          startedAt := at'
          endedAt := none
          endReason := none
          rconSecretId := secretId
          portUsed := w.port
          javaRuntimeId := w.javaRuntimeId
          launchArgsSnapshot := {
            argv, pid := handle.pid, spawnEpoch := handle.spawnEpoch, cwd := context.worldDir,
            launchMarker := Worlds.launchMarker argv }
          rconPort := some context.rconPort
          createdAt := at' }))) := by
    intro secretId
    apply Triple.bind (draw' _)
    intro at'
    apply Restarting.stored fun _ => ⟨rfl, rfl⟩
    intro d d' n h
    obtain ⟨-, rfl, -⟩ := satisfying_ok.mp h
    exact ⟨rfl, rfl, rfl, rfl⟩
  have stored : ∀ secretType entityType entityId plaintext, Triple E (Both (Restarting f))
      (fun _ => Both (Restarting f)) (fun _ => Both (Restarting f))
      (Worlds.storeSecret secretType entityType entityId plaintext) := by
    intro secretType entityType entityId plaintext
    have encrypted : Triple E (Both (Restarting f)) (fun _ => Both (Restarting f))
        (fun _ => Both (Restarting f)) (ask (.encrypt plaintext)) := by
      apply Triple.ask
      · exact fun x a hx => ⟨hx.1.noted fun _ => rfl, hx.2.noted fun _ => rfl⟩
      · exact fun x φ hx => ⟨hx.1.noted fun _ => rfl, hx.2.noted fun _ => rfl⟩
    unfold Worlds.storeSecret
    apply Triple.bind (draw' _)
    intro secretId
    apply Triple.bind encrypted
    intro _
    apply Triple.bind (draw' _)
    intro at'
    refine Triple.bind (Restarting.stored (fun _ => ⟨rfl, rfl⟩) ?_) fun _ =>
      Triple.ret fun x hx => hx
    intro d d' n h
    obtain ⟨-, rfl, -⟩ := satisfying_ok.mp h
    exact ⟨rfl, rfl, rfl, rfl⟩
  unfold Worlds.openSession
  simp only [Program.bind_eq]
  split
  · exact Triple.bind (stored _ _ _ _) fun _ => open' _
  · exact open' _

/-- Whatever the restart of a restored world does, it only writes what a start writes. -/
theorem restartFrame (svc : WorldsService) :
    Worlds.Frame E svc f.request.worldId (fun _ => True) (Both (Restarting f))
      (fun _ => Both (Restarting f)) where
  noted x n hx hn :=
    ⟨hx.1.noted fun c => c.next_observed hn, hx.2.noted fun c => c.next_observed hn⟩
  milestone opId status m _ := both_transition
    (fun l d cached now auditId notificationId notifiedAt op d' h stored => h.milestone stored)
    (fun l d h => h.noted fun _ => rfl) (fun l d h => h.noted fun _ => rfl)
  entered state := by
    unfold Worlds.setWorldState
    apply Triple.bind (Triple.draw fun x _ hx _ => hx)
    intro at'
    exact both_transaction (K := fun _ => Restarting f)
      (fun l d a d' h stored => h.entered stored) (fun l d h => h.noted fun _ => rfl)
  closed reason := by
    unfold Worlds.closeSession
    apply Triple.bind (Triple.draw fun x _ hx _ => hx)
    intro at'
    apply Restarting.stored fun _ => ⟨rfl, rfl⟩
    intro d d' n h
    cases h
    exact ⟨rfl, rfl, rfl, rfl⟩
  opened w context handle argv password sessionId _ :=
    restarting_openSession w context handle argv password sessionId
  left _ x hx := hx
  whole _ x hx _ := hx
  mended opId e code message _ := by
    unfold Worlds.failOp
    refine Triple.bind (both_transition ?_ ?_ ?_) fun _ => Triple.ret fun x hx => hx
    · exact fun l d cached now auditId notificationId notifiedAt op d' h stored => h.milestone stored
    · exact fun l d h => h.noted fun _ => rfl
    · exact fun l d h => h.noted fun _ => rfl

/-- The restart of a restored world leaves the row of the restore and its archives alone, and
begins no rollback. -/
theorem triple_restartSucceeded (svc : RestoreService) :
    Triple E (Both (Restarting f)) (fun _ => Both (Restarting f)) (fun _ => Both (Restarting f))
      (restartSucceeded svc f.request.worldId) := by
  have quiet : ∀ b : Bool, Triple E (Both (Restarting f)) (fun _ => Both (Restarting f))
      (fun _ => Both (Restarting f)) (.ret b : Prog Bool) := fun b => Triple.ret fun x hx => hx
  have created : Triple E (Both (Restarting f)) (fun opId x => Both (Restarting f) x ∧ True)
      (fun _ => Both (Restarting f))
      (Worlds.operationFor svc.worlds .start f.request.worldId .system none true none) := by
    unfold Worlds.operationFor
    refine Triple.bind (both_create ?_ ?_ ?_) fun _ => Triple.ret fun x hx => ⟨hx, trivial⟩
    · intro l d opId auditIds now op cancelled replayed d' h stored
      have effect : Effect svc.worlds.operations (.create _ .queued true) d (some op) d' :=
        .create opId auditIds now stored
      have unique := effect.unique h.ledger.unique
      obtain ⟨⟨restores, artifacts, worlds⟩, rows⟩ := createBlock_rows h.ledger.unique stored
      refine Restarting.noted ⟨?_, h.ledger.congr unique restores artifacts, ?_⟩ fun _ => rfl
      · rw [Database.stateOf, Database.world?, worlds]
        exact h.course_eq
      · refine h.apart.congr fun x hx => ?_
        obtain ⟨-, hnone⟩ | same := rows x hx
        · exact .inl hnone
        · exact .inr same
    · exact fun l d h => h.noted fun _ => rfl
    · exact fun l d h => h.noted fun _ => rfl
  have confirmed : Triple E (Both (Restarting f)) (fun _ => Both (Restarting f))
      (fun _ => Both (Restarting f))
      (Worlds.restartAndConfirm svc.worlds f.request.worldId) := by
    unfold Worlds.restartAndConfirm
    exact Triple.bind ((restartFrame svc.worlds).start created) fun _ => quiet true
  unfold restartSucceeded
  split
  · exact Triple.handle confirmed fun _ => quiet false
  · exact quiet false

end Restart

/-- No transaction is open, and `J` holds of the record and the rows. -/
def Shut (J : Log → Database → Prop) (x : Session) : Prop := ∃ d, x.conn = .closed d ∧ J x.log d

/-- `J` holds of the record and the committed rows. -/
def Committed (J : Log → Database → Prop) (x : Session) : Prop := J x.log x.conn.committed

theorem Shut.committed {J : Log → Database → Prop} {x : Session} (h : Shut J x) : Committed J x := by
  obtain ⟨d, hd, hJ⟩ := h
  rw [Committed, hd]
  exact hJ

/-- An archive is on its way into the staging directory; beside that the course is `c`. -/
def Staging (c : Course) (I : Database → Prop) (log : Log) (db : Database) : Prop :=
  (∃ s, course log = { c with staged := s }) ∧ I db

theorem Course.next_archive (c : Course) {step path : String} (o : Except Fault Bool)
    (clear : step ≠ "clear") (extract : step ≠ "extract") (switch : step ≠ "switch") :
    c.next (.answered (.archive step path) o) = c := by
  cases o with
  | ok done => simp only [Course.next, clear, extract, switch, if_false]
  | error φ => simp only [Course.next, clear, extract, switch, or_self, if_false]

theorem checksum_ne (checksum : String) {word : String} (h : word.toList[1]? ≠ some 'h') :
    "checksum " ++ checksum ≠ word := by
  rintro rfl
  apply h
  rw [String.toList_append]
  rfl

section Staging

variable {E : Scope} {c : Course} {I : Database → Prop}

theorem Staging.noted {log : Log} {db : Database} (h : Staging c I log db)
    {n : Note Site Query Fault Answer} (quiet : ∀ s, ∃ s', Course.next { c with staged := s } n =
      { c with staged := s' }) : Staging c I (log ++ [n]) db := by
  obtain ⟨⟨s, hs⟩, hI⟩ := h
  obtain ⟨s', hs'⟩ := quiet s
  exact ⟨⟨s', by rw [course_append, hs, hs']⟩, hI⟩

theorem Staging.same {log : Log} {db : Database} (h : Staging c I log db)
    {n : Note Site Query Fault Answer} (quiet : ∀ c : Course, c.next n = c) :
    Staging c I (log ++ [n]) db := h.noted fun s => ⟨s, quiet _⟩

/-- A rejected artifact is flagged at most, and the rejection raises. -/
theorem triple_rejectArtifact (flagged : ∀ id d d' n, (Stmt.flagSuspect id).apply d = .ok (d', n) →
      I d → I d') {K : Unit → Session → Prop} (artifactId text : String) :
    Triple E (Shut (Staging c I)) K (fun _ => Committed (Staging c I))
      (Backup.rejectArtifact artifactId text) := by
  intro x hx
  obtain ⟨⟨committed, working⟩, log⟩ := x
  obtain ⟨d, hd, h⟩ := hx
  obtain ⟨rfl, rfl⟩ : committed = d ∧ working = none := by simpa [Connection.closed] using hd
  unfold Backup.rejectArtifact Backup.flagSuspect
  simp only [Program.bind_eq, Program.throw_eq]
  rw [wp_bind]
  apply wp_autocommit
  · intro d' n applied
    exact Staging.same ⟨h.1, flagged artifactId _ _ _ applied h.2⟩ fun _ => rfl
  · intro e _
    exact h
  · intro φ w _
    exact h.same fun _ => rfl

theorem triple_archive {J : Log → Database → Prop} {step path : String}
    (noted : ∀ l d o, J l d → J (l ++ [.answered (.archive step path) o]) d) :
    Triple E (Shut J) (fun _ => Shut J) (fun _ => Shut J) (ask (.archive step path)) := by
  apply Triple.ask
  · intro x a hx
    obtain ⟨d, hd, h⟩ := hx
    exact ⟨d, hd, noted _ _ _ h⟩
  · intro x φ hx
    obtain ⟨d, hd, h⟩ := hx
    exact ⟨d, hd, noted _ _ _ h⟩

/-- An artifact that passes is the one on record. -/
theorem triple_validateArtifact (flagged : ∀ id d d' n,
      (Stmt.flagSuspect id).apply d = .ok (d', n) → I d → I d') (artifactId : String) :
    Triple E (Shut (Staging c I))
      (fun row => Shut (Staging c fun d => I d ∧ d.pathOf artifactId = some row.storagePath))
      (fun _ => Committed (Staging c I)) (Backup.validateArtifact artifactId) := by
  unfold Backup.validateArtifact
  simp only [Program.bind_eq, Program.throw_eq, Program.pure_eq]
  have found : Triple E (Shut (Staging c I)) (fun row => Shut (Staging c fun d => I d ∧
      d.artifacts.find? (·.artifactId == artifactId) = row)) (fun _ => Committed (Staging c I))
      (read .artifactRead fun db => db.artifacts.find? (·.artifactId == artifactId)) := by
    apply Triple.read
    · intro x hx
      obtain ⟨d, hd, h⟩ := hx
      rw [hd]
      exact ⟨d, hd, h.1, h.2, rfl⟩
    · intro x φ hx _
      exact Staging.same hx.committed fun _ => rfl
  apply Triple.bind found
  intro row
  cases row with
  | none =>
    apply Triple.raise
    intro x hx
    obtain ⟨d, hd, h⟩ := hx
    rw [Committed, hd]
    exact ⟨h.1, h.2.1⟩
  | some row =>
    let P : Database → Prop := fun d => I d ∧ d.pathOf artifactId = some row.storagePath
    have named : ∀ x, Shut (Staging c fun d => I d ∧
        d.artifacts.find? (·.artifactId == artifactId) = some row) x → Shut (Staging c P) x := by
      intro x hx
      obtain ⟨d, hd, h⟩ := hx
      exact ⟨d, hd, h.1, h.2.1, by rw [Database.pathOf, h.2.2]; rfl⟩
    have weaker : ∀ (e : Exn) x, Committed (Staging c P) x → Committed (Staging c I) x :=
      fun e x hx => ⟨hx.1, hx.2.1⟩
    have kept : ∀ id d d' n, (Stmt.flagSuspect id).apply d = .ok (d', n) → P d → P d' := by
      intro id d d' n applied h
      exact ⟨flagged id d d' n applied h.1, (Database.pathOf_flagSuspect applied _).trans h.2⟩
    have asked : ∀ step, step ≠ "clear" → step ≠ "extract" → step ≠ "switch" →
        Triple E (Shut (Staging c P)) (fun _ => Shut (Staging c P)) (fun _ => Shut (Staging c P))
          (ask (.archive step row.storagePath)) := by
      intro step clear extract switch
      apply triple_archive
      exact fun l d o h => h.same fun c => c.next_archive o clear extract switch
    have committed : ∀ (e : Exn) x, Shut (Staging c P) x → Committed (Staging c P) x :=
      fun e x hx => hx.committed
    have rejected : ∀ text, Triple E (Shut (Staging c P)) (fun _ _ => False)
        (fun _ => Committed (Staging c P)) (Backup.rejectArtifact artifactId text) :=
      fun text => triple_rejectArtifact kept artifactId text
    have verified : Triple E (Shut (Staging c P)) (fun _ => Shut (Staging c P))
        (fun _ => Committed (Staging c P)) ((ask (.archive "verify" row.storagePath)).handle fun _ =>
          (Backup.rejectArtifact artifactId "artifact is not a valid zip").bind fun _ =>
            .ret false) := by
      apply Triple.handle (asked "verify" (by decide) (by decide) (by decide))
      intro e
      exact Triple.bind (rejected _) fun _ x hx => hx.elim
    let K : BackupArtifact → Session → Prop := fun row =>
      Shut (Staging c fun d => I d ∧ d.pathOf artifactId = some row.storagePath)
    refine Triple.mono (P := Shut (Staging c P)) (K := K)
      (L := fun _ => Committed (Staging c P)) ?_ named (fun _ _ h => h) weaker
    apply Triple.bind ((asked "exists" (by decide) (by decide) (by decide)).mono
      (fun _ h => h) (fun _ _ h => h) committed)
    intro there
    split
    · apply Triple.bind ((asked ("checksum " ++ row.checksum) (checksum_ne _ (by decide))
        (checksum_ne _ (by decide)) (checksum_ne _ (by decide))).mono
        (fun _ h => h) (fun _ _ h => h) committed)
      intro same
      split
      · apply Triple.bind verified
        intro _
        exact Triple.ret fun x hx => hx
      · exact Triple.bind (rejected _) fun _ x hx => hx.elim
    · exact Triple.bind (rejected _) fun _ x hx => hx.elim

/-- What is extracted is the archive of the artifact on record. -/
theorem triple_extractToStaging (flagged : ∀ id d d' n,
      (Stmt.flagSuspect id).apply d = .ok (d', n) → I d → I d') (artifactId stagingDir : String) :
    Triple E (Shut (Staging c I))
      (fun _ => Shut fun l d => ∃ path, d.pathOf artifactId = some path ∧
        course l = { c with staged := some path } ∧ I d)
      (fun _ => Committed (Staging c I)) (Backup.extractToStaging artifactId stagingDir) := by
  unfold Backup.extractToStaging
  simp only [Program.bind_eq, Program.pure_eq]
  apply Triple.bind (triple_validateArtifact flagged artifactId)
  intro row
  let P : Database → Prop := fun d => I d ∧ d.pathOf artifactId = some row.storagePath
  have weaker : ∀ (e : Exn) x, Shut (Staging c P) x → Committed (Staging c I) x :=
    fun e x hx => ⟨hx.committed.1, hx.committed.2.1⟩
  have cleared : Triple E (Shut (Staging c P)) (fun _ => Shut (Staging c P))
      (fun _ => Shut (Staging c P)) (ask (.archive "clear" stagingDir)) := by
    apply triple_archive
    intro l d o h
    apply h.noted
    intro s
    exact ⟨none, by cases o <;> rfl⟩
  have extracted : Triple E (Shut (Staging c P)) (fun ok => Shut fun l d =>
      course l = { c with staged := if ok then some row.storagePath else none } ∧ P d)
      (fun _ => Committed (Staging c I)) (ask (.archive "extract" row.storagePath)) := by
    apply Triple.ask
    · intro x a hx
      obtain ⟨d, hd, ⟨s, hs⟩, hP⟩ := hx
      refine ⟨d, hd, ?_, hP⟩
      rw [course_append, hs]
      rfl
    · intro x φ hx
      have h := hx.committed
      exact Staging.noted ⟨h.1, h.2.1⟩ fun s => ⟨none, rfl⟩
  apply Triple.bind (cleared.mono (fun _ h => h) (fun _ _ h => h) weaker)
  intro _
  apply Triple.bind extracted
  intro ok x hx
  obtain ⟨d, hd, hcourse, hI, hpath⟩ := hx
  split
  · rename_i hok
    rw [if_pos hok] at hcourse
    exact ⟨d, hd, row.storagePath, hpath, hcourse, hI⟩
  · rename_i hok
    rw [if_neg hok] at hcourse
    exact triple_rejectArtifact flagged artifactId _ x ⟨d, hd, ⟨none, hcourse⟩, hI⟩

theorem triple_switchWorld (request : RestoreRequest) (path : String) :
    Triple E (Shut fun l d => course l = { c with staged := some path } ∧ I d)
      (fun _ => Shut fun l d =>
        course l = { c with staged := none, dir := some path, switched := true } ∧ I d)
      (fun _ => Shut fun l d => course l = { c with staged := none, dir := none } ∧ I d)
      (switchWorld request) := by
  unfold switchWorld
  simp only [Program.bind_eq, Program.pure_eq]
  refine Triple.bind (Triple.ask ?_ ?_) fun _ => Triple.ret fun x hx => hx
  · intro x a hx
    obtain ⟨d, hd, hcourse, hI⟩ := hx
    refine ⟨d, hd, ?_, hI⟩
    rw [course_append, hcourse]
    rfl
  · intro x φ hx
    obtain ⟨d, hd, hcourse, hI⟩ := hx
    refine ⟨d, hd, ?_, hI⟩
    rw [course_append, hcourse]
    rfl

/-- The artifact a backup registers is on record with the archive it wrote. -/
theorem triple_createWorldBackup (inserted : ∀ row d d' n,
      (Stmt.insertArtifact row).apply d = .ok (d', n) → I d → I d')
    (worldId worldDir backupDir operationId category : String) :
    Triple E (Shut (Staging c I))
      (fun id => Shut (Staging c fun d => I d ∧ ∃ path, d.pathOf id = some path))
      (fun _ => Committed (Staging c I))
      (Backup.createWorldBackup worldId worldDir backupDir operationId category false) := by
  have committed : ∀ (e : Exn) x, Shut (Staging c I) x → Committed (Staging c I) x :=
    fun e x hx => hx.committed
  have guarded : Triple E (Shut (Staging c I)) (fun _ => Shut (Staging c I))
      (fun _ => Committed (Staging c I)) (ask (.archive "storage_guard" worldDir)) := by
    refine (triple_archive ?_).mono (fun _ h => h) (fun _ _ h => h) committed
    exact fun l d o h => h.same fun c => c.next_archive o (by decide) (by decide) (by decide)
  have written : ∀ path, Triple E (Shut (Staging c I)) (fun _ => Shut (Staging c I))
      (fun _ => Committed (Staging c I)) (ask (.writeArchive path)) := by
    intro path
    apply Triple.ask
    · intro x a hx
      obtain ⟨d, hd, h⟩ := hx
      exact ⟨d, hd, h.same fun _ => rfl⟩
    · intro x φ hx
      exact Staging.same hx.committed fun _ => rfl
  have registered : ∀ row : BackupArtifact, Triple E (Shut (Staging c I))
      (fun _ => Shut (Staging c fun d => I d ∧ ∃ path, d.pathOf row.artifactId = some path))
      (fun _ => Committed (Staging c I))
      (autocommitGuarded .registerArtifact (Body.write (Stmt.insertArtifact row))) := by
    intro row x hx
    obtain ⟨⟨committed, working⟩, log⟩ := x
    obtain ⟨d, hd, h⟩ := hx
    obtain ⟨rfl, rfl⟩ : committed = d ∧ working = none := by simpa [Connection.closed] using hd
    rw [autocommitGuarded, wp_handle]
    apply wp_autocommit
    · intro d' n applied
      have kept := inserted row _ _ n applied h.2
      obtain ⟨constraints, rfl, -⟩ := satisfying_ok.mp applied
      refine ⟨_, rfl, Staging.same ⟨h.1, kept, row.storagePath, ?_⟩ fun _ => rfl⟩
      have fresh : committed.hasArtifact row.artifactId = false := by
        simpa using constraints _ (List.mem_cons_self ..)
      simp only [Database.hasArtifact, List.any_eq_false, beq_iff_eq] at fresh
      have absent : committed.artifacts.find? (·.artifactId == row.artifactId) = none := by
        simpa using fresh
      simp [Database.pathOf, List.find?_append, absent]
    · intro e _
      exact wp_rollback h
    · intro φ w _
      exact wp_rollback (h.same fun _ => rfl)
  unfold Backup.createWorldBackup
  simp only [Program.bind_eq, Program.pure_eq, Program.throw_eq, Bool.false_eq_true, if_false]
  apply Triple.bind guarded
  intro room
  split
  · unfold Backup.writeAndRegister
    simp only [Program.bind_eq, Program.pure_eq]
    apply Triple.bind (Triple.draw fun x _ hx _ => hx)
    intro artifactId
    apply Triple.bind (written _)
    intro checksum
    apply Triple.bind (Triple.draw fun x _ hx _ => hx)
    intro at'
    exact Triple.bind (registered _) fun _ => Triple.ret fun x hx => hx
  · exact Triple.raise fun x hx => hx.committed

end Staging

end Restore

end McManager
