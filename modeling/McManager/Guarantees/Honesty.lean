import McManager.Services.Environment
import McManager.Services.RestoreRuns

namespace McManager.Restore

open Framework Operations

/-- The world directory holds what the archive of this artifact held. -/
def Course.Holds (c : Course) (db : Database) (artifactId : String) : Prop :=
  ∃ path, c.dir = some path ∧ db.pathOf artifactId = some path

/-- The outcome on record is what has become of the world, and a rollback that was begun has
ended. The three outcomes exclude one another. -/
structure Honest (request : RestoreRequest) (before after : Database) (c : Course) : Prop where
  settled : RolledBack request before (fun op => op.terminal = true) after
  outcome : ∃ row, after.restores[before.restores.length]? = some row ∧
    (row.outcome = "success" ∧ (request.wasRunning = true → c.confirmed = true) ∧
        c.Holds after request.artifactId ∨
      row.outcome = "reverted" ∧ c.Holds after row.preRestoreArtifactId ∧
        after.stateOf request.worldId = some .off ∨
      row.outcome = "failed" ∧ after.stateOf request.worldId = some .error)

/-- The history got its row, and the world was not to be restarted, or its restart was confirmed,
or the outcome was updated and the state that follows was written or stood already. -/
def Course.Upright (c : Course) (request : RestoreRequest) : Prop :=
  1 ≤ c.recorded ∧ (request.wasRunning = false ∨ c.confirmed = true ∨
    c.updated = true ∧ (c.unwritten = false ∨
      c.standing = if c.recorded = 2 then .off else .error))

/-- The statement about one run, at its end. -/
def Told (request : RestoreRequest) (before : Database) (x : Session) : Prop :=
  (course x.log).switched = true →
    (Honest request before x.conn.committed (course x.log) ↔ (course x.log).Upright request)

theorem told_unswitched {request : RestoreRequest} {before : Database} {x : Session}
    (h : (course x.log).switched = false) : Told request before x := by
  intro switched
  rw [h] at switched
  cases switched

/-- Without a row of its own a restore is never honest. -/
theorem told_unrecorded {request : RestoreRequest} {before : Database} {x : Session}
    (recorded : (course x.log).recorded = 0)
    (restores : x.conn.committed.restores = before.restores) : Told request before x := by
  intro _
  constructor
  · intro honest
    obtain ⟨row, hrow, -⟩ := honest.outcome
    rw [restores, List.getElem?_eq_none (Nat.le_refl _)] at hrow
    cases hrow
  · intro upright
    have h := upright.1
    rw [recorded] at h
    cases h

theorem told_honest {request : RestoreRequest} {before : Database} {x : Session}
    (honest : Honest request before x.conn.committed (course x.log))
    (upright : (course x.log).Upright request) : Told request before x :=
  fun _ => ⟨fun _ => upright, fun _ => honest⟩

/-- A success nobody confirmed stays on record. -/
theorem told_unconfirmed {f : Facts} {x : Session} (running : f.request.wasRunning = true)
    (unconfirmed : (course x.log).confirmed = false) (outdated : (course x.log).updated = false)
    (ledger : Ledger f "success" x.conn.committed) : Told f.request f.before x := by
  intro _
  obtain ⟨row, hrow, -, -, hsuccess⟩ := ledger.row
  constructor
  · intro honest
    obtain ⟨row', hrow', houtcome⟩ := honest.outcome
    obtain rfl := Option.some.inj (hrow.symm.trans hrow')
    obtain ⟨-, confirmed, -⟩ | ⟨hreverted, -⟩ | ⟨hfailed, -⟩ := houtcome
    · have h := confirmed running
      rw [unconfirmed] at h
      cases h
    · exact absurd (hsuccess.symm.trans hreverted) (by decide)
    · exact absurd (hsuccess.symm.trans hfailed) (by decide)
  · intro upright
    obtain ⟨-, h | h | h⟩ := upright
    · rw [running] at h
      cases h
    · rw [unconfirmed] at h
      cases h
    · rw [outdated] at h
      cases h.1

/-- A rollback waits. -/
structure Pending (f : Facts) (op : String) (state : WorldState) (db : Database) : Prop where
  ledger : Ledger f "success" db
  state_eq : db.stateOf f.request.worldId = some state
  rolled : RolledBack f.request f.before (fun x => x.opId = op) db

/-- A rollback has ended. -/
structure Settled (f : Facts) (op outcome : String) (state : WorldState) (db : Database) :
    Prop where
  ledger : Ledger f outcome db
  state_eq : db.stateOf f.request.worldId = some state
  rolled : RolledBack f.request f.before (fun x => x.terminal = true) db
  isOver : Over db op

section Steps

variable {f : Facts} {op outcome : String} {state : WorldState} {db db' : Database} {n : Nat}

theorem Ledger.flagged (h : Ledger f outcome db) {artifactId : String}
    (applied : (Stmt.flagSuspect artifactId).apply db = .ok (db', n)) : Ledger f outcome db' where
  unique := by
    cases applied
    exact h.unique
  row := by
    cases applied
    exact h.row
  source := (Database.pathOf_flagSuspect applied _).trans h.source
  backup := (Database.pathOf_flagSuspect applied _).trans h.backup

theorem Pending.flagged (h : Pending f op state db) {artifactId : String}
    (applied : (Stmt.flagSuspect artifactId).apply db = .ok (db', n)) :
    Pending f op state db' where
  ledger := h.ledger.flagged applied
  state_eq := by
    cases applied
    exact h.state_eq
  rolled := by
    cases applied
    exact h.rolled

/-- Whichever way the rollback ends, it has ended. -/
theorem Pending.settle (h : Pending f op state db) {svc : OperationService}
    {status : OperationStatus} (ended : status.terminal = true) {m : Milestone}
    {cached : Option Checkpoint} {now : Int} {auditId notificationId : String} {notifiedAt : Int}
    {updated : Operation}
    (stored : (transitionBlock svc op status m cached now auditId notificationId notifiedAt).eval
      db = .ok (updated, db')) : Settled f op "success" state db' := by
  have unique := (Effect.transition cached now auditId notificationId notifiedAt stored).unique
    h.ledger.unique
  obtain ⟨⟨restores, artifacts, worlds⟩, rows⟩ := transitionBlock_rows h.ledger.unique stored
  refine ⟨h.ledger.congr unique restores artifacts, ?_, ?_, ?_⟩
  · rw [Database.stateOf, Database.world?, worlds]
    exact h.state_eq
  · intro x hx hcompensates
    obtain ⟨old, hold, hid, hsame, hended⟩ := rows x hx
    obtain hbefore | hop := h.rolled old hold (hsame.symm.trans hcompensates)
    · rw [hid]
      exact .inl hbefore
    · exact .inr (hended (hid.trans hop) ended)
  · intro x hx hid
    obtain ⟨old, -, -, -, hended⟩ := rows x hx
    exact hended hid ended

theorem Settled.inserted (h : Settled f op outcome state db) {row : RestoreRecord}
    (applied : (Stmt.insertRestore row).apply db = .ok (db', n)) :
    Settled f op outcome state db' := by
  obtain ⟨-, rfl, -⟩ := satisfying_ok.mp applied
  obtain ⟨old, hold, rest⟩ := h.ledger.row
  have stays : (db.restores ++ [row])[f.before.restores.length]? = some old := by
    rw [List.getElem?_append_left (List.getElem?_eq_some_iff.mp hold).1]
    exact hold
  exact ⟨⟨h.ledger.unique, ⟨old, stays, rest⟩, h.ledger.source, h.ledger.backup⟩, h.state_eq,
    h.rolled, h.isOver⟩

theorem Settled.updated (h : Settled f op outcome state db) {new : String} {now : Int}
    (applied : (Stmt.updateRestoreOutcome f.restoreId new now).apply db = .ok (db', n)) :
    Settled f op new state db' := by
  cases applied
  obtain ⟨old, hold, hid, hpre, -⟩ := h.ledger.row
  refine ⟨⟨h.ledger.unique, ⟨{ old with outcome := new, finishedAt := some now }, ?_, hid, hpre,
    rfl⟩, h.ledger.source, h.ledger.backup⟩, h.state_eq, h.rolled, h.isOver⟩
  simp [updateWhere, hold, hid]

theorem Settled.written (h : Settled f op outcome state db) {target : WorldState} {now : Int}
    (applied : (Stmt.restoreWorldState f.request.worldId target now).apply db = .ok (db', n)) :
    Settled f op outcome target db' := by
  cases applied
  exact ⟨⟨h.ledger.unique, h.ledger.row, h.ledger.source, h.ledger.backup⟩,
    Database.stateOf_updateWhere h.state_eq (fun _ => rfl) fun _ => rfl, h.rolled, h.isOver⟩

theorem Settled.honest_failed (h : Settled f op "failed" state db) (c : Course) :
    Honest f.request f.before db c ↔ state = .error := by
  obtain ⟨row, hrow, -, -, hfailed⟩ := h.ledger.row
  constructor
  · intro honest
    obtain ⟨row', hrow', houtcome⟩ := honest.outcome
    obtain rfl := Option.some.inj (hrow.symm.trans hrow')
    obtain ⟨hsuccess, -⟩ | ⟨hreverted, -⟩ | ⟨-, hstate⟩ := houtcome
    · exact absurd (hfailed.symm.trans hsuccess) (by decide)
    · exact absurd (hfailed.symm.trans hreverted) (by decide)
    · exact Option.some.inj (h.state_eq.symm.trans hstate)
  · rintro rfl
    exact ⟨h.rolled, row, hrow, .inr (.inr ⟨hfailed, h.state_eq⟩)⟩

theorem Settled.honest_reverted (h : Settled f op "reverted" state db) {c : Course}
    (dir : c.dir = some f.backup) : Honest f.request f.before db c ↔ state = .off := by
  obtain ⟨row, hrow, -, hpre, hreverted⟩ := h.ledger.row
  constructor
  · intro honest
    obtain ⟨row', hrow', houtcome⟩ := honest.outcome
    obtain rfl := Option.some.inj (hrow.symm.trans hrow')
    obtain ⟨hsuccess, -⟩ | ⟨-, -, hstate⟩ | ⟨hfailed, -⟩ := houtcome
    · exact absurd (hreverted.symm.trans hsuccess) (by decide)
    · exact Option.some.inj (h.state_eq.symm.trans hstate)
    · exact absurd (hreverted.symm.trans hfailed) (by decide)
  · rintro rfl
    have holds : c.Holds db row.preRestoreArtifactId := ⟨f.backup, dir, by
      rw [hpre]
      exact h.ledger.backup⟩
    exact ⟨h.rolled, row, hrow, .inr (.inl ⟨hreverted, holds, h.state_eq⟩)⟩

end Steps

section Rollback

variable {E : Scope} {f : Facts} {op outcome : String}

/-- The last write of a rollback decides whether its outcome is honest, unless the state stood
already. -/
theorem triple_lastWrite {c : Course} {target : WorldState}
    (running : f.request.wasRunning = true) (outdated : c.confirmed = false)
    (updated : c.updated = true) (written : c.unwritten = false) (recorded : 1 ≤ c.recorded)
    (last : target = if c.recorded = 2 then .off else .error)
    (honest : ∀ (c' : Course) s d, c'.dir = c.dir → Settled f op outcome s d →
      (Honest f.request f.before d c' ↔ s = target)) :
    Triple E (Shut fun l d => course l = c ∧ Settled f op outcome c.standing d)
      (fun _ => Told f.request f.before)
      (fun _ x => Told f.request f.before x ∧ x.conn.working.isSome = true)
      (setWorldState f.request.worldId target) := by
  have notRunning : (target == WorldState.running) = false := by
    rw [last]
    split <;> rfl
  intro x hx
  obtain ⟨⟨committed, working⟩, log⟩ := x
  obtain ⟨d, hd, hcourse, h⟩ := hx
  obtain ⟨rfl, rfl⟩ : committed = d ∧ working = none := by simpa [Connection.closed] using hd
  unfold setWorldState
  simp only [Program.bind_eq]
  apply wp_draw_bind
  intro at' _
  apply wp_autocommit
  · intro d' n applied
    have course' : course (log ++ [.committed (.restoreWorldState target)]) =
        { c with standing := target } := by
      rw [course_append, hcourse, Course.next, notRunning, Bool.or_false]
    have stands := honest (course (log ++ [.committed (.restoreWorldState target)])) target d'
      (by rw [course']) (h.written applied)
    apply told_honest (stands.mpr rfl)
    rw [course']
    exact ⟨recorded, .inr (.inr ⟨updated, .inl written⟩)⟩
  · intro e applied
    cases applied
  · intro φ w _
    have course' : course (log ++ [.failed (.restoreWorldState target)]) =
        { c with unwritten := true } := by
      rw [course_append, hcourse, Course.next, notRunning, Bool.or_false]
    have stands := honest (course (log ++ [.failed (.restoreWorldState target)])) c.standing committed
      (by rw [course']) h
    refine ⟨fun _ => stands.trans ?_, rfl⟩
    rw [course']
    constructor
    · intro stands
      exact ⟨recorded, .inr (.inr ⟨updated, .inr (stands.trans last)⟩)⟩
    · intro upright
      obtain ⟨-, hno | hno | ⟨-, hno | stands⟩⟩ := upright
      · rw [running] at hno
        cases hno
      · exact absurd (outdated.symm.trans hno) (by decide)
      · cases hno
      · exact stands.trans last.symm

/-- The course so far is `c`, and `I` holds of the rows. -/
def Along (c : Course) (I : Database → Prop) (log : Log) (db : Database) : Prop :=
  course log = c ∧ I db

theorem Along.noted {c : Course} {I : Database → Prop} {log : Log} {db : Database}
    (h : Along c I log db) {n : Note Site Query Fault Answer} {c' : Course} (next : c.next n = c') :
    Along c' I (log ++ [n]) db :=
  ⟨by rw [course_append, h.1, next], h.2⟩

/-- The milestone that ends a rollback is stored or not, whatever the caller learns. -/
theorem triple_settle {c : Course} {state : WorldState} {svc : OperationService}
    {status : OperationStatus} (ended : status.terminal = true) (m : Milestone) :
    Triple E (Shut (Along c (Pending f op state)))
      (fun _ => Shut (Along c (Settled f op "success" state)))
      (fun _ x => Shut (Along c (Pending f op state)) x ∨
        Shut (Along c (Settled f op "success" state)) x)
      (Operations.transition svc op status m) := by
  intro x hx
  obtain ⟨⟨committed, working⟩, log⟩ := x
  obtain ⟨d, hd, h⟩ := hx
  obtain ⟨rfl, rfl⟩ : committed = d ∧ working = none := by simpa [Connection.closed] using hd
  apply wp_transition
  · intro cached now auditId notificationId notifiedAt updated db' stored
    have settled := h.2.settle ended stored
    have done := Along.noted ⟨h.1, settled⟩ (n := .committed (.transition status)) rfl
    exact ⟨⟨_, rfl, done⟩, fun φ _ => .inr ⟨_, rfl, done.noted rfl⟩⟩
  · intro cached now auditId notificationId notifiedAt e _
    exact .inl ⟨_, rfl, h⟩
  · intro φ _
    exact .inl ⟨_, rfl, h.noted rfl⟩

/-- A statement that commits by itself leaves its transaction open when it fails. -/
theorem triple_stored {c c' : Course} {I I' : Database → Prop} {t : Site} {s : Stmt}
    (done : c.next (.committed t) = c') (failed : c.next (.failed t) = c)
    (write : ∀ d d' n, I d → s.apply d = .ok (d', n) → I' d') :
    Triple E (Shut (Along c I)) (fun _ => Shut (Along c' I'))
      (fun _ x => Committed (Along c I) x ∧ x.conn.working.isSome = true)
      (autocommit t (Body.write s)) := by
  intro x hx
  obtain ⟨⟨committed, working⟩, log⟩ := x
  obtain ⟨d, hd, h⟩ := hx
  obtain ⟨rfl, rfl⟩ : committed = d ∧ working = none := by simpa [Connection.closed] using hd
  apply wp_autocommit
  · intro d' n applied
    exact ⟨d', rfl, Along.noted ⟨h.1, write _ _ n h.2 applied⟩ done⟩
  · intro e _
    exact ⟨h, rfl⟩
  · intro φ w _
    exact ⟨h.noted failed, rfl⟩

theorem triple_recordHistory {c : Course} {I : Database → Prop} {R : String → Database → Prop}
    {request : RestoreRequest}
    (operationId sourceArtifactId preRestoreArtifactId outcome : String)
    (rollbackOf : Option String)
    (write : ∀ row d d' n, row.preRestoreArtifactId = preRestoreArtifactId →
      row.outcome = outcome → I d → (Stmt.insertRestore row).apply d = .ok (d', n) →
      R row.restoreId d') :
    Triple E (Shut (Along c I))
      (fun id => Shut (Along { c with recorded := c.recorded + 1 } (R id)))
      (fun _ x => Committed (Along c I) x ∧ x.conn.working.isSome = true)
      (recordHistory request operationId sourceArtifactId preRestoreArtifactId outcome rollbackOf) := by
  unfold recordHistory
  simp only [Program.bind_eq, Program.pure_eq]
  apply Triple.bind (Triple.draw fun x _ hx _ => hx)
  intro restoreId
  apply Triple.bind (Triple.draw fun x _ hx _ => hx)
  intro at'
  refine Triple.bind (triple_stored rfl rfl ?_) fun _ => Triple.ret fun x hx => hx
  exact fun d d' n hI applied => write _ d d' n rfl rfl hI applied

/-- The course of a restore that is being rolled back. -/
def rolling (state : WorldState) (staged dir : Option String) : Course :=
  { recorded := 1, standing := state, staged, dir, switched := true }

/-- How the guarded part of a rollback is left: nothing has ended it, or it can be neither ended
again nor made honest. -/
def Unreverted (f : Facts) (op : String) (state : WorldState) (x : Session) : Prop :=
  (∃ staged dir, Committed (Along (rolling state staged dir) (Pending f op state)) x) ∨
  Told f.request f.before x ∧ (x.conn.working.isSome = true ∨ Over x.conn.committed op)

theorem told_along {c : Course} {I : Database → Prop} {x : Session}
    (running : f.request.wasRunning = true) (unconfirmed : c.confirmed = false)
    (outdated : c.updated = false) (ledger : ∀ d, I d → Ledger f "success" d)
    (h : Committed (Along c I) x) : Told f.request f.before x := by
  apply told_unconfirmed running
  · rw [h.1]
    exact unconfirmed
  · rw [h.1]
    exact outdated
  · exact ledger _ h.2

theorem triple_updateRestoreOutcome {c : Course} {state : WorldState} (new : String) :
    Triple E (Shut (Along c (Settled f op outcome state)))
      (fun _ => Shut (Along { c with updated := true } (Settled f op new state)))
      (fun _ x => Committed (Along c (Settled f op outcome state)) x ∧ x.conn.working.isSome = true)
      (updateRestoreOutcome f.restoreId new) := by
  unfold updateRestoreOutcome
  apply Triple.bind (Triple.draw fun x _ hx _ => hx)
  intro at'
  exact triple_stored rfl rfl fun d d' n h applied => h.updated applied

theorem triple_revert (svc : RestoreService) (running : f.request.wasRunning = true)
    (state : WorldState) :
    Triple E (Shut (Staging (rolling state none (some f.source)) (Pending f op state)))
      (fun _ => Told f.request f.before) (fun _ => Unreverted f op state)
      (revert svc f.request f.restoreId f.preBackup op) := by
  have flagged : ∀ id d d' n, (Stmt.flagSuspect id).apply d = .ok (d', n) →
      Pending f op state d → Pending f op state d' := fun _ _ _ _ applied h => h.flagged applied
  have unended : ∀ (e : Exn) (x : Session), Committed (Staging (rolling state none (some f.source))
      (Pending f op state)) x → Unreverted f op state x := by
    intro e x h
    obtain ⟨⟨s, hs⟩, hpending⟩ := h
    exact .inl ⟨s, some f.source, hs, hpending⟩
  have extracted : Triple E (Shut (Staging (rolling state none (some f.source))
        (Pending f op state)))
      (fun _ => Shut (Along (rolling state (some f.backup) (some f.source)) (Pending f op state)))
      (fun _ => Unreverted f op state)
      (Backup.extractToStaging f.preBackup f.request.stagingDir) := by
    refine (triple_extractToStaging flagged f.preBackup _).mono (fun _ h => h) ?_ unended
    intro _ x hx
    obtain ⟨d, hd, path, hpath, hcourse, hpending⟩ := hx
    obtain rfl := Option.some.inj (hpath.symm.trans hpending.ledger.backup)
    exact ⟨d, hd, hcourse, hpending⟩
  have switched : Triple E
      (Shut (Along (rolling state (some f.backup) (some f.source)) (Pending f op state)))
      (fun _ => Shut (Along (rolling state none (some f.backup)) (Pending f op state)))
      (fun _ => Unreverted f op state) (switchWorld f.request) :=
    (triple_switchWorld (c := rolling state none (some f.source)) f.request f.backup).mono
      (fun _ h => h) (fun _ _ h => h) fun e x h => .inl ⟨none, none, h.committed⟩
  have completed : Triple E
      (Shut (Along (rolling state none (some f.backup)) (Pending f op state)))
      (fun _ => Shut (Along (rolling state none (some f.backup)) (Settled f op "success" state)))
      (fun _ => Unreverted f op state)
      (Operations.transition svc.worlds.operations op .completed) := by
    refine (triple_settle rfl _).mono (fun _ h => h) (fun _ _ h => h) ?_
    intro e x hx
    obtain pending | settled := hx
    · exact .inl ⟨none, _, pending.committed⟩
    · have told := told_along running rfl rfl (fun d h => h.ledger) settled.committed
      exact .inr ⟨told, .inr settled.committed.2.isOver⟩
  have recorded : Triple E
      (Shut (Along (rolling state none (some f.backup)) (Settled f op "success" state)))
      (fun _ => Shut (Along { rolling state none (some f.backup) with recorded := 2 }
        (Settled f op "success" state)))
      (fun _ => Unreverted f op state)
      (recordHistory f.request op f.preBackup f.preBackup "reverted" (some f.restoreId)) := by
    refine (triple_recordHistory _ _ _ _ _ (R := fun _ => Settled f op "success" state) ?_).mono
      (fun _ h => h) (fun _ _ h => h) ?_
    · exact fun row d d' n _ _ h applied => h.inserted applied
    · intro e x hx
      exact .inr ⟨told_along running rfl rfl (fun d h => h.ledger) hx.1, .inl hx.2⟩
  have updated : Triple E
      (Shut (Along { rolling state none (some f.backup) with recorded := 2 }
        (Settled f op "success" state)))
      (fun _ => Shut (Along { rolling state none (some f.backup) with recorded := 2, updated := true }
        (Settled f op "reverted" state)))
      (fun _ => Unreverted f op state) (updateRestoreOutcome f.restoreId "reverted") := by
    refine (triple_updateRestoreOutcome "reverted").mono (fun _ h => h) (fun _ _ h => h) ?_
    intro e x hx
    exact .inr ⟨told_along running rfl rfl (fun d h => h.ledger) hx.1, .inl hx.2⟩
  have written : Triple E
      (Shut (Along { rolling state none (some f.backup) with recorded := 2, updated := true }
        (Settled f op "reverted" state)))
      (fun _ => Told f.request f.before) (fun _ => Unreverted f op state)
      (setWorldState f.request.worldId .off) := by
    refine (triple_lastWrite running rfl rfl rfl (Nat.le_succ 1) rfl ?_).mono (fun _ h => h)
      (fun _ _ h => h) fun e x hx => .inr ⟨hx.1, .inl hx.2⟩
    exact fun c' s d dir h => h.honest_reverted dir
  unfold revert
  simp only [Program.bind_eq, Program.pure_eq]
  apply Triple.bind extracted
  intro _
  apply Triple.bind switched
  intro _
  apply Triple.bind completed
  intro _
  apply Triple.bind recorded
  intro _
  apply Triple.bind updated
  intro _
  exact Triple.bind written fun _ => Triple.ret fun x hx => hx

/-- The handler of a rollback ends it where nothing has, and is left where it cannot. -/
theorem triple_revertFailed (svc : RestoreService) (running : f.request.wasRunning = true)
    (state : WorldState) (e : Exn) :
    Triple E (Unreverted f op state) (fun _ => Told f.request f.before)
      (fun _ => Told f.request f.before) (revertFailed svc f.request f.restoreId op e) := by
  have ended : Triple E (Unreverted f op state)
      (fun _ x => ∃ staged dir,
        Shut (Along (rolling state staged dir) (Settled f op "success" state)) x)
      (fun _ => Told f.request f.before)
      (Operations.transition svc.worlds.operations op .failed {
        errorCode := some "RESTORE_REVERT_FAILED" }) := by
    intro x hx
    obtain ⟨⟨committed, working⟩, log⟩ := x
    have stays : Told f.request f.before ⟨.closed committed, log⟩ := by
      obtain ⟨staged, dir, h⟩ | ⟨told, -⟩ := hx
      · exact told_along running rfl rfl (fun d h => h.ledger) h
      · exact told
    have noted : Told f.request f.before
        ⟨.closed committed, log ++ [.failed (.transition .failed)]⟩ := by
      rw [Told, course_append]
      exact stays
    cases working with
    | some w =>
      apply wp_transition_nested
      · exact stays
      · exact fun φ _ => noted
    | none =>
      obtain ⟨staged, dir, h⟩ | ⟨-, hopen | isOver⟩ := hx
      · refine (triple_settle rfl _).mono (fun _ h => h) (fun _ y hy => ⟨staged, dir, hy⟩) ?_ _
          ⟨committed, rfl, h⟩
        intro e x hx
        obtain pending | settled := hx
        · exact told_along running rfl rfl (fun d h => h.ledger) pending.committed
        · exact told_along running rfl rfl (fun d h => h.ledger) settled.committed
      · cases hopen
      · apply wp_transition_over isOver
        · exact fun text => stays
        · exact fun φ _ => noted
  unfold revertFailed
  simp only [Program.bind_eq, Program.throw_eq]
  apply Triple.bind ended
  intro _ x hx
  obtain ⟨staged, dir, hx⟩ := hx
  have updated : Triple E (Shut (Along (rolling state staged dir) (Settled f op "success" state)))
      (fun _ => Shut (Along { rolling state staged dir with updated := true }
        (Settled f op "failed" state)))
      (fun _ => Told f.request f.before) (updateRestoreOutcome f.restoreId "failed") := by
    refine (triple_updateRestoreOutcome "failed").mono (fun _ h => h) (fun _ _ h => h) ?_
    exact fun e x hx => told_along running rfl rfl (fun d h => h.ledger) hx.1
  have written : Triple E
      (Shut (Along { rolling state staged dir with updated := true } (Settled f op "failed" state)))
      (fun _ => Told f.request f.before) (fun _ => Told f.request f.before)
      (setWorldState f.request.worldId .error) := by
    refine (triple_lastWrite running rfl rfl rfl (Nat.le_refl 1) rfl ?_).mono (fun _ h => h)
      (fun _ _ h => h) fun e x hx => hx.1
    exact fun c' s d _ h => h.honest_failed c'
  have rest : Triple E (Shut (Along (rolling state staged dir) (Settled f op "success" state)))
      (fun _ : RestoreResult => Told f.request f.before) (fun _ => Told f.request f.before)
      ((updateRestoreOutcome f.restoreId "failed").bind fun _ =>
        (setWorldState f.request.worldId .error).bind fun _ => .raise e) := by
    apply Triple.bind updated
    intro _
    apply Triple.bind written
    intro _
    exact Triple.raise fun x hx => hx
  exact rest x hx

theorem Restarting.told {x : Session} (running : f.request.wasRunning = true)
    (h : Restarting f x.log x.conn.committed) : Told f.request f.before x := by
  obtain ⟨state, hcourse, -⟩ := h.course_eq
  apply told_unconfirmed running
  · rw [hcourse]
  · rw [hcourse]
  · exact h.ledger

theorem Restarting.flagged {log : Log} {d d' : Database} {n : Nat} {artifactId : String}
    (h : Restarting f log d) (applied : (Stmt.flagSuspect artifactId).apply d = .ok (d', n)) :
    Restarting f log d' where
  course_eq := by
    cases applied
    exact h.course_eq
  ledger := h.ledger.flagged applied
  apart := by
    cases applied
    exact h.apart

/-- A rollback that is created waits in the queue. -/
theorem triple_createRollback (svc : OperationService) (running : f.request.wasRunning = true) :
    Triple E (Shut (Restarting f))
      (fun op x => ∃ state,
        Shut (Staging (rolling state none (some f.source)) (Pending f op.opId state)) x)
      (fun _ => Told f.request f.before)
      (Operations.create svc {
        opType := .restore, actorType := .system, worldId := some f.request.worldId
        data := some { rollbackOfRestoreId := some f.restoreId, sourceArtifactId := some f.preBackup }
        compensatesOperationId := some f.request.operationId } .queued true) := by
  intro x hx
  obtain ⟨⟨committed, working⟩, log⟩ := x
  obtain ⟨d, hd, h⟩ := hx
  obtain ⟨rfl, rfl⟩ : committed = d ∧ working = none := by simpa [Connection.closed] using hd
  have stays : ∀ {l : Log}, (course l = course log) → Told f.request f.before ⟨.closed committed, l⟩ := by
    intro l hl
    have told : Told f.request f.before ⟨.closed committed, log⟩ := Restarting.told running h
    rw [Told, hl]
    exact told
  apply wp_create
  · intro opId auditIds now op cancelled replayed d' _ stored
    have effect : Effect svc (.create _ .queued true) committed (some op) d' :=
      .create opId auditIds now stored
    have unique := effect.unique h.ledger.unique
    obtain ⟨⟨restores, artifacts, worlds⟩, rows⟩ := createBlock_rows h.ledger.unique stored
    have ledger := h.ledger.congr unique restores artifacts
    obtain ⟨state, hcourse, hstate⟩ := h.course_eq
    have pending : Pending f op.opId state d' := by
      refine ⟨ledger, ?_, ?_⟩
      · rw [Database.stateOf, Database.world?, worlds]
        exact hstate
      · intro x hx hcompensates
        obtain ⟨rfl, -⟩ | ⟨old, hold, hid, hsame⟩ := rows x hx
        · exact .inr rfl
        · obtain hbefore | no := h.apart old hold (hsame.symm.trans hcompensates)
          · rw [hid]
            exact .inl hbefore
          · exact no.elim
    have created : course (log ++ [.committed .create]) = rolling state none (some f.source) := by
      rw [course_append, hcourse]
      rfl
    refine ⟨⟨state, d', rfl, ⟨none, created⟩, pending⟩, ?_⟩
    intro φ _
    apply told_unconfirmed running
    · rw [course_append, created]
      rfl
    · rw [course_append, created]
      rfl
    · exact ledger
  · intro opId auditIds now e _ _
    exact stays rfl
  · intro φ _
    exact stays (by rw [course_append]; rfl)

/-- However a rollback goes, the outcome on record tells what became of the world exactly when
its own writes allowed it. -/
theorem triple_rollBack (svc : RestoreService) (running : f.request.wasRunning = true) :
    Triple E (Both (Restarting f)) (fun _ => Told f.request f.before)
      (fun _ => Told f.request f.before)
      (rollBack svc f.request f.restoreId f.preBackup) := by
  have flagged : Triple E (Both (Restarting f)) (fun _ => Shut (Restarting f))
      (fun _ => Told f.request f.before) (Backup.flagSuspect f.request.artifactId) := by
    intro x hx
    apply wp_autocommit_any
    · intro d' n applied
      exact ⟨d', rfl, Restarting.noted (hx.2.flagged applied) fun _ => rfl⟩
    · intro e applied
      cases applied
    · intro φ w _ _
      exact Restarting.told running (hx.1.noted fun _ => rfl)
  unfold rollBack
  simp only [Program.bind_eq]
  apply Triple.bind flagged
  intro _
  apply Triple.bind (triple_createRollback svc.worlds.operations running)
  intro op x hx
  obtain ⟨state, hx⟩ := hx
  exact Triple.handle (triple_revert svc running state)
    (fun e => triple_revertFailed svc running state e) x hx

end Rollback

/-- Before the switch: the history has no row of this restore, and the world is off. -/
structure Ready (request : RestoreRequest) (before db : Database) : Prop where
  unique : db.UniqueOperations
  restores : db.restores = before.restores
  state_eq : db.stateOf request.worldId = some .off
  apart : RolledBack request before (fun _ => False) db

section Restore

variable {E : Scope} {request : RestoreRequest} {before : Database}

theorem Ready.flagged {d d' : Database} {n : Nat} {artifactId : String}
    (h : Ready request before d) (applied : (Stmt.flagSuspect artifactId).apply d = .ok (d', n)) :
    Ready request before d' := by
  cases applied
  exact ⟨h.unique, h.restores, h.state_eq, h.apart⟩

theorem Ready.inserted {d d' : Database} {n : Nat} {row : BackupArtifact}
    (h : Ready request before d) (applied : (Stmt.insertArtifact row).apply d = .ok (d', n)) :
    Ready request before d' := by
  obtain ⟨-, rfl, -⟩ := satisfying_ok.mp applied
  exact ⟨h.unique, h.restores, h.state_eq, h.apart⟩

theorem Restarting.written {f : Facts} {log : Log} {d d' : Database} {n : Nat}
    {target : WorldState} {now : Int} (h : Restarting f log d)
    (applied : (Stmt.restoreWorldState f.request.worldId target now).apply d = .ok (d', n)) :
    Ledger f "success" d' ∧ RolledBack f.request f.before (fun _ => False) d' := by
  cases applied
  exact ⟨h.ledger.congr h.ledger.unique rfl rfl, h.apart⟩

/-- A restored world nobody had to confirm, or somebody did. -/
theorem told_success {f : Facts} {x : Session} (recorded : 1 ≤ (course x.log).recorded)
    (dir : (course x.log).dir = some f.source)
    (confirmed : f.request.wasRunning = false ∨ (course x.log).confirmed = true)
    (ledger : Ledger f "success" x.conn.committed)
    (apart : RolledBack f.request f.before (fun _ => False) x.conn.committed) :
    Told f.request f.before x := by
  obtain ⟨row, hrow, -, -, hsuccess⟩ := ledger.row
  have running : f.request.wasRunning = true → (course x.log).confirmed = true := by
    intro running
    obtain stopped | confirmed := confirmed
    · rw [running] at stopped
      cases stopped
    · exact confirmed
  apply told_honest
  · refine ⟨?_, row, hrow, .inl ⟨hsuccess, running, f.source, dir, ledger.source⟩⟩
    intro op hop hcompensates
    obtain hbefore | no := apart op hop hcompensates
    · exact .inl hbefore
    · exact no.elim
  · obtain stopped | confirmed := confirmed
    · exact ⟨recorded, .inl stopped⟩
    · exact ⟨recorded, .inr (.inl confirmed)⟩

/-- The state that follows a restore without a rollback does not change what was told. -/
theorem triple_succeed {f : Facts} {target : WorldState}
    (confirmed : f.request.wasRunning = false ∨ target = .running) :
    Triple E (Both (Restarting f)) (fun _ => Told f.request f.before)
      (fun _ => Told f.request f.before) (setWorldState f.request.worldId target) := by
  have confirmed' : ∀ b, f.request.wasRunning = false ∨ (b || target == .running) = true := by
    intro b
    obtain stopped | rfl := confirmed
    · exact .inl stopped
    · exact .inr (Bool.or_true b)
  unfold setWorldState
  apply Triple.bind (Triple.draw fun x _ hx _ => hx)
  intro at' x hx
  obtain ⟨c, log⟩ := x
  obtain ⟨committed, seen⟩ := hx
  obtain ⟨state, hcourse, -⟩ := committed.course_eq
  apply wp_autocommit_any
  · intro d' n applied
    obtain ⟨ledger, apart⟩ := seen.written applied
    have course' := congrArg (Course.next · (.committed (.restoreWorldState target))) hcourse
    simp only [← course_append] at course'
    apply told_success
    · rw [course']
      exact Nat.le_refl 1
    · rw [course']
      rfl
    · rw [course']
      exact confirmed' false
    · exact ledger
    · exact apart
  · intro e applied
    cases applied
  · intro φ w _ _
    have course' := congrArg (Course.next · (.failed (.restoreWorldState target))) hcourse
    simp only [← course_append] at course'
    apply told_success
    · rw [course']
      exact Nat.le_refl 1
    · rw [course']
      rfl
    · rw [course']
      exact confirmed' false
    · exact committed.ledger
    · exact committed.apart

/-- What follows the row of the history. -/
theorem triple_recorded (svc : RestoreService) (f : Facts) :
    Triple E (Both (Restarting f)) (fun _ : RestoreResult => Told f.request f.before)
      (fun _ => Told f.request f.before)
      (if !f.request.wasRunning then
        (setWorldState f.request.worldId .off).bind fun _ => .ret ⟨f.restoreId, "success", none⟩
      else (restartSucceeded svc f.request.worldId).bind fun restarted =>
        if restarted then (setWorldState f.request.worldId .running).bind fun _ =>
          .ret ⟨f.restoreId, "success", none⟩
        else rollBack svc f.request f.restoreId f.preBackup) := by
  split
  · rename_i stopped
    apply Triple.bind (triple_succeed (.inl (by simpa using stopped)))
    intro _
    exact Triple.ret fun x hx => hx
  · rename_i running
    have running : f.request.wasRunning = true := by simpa using running
    apply Triple.bind ((triple_restartSucceeded svc).mono (fun _ h => h) (fun _ _ h => h)
      fun _ x hx => Restarting.told running hx.1)
    intro restarted
    split
    · apply Triple.bind (triple_succeed (.inr rfl))
      intro _
      exact Triple.ret fun x hx => hx
    · exact triple_rollBack svc running

theorem told_staging {I : Database → Prop} {x : Session} (h : Committed (Staging {} I) x) :
    Told request before x := by
  obtain ⟨⟨s, hs⟩, -⟩ := h
  exact told_unswitched (by rw [hs])

/-- The row the history gets is the one every later step is about. -/
theorem Ready.recorded {d d' : Database} {n : Nat} {row : RestoreRecord} {f : Facts}
    (h : Ready f.request f.before d) (source : d.pathOf f.request.artifactId = some f.source)
    (backup : d.pathOf f.preBackup = some f.backup) (hid : row.restoreId = f.restoreId)
    (hpre : row.preRestoreArtifactId = f.preBackup) (hsuccess : row.outcome = "success")
    (applied : (Stmt.insertRestore row).apply d = .ok (d', n)) :
    Ledger f "success" d' ∧ d'.stateOf f.request.worldId = some .off ∧
      RolledBack f.request f.before (fun _ => False) d' := by
  obtain ⟨-, rfl, -⟩ := satisfying_ok.mp applied
  refine ⟨⟨h.unique, ⟨row, ?_, hid, hpre, hsuccess⟩, source, backup⟩, h.state_eq, h.apart⟩
  simp [h.restores]

/-- A restore of a world that is off. -/
theorem triple_restoreOff (svc : RestoreService) :
    Triple E (Shut (Staging {} (Ready request before))) (fun _ => Told request before)
      (fun _ => Told request before) (do
        let _ ← Backup.validateArtifact request.artifactId
        let preBackup ← Backup.createWorldBackup request.worldId request.worldDir request.backupDir
          request.operationId "pre_restore" false
        Backup.extractToStaging request.artifactId request.stagingDir
        switchWorld request
        let restoreId ← recordHistory request request.operationId request.artifactId preBackup
          "success" none
        if !request.wasRunning then do
          setWorldState request.worldId .off
          pure ⟨restoreId, "success", none⟩
        else do
          let restarted ← restartSucceeded svc request.worldId
          if restarted then do
            setWorldState request.worldId .running
            pure ⟨restoreId, "success", none⟩
          else rollBack svc request restoreId preBackup) := by
  have flagged : ∀ id d d' n, (Stmt.flagSuspect id).apply d = .ok (d', n) →
      Ready request before d → Ready request before d' := fun _ _ _ _ applied h => h.flagged applied
  have validated : Triple E (Shut (Staging {} (Ready request before)))
      (fun _ => Shut (Staging {} (Ready request before))) (fun _ => Told request before)
      (Backup.validateArtifact request.artifactId) := by
    refine (triple_validateArtifact flagged _).mono (fun _ h => h) ?_ fun _ _ => told_staging
    intro row x hx
    obtain ⟨d, hd, h⟩ := hx
    exact ⟨d, hd, h.1, h.2.1⟩
  simp only [Program.bind_eq, Program.pure_eq]
  apply Triple.bind validated
  intro _
  apply Triple.bind ((triple_createWorldBackup
    (fun row d d' n applied h => Ready.inserted h applied) _ _ _ _ _).mono (fun _ h => h)
    (fun _ _ h => h) fun _ _ => told_staging)
  intro preBackup
  apply Triple.bind ((triple_extractToStaging ?_ _ _).mono (fun _ h => h) (fun _ _ h => h)
    fun _ _ => told_staging)
  · intro _ x hx
    obtain ⟨d, hd, source, hsource, hcourse, ready, backup, hbackup⟩ := hx
    let I : Database → Prop := fun d => Ready request before d ∧
      d.pathOf request.artifactId = some source ∧ d.pathOf preBackup = some backup
    have switched : Triple E (Shut (Along { staged := some source } I))
        (fun _ => Shut (Along { dir := some source, switched := true } I))
        (fun _ => Told request before) (switchWorld request) := by
      refine (triple_switchWorld (c := {}) request source).mono (fun _ h => h) (fun _ _ h => h) ?_
      exact fun e y hy => told_unswitched (by rw [hy.committed.1])
    refine Triple.bind switched ?_ x ⟨d, hd, hcourse, ready, hsource, hbackup⟩
    intro _
    let facts := fun id => Facts.mk request before id preBackup source backup
    have recorded : Triple E (Shut (Along { dir := some source, switched := true } I))
        (fun id => Both (Restarting (facts id))) (fun _ => Told request before)
        (recordHistory request request.operationId request.artifactId preBackup "success" none) := by
      refine (triple_recordHistory _ _ _ _ _ (R := fun id d => Ledger (facts id) "success" d ∧
        d.stateOf request.worldId = some .off ∧ RolledBack request before (fun _ => False) d)
        ?_).mono (fun _ h => h) ?_ ?_
      · intro row d d' n hpre hsuccess h applied
        exact Ready.recorded (f := facts row.restoreId) h.1 h.2.1 h.2.2 rfl hpre hsuccess applied
      · intro id y hy
        obtain ⟨d, hd, hcourse, ledger, hstate, apart⟩ := hy
        have restarting : Restarting (facts id) y.log d := ⟨⟨.off, hcourse, hstate⟩, ledger, apart⟩
        rw [Both, hd]
        exact ⟨restarting, restarting⟩
      · intro e y hy
        apply told_unrecorded
        · rw [hy.1.1]
        · exact hy.1.2.1.restores
    apply Triple.bind recorded
    intro restoreId
    exact triple_recorded svc (facts restoreId)
  · intro id d d' n applied h
    obtain ⟨ready, path, hpath⟩ := h
    exact ⟨ready.flagged applied, path, (Database.pathOf_flagSuspect applied _).trans hpath⟩

/-- A restore from its first reading on. -/
theorem wp_restore (svc : RestoreService) (unique : before.UniqueOperations) :
    wp E (Ends (fun _ => Told request before) fun _ => Told request before) (restore svc request)
      ⟨.closed before, []⟩ := by
  unfold restore
  rw [Program.bind_eq, wp_bind]
  refine wp_read ?_ fun φ _ => told_unswitched rfl
  dsimp only [Connection.closed]
  cases hw : before.world? request.worldId with
  | none => exact told_unswitched rfl
  | some w =>
    dsimp only
    split
    · exact told_unswitched rfl
    · rename_i hoff
      have off : w.state = .off := by simpa using hoff
      have ready : Ready request before before := by
        refine ⟨unique, rfl, ?_, ?_⟩
        · rw [Database.stateOf, hw, Option.map_some, off]
        · intro op hop _
          exact .inl (List.any_eq_true.mpr ⟨op, hop, by simp⟩)
      exact triple_restoreOff svc _ ⟨before, rfl, ⟨none, rfl⟩, ready⟩

end Restore

/-- Once the restored tree is in place, the outcome on record is what has become of the world if
and only if the run met `Upright`. -/
theorem restore_honest_iff (svc : RestoreService) (request : RestoreRequest) (env : Env)
    (before : Database) (unique : before.UniqueOperations)
    (switched : (course (run env (restore svc request) ⟨.closed before, []⟩).2.log).switched = true) :
    Honest request before (run env (restore svc request) ⟨.closed before, []⟩).2.conn.committed
        (course (run env (restore svc request) ⟨.closed before, []⟩).2.log) ↔
      (course (run env (restore svc request) ⟨.closed before, []⟩).2.log).Upright request := by
  have told := run_of_wp (fun n x m => Scope.any_allowed x m (env n x m))
    (wp_restore svc unique : wp _ _ (restore svc request) _)
  cases h : (run env (restore svc request) ⟨.closed before, []⟩).1 with
  | ok a =>
    rw [h] at told
    exact told switched
  | error e =>
    rw [h] at told
    exact told switched

/-- A stopped world with an artifact to restore and the operation that asks for it. -/
def artifactWorld : Database :=
  { Database.single .off with
    operations := [{
      opId := "o", opType := .restore, worldId := some "w", actorType := .user
      actorUserId := some "u", idempotencyKey := none, status := .running, checkpoint := none
      compensatesOperationId := none, intentAt := 0, startedAt := some 0, finishedAt := none
      errorCode := none, message := none, data := none, createdAt := 0, updatedAt := 0 }]
    artifacts := [⟨"a", some "w", "manual", "a.zip", "", false, "o", none, none, 0, 0⟩] }

/-- The request of an operator whose world was running before. -/
def runningRequest : RestoreRequest where
  worldId := "w"
  artifactId := "a"
  worldDir := "worlds/w"
  backupDir := "backups"
  stagingDir := "staging"
  operationId := "o"
  operatorUserId := "u"
  wasRunning := true

/-- The fresh environment in which the second row of the history gets lost. -/
def Env.losing : Env
  | n, x, .execute .recordHistory s =>
    if x.conn.committed.restores.isEmpty then Env.fresh n x (.execute .recordHistory s)
    else some (.operational "disk I/O error")
  | n, x, m => Env.fresh n x m

/-- A restore whose restart is not even tried, so that it is rolled back. -/
def losingRun : Except Exn RestoreResult × Session :=
  run Env.losing (restore ⟨⟨⟨false, true⟩, true, false⟩, false⟩ runningRequest)
    ⟨.closed artifactWorld, []⟩

theorem unique_artifactWorld : artifactWorld.UniqueOperations := by
  simp [Database.UniqueOperations, artifactWorld]

theorem restore_honest_losing : (course losingRun.2.log).switched = true ∧
    (Honest runningRequest artifactWorld losingRun.2.conn.committed (course losingRun.2.log) ↔
      (course losingRun.2.log).Upright runningRequest) := by
  have switched : (course losingRun.2.log).switched = true := by decide
  exact ⟨switched, restore_honest_iff ⟨⟨⟨false, true⟩, true, false⟩, false⟩ runningRequest Env.losing
    artifactWorld unique_artifactWorld switched⟩

/-- A rollback that cannot record itself has put the original content back and ended, and the
history still speaks of a success. -/
theorem restore_outcome_lies : ¬∀ (svc : RestoreService) (request : RestoreRequest) (env : Env)
    (before : Database), before.UniqueOperations →
    (course (run env (restore svc request) ⟨.closed before, []⟩).2.log).switched = true →
    Honest request before (run env (restore svc request) ⟨.closed before, []⟩).2.conn.committed
      (course (run env (restore svc request) ⟨.closed before, []⟩).2.log) := by
  intro h
  have honest : Honest runningRequest artifactWorld losingRun.2.conn.committed
      (course losingRun.2.log) := h ⟨⟨⟨false, true⟩, true, false⟩, false⟩ runningRequest Env.losing
    artifactWorld unique_artifactWorld (by decide)
  obtain ⟨row, hrow, houtcome⟩ := honest.outcome
  have success : losingRun.2.conn.committed.restores[0]?.map (·.outcome) = some "success" := by decide
  have hrow : losingRun.2.conn.committed.restores[0]? = some row := hrow
  rw [hrow] at success
  have success : row.outcome = "success" := by simpa using success
  obtain ⟨-, confirmed, -⟩ | ⟨hreverted, -⟩ | ⟨hfailed, -⟩ := houtcome
  · exact absurd (confirmed rfl) (by decide)
  · exact absurd (success.symm.trans hreverted) (by decide)
  · exact absurd (success.symm.trans hfailed) (by decide)

end McManager.Restore
