import McManager.Framework.Observation
import McManager.Services.OperationStages
import McManager.Services.Worlds

namespace McManager

open Framework

/-- The world's row satisfies the domain invariants and is in `state`. -/
structure Database.At (db : Database) (worldId : String) (state : WorldState) : Prop where
  row : ∃ w, db.world? worldId = some w ∧ w.state = state ∧
    validateWorldInstance worldId w.state w.preBackupState none = none

/-- A world after its state has been written. -/
def World.enter (state : WorldState) (preBackupState : Option WorldState) (now : Int) (w : World) :
    World :=
  { w with state, preBackupState, updatedAt := now }

/-- The database with a new state of one world. -/
def Database.withState (db : Database) (worldId : String) (state : WorldState)
    (preBackupState : Option WorldState) (now : Int) : Database :=
  { db with
    worlds := updateWhere (·.worldId == worldId) (World.enter state preBackupState now) db.worlds }

theorem Database.withState_world? {db : Database} {worldId : String} {state : WorldState}
    {pre : Option WorldState} {now : Int} {w : World} (h : db.world? worldId = some w) :
    (db.withState worldId state pre now).world? worldId = some (w.enter state pre now) := by
  have hid : w.worldId = worldId := by simpa using List.find?_some h
  simp only [Database.world?] at h
  simp only [Database.world?, Database.withState]
  rw [find?_updateWhere (f := World.enter state pre now) fun _ => rfl, h]
  simp [hid]

theorem Database.hasWorld_iff {db : Database} {id : String} :
    db.hasWorld id = true ↔ id ∈ db.worlds.map (·.worldId) := by
  simp [Database.hasWorld]

@[simp] theorem Database.withState_hasWorld (db : Database) (worldId : String) (state : WorldState)
    (pre : Option WorldState) (now : Int) (id : String) :
    (db.withState worldId state pre now).hasWorld id = db.hasWorld id := by
  rw [Bool.eq_iff_iff, hasWorld_iff, hasWorld_iff]
  simp only [Database.withState]
  rw [updateWhere_map (f := World.enter state pre now) fun _ => rfl]

namespace Worlds

/-- A checked state change that goes through follows an edge. -/
theorem setWorldStateBlock_ok {db db' : Database} {worldId : String} {state : WorldState}
    {intent : WorldTransitionIntent} {now : Int}
    (h : (setWorldStateBlock worldId state intent now).eval db = .ok ((), db')) :
    ∃ w pre, db.world? worldId = some w ∧
      validateWorldInstance worldId w.state w.preBackupState none = none ∧
      Edge w.state state intent ∧ nextPreBackupState w.state state w.preBackupState = .ok pre ∧
      validateWorldInstance worldId state pre none = none ∧
      db' = db.withState worldId state pre now := by
  unfold setWorldStateBlock at h
  rw [Body.bind_eq, Body.eval_query_bind] at h
  split at h
  · cases h
  rename_i w hw
  split at h
  · cases h
  rename_i valid
  split at h
  · cases h
  rename_i next hnext
  obtain ⟨-, edge, hid, hstate, hdeleted, hpre⟩ := transitionWorld_ok hnext
  obtain ⟨n, hs⟩ := Body.eval_write_ok h
  simp only [store_apply, Stmt.apply, Except.ok.injEq, Prod.mk.injEq] at hs
  have hvalid := next.valid
  dsimp only at hid hpre
  rw [hid, hstate, hdeleted] at hvalid
  refine ⟨w, next.preBackupState, hw, valid, edge, hpre, hvalid, ?_⟩
  rw [← hs.1, hstate]
  rfl

theorem setWorldStateBlock_at {db db' : Database} {worldId : String} {state : WorldState}
    {intent : WorldTransitionIntent} {now : Int}
    (h : (setWorldStateBlock worldId state intent now).eval db = .ok ((), db')) :
    db'.At worldId state := by
  obtain ⟨w, pre, hw, -, -, -, hvalid, rfl⟩ := setWorldStateBlock_ok h
  exact ⟨⟨_, Database.withState_world? hw, rfl, hvalid⟩⟩

/-- A row that satisfies the invariants can only be refused an edge the table does not have. -/
theorem setWorldStateBlock_refused {db : Database} {worldId : String} {s t : WorldState}
    (at' : db.At worldId s) {intent : WorldTransitionIntent} (refused : ¬Edge s t intent)
    (now : Int) :
    ∃ text, (setWorldStateBlock worldId t intent now).eval db = .error (.worldConflict text) := by
  obtain ⟨w, hw, rfl, valid⟩ := at'.row
  unfold setWorldStateBlock
  rw [Body.bind_eq, Body.eval_query_bind, hw]
  dsimp only
  split
  · rename_i message hbad
    rw [valid] at hbad
    cases hbad
  · split
    · exact ⟨_, rfl⟩
    · rename_i next h
      exact absurd (transitionWorld_ok h).2.1 refused

theorem setWorldStateBlock_invalid {db : Database} {worldId : String} {w : World}
    (hw : db.world? worldId = some w)
    (invalid : validateWorldInstance worldId w.state w.preBackupState none ≠ none)
    (state : WorldState) (intent : WorldTransitionIntent) (now : Int) :
    ∃ text, (setWorldStateBlock worldId state intent now).eval db = .error (.domainInvariant text) := by
  unfold setWorldStateBlock
  rw [Body.bind_eq, Body.eval_query_bind, hw]
  dsimp only
  split
  · exact ⟨_, rfl⟩
  · rename_i valid
    exact absurd valid invalid

/-- The exceptions of a checked state change. -/
theorem setWorldStateBlock_error {db : Database} {worldId : String} {state : WorldState}
    {intent : WorldTransitionIntent} {now : Int} {e : Exn}
    (h : (setWorldStateBlock worldId state intent now).eval db = .error e) :
    (∃ text, e = .worldNotFound text) ∨ (∃ text, e = .domainInvariant text) ∨
      ∃ text, e = .worldConflict text := by
  unfold setWorldStateBlock at h
  rw [Body.bind_eq, Body.eval_query_bind] at h
  split at h
  · cases h
    exact .inl ⟨_, rfl⟩
  · split at h
    · cases h
      exact .inr (.inl ⟨_, rfl⟩)
    · split at h
      · cases h
        exact .inr (.inr ⟨_, rfl⟩)
      · cases h

/-- Where no backup begins or ends every edge of the table can be taken. -/
theorem setWorldStateBlock_edge {db : Database} {worldId : String} {s t : WorldState}
    (at' : db.At worldId s) (hs : s ≠ .backingUp) (ht : t ≠ .backingUp)
    {intent : WorldTransitionIntent} (edge : Edge s t intent) (now : Int) :
    ∃ db', (setWorldStateBlock worldId t intent now).eval db = .ok ((), db') := by
  obtain ⟨w, hw, rfl, valid⟩ := at'.row
  have named : worldId ≠ "" := by
    rintro rfl
    simp [validateWorldInstance] at valid
  have hpre : w.preBackupState = none := by
    by_contra hne
    simp [validateWorldInstance, named, hs, hne] at valid
  have hnext : validateWorldInstance worldId t none none = none := by
    simp [validateWorldInstance, named, ht]
  have htable : ¬(t ≠ w.state ∧ t ∉ allowedTransitions w.state) := by
    rintro ⟨hne, hnot⟩
    exact edge.allowed.elim hne hnot
  have hleave : nextPreBackupState w.state t w.preBackupState = .ok none := by
    simp [nextPreBackupState, hs, ht, hpre]
  have taken : ∃ next, transitionWorld ⟨worldId, w.state, w.preBackupState, none, valid⟩ t intent =
      .ok next := by
    unfold transitionWorld
    rw [if_neg (by simp), if_neg htable]
    simp only [refusedIntent_eq_none.mpr edge.intended, hleave]
    split
    · rename_i message hbad
      rw [hnext] at hbad
      cases hbad
    · exact ⟨_, rfl⟩
  obtain ⟨next, taken⟩ := taken
  unfold setWorldStateBlock
  rw [Body.bind_eq, Body.eval_query_bind, hw]
  dsimp only
  split
  · rename_i message hbad
    rw [valid] at hbad
    cases hbad
  · simp only [taken]
    exact ⟨_, rfl⟩

section Rules

variable {E : Scope} {db : Database} {log : Log} {worldId : String} {s t : WorldState}
  {intent : WorldTransitionIntent} {Q : Except Exn Unit → Session → Prop}

/-- `_set_world_state` takes effect by one transaction. -/
theorem wp_setWorldState
    (done : ∀ now db', (setWorldStateBlock worldId t intent now).eval db = .ok ((), db') →
      Q (.ok ()) ⟨.closed db', log ++ [.committed (.setWorldState t)]⟩)
    (refused : ∀ now e, (setWorldStateBlock worldId t intent now).eval db = .error e →
      Q (.error e) ⟨.closed db, log⟩)
    (fault : ∀ φ, E.fails (.setWorldState t) φ →
      Q (.error (.external φ)) ⟨.closed db, log ++ [.failed (.setWorldState t)]⟩) :
    wp E Q (setWorldState worldId t intent) ⟨.closed db, log⟩ := by
  unfold setWorldState
  simp only [Program.bind_eq]
  exact wp_draw_bind fun now _ => wp_transaction (fun _ => done now) (refused now) fault

/-- An edge of the table is taken unless the outside world fails. -/
theorem wp_enter (at' : db.At worldId s) (hs : s ≠ .backingUp) (ht : t ≠ .backingUp)
    (edge : Edge s t intent)
    (done : ∀ pre now, (db.withState worldId t pre now).At worldId t →
      Q (.ok ()) ⟨.closed (db.withState worldId t pre now), log ++ [.committed (.setWorldState t)]⟩)
    (fault : ∀ φ, E.fails (.setWorldState t) φ →
      Q (.error (.external φ)) ⟨.closed db, log ++ [.failed (.setWorldState t)]⟩) :
    wp E Q (setWorldState worldId t intent) ⟨.closed db, log⟩ := by
  refine wp_setWorldState ?_ ?_ fault
  · intro now db' h
    have hat := setWorldStateBlock_at h
    obtain ⟨w, pre, -, -, -, -, -, rfl⟩ := setWorldStateBlock_ok h
    exact done pre now hat
  · intro now e h
    obtain ⟨db', h'⟩ := setWorldStateBlock_edge at' hs ht edge now
    rw [h] at h'
    cases h'

/-- The database with the open sessions of one world closed. -/
def withSessionsClosed (db : Database) (worldId : String) (now : Int) (reason : EndReason) :
    Database :=
  { db with
    sessions := updateWhere (fun s => s.worldId == worldId && s.isOpen)
      (fun s => { s with endedAt := some now, endReason := some reason }) db.sessions }

theorem wp_closeSession {reason : EndReason}
    (done : ∀ now, Q (.ok ())
      ⟨.closed (withSessionsClosed db worldId now reason), log ++ [.committed .closeSession]⟩)
    (fault : ∀ φ w, E.fails .closeSession φ →
      Q (.error (.external φ)) ⟨⟨db, some w⟩, log ++ [.failed .closeSession]⟩) :
    wp E Q (closeSession worldId reason) ⟨.closed db, log⟩ := by
  unfold closeSession
  simp only [Program.bind_eq]
  refine wp_draw_bind fun now _ => wp_autocommit ?_ ?_ fault
  · intro db' n h
    cases h
    exact done now
  · intro e h
    cases h

/-- `_fail_op` is the milestone Failed. -/
theorem wp_failOp {svc : WorldsService} {opId code : String} {message : Option String} {x : Session}
    (h : wp E (fun r y => Q (r.map fun _ => ()) y)
      (Operations.transition svc.operations opId .failed { errorCode := some code, message }) x) :
    wp E Q (failOp svc opId code message) x := by
  unfold failOp
  simp only [Program.bind_eq]
  rw [wp_bind]
  refine wp_mono h ?_
  intro r y hr
  cases r with
  | ok op => exact hr
  | error e => exact hr

end Rules

/-- The world has an open session with this id. -/
def HasOpenSession (db : Database) (worldId sessionId : String) : Prop :=
  ∃ s ∈ db.sessions, s.sessionId = sessionId ∧ s.worldId = worldId ∧ s.isOpen = true

theorem not_hasOpenSession_closed (db : Database) (worldId sessionId : String) (now : Int)
    (reason : EndReason) :
    ¬HasOpenSession (withSessionsClosed db worldId now reason) worldId sessionId := by
  rintro ⟨s, hs, -, hworld, hopen⟩
  obtain ⟨old, -, ⟨-, rfl⟩ | ⟨hp, rfl⟩⟩ := mem_updateWhere.mp hs
  · simp [RuntimeSession.isOpen] at hopen
  · simp [hworld, hopen] at hp

end Worlds

theorem Operations.Stage.withState {ids : List String} {opId : String} {status : OperationStatus}
    {db : Database} (h : Stage ids opId status db) (worldId : String) (state : WorldState)
    (pre : Option WorldState) (now : Int) : Stage ids opId status (db.withState worldId state pre now) :=
  h.congr rfl (Database.withState_hasWorld db worldId state pre now)

theorem Database.At.congr {db db' : Database} {worldId : String} {state : WorldState}
    (h : db.At worldId state) (worlds : db'.worlds = db.worlds) : db'.At worldId state := by
  obtain ⟨w, hw, hstate, valid⟩ := h.row
  refine ⟨w, ?_, hstate, valid⟩
  rwa [Database.world?, worlds]

end McManager
