import McManager.Services.Backup
import McManager.Services.WorldFrames
import McManager.Store.LiveWorlds
import McManager.Web.WorldDirectory

namespace McManager.Web

open Framework Operations

/-- What becomes of a world's row: while it lives, services and routes find its directory where
it was. -/
structure Stays (roots : Roots) (v w : World) : Prop where
  worldId : w.worldId = v.worldId
  live : w.live = true → v.live = true
  service : w.live = true → worldDir roots w = worldDir roots v
  routes : w.live = true → worldDirectory roots w = worldDirectory roots v

/-- Every world of `db` stays where it is; worlds are only ever added behind the others. -/
def Kept (roots : Roots) (db db' : Database) : Prop :=
  ∀ (i : Nat) (v : World), db.worlds[i]? = some v → ∃ w, db'.worlds[i]? = some w ∧ Stays roots v w

/-- A new display name that reads like the one it replaces, or that the directory does not
depend on. -/
def HarmlessName (roots : Roots) (w : World) (name : String) : Prop :=
  (absoluteAddress w).isSome = true ∨
    SameName (minecraftRoot roots w.worldId) (PurePath.parse w.displayName) (PurePath.parse name)

/-- The renames of live worlds are harmless, and no other edit sets an address. -/
def NamesHarmless (roots : Roots) (s : Stmt) (db : Database) : Prop :=
  match s with
  | .editWorld worldId fields => ∀ w ∈ db.worlds, w.live = true → w.worldId = worldId →
    HarmlessName roots w (fields.displayName.getD w.displayName)
  | .updateRuntimeConfig _ after _ _ =>
    after.addressingStrategy = none ∧ after.addressingValue = none
  | _ => True

theorem worldDir_renamed {roots : Roots} {w : World} {name : String} :
    worldDir roots (renamed name w) = worldDir roots w ↔ HarmlessName roots w name := by
  have same : absoluteAddress (renamed name w) = absoluteAddress w := rfl
  unfold HarmlessName worldDir
  rw [same]
  cases absoluteAddress w with
  | some candidate => exact iff_of_true rfl (.inl rfl)
  | none =>
    simp only [Option.isSome_none, Bool.false_eq_true, false_or]
    exact join_eq_iff

section Rows

variable {roots : Roots} {u v w : World}

theorem stays_of_dir (worldId : w.worldId = v.worldId) (live : w.live = true → v.live = true)
    (dir : w.live = true → worldDir roots w = worldDir roots v) : Stays roots v w where
  worldId := worldId
  live := live
  service := dir
  routes := fun h => by rw [worldDirectory_eq, worldDirectory_eq, dir h]

theorem stays_refl (w : World) : Stays roots w w :=
  stays_of_dir rfl (fun h => h) fun _ => rfl

theorem stays_trans (first : Stays roots u v) (next : Stays roots v w) : Stays roots u w where
  worldId := next.worldId.trans first.worldId
  live := fun h => first.live (next.live h)
  service := fun h => (next.service h).trans (first.service (next.live h))
  routes := fun h => (next.routes h).trans (first.routes (next.live h))

theorem kept_refl (db : Database) : Kept roots db db := fun _ v hv => ⟨v, hv, stays_refl v⟩

theorem kept_same {db d d' : Database} (same : d'.worlds = d.worlds) (h : Kept roots db d) :
    Kept roots db d' := by
  unfold Kept
  rw [same]
  exact h

theorem kept_append {db d d' : Database} {rows : List World} (added : d'.worlds = d.worlds ++ rows)
    (h : Kept roots db d) : Kept roots db d' := by
  intro i v hv
  obtain ⟨w, hw, stays⟩ := h i v hv
  refine ⟨w, ?_, stays⟩
  rw [added, List.getElem?_append_left (List.getElem?_eq_some_iff.mp hw).1]
  exact hw

theorem kept_update {db d d' : Database} {p : World → Bool} {f : World → World}
    (updated : d'.worlds = updateWhere p f d.worlds)
    (stay : ∀ w ∈ d.worlds, p w = true → Stays roots w (f w)) (h : Kept roots db d) :
    Kept roots db d' := by
  intro i v hv
  obtain ⟨w, hw, stays⟩ := h i v hv
  have mem := List.mem_of_getElem? hw
  refine ⟨if p w then f w else w, ?_, ?_⟩
  · rw [updated, updateWhere, List.getElem?_map, hw]
    rfl
  · split
    · rename_i hp
      exact stays_trans stays (stay w mem hp)
    · exact stays

end Rows

/-- The statements of the routes, the lifecycle calls and the backups. -/
def Used (s : Stmt) : Prop := Routed s ∨ s.runs = true ∨ ∃ row, s = .insertArtifact row

/-- The statements of lifecycle calls and backups leave operations and names alone. -/
theorem used_names {roots : Roots} {s : Stmt} {db d d' : Database} {n : Nat}
    (used : s.runs = true ∨ ∃ row, s = .insertArtifact row) (h : s.apply d = .ok (d', n)) :
    d'.operations = d.operations ∧ (Kept roots db d → Kept roots db d') := by
  cases s with
  | setWorldState worldId state preBackupState now intent =>
    cases h
    refine ⟨rfl, kept_update rfl ?_⟩
    exact fun w _ _ => stays_of_dir rfl (fun h => h) fun _ => rfl
  | insertSession row | insertSecret row | insertArtifact row =>
    obtain ⟨-, rfl, -⟩ := satisfying_ok.mp h
    exact ⟨rfl, kept_same rfl⟩
  | closeSessions worldId now reason =>
    cases h
    exact ⟨rfl, kept_same rfl⟩
  | _ => obtain used | ⟨row, used⟩ := used <;> cases used

/-- A statement of the routes keeps the directories when the names it sets are harmless. -/
theorem kept_routed {roots : Roots} {s : Stmt} {db d d' : Database} {n : Nat} (routed : Routed s)
    (harmless : NamesHarmless roots s d) (kept : Kept roots db d) (h : s.apply d = .ok (d', n)) :
    Kept roots db d' := by
  cases hs : onWorlds s with
  | false => exact kept_same (routed_worlds routed hs h) kept
  | true =>
    cases s with
    | insertWorld row =>
      obtain ⟨-, rfl⟩ := insertWorld_ok h
      exact kept_append rfl kept
    | tombstoneWorld worldId deletedBy now expectedVersion =>
      cases h
      exact kept_update rfl (fun w _ _ => stays_of_dir rfl (fun h => nomatch h) fun h => nomatch h)
        kept
    | editWorld worldId fields =>
      obtain ⟨name, rfl⟩ := routed
      obtain ⟨-, rfl⟩ := editWorld_ok h
      apply kept_update rfl _ kept
      intro w hw hp
      apply stays_of_dir (v := w) (w := renamed name w) rfl (fun h => h)
      intro hlive
      exact worldDir_renamed.mpr (harmless w hw hlive (by simpa using hp))
    | updateRuntimeConfig worldId after now expectedVersion =>
      obtain ⟨-, rfl⟩ := updateRuntimeConfig_ok h
      apply kept_update rfl _ kept
      intro w _ _
      apply stays_of_dir (v := w) (w := configured after now w) rfl (fun h => h)
      intro _
      simp only [worldDir, absoluteAddress, configured, WorldFields.set, routed.1, harmless.1,
        harmless.2, Option.getD_none]
    | _ => cases hs

/-- A rename keeps every directory exactly when its name is harmless. -/
theorem kept_rename {roots : Roots} {d d' : Database} {worldId name : String} {n : Nat}
    (h : (Stmt.editWorld worldId { displayName := some name }).apply d = .ok (d', n)) :
    Kept roots d d' ↔ NamesHarmless roots (.editWorld worldId { displayName := some name }) d := by
  constructor
  · intro kept w hw hlive hid
    obtain ⟨-, rfl⟩ := editWorld_ok h
    obtain ⟨i, hi⟩ := List.mem_iff_getElem?.mp hw
    obtain ⟨w', hw', stays⟩ := kept i w hi
    have hit : (w.worldId == worldId) = true := by simpa using hid
    have row : (updateWhere (·.worldId == worldId) (renamed name) d.worlds)[i]? =
        some (renamed name w) := by
      rw [updateWhere, List.getElem?_map, hi, Option.map_some, if_pos hit]
    obtain rfl : renamed name w = w' := Option.some.inj (row.symm.trans hw')
    exact worldDir_renamed.mp (stays.service hlive)
  · intro harmless
    have routed : Routed (.editWorld worldId { displayName := some name }) := ⟨name, rfl⟩
    exact kept_routed routed harmless (kept_refl d) h

/-- The calls that edit display names, and those that run, back up and edit worlds. -/
inductive UseCall
  | rename (userId worldId : String) (body : Option Body)
  | enqueueStart (worldId : String) (actorType : ActorType) (userId : Option String) (key : String)
  | enqueueStop (worldId : String) (actorType : ActorType) (userId : Option String) (key : String)
  | enqueueKill (worldId : String) (actorType : ActorType) (userId : Option String) (key : String)
  | start (worldId : String) (actorType : ActorType) (userId : Option String)
  | stop (worldId : String) (actorType : ActorType) (userId : Option String)
  | kill (worldId : String) (actorType : ActorType) (userId : Option String)
  | acceptEula (worldId userId : String) (accepted : Bool)
  | backup (worldId worldDir backupDir operationId category : String) (running : Bool)
  | editFile (userId worldId key source : String)
  | dispatch

def UseCall.program (c : Container) : UseCall → Prog Unit
  | rename userId worldId body => (updateWorld c userId worldId body).bind fun _ => .ret ()
  | enqueueStart worldId actorType userId key =>
    (Worlds.enqueueStart c.worlds worldId actorType userId key).bind fun _ => .ret ()
  | enqueueStop worldId actorType userId key =>
    (Worlds.enqueueStop c.worlds worldId actorType userId key).bind fun _ => .ret ()
  | enqueueKill worldId actorType userId key =>
    (Worlds.enqueueKill c.worlds worldId actorType userId key).bind fun _ => .ret ()
  | start worldId actorType userId =>
    (Worlds.start c.worlds worldId actorType userId).bind fun _ => .ret ()
  | stop worldId actorType userId =>
    (Worlds.stop c.worlds worldId actorType userId).bind fun _ => .ret ()
  | kill worldId actorType userId =>
    (Worlds.kill c.worlds worldId actorType userId).bind fun _ => .ret ()
  | acceptEula worldId userId accepted =>
    (Worlds.acceptEula c.worlds worldId userId accepted).bind fun _ => .ret ()
  | backup worldId worldDir backupDir operationId category running =>
    (Backup.createWorldBackup worldId worldDir backupDir operationId category running).bind
      fun _ => .ret ()
  | editFile userId worldId key source =>
    (Worlds.enqueueWorldMutation c.worlds .configEdit (some worldId) userId key {
      entity := some "files", rowId := some source, queuedFileEdit := true }).bind fun _ => .ret ()
  | dispatch => (Worlds.dispatchQueuedOperations c.worlds).bind fun _ => .ret ()

section Calls

variable {I : Database → Prop}

theorem issues_createWorldBackup (worldId worldDir backupDir operationId category : String)
    (running : Bool) :
    Issues I Used (Backup.createWorldBackup worldId worldDir backupDir operationId category running) := by
  have registered : Issues I Used
      (Backup.writeAndRegister worldId backupDir operationId category) := by
    apply Issues.bind Issues.draw
    intro artifactId
    apply Issues.bind Issues.ask
    intro checksum
    apply Issues.bind Issues.draw
    intro now
    apply Issues.bind
    · exact Issues.autocommitGuarded ⟨.inr (.inr ⟨_, rfl⟩), fun _ => trivial⟩
    · exact fun _ => trivial
  unfold Backup.createWorldBackup
  apply Issues.bind Issues.ask
  intro room
  have written : Issues I Used (do
      if running then do
        let artifactId ← (do
          let _ ← ask (.archive "suspend_autosave" worldId)
          let flushed ← ask (.archive "flush" worldId)
          if flushed then pure () else throw (Exn.backupIntegrity "LEVEL_DAT_FLUSH_UNVERIFIED")
          Backup.writeAndRegister worldId backupDir operationId category).handle fun e => do
            let _ ← ask (.archive "resume_autosave" worldId)
            throw e
        let _ ← ask (.archive "resume_autosave" worldId)
        pure artifactId
      else Backup.writeAndRegister worldId backupDir operationId category) := by
    dsimp only
    split
    · apply Issues.bind
      · apply Issues.handle
        · apply Issues.bind Issues.ask
          intro _
          apply Issues.bind Issues.ask
          intro flushed
          split
          · exact registered
          · exact trivial
        · intro e
          exact Worlds.issues_asked (p := .raise e) trivial
      · exact fun artifactId => Worlds.issues_asked (p := .ret artifactId) trivial
    · exact registered
  dsimp only
  split
  · exact written
  · exact trivial

variable (queued : ∀ db, I db → Queued db)
include queued

theorem lives_used : Lives I Used Asked where
  known := fun db h => queued db h
  notes := fun s h => .inl (records_routed.notes s h)
  insert := fun _ h => .inl h
  update := fun _ _ _ _ _ _ _ _ _ h => .inl h
  runs := fun _ h => .inr (.inl h)
  unasked := asked_none
  session := fun _ => asked_result rfl rfl rfl
  eula := fun _ => asked_result rfl rfl rfl

theorem UseCall.issues (c : Container) (call : UseCall) : Issues I Used (call.program c) := by
  have lives := lives_used queued
  have ended : ∀ {α : Type} {p : Prog α}, Issues I Used p → Issues I Used (p.bind fun _ => .ret ()) :=
    fun h => Issues.bind h fun _ => trivial
  have looked : ∀ worldId, Issues I Used (do
      let _ ← Worlds.world worldId
      pure ()) := fun worldId => ended (Worlds.issues_world worldId)
  cases call with
  | rename userId worldId body =>
    exact ended (Issues.mono (issues_updateWorld queued c userId worldId body) fun _ h => .inl h)
  | enqueueStart worldId actorType userId key =>
    exact ended (Worlds.issues_enqueue lives (Worlds.issues_preflight lives worldId))
  | enqueueStop worldId actorType userId key =>
    exact ended (Worlds.issues_enqueue lives (looked worldId))
  | enqueueKill worldId actorType userId key =>
    exact ended (Worlds.issues_enqueue lives (looked worldId))
  | start worldId actorType userId => exact ended (Worlds.issues_start lives ..)
  | stop worldId actorType userId => exact ended (Worlds.issues_stop lives ..)
  | kill worldId actorType userId => exact ended (Worlds.issues_kill lives ..)
  | acceptEula worldId userId accepted => exact ended (Worlds.issues_acceptEula lives ..)
  | backup worldId worldDir backupDir operationId category running =>
    exact ended (issues_createWorldBackup ..)
  | editFile userId worldId key source =>
    have asked : Asked (some { entity := some "files", rowId := some source
                               queuedFileEdit := true }) := asked_result rfl rfl rfl
    exact ended (issues_createWithReplay lives.toRecords asked)
  | dispatch =>
    apply ended
    apply Issues.bind Issues.readCommitted
    intro waiting
    apply Issues.bind (Worlds.issues_dispatchLifecycle lives c.worlds [] waiting)
    intro dispatched
    apply Issues.bind
    · exact Issues.mono (issues_dispatchQueuedWorldMutations queued c.worlds) fun _ h => .inl h
    · exact fun _ => trivial

end Calls

/-- The calls of a run use the worlds there are. -/
def InUse (c : Container) (m : ServerMove) : Prop :=
  ∀ p, m = .invoke p → ∃ call : UseCall, p = call.program c

/-- A body `update_world` accepts for a world whose metadata has the version 1. -/
def nameBody (name : String) : Body := [("display_name", .str name), ("version", .int 1)]

end McManager.Web
